/-! Sets of characters given as rows of code points, the shape in which Unicode publishes its
properties. Membership is a search through the rows, so a set is exactly the union of its rows. -/

namespace Tablewright.Text

/-- Every `step`-th code point from `first` to `last`. -/
structure CodeRun where
  first : Nat
  last : Nat
  step : Nat
deriving Repr, DecidableEq

def CodeRun.contains (run : CodeRun) (code : Nat) : Bool :=
  run.first ≤ code && code ≤ run.last && (code - run.first) % run.step == 0

structure CharSet where
  runs : List CodeRun

namespace CharSet

def ofRuns (rows : List (Nat × Nat × Nat)) : CharSet :=
  ⟨rows.map fun (first, last, step) => ⟨first, last, step⟩⟩

def ofRanges (rows : List (Nat × Nat)) : CharSet :=
  ⟨rows.map fun (first, last) => ⟨first, last, 1⟩⟩

def contains (set : CharSet) (c : Char) : Bool :=
  set.runs.any (·.contains c.toNat)

end CharSet

/-- Whether a character lies in ASCII, where no table is needed. -/
def isAscii (c : Char) : Bool := c.toNat < 0x80

end Tablewright.Text
