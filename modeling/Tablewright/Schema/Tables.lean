import Tablewright.Schema.Error
import Tablewright.Schema.Table

/-! An ordered collection of tables. `push` keeps the names apart. -/

namespace Tablewright

structure Tables where
  toList : List Table
deriving Repr, DecidableEq

namespace Tables

def empty : Tables := ⟨[]⟩

def get? (ts : Tables) (name : String) : Option Table := ts.toList.find? (·.name = name)

/-- Adds a table at the end, unless there is one of its name. -/
def push (ts : Tables) (t : Table) : Except SchemaError Tables :=
  if (ts.get? t.name).isSome then .error (.duplicateTable t.name) else .ok ⟨ts.toList ++ [t]⟩

def size (ts : Tables) : Nat := ts.toList.length

def isEmpty (ts : Tables) : Bool := ts.toList.isEmpty

/-- The first table whose stored flag contradicts its name. -/
def checkFlags (ts : Tables) : Except SchemaError Unit :=
  ts.toList.forM fun t =>
    let expected := t.convention.isReadOnly
    if t.isReadOnly = expected then .ok ()
    else .error (.staleReadOnlyFlag t.name t.isReadOnly expected)

end Tables

end Tablewright
