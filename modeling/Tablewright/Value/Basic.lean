/-! Structured values, free of any spelling. Descriptions and stored schemas are values before they
are text. -/

namespace Tablewright

inductive Value
  | null
  | flag (b : Bool)
  | number (n : Nat)
  | text (s : String)
  | list (items : List Value)
  /-- Named values in a fixed order. -/
  | record (fields : List (String × Value))
deriving Repr

namespace Value

def texts (xs : List String) : Value := .list (xs.map .text)

def optionalText : Option String → Value
  | none => .null
  | some s => .text s

end Value

end Tablewright
