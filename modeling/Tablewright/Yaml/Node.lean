import Tablewright.Yaml.Written

/-! The tree that a YAML text stands for. Scalars keep their text and their style, since a quoted
word is not the word for nothing. Aliases are replaced by what they refer to. -/

namespace Tablewright.Yaml

inductive Node
  | scalar (style : Style) (text : String)
  | sequence (items : List Node)
  /-- The entries in order, whether keys repeat or not. -/
  | mapping (entries : List (Node × Node))
deriving Repr

/-- The node of a place where nothing is written. -/
def Node.empty : Node := .scalar .plain ""

end Tablewright.Yaml
