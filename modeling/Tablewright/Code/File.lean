import Tablewright.Code.Import

/-! The written form of declarations and files. -/

namespace Tablewright.Code

open Tablewright.Text

namespace Item

def render : Item → String
  | .struct name [] => "type " ++ name ++ " struct" ++ openBrace ++ closeBrace ++ "\n"
  | .struct name fields =>
    "type " ++ name ++ " struct " ++ openBrace ++ "\n" ++
      unlines ((fieldLines (fields.map fun f => (f, f.type.render))).map ("\t" ++ ·)) ++
      closeBrace ++ "\n"
  | .typeName name type => "type " ++ name ++ " " ++ type.render ++ "\n"
  | .interface name methods =>
    "type " ++ name ++ " interface " ++ openBrace ++ "\n" ++
      unlines (methods.map fun m => "\t" ++ m.render) ++ closeBrace ++ "\n"
  | .func f =>
    let receiver := match f.receiver with
      | none => ""
      | some r => "(" ++ r.render ++ ") "
    "func " ++ receiver ++ f.signature.render ++ " " ++ openBrace ++ "\n" ++ renderBlock 1 f.body ++
      closeBrace ++ "\n"

end Item

/-- The text of a file: its package, its imports, and its items with an empty line before each. -/
def SourceFile.render (file : SourceFile) : String :=
  "package " ++ file.package ++ "\n" ++ unlines (importLines file.imports) ++
    String.join (file.items.map fun item => "\n" ++ item.render)

end Tablewright.Code
