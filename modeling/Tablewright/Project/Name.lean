import Tablewright.Error
import Tablewright.Text.Blank
import Tablewright.Text.Split

/-! The names that output files may have: one segment that stays in its directory. -/

namespace Tablewright

/-- What is wrong with the name of an output file, if anything is. -/
def nameFault? (name : String) : Option NameFault :=
  let cs := name.toList
  if (Text.trim cs).isEmpty then some .blank
  else if cs.head? = some '/' then some .absolute
  else if (Text.splitAt (· == '/') cs).contains ['.', '.'] then some .traversal
  else if cs.contains '/' || cs.contains '\\' then some .separator
  else none

/-- Refuses a name that is not fit for an output file. -/
def checkName (name : String) : Except Error Unit :=
  match nameFault? name with
  | none => .ok ()
  | some fault => .error (.outputName name fault)

end Tablewright
