/-! Paths as text, with slashes between their segments. -/

namespace Tablewright.Files

/-- The path of a name in a directory. An absolute name stands for itself. -/
def join (dir name : String) : String :=
  if dir = "" || name.toList.head? = some '/' then name
  else if dir.toList.getLast? = some '/' then dir ++ name
  else dir ++ "/" ++ name

/-- Whether a file name has the given extension: something, a dot, and the extension. -/
def hasExtension (extension name : String) : Bool :=
  let dotted := '.' :: extension.toList
  dotted.isSuffixOf name.toList && name.toList != dotted

end Tablewright.Files
