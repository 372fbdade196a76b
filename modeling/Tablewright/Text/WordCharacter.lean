import Tablewright.Text.WordTable

/-! Word characters: what may stand on the inner side of a word's edge. -/

namespace Tablewright.Text

def isWordCharacter (c : Char) : Bool :=
  if isAscii c then c.isAlphanum || c == '_' else WordTable.wordCharacters.contains c

end Tablewright.Text
