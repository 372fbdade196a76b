/-! The tokens of SQL text. Comments and blanks leave no token. -/

namespace Tablewright.Sql

inductive Token
  /-- A bare word, or a name in backticks with its quote. -/
  | word (text : String) (quote : Option Char)
  /-- A numeral as written, and whether the letter `L` marks it as long. -/
  | number (text : String) (long : Bool)
  /-- Text in single quotes, its escapes resolved. -/
  | single (text : String)
  /-- Text in double quotes, its escapes resolved. -/
  | double (text : String)
  /-- Text in the national character set, `N'…'`. -/
  | national (text : String)
  /-- Text with escape sequences, `E'…'`, which no phrase admits. -/
  | escaped (text : String)
  /-- Hexadecimal digits, `X'…'` or `0x…`. -/
  | hex (text : String)
  /-- A question mark with the digits after it. -/
  | placeholder (text : String)
  /-- An operator or a mark of punctuation. -/
  | mark (text : String)
deriving Repr, DecidableEq

namespace Token

/-- Whether the token is the bare keyword, written in lower case, in any case. -/
def isKeyword (keyword : String) : Token → Bool
  | .word text none => text.toList.map Char.toLower == keyword.toList
  | _ => false

def isMark (text : String) : Token → Bool
  | .mark m => m == text
  | _ => false

end Token

end Tablewright.Sql
