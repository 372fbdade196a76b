import Tablewright.Sql.Expr
import Tablewright.Sql.Grammar.DataType
import Tablewright.Sql.Grammar.Rank

/-! What stands between operators: literals, names, calls, and the phrases that a word introduces.
-/

namespace Tablewright.Sql.Grammar

open Phrase

/-- The units of an interval. -/
def intervalUnits : List String := [
  "year", "years", "month", "months", "week", "weeks", "day", "days", "hour", "hours", "minute",
  "minutes", "second", "seconds", "millisecond", "milliseconds", "microsecond", "microseconds",
  "quarter", "century", "decade", "millenium", "millennium", "nanosecond", "nanoseconds"]

/-- Functions of the current time, which may stand without parentheses. -/
def timeFunctions : List String := [
  "current_timestamp", "current_time", "current_date", "localtime", "localtimestamp"]

def literalToken : Phrase Literal := do
  match ← next with
  | .number text long => pure (.number text long)
  | .single text => pure (.single text)
  | .double text => pure (.double text)
  | .national text => pure (.national text)
  | .hex text => pure (.hex text)
  | .placeholder text => pure (.placeholder text)
  | _ => failure

/-- A colon or an at sign, and a name or number after it. -/
def markPlaceholder : Phrase Literal := do
  let sign ← (do mark ":"; pure ":") <|> (do mark "@"; pure "@")
  match ← next with
  | .word text _ => pure (.placeholder (sign ++ text))
  | .number text false => pure (.placeholder (sign ++ text))
  | _ => failure

def literal : Phrase Literal :=
  literalToken <|> markPlaceholder <|>
  (do keyword "true"; pure (.boolean true)) <|>
  (do keyword "false"; pure (.boolean false)) <|>
  (do keyword "null"; pure .null)

def stringText : Phrase String := do
  match ← next with
  | .single text => pure text
  | .double text => pure text
  | _ => failure

/-- A string after the name of its type. Only the types of the language itself may stand there. -/
def typedString : Phrase Expr := do
  match ← dataType with
  | .custom _ _ => failure
  | .plain "INTERVAL" => failure
  | type => do
    let text ← stringText
    pure (.typed type.render text)

/-- A string after the name of its character set. -/
def introducedString : Phrase Expr := do
  match ← next with
  | .word text none =>
    if text.toList.head? = some '_' then
      match ← next with
      | .single s => pure (.typed text s)
      | .double s => pure (.typed text s)
      | .hex s => pure (.verbatim (text ++ " " ++ Literal.render (.hex s)))
      | _ => failure
    else failure
  | _ => failure

/-- The tokens that a phrase takes, with blanks between them. -/
def spelled (p : Phrase Unit) : Phrase String := fun ts => do
  let ((), rest) ← p ts
  let taken := ts.take (ts.length - rest.length)
  let spell : Token → String := fun
    | .word text quote => Identifier.render ⟨text, quote⟩
    | .number text _ => text
    | .single text => quoted '\x27' text
    | .double text => quoted '"' text
    | .national text => "N'" ++ text ++ "'"
    | .escaped text => "E'" ++ text ++ "'"
    | .hex text => "X'" ++ text ++ "'"
    | .placeholder text => text
    | .mark text => text
  pure (Text.join " " (taken.map spell), rest)

section

-- Expressions and queries one level further in.
variable (expr : Nat → Phrase Expr) (query : Phrase Unit)

def subquery : Phrase Expr := parens do
  let text ← spelled query
  pure (.verbatim ("(" ++ text ++ ")"))

/-- One argument of a function. -/
def argument : Phrase Expr := (do mark "*"; pure (.verbatim "*")) <|> expr 0

/-- The arguments of a function. A word before them says what becomes of duplicates. -/
def arguments : Phrase (List Expr) :=
  let given : Phrase (List Expr) := do
    let lead ← maybe (oneOf ["distinct", "all"])
    match lead, ← commaList (argument expr) with
    | some word, first :: rest => pure (.verbatim (upperCase word ++ " " ++ first.render) :: rest)
    | _, items => pure items
  parens (given <|> pure [])

def timeFunction : Phrase Expr := do
  let name ← fun ts => do
    let (_, rest) ← oneOf timeFunctions ts
    match ts with
    | .word text quote :: _ => some ([⟨text, quote⟩], rest)
    | _ => none
  .call name <$> maybe (arguments expr)

def castExpr : Phrase Expr := do
  let _ ← oneOf ["cast", "try_cast", "safe_cast"]
  parens do
    let e ← expr 0
    keyword "as"
    .cast e <$> dataType

def convertExpr : Phrase Expr := do
  keyword "convert"
  parens do
    let e ← expr 0
    (do
      keyword "using"
      let charset ← objectName
      pure (.verbatim ("CONVERT(" ++ e.render ++ " USING " ++ charset.render ++ ")"))) <|> do
      mark ","
      let type ← dataType
      pure (.verbatim ("CONVERT(" ++ e.render ++ ", " ++ type.render ++ ")"))

def extractExpr : Phrase Expr := do
  keyword "extract"
  parens do
    let field ← oneOf intervalUnits
    keyword "from"
    let e ← expr 0
    pure (.verbatim ("EXTRACT(" ++ upperCase field ++ " FROM " ++ e.render ++ ")"))

def choiceExpr : Phrase Expr := do
  keyword "case"
  let operand ← if ← sees (keyword "when") then pure none else some <$> expr 0
  let branch : Phrase (Expr × Expr) := do
    keyword "when"
    let condition ← expr 0
    keyword "then"
    let result ← expr 0
    pure (condition, result)
  let first ← branch
  let rest ← many branch
  let otherwise ← maybe (do keyword "else"; expr 0)
  keyword "end"
  pure (.choice operand (first :: rest) otherwise)

def intervalExpr : Phrase Expr := do
  keyword "interval"
  let amount ← expr 0
  let unit ← oneOf intervalUnits
  pure (.interval amount (upperCase unit))

def existsExpr : Phrase Expr := do
  keyword "exists"
  let inner ← subquery query
  pure (.verbatim ("EXISTS " ++ inner.render))

/-- A number to a whole value or to the given unit or places. -/
def roundedExpr : Phrase Expr := do
  let word ← oneOf ["ceil", "floor"]
  let inner ← parens do
    let e ← expr 0
    (do
      keyword "to"
      let unit ← oneOf intervalUnits
      pure (e.render ++ " TO " ++ upperCase unit)) <|> (do
      mark ","
      match ← next with
      | .number text _ => pure (e.render ++ ", " ++ text)
      | _ => failure) <|> pure e.render
  pure (.verbatim (upperCase word ++ "(" ++ inner ++ ")"))

/-- A part of a text, from a place and of a length. -/
def substringExpr : Phrase Expr := do
  keyword "substring"
  parens do
    let e ← expr 0
    let isListed ← present (mark ",")
    let place ← if isListed then some <$> expr 0 else maybe (do keyword "from"; expr 0)
    let length ← maybe (do keyword "for" <|> mark ","; expr 0)
    let (before, between) := if isListed then (", ", ", ") else (" FROM ", " FOR ")
    pure (.verbatim ("SUBSTRING(" ++ e.render ++ Expr.renderAfter before place ++
      Expr.renderAfter between length ++ ")"))

/-- A text with a part of it replaced. -/
def overlayExpr : Phrase Expr := do
  keyword "overlay"
  parens do
    let e ← expr 0
    keyword "placing"
    let part ← expr 0
    keyword "from"
    let place ← expr 0
    let length ← maybe (do keyword "for"; expr 0)
    pure (.verbatim ("OVERLAY(" ++ e.render ++ " PLACING " ++ part.render ++ " FROM " ++
      place.render ++ Expr.renderAfter " FOR " length ++ ")"))

/-- A text without what stands at its ends. -/
def trimExpr : Phrase Expr := do
  keyword "trim"
  parens do
    let ends ← maybe (oneOf ["both", "leading", "trailing"])
    let e ← expr 0
    let source ← maybe (do keyword "from"; expr 0)
    let lead := (ends.map fun word => upperCase word ++ " ").getD ""
    pure (.verbatim ("TRIM(" ++ lead ++ e.render ++ Expr.renderAfter " FROM " source ++ ")"))

/-- The place of a text in another. -/
def positionExpr : Phrase Expr := do
  keyword "position"
  parens do
    let part ← expr Rank.comparison
    keyword "in"
    let e ← expr 0
    pure (.verbatim ("POSITION(" ++ part.render ++ " IN " ++ e.render ++ ")"))

/-- Words that begin a phrase of their own and are never names. -/
def phraseWords : List String := [
  "case", "cast", "try_cast", "safe_cast", "convert", "extract", "exists", "interval", "not",
  "match", "ceil", "floor", "substring", "overlay", "trim"]

/-- The parts of a name. Words and text in single quotes may follow the first. -/
def nameParts : Phrase ObjectName := do
  let first ← identifier
  let rest ← many do
    mark "."
    match ← next with
    | .word text quote => pure (Identifier.mk text quote)
    | .single text => pure ⟨text, some '\x27'⟩
    | _ => failure
  pure (first :: rest)

/-- A name, or a call of the function it names. -/
def nameOrCall : Phrase Expr := do
  ahead fun t => match t with
    | .word _ _ => !phraseWords.any t.isKeyword
    | _ => false
  let name ← nameParts
  match ← maybe (arguments expr) with
  | some args => pure (.call name (some args))
  | none => pure (.name name)

/-- A query in parentheses, if it begins like one, or else expressions. -/
def parenthesised : Phrase Expr := do
  if ← sees (do mark "("; oneOf ["select", "with"]) then subquery query
  else parens do
    match ← commaList (expr 0) with
    | [e] => pure (.nested e)
    | es => pure (.tuple es)

/-- A sign or a negation with its operand. -/
def unaryExpr : Phrase Expr :=
  (do mark "-"; .unary .minus <$> expr Rank.product) <|>
  (do mark "+"; .unary .plus <$> expr Rank.product) <|>
  (do
    keyword "not"
    if ← sees (keyword "exists") then
      let inner ← existsExpr query
      pure (.verbatim ("NOT " ++ inner.render))
    else .unary .not <$> expr Rank.not)

/-- Phrases whose first word decides how they go on. -/
def reservedExpr : Phrase Expr :=
  choiceExpr expr <|> castExpr expr <|> convertExpr expr <|> extractExpr expr <|>
  roundedExpr expr <|> substringExpr expr <|> overlayExpr expr <|> trimExpr expr <|>
  positionExpr expr <|> existsExpr query <|> unaryExpr expr query

/-- An operand with a collation after it, if there is one. -/
def operand : Phrase Expr := do
  let e ← intervalExpr expr <|> typedString <|> (.literal <$> literal) <|> timeFunction expr <|>
    reservedExpr expr query <|> introducedString <|> nameOrCall expr <|>
    parenthesised expr query
  match ← maybe (do keyword "collate"; objectName) with
  | some collation => pure (.collate e collation)
  | none => pure e

end

end Tablewright.Sql.Grammar
