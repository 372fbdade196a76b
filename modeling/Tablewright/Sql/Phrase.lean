import Tablewright.Sql.Token
import Tablewright.Sql.Identifier
import Tablewright.Text.Decimal

/-! Phrases of the grammar. A phrase reads the front of a list of tokens, and gives what it read
with the tokens left over, or fails. A choice tries its second phrase where the first began. -/

namespace Tablewright.Sql

abbrev Phrase := StateT (List Token) Option

namespace Phrase

def next : Phrase Token
  | [] => none
  | t :: ts => some (t, ts)

/-- One token that satisfies the test. -/
def token (accepts : Token → Bool) : Phrase Token
  | [] => none
  | t :: ts => if accepts t then some (t, ts) else none

/-- Succeeds, reading nothing, if the next token satisfies the test. -/
def ahead (accepts : Token → Bool) : Phrase Unit
  | [] => none
  | t :: ts => if accepts t then some ((), t :: ts) else none

/-- Whether the phrase could be read here. -/
def sees (p : Phrase α) : Phrase Bool := fun ts => some ((p ts).isSome, ts)

def keyword (word : String) : Phrase Unit := (fun _ => ()) <$> token (Token.isKeyword word)

def keywords : List String → Phrase Unit
  | [] => pure ()
  | word :: rest => do keyword word; keywords rest

/-- One of the keywords, and which. -/
def oneOf : List String → Phrase String
  | [] => failure
  | word :: rest => (do keyword word; pure word) <|> oneOf rest

def mark (text : String) : Phrase Unit := (fun _ => ()) <$> token (Token.isMark text)

/-- The phrase if it is there. -/
def maybe (p : Phrase α) : Phrase (Option α) := (some <$> p) <|> pure none

/-- Whether the phrase is there. -/
def present (p : Phrase α) : Phrase Bool := Option.isSome <$> maybe p

/-- Reads a phrase for its form alone. -/
def formOf (p : Phrase α) : Phrase Unit := (fun _ => ()) <$> p

/-- The phrase as often as it is there, at most `limit` times. -/
def upTo (p : Phrase α) : Nat → Phrase (List α)
  | 0 => pure []
  | limit + 1 => do
    match ← maybe p with
    | none => pure []
    | some a => do
      let rest ← upTo p limit
      pure (a :: rest)

/-- The phrase as often as it is there. Each time takes a token, so the tokens bound the count. -/
def many (p : Phrase α) : Phrase (List α) := fun ts => upTo p ts.length ts

/-- The phrase once or more with commas between. -/
def commaList (p : Phrase α) : Phrase (List α) := do
  let first ← p
  let rest ← many (do mark ","; p)
  pure (first :: rest)

def parens (p : Phrase α) : Phrase α := do
  mark "("
  let a ← p
  mark ")"
  pure a

/-- A word or a string, read as a name. -/
def identifier : Phrase Identifier := do
  match ← next with
  | .word text quote => pure ⟨text, quote⟩
  | .single text => pure ⟨text, some '\x27'⟩
  | .double text => pure ⟨text, some '"'⟩
  | _ => failure

def objectName : Phrase ObjectName := do
  let first ← identifier
  let rest ← many (do mark "."; identifier)
  pure (first :: rest)

/-- A list of names in parentheses, at least one. -/
def nameList : Phrase (List Identifier) := parens (commaList identifier)

/-- A whole number below the limit. -/
def natural (limit : Nat) : Phrase Nat := do
  match ← next with
  | .number text _ =>
    match Text.numeral? text.toList with
    | some n => if n < limit then pure n else failure
    | none => failure
  | _ => failure

end Phrase

end Tablewright.Sql
