import Tablewright.Noun.Rules

/-! Plural and singular of a noun. Of a name made of segments, `user_item`, only the last is a noun
and is inflected. A word of the irregular table is answered from the table; any other goes through
the rules, the last first, and the first that matches replaces its ending. -/

namespace Tablewright.Noun

open Tablewright.Text

inductive GrammaticalNumber
  | singular
  | plural
deriving Repr, DecidableEq

/-- The form that an irregular word takes: itself if it has that number already, else its partner.
Of partners listed twice, the last counts. -/
def irregularForm? (number : GrammaticalNumber) (token : List Char) : Option (List Char) :=
  let rows := Rules.irregular.reverse.map fun (one, many) => (one.toList, many.toList)
  let (here, there) := match number with
    | .plural => (rows.map Prod.swap, rows)
    | .singular => (rows, rows.map Prod.swap)
  if (here.lookup token).isSome then some token else there.lookup token

def rules : GrammaticalNumber → List Rule
  | .plural => Rules.plural
  | .singular => Rules.singular

/-- Gives `token` the case of `word`: lower, upper, or as written if `word` is capitalised. -/
def restoreCase (word token : List Char) : List Char :=
  if word = token then token
  else if word = lower word then lower token
  else if word = upper word then upper token
  else if word.head?.any isUppercase then token
  else lower token

/-- Puts `text` for every `$` that is followed by the digit. -/
def fillPlace (digit : Char) (text : List Char) : List Char → List Char
  | '$' :: c :: rest =>
    if c = digit then text ++ fillPlace digit text rest else '$' :: fillPlace digit text (c :: rest)
  | c :: rest => c :: fillPlace digit text rest
  | [] => []

/-- The places `$0`, `$1`, … filled with the texts in order. -/
def fillPlaces (placement : List Char) (texts : List (List Char)) : List Char :=
  (texts.zip ['0', '1', '2']).foldl (fun acc (text, digit) => fillPlace digit text acc) placement

/-- Drops every `$` together with the character after it. -/
def dropPlaces : List Char → List Char
  | '$' :: _ :: rest => dropPlaces rest
  | ['$'] => []
  | c :: rest => c :: dropPlaces rest
  | [] => []

/-- The word with its ending replaced, if the rule applies. -/
def Rule.replace? (rule : Rule) (word : List Char) : Option (List Char) :=
  (rule.ending.searchEnd? [] word).map fun (stem, ending, groups) =>
    dropPlaces (stem ++ fillPlaces (restoreCase word rule.placement.toList)
      ((ending :: groups).map (restoreCase word)))

/-- One word in the given number. -/
def inflectWord (number : GrammaticalNumber) (word : List Char) : List Char :=
  let token := lower word
  match irregularForm? number token with
  | some form => restoreCase word form
  | none =>
    if token.isEmpty || Rules.uncountable.any (·.toList = token) then word
    else ((rules number ++ Rules.uncountableEndings).reverse.findSome? (·.replace? word)).getD word

/-- A name as what stands up to its last underscore, that included, and the segment after it. -/
def lastSegment (name : List Char) : List Char × List Char :=
  let segment := (name.reverse.takeWhile (· ≠ '_')).reverse
  (name.take (name.length - segment.length), segment)

/-- A name in the given number. A name that ends in an underscore is one word. -/
def inflect (number : GrammaticalNumber) (name : List Char) : List Char :=
  let (before, segment) := lastSegment name
  if segment.isEmpty then inflectWord number name else before ++ inflectWord number segment

end Tablewright.Noun

namespace Tablewright

open Noun in
def pluralOf (name : String) : String := .ofList (inflect .plural name.toList)

open Noun in
def singularOf (name : String) : String := .ofList (inflect .singular name.toList)

def asciiLower (s : String) : String := .ofList (s.toList.map Char.toLower)

/-- Whether a name, in lower case, is its own plural. -/
def isPlural (name : String) : Bool := pluralOf (asciiLower name) == asciiLower name

/-- Whether a name, in lower case, is its own singular. -/
def isSingular (name : String) : Bool := singularOf (asciiLower name) == asciiLower name

end Tablewright
