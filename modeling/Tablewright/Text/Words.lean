import Tablewright.Text.Case
import Tablewright.Text.Cluster

/-! The words inside an identifier, and the two ways of writing them as one name.
`pascal` capitalises every word, `camel` every word but the first. -/

namespace Tablewright.Text

/-- What a cluster is for the splitting into words. -/
inductive ClusterKind
  | separator
  | upper
  | lower
  | digit
  | other
deriving Repr, DecidableEq

def ClusterKind.of (cluster : List Char) : ClusterKind :=
  if cluster = ['_'] || cluster = ['-'] || cluster = [' '] then .separator
  else if cluster.all Char.isDigit then .digit
  else
    let up := Text.upper cluster
    let low := Text.lower cluster
    if up = low then .other
    else if cluster = up then .upper
    else if cluster = low then .lower
    else .other

/-- Whether a word ends between the first two of the given kinds. Two capitals part only when a
lower-case letter follows them, as in `XMLFile`. -/
def ClusterKind.parts : ClusterKind → ClusterKind → Option ClusterKind → Bool
  | .lower, .upper, _ => true
  | .lower, .digit, _ => true
  | .upper, .digit, _ => true
  | .digit, .lower, _ => true
  | .digit, .upper, _ => true
  | .upper, .upper, some .lower => true
  | _, _, _ => false

/-- Splits the rest of a text whose current word has begun with `word`. -/
def splitWords (word : List Char) : List (List Char) → List (List Char)
  | [] => [word]
  | cluster :: rest =>
    if ClusterKind.of cluster = .separator then word :: splitWords [] rest
    else
      let ends := match rest with
        | [] => false
        | next :: after =>
          (ClusterKind.of cluster).parts (ClusterKind.of next) (after.head?.map ClusterKind.of)
      if ends then (word ++ cluster) :: splitWords [] rest else splitWords (word ++ cluster) rest

/-- The words of an identifier. Neighbouring separators leave empty words between them. -/
def words (cs : List Char) : List (List Char) :=
  if cs.isEmpty then [] else splitWords [] (clusters cs)

/-- First character in upper case, the rest in lower case. -/
def capitalize : List Char → List Char
  | [] => []
  | c :: rest => upperChar c ++ lower rest

def pascal (cs : List Char) : List Char := (words cs).flatMap capitalize

def camel (cs : List Char) : List Char :=
  match words cs with
  | [] => []
  | first :: rest => lower first ++ rest.flatMap capitalize

end Tablewright.Text
