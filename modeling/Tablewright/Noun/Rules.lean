import Tablewright.Noun.Pattern

/-! The tables of English inflection. A rule replaces the ending that its pattern matches by its
placement, in which `$0` stands for the ending and `$1`, `$2` for the groups that took part in the
match. Later rules come before earlier ones. -/

namespace Tablewright.Noun

/-- How one kind of ending is replaced. -/
structure Rule where
  ending : Pattern
  placement : String
deriving Repr

namespace Rules

open Pattern

/-- Nouns and pronouns that follow no rule, singular first. -/
def irregular : List (String × String) := [
  ("I", "we"), ("me", "us"), ("he", "they"), ("she", "they"), ("them", "them"),
  ("myself", "ourselves"), ("yourself", "yourselves"), ("itself", "themselves"),
  ("herself", "themselves"), ("himself", "themselves"), ("themself", "themselves"),
  ("is", "are"), ("was", "were"), ("has", "have"), ("this", "these"), ("that", "those"),
  ("my", "our"), ("its", "their"), ("his", "their"), ("her", "their"), ("echo", "echoes"),
  ("dingo", "dingoes"), ("volcano", "volcanoes"), ("tornado", "tornadoes"),
  ("torpedo", "torpedoes"), ("genus", "genera"), ("viscus", "viscera"), ("stigma", "stigmata"),
  ("stoma", "stomata"), ("dogma", "dogmata"), ("lemma", "lemmata"), ("schema", "schemata"),
  ("anathema", "anathemata"), ("ox", "oxen"), ("axe", "axes"), ("die", "dice"),
  ("yes", "yeses"), ("foot", "feet"), ("eave", "eaves"), ("goose", "geese"),
  ("tooth", "teeth"), ("quiz", "quizzes"), ("human", "humans"), ("proof", "proofs"),
  ("carve", "carves"), ("valve", "valves"), ("looey", "looies"), ("thief", "thieves"),
  ("groove", "grooves"), ("pickaxe", "pickaxes"), ("passerby", "passersby"),
  ("canvas", "canvases")]

/-- Stems of Latin masculines in `-us`. -/
def masculineStems : Pattern := anyOf [
  "alumn", "syllab", "vir", "radi", "nucle", "fung", "cact", "stimul", "termin", "bacill", "foc",
  "uter", "loc", "strat"]

/-- Stems of Latin neuters in `-um`. -/
def neuterStems : List String := [
  "agend", "addend", "millenni", "dat", "extrem", "bacteri", "desiderat", "strat", "candelabr",
  "errat", "ov", "symposi", "curricul"]

/-- Stems of Greek neuters in `-on`. -/
def greekStems : Pattern := anyOf [
  "apheli", "hyperbat", "periheli", "asyndet", "noumen", "phenomen", "criteri", "organ",
  "prolegomen", "hedr", "automat"]

/-- Mouse, louse and titmouse up to their vowel. -/
def mouseStem : Pattern := .wordEdge ++ .group (.optional (text "tit") ++ text "m" ||| text "l")

def vowels : List Char := ['a', 'e', 'i', 'o', 'u']

/-- The endings `t`, `l` or `m`, then `as`. -/
def tlmas : Pattern := text "t" ++ .oneOf ['l', 'm'] ++ text "as"

def plural : List Rule := [
  ⟨.optional (text "s"), "s"⟩,
  ⟨.beyondAscii, "$0"⟩,
  ⟨.group (.noneOf vowels ++ text "ese"), "$1"⟩,
  ⟨.group (anyOf ["ax", "test"]) ++ text "is", "$1es"⟩,
  ⟨.group (text "alias" ||| .noneOf ['a', 'o', 'u'] ++ text "us" ||| tlmas ||| anyOf ["gas", "ris"]),
    "$1es"⟩,
  ⟨.group (text "e" ++ .oneOf ['m', 'n'] ++ text "u") ++ .optional (text "s"), "$1s"⟩,
  ⟨.group (.noneOf ['l'] ++ text "ias" ||| .oneOf vowels ++ text "las" |||
    .oneOf ['e', 'j', 'z', 'r'] ++ text "as" ||| .oneOf ['i', 'u'] ++ text "am"), "$1"⟩,
  ⟨.group masculineStems ++ anyOf ["us", "i"], "$1i"⟩,
  ⟨.group (anyOf ["alumn", "alg", "vertebr"]) ++ anyOf ["a", "ae"], "$1ae"⟩,
  ⟨.group (anyOf ["seraph", "cherub"]) ++ .optional (text "im"), "$1im"⟩,
  ⟨.group (anyOf ["her", "at", "gr"]) ++ text "o", "$1oes"⟩,
  ⟨.group (anyOf (neuterStems ++ ["automat", "quor"])) ++ anyOf ["a", "um"], "$1a"⟩,
  ⟨.group greekStems ++ anyOf ["a", "on"], "$1a"⟩,
  ⟨text "sis", "ses"⟩,
  ⟨.group (anyOf ["kni", "wi", "li"]) ++ text "fe" |||
    .group (anyOf ["ar", "l", "ea", "eo", "oa", "hoo"]) ++ text "f", "$1$2ves"⟩,
  ⟨.group (.noneOf ('y' :: vowels) ||| text "qu") ++ text "y", "$1ies"⟩,
  ⟨.group (.noneOf ['c', 'h'] ++ .oneOf ['i', 'e', 'o'] ++ .oneOf ['l', 'n']) ++ text "ey",
    "$1ies"⟩,
  ⟨.group (anyOf ["x", "ch", "ss", "sh", "zz"]), "$1es"⟩,
  ⟨.group (anyOf ["matr", "cod", "mur", "sil", "vert", "ind", "append"]) ++ anyOf ["ix", "ex"],
    "$1ices"⟩,
  ⟨mouseStem ++ anyOf ["ice", "ouse"], "$1ice"⟩,
  ⟨.group (text "pe") ++ anyOf ["rson", "ople"], "$1ople"⟩,
  ⟨.group (text "child") ++ .optional (text "ren"), "$1ren"⟩,
  ⟨text "eaux", "$0"⟩,
  ⟨text "m" ++ .oneOf ['a', 'e'] ++ text "n", "men"⟩,
  ⟨.start ++ text "thou", "you"⟩]

def singular : List Rule := [
  ⟨text "s", ""⟩,
  ⟨.group (text "ss"), "$1"⟩,
  ⟨.group (anyOf ["wi", "kni"] |||
    (anyOf ["after", "half", "high", "low", "mid", "non", "night"] ||| .nonWord ||| .start) ++
      text "li") ++ text "ves", "$1fe"⟩,
  ⟨.group (text "ar" ||| (text "wo" ||| .oneOf ['a', 'e']) ++ text "l" |||
    .oneOf ['e', 'o'] ++ .oneOf ['a', 'o']) ++ text "ves", "$1f"⟩,
  ⟨text "ies", "y"⟩,
  ⟨.group (anyOf ["dg", "ss", "ois", "lk", "ok", "wn", "mb", "th", "ch", "ec", "oal", "is", "ck",
    "ix", "sser", "ts", "wb"]) ++ text "ies", "$1ie"⟩,
  ⟨.wordEdge ++ .group (text "l" ||| .optional (anyOf ["neck", "cross", "hog", "aun"]) ++ text "t" |||
    anyOf ["coll", "faer", "food", "gen", "goon", "group", "hipp", "junk", "vegg"] |||
    .optional (text "pork") ++ text "p" ||| anyOf ["charl", "calor", "cut"]) ++ text "ies", "$1ie"⟩,
  ⟨.wordEdge ++ .group (anyOf ["mon", "smil"]) ++ text "ies", "$1ey"⟩,
  ⟨mouseStem ++ text "ice", "$1ouse"⟩,
  ⟨.group (anyOf ["seraph", "cherub"]) ++ text "im", "$1"⟩,
  ⟨.group (anyOf ["x", "ch", "ss", "sh", "zz", "tto", "go", "cho", "alias"] |||
    .noneOf ['a', 'o', 'u'] ++ text "us" ||| tlmas ||| text "gas" |||
    anyOf ["her", "at", "gr"] ++ text "o" ||| .oneOf vowels ++ text "ris") ++ .optional (text "es"),
    "$1"⟩,
  ⟨.group (anyOf ["analy", "diagno", "parenthe", "progno", "synop", "the", "empha", "cri", "ne"]) ++
    anyOf ["sis", "ses"], "$1sis"⟩,
  ⟨.group (anyOf ["movie", "twelve", "abuse"] ||| text "e" ++ .oneOf ['m', 'n'] ++ text "u") ++
    text "s", "$1"⟩,
  ⟨.group (text "test") ++ anyOf ["is", "es"], "$1is"⟩,
  ⟨.group masculineStems ++ anyOf ["us", "i"], "$1us"⟩,
  ⟨.group (anyOf (neuterStems ++ ["quor"])) ++ text "a", "$1um"⟩,
  ⟨.group greekStems ++ text "a", "$1on"⟩,
  ⟨.group (anyOf ["alumn", "alg", "vertebr"]) ++ text "ae", "$1a"⟩,
  ⟨.group (anyOf ["cod", "mur", "sil", "vert", "ind"]) ++ text "ices", "$1ex"⟩,
  ⟨.group (anyOf ["matr", "append"]) ++ text "ices", "$1ix"⟩,
  ⟨.group (text "pe") ++ .group (anyOf ["rson", "ople"]), "$1rson"⟩,
  ⟨.group (text "child") ++ text "ren", "$1"⟩,
  ⟨.group (text "eau") ++ .optional (text "x"), "$1"⟩,
  ⟨text "men", "man"⟩]

/-- Nouns with one form for both numbers. -/
def uncountable : List String := [
  "adulthood", "advice", "agenda", "aid", "aircraft", "alcohol", "ammo", "analytics", "anime",
  "athletics", "audio", "bison", "blood", "bream", "buffalo", "butter", "carp", "cash", "chassis",
  "chess", "clothing", "cod", "commerce", "cooperation", "corps", "debris", "diabetes",
  "digestion", "elk", "energy", "equipment", "excretion", "expertise", "firmware", "flounder",
  "fun", "gallows", "garbage", "graffiti", "hardware", "headquarters", "health", "herpes",
  "highjinks", "homework", "housework", "information", "jeans", "justice", "kudos", "labour",
  "literature", "machinery", "mackerel", "mail", "media", "mews", "moose", "music", "mud",
  "manga", "news", "only", "personnel", "pike", "plankton", "pliers", "police", "pollution",
  "premises", "rain", "research", "rice", "salmon", "scissors", "series", "sewage", "shambles",
  "shrimp", "software", "staff", "swine", "tennis", "traffic", "transportation", "trout", "tuna",
  "wealth", "welfare", "whiting", "wildebeest", "wildlife", "you"]

/-- Endings of nouns with one form for both numbers. -/
def uncountableEndings : List Rule := [
  ⟨text "pok" ++ .oneOf ['e', 'é'] ++ text "mon", "$0"⟩,
  ⟨.noneOf vowels ++ text "ese", "$0"⟩,
  ⟨text "deer", "$0"⟩,
  ⟨text "fish", "$0"⟩,
  ⟨text "measles", "$0"⟩,
  ⟨text "o" ++ .oneOf ['i', 'u'] ++ text "s", "$0"⟩,
  ⟨text "pox", "$0"⟩,
  ⟨text "sheep", "$0"⟩]

end Rules

end Tablewright.Noun
