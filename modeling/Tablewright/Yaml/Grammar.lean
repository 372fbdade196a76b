import Tablewright.Text.Split
import Tablewright.Yaml.Node
import Tablewright.Yaml.Scalar

/-! From text to nodes. A block collection is the entries that begin at its column; whatever belongs
to an entry stands further in. The readers are given fuel. A reader hands on one unit less to what
it calls, and five calls in a row take a character, so a multiple of the text's length is enough. -/

namespace Tablewright.Yaml

/-- Where reading has come to, and what the anchors so far refer to, the latest first. -/
structure Progress where
  cursor : Cursor
  anchors : List (String × Node)

/-- Reads the front of what is left, or fails. -/
abbrev Reading := StateT Progress Option

namespace Reading

def cursor : Reading Cursor := fun s => some (s.cursor, s)

def move (c : Cursor) : Reading Unit := fun s => some ((), { s with cursor := c })

/-- Goes to the next token. -/
def skip (inFlow : Bool) : Reading Unit := fun s =>
  some ((), { s with cursor := s.cursor.skip inFlow })

/-- Passes a mark. `isFresh` says whether a block collection may begin after it. -/
def pass (n : Nat) (isFresh : Bool) : Reading Unit := fun s =>
  some ((), { s with cursor := { s.cursor.advance n with isFresh } })

/-- Takes what a reader of scalars gives. -/
def scalar (style : Style) (read : Cursor → Option (List Char × Cursor)) : Reading Node := fun s =>
  (read s.cursor).map fun (text, next) =>
    (.scalar style (.ofList text), { s with cursor := next })

/-- Lets the anchor, if there is one, refer to the node. -/
def bindAnchor (anchor : Option String) (node : Node) : Reading Node := fun s =>
  match anchor with
  | none => some (node, s)
  | some name => some (node, { s with anchors := (name, node) :: s.anchors })

/-! ### Anchors, aliases and tags -/

def isAnchorChar (c : Char) : Bool := c.isAlphanum || c == '_' || c == '-'

/-- The name after the mark of an anchor or an alias. -/
def anchorName : Reading String := do
  let cur ← cursor
  let name := (cur.rest.drop 1).takeWhile isAnchorChar
  pass (1 + name.length) false
  let next ← cursor
  if !name.isEmpty && (atGap next.rest || next.isBefore "?:,]\x7d%@`".toList) then
    pure (.ofList name)
  else failure

/-- What an alias refers to. -/
def reference : Reading Node := do
  let name ← anchorName
  fun s => (s.anchors.lookup name).map fun node => (node, s)

def isTagChar (c : Char) : Bool :=
  c.isAlphanum || "-_;/?:@&=+$.%!~*'()".toList.contains c

/-- A tag between angle brackets, or one with an exclamation mark before it or two. Its spelling is
checked and then it is dropped, so what a scalar stands for is decided by its style and its text
alone: the null of `default_value: !!str null` is no default, and a tag names no case of a choice. A
reader that resolves tags would take both from the tag. -/
def tag (inFlow : Bool) : Reading Unit := do
  let cur ← cursor
  match cur.rest.drop 1 with
  | '<' :: rest =>
    let name := rest.takeWhile fun c => isTagChar c || c == ',' || c == '[' || c == ']'
    pass (2 + name.length) false
    if !name.isEmpty && (← cursor).isBefore ['>'] then pass 1 false else failure
  | rest =>
    let name := rest.takeWhile isTagChar
    pass (1 + name.length) false
    if name.head? != some '!' && name.contains '!' then failure
  let next ← cursor
  if atGap next.rest || (inFlow && next.isBefore [',']) then pure () else failure

/-- What stands before a node. -/
structure Properties where
  anchor : Option String
  isTagged : Bool

namespace Properties

def none : Properties := ⟨.none, false⟩

def isNone (p : Properties) : Bool := p.anchor.isNone && !p.isTagged

end Properties

/-- One property, if there is one. -/
def property (inFlow : Bool) (before : Properties) : Reading Properties := do
  let cur ← cursor
  if cur.isBefore ['&'] then
    if before.anchor.isSome then failure
    else return { before with anchor := some (← anchorName) }
  else if cur.isBefore ['!'] then
    if before.isTagged then failure
    else do
      tag inFlow
      return { before with isTagged := true }
  else return before

/-- The properties of a node on one line, an anchor and a tag in either order, and the way to the
next token. -/
def properties (inFlow : Bool) : Reading Properties := do
  let start ← cursor
  let first ← property inFlow .none
  if first.isNone then return first
  skip inFlow
  let next ← cursor
  if next.isEnd || next.line != start.line then return first
  let both ← property inFlow first
  skip inFlow
  return both

/-! ### Keys -/

/-- How far a colon may stand from the beginning of its key. -/
def maxKeyWidth : Nat := 1024

/-- Whether a key that began at `start` may end here. -/
def endsKey (start cur : Cursor) : Bool :=
  cur.line == start.line && cur.column ≤ start.column + maxKeyWidth

/-- Passes the colon that makes what began at `start` a key of a block mapping, if there is one. -/
def keyColon (start : Cursor) : Reading Bool := do
  let here ← cursor
  let blanks := here.rest.takeWhile isBlank
  let cur := here.advance blanks.length
  if cur.isMark ':' && endsKey start cur then do
    move (cur.advance 1)
    return true
  else return false

/-! ### Nodes -/

mutual

/-- The items of a flow sequence after its bracket or a comma. An item with a colon is a mapping of
one entry. Tabs may indent the lines of plain scalars from column `least` on. -/
def flowItems : Nat → Nat → Reading (List Node)
  | 0, _ => failure
  | fuel + 1, least => do
    skip true
    if (← cursor).isBefore [']'] then do
      pass 1 false
      return []
    let (key, value) ← flowEntry fuel least
    let item := match value with
      | some value => Node.mapping [(key, value)]
      | none => key
    skip true
    let cur ← cursor
    if cur.isBefore [','] then do
      pass 1 false
      return item :: (← flowItems fuel least)
    else if cur.isBefore [']'] then do
      pass 1 false
      return [item]
    else failure

/-- The entries of a flow mapping after its bracket or a comma. -/
def flowEntries : Nat → Nat → Reading (List (Node × Node))
  | 0, _ => failure
  | fuel + 1, least => do
    skip true
    if (← cursor).isBefore ['\x7d'] then do
      pass 1 false
      return []
    let (key, value) ← flowEntry fuel least
    let entry := (key, value.getD .empty)
    skip true
    let cur ← cursor
    if cur.isBefore [','] then do
      pass 1 false
      return entry :: (← flowEntries fuel least)
    else if cur.isBefore ['\x7d'] then do
      pass 1 false
      return [entry]
    else failure

/-- A node in a flow collection, and its value if it is a key. A question mark announces a key,
which may then take several lines. -/
def flowEntry : Nat → Nat → Reading (Node × Option Node)
  | 0, _ => failure
  | fuel + 1, least => do
    let start ← cursor
    let isAnnounced := start.isBefore ['?']
    if isAnnounced then pass 1 false
    let key ← if isAnnounced then flowValue fuel least else flowNode fuel least
    skip true
    let cur ← cursor
    if cur.isBefore [':'] then
      if isAnnounced || endsKey start cur then do
        pass 1 false
        return (key, some (← flowValue fuel least))
      else failure
    else return (key, if isAnnounced then some .empty else none)

/-- A node in a flow collection where there may be none. -/
def flowValue : Nat → Nat → Reading Node
  | 0, _ => failure
  | fuel + 1, least => do
    skip true
    if (← cursor).isBefore ":,]\x7d".toList then return .empty
    flowNode fuel least

/-- A node in a flow collection. -/
def flowNode : Nat → Nat → Reading Node
  | 0, _ => failure
  | fuel + 1, least => do
    if (← cursor).isEnd then failure
    let props ← properties true
    let cur ← cursor
    if !props.isNone && cur.isBefore ":,]\x7d".toList then bindAnchor props.anchor .empty
    else if cur.isEnd || (!props.isNone && cur.isBefore ['*']) then failure
    else bindAnchor props.anchor (← leaf fuel true least)

/-- A node that can be a key: an alias, a scalar that is no block, or a flow collection. The lines
of a plain scalar begin at column `least` or further in. -/
def leaf : Nat → Bool → Nat → Reading Node
  | 0, _, _ => failure
  | fuel + 1, inFlow, least => do
    match (← cursor).rest with
    | '*' :: _ => reference
    | '\x27' :: _ => scalar .single (Scalar.singleQuoted? fuel)
    | '"' :: _ => scalar .double (Scalar.doubleQuoted? fuel)
    | '[' :: _ =>
      pass 1 false
      return .sequence (← flowItems fuel least)
    | '\x7b' :: _ =>
      pass 1 false
      return .mapping (← flowEntries fuel least)
    | rest =>
      if Scalar.startsPlain inFlow rest then scalar .plain (Scalar.plain? inFlow least fuel)
      else failure

/-- A node in a block that can be a key. After properties a colon may follow at once, and the key is
empty. -/
def blockLeaf : Nat → Nat → Properties → Reading Node
  | 0, _, _ => failure
  | fuel + 1, least, props => do
    if !props.isNone && (← cursor).isMark ':' then return .empty
    leaf fuel false least

/-- The node of an entry, which stands at column `least` or further in. The mark of a block scalar
may stand one column further out, and so may the items of a sequence if `sameColumn` holds. -/
def blockValue : Nat → Nat → Bool → Reading Node
  | 0, _, _ => failure
  | fuel + 1, least, sameColumn => do
    skip false
    let cur ← cursor
    if cur.isEnd then return .empty
    else if least ≤ cur.column then blockNode fuel least sameColumn
    else if cur.column + 1 != least then return .empty
    else if cur.isBefore ['|', '>'] then blockNode fuel least sameColumn
    else if sameColumn && cur.isMark '-' then return .sequence (← blockItems fuel cur.column)
    else return .empty

/-- A node at a token. Its properties may stand on a line before it. More properties on that line
are those of a key. -/
def blockNode : Nat → Nat → Bool → Reading Node
  | 0, _, _ => failure
  | fuel + 1, least, sameColumn => do
    let start ← cursor
    let props ← properties false
    let cur ← cursor
    if props.isNone then blockContent fuel least start props
    else if cur.isEnd || cur.line != start.line then
      if least ≤ cur.column && cur.isBefore ['&', '!'] then
        bindAnchor props.anchor (.mapping (← blockEntries fuel cur.column))
      else bindAnchor props.anchor (← blockValue fuel least sameColumn)
    else if cur.isBefore ['*'] then failure
    else blockContent fuel least start props

/-- A node after its properties, which began at `start`. Those before a key are the key's. -/
def blockContent : Nat → Nat → Cursor → Properties → Reading Node
  | 0, _, _, _ => failure
  | fuel + 1, least, start, props => do
    let cur ← cursor
    if cur.isMark '-' then
      if cur.isFresh then do
        let items ← blockItems fuel cur.column
        let next ← cursor
        if next.isEnd || next.column < cur.column then bindAnchor props.anchor (.sequence items)
        else failure
      else failure
    else if cur.isMark '?' then
      if cur.isFresh then bindAnchor props.anchor (.mapping (← blockEntries fuel cur.column))
      else failure
    else if cur.isBefore ['|'] then
      bindAnchor props.anchor (← scalar .literal (Scalar.block? false least))
    else if cur.isBefore ['>'] then
      bindAnchor props.anchor (← scalar .folded (Scalar.block? true least))
    else do
      let node ← bindAnchor props.anchor (← blockLeaf fuel least props)
      if ← keyColon start then
        if start.isFresh then do
          let value ← blockValue fuel (start.column + 1) true
          return .mapping ((node, value) :: (← blockEntries fuel start.column))
        else failure
      else return node

/-- The items of a block sequence that begin at a column, and the way to the token after them. -/
def blockItems : Nat → Nat → Reading (List Node)
  | 0, _ => failure
  | fuel + 1, column => do
    skip false
    let cur ← cursor
    if !cur.isEnd && cur.column == column && cur.isMark '-' then do
      pass 1 true
      let item ← blockValue fuel (column + 1) false
      return item :: (← blockItems fuel column)
    else return []

/-- The entries of a block mapping that begin at a column, up to a token further out. -/
def blockEntries : Nat → Nat → Reading (List (Node × Node))
  | 0, _ => failure
  | fuel + 1, column => do
    skip false
    let start ← cursor
    if start.isEnd || start.column < column then return []
    else if column < start.column then failure
    else if start.isMark '?' then do
      pass 1 true
      let key ← blockValue fuel (column + 1) true
      skip false
      let cur ← cursor
      let value ←
        if !cur.isEnd && cur.column == column && cur.isMark ':' then do
          pass 1 true
          blockValue fuel (column + 1) true
        else pure .empty
      return (key, value) :: (← blockEntries fuel column)
    else do
      let props ← properties false
      let cur ← cursor
      if cur.isEnd || cur.line != start.line || (!props.isNone && cur.isBefore ['*']) then failure
      let key ← bindAnchor props.anchor (← blockLeaf fuel (column + 1) props)
      if ← keyColon start then do
        let value ← blockValue fuel (column + 1) true
        return (key, value) :: (← blockEntries fuel column)
      else failure

end

/-! ### Documents -/

/-- Passes the marks of the end of the document. Nothing may follow them. -/
def endMarks : Nat → Reading Unit
  | 0 => failure
  | fuel + 1 => do
    skip false
    let cur ← cursor
    if cur.rest.isEmpty then return
    else if cur.column == 0 && cur.isBefore ['.'] && atMarker cur.rest then do
      pass 3 false
      endMarks fuel
    else failure

/-- Passes a directive that names a known version, if there is one. -/
def version : Reading Bool := do
  let cur ← cursor
  if cur.column == 0 && cur.isBefore ['%'] then
    let line := cur.rest.takeWhile (!isBreak ·)
    let words := (Text.splitAt isBlank (line.takeWhile (· != '#'))).filter (!·.isEmpty)
    if words == ["%YAML".toList, "1.1".toList] || words == ["%YAML".toList, "1.2".toList] then do
      pass line.length false
      skip false
      return true
    else failure
  else return false

/-- The node of the one document in a text. A text without a document has none. -/
def document (fuel : Nat) : Reading (Option Node) := do
  skip false
  let isDirected ← version
  let cur ← cursor
  if cur.rest.isEmpty then
    if isDirected then failure else return none
  let isExplicit := cur.isEnd && cur.isBefore ['-']
  if isExplicit then pass 3 false
  else if cur.isEnd || isDirected then failure
  let node ← blockValue fuel 0 false
  endMarks fuel
  return some node

end Reading

/-- A text with each of its line breaks as one line feed. -/
def unifyBreaks : List Char → List Char
  | '\r' :: '\n' :: rest => '\n' :: unifyBreaks rest
  | c :: rest => (if c == '\r' || c == '\u0085' then '\n' else c) :: unifyBreaks rest
  | [] => []

/-- The node that a text stands for. Nothing if the text is malformed, and the empty node if it
holds no document. -/
def Node.ofText? (text : String) : Option Node :=
  let cs := text.toList
  if cs.all isAllowed then
    let cs := unifyBreaks cs
    match (Reading.document (5 * (cs.length + 2))).run ⟨.ofText cs, []⟩ with
    | some (node, _) => some (node.getD .empty)
    | none => none
  else none

end Tablewright.Yaml
