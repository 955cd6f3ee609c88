import Stencil.Yaml.Plain
import Stencil.Yaml.Token.Stream

/-!
# The grammar of documents

The node that a stream of tokens stands for. A stream holds one document or none. Where the grammar
expects a node and finds none, the empty scalar stands. An alias is the node of its anchor, which
must have begun by then; no anchor is given twice. An alias inside the node of its own anchor makes a
node that is a part of itself, which no tree can be: there `Node.enclosing` stands for it.

Reading is by recursive descent. `fuel` bounds the depth of calls: each call of one of the functions
below either takes a token or is followed by one that does, so twice the count of tokens suffices.
-/

namespace Stencil.Yaml

/-- The state of reading nodes. -/
structure Reading where
  tokens : List Token
  /-- The fault when no token is left. -/
  fault : Fault
  /-- What the handles of tags stand for. -/
  handles : List (String × String) := []
  /-- The nodes of anchors; that of a node which is still being read is missing. -/
  anchors : List (String × Option Node) := []

namespace Reading

/-- A step of reading nodes. -/
abbrev Reader := StateT Reading (Except Fault)

/-- The next token. -/
def head : Reader Token := do
  let r ← get
  match r.tokens with
  | t :: _ => return t
  | [] => throw r.fault

/-- Take the next token. -/
def skip : Reader Unit := modify fun r => { r with tokens := r.tokens.tail }

/-- The text does not follow the grammar. -/
def refuse : Reader α := throw .malformed

/-- Take the next token, which must be a given one. -/
def expect (t : Token) : Reader Unit := do
  if (← head) == t then skip else refuse

/-- The next token is one of some. -/
def isAt (ts : List Token) : Reader Bool := return ts.contains (← head)

/-- The empty scalar. -/
def emptyNode : Node := .scalar (plainTag readingRules []) []

/-- A node, or the empty scalar if one of some tokens stands instead. -/
def nodeUnless (ts : List Token) (node : Reader Node) : Reader Node := do
  if ← isAt ts then return emptyNode else node

/-! ## Documents -/

/-- What handles stand for without directives. -/
def commonHandles : List (String × String) := [("!", "!"), ("!!", Tag.schema)]

/-- Take directives. `hasVersion` says that one gave the version. -/
def directives (hasVersion : Bool) (handles : List (String × String)) :
    (fuel : Nat) → Reader (List (String × String))
  | 0 => refuse
  | fuel + 1 => do
    match ← head with
    | .directive (.version major) =>
      skip
      if hasVersion || major ≠ 1 then refuse else directives true handles fuel
    | .directive (.handle name meaning) =>
      skip
      if (handles.lookup name).isSome then refuse
      else directives hasVersion ((name, meaning) :: handles) fuel
    | .directive .other =>
      skip
      directives hasVersion handles fuel
    | _ => return handles ++ commonHandles

/-- Take end marks of documents. -/
def documentEnds : (fuel : Nat) → Reader Unit
  | 0 => refuse
  | fuel + 1 => do
    if ← isAt [.documentEnd] then
      skip
      documentEnds fuel

/-- Begin a document with its directives and its start mark, unless the stream ends. -/
def documentStart (fuel : Nat) : Reader Bool := do
  documentEnds fuel
  if ← isAt [.streamEnd] then return false
  else
    let handles ← directives false [] fuel
    expect .documentStart
    modify fun r => { r with handles }
    return true

/-! ## Anchors and tags -/

/-- An anchor and a tag in either order. -/
def properties : Reader (Option String × Option TagText) := do
  match ← head with
  | .anchor name =>
    skip
    match ← head with
    | .tag t =>
      skip
      return (some name, some t)
    | _ => return (some name, none)
  | .tag t =>
    skip
    match ← head with
    | .anchor name =>
      skip
      return (some name, some t)
    | _ => return (none, some t)
  | _ => return (none, none)

/-- The tag that a written one stands for. -/
def tagOf (t : TagText) : Reader Tag := do
  match t.handle? with
  | none => return Tag.ofName t.suffix
  | some handle =>
    match (← get).handles.lookup handle with
    | some meaning => return Tag.ofName (meaning ++ t.suffix)
    | none => refuse

/-- The tag of a node: the written one, unless that leaves the choice. -/
def choose (written? : Option Tag) (chosen : Tag) (leavesChoice : Tag) : Tag :=
  match written? with
  | none => chosen
  | some .unspecific => leavesChoice
  | some t => t

/-- The tag of a scalar. -/
def scalarTag (written? : Option Tag) (isPlain : Bool) (text : List Char) : Tag :=
  let plain := plainTag readingRules text
  choose written? (if isPlain then plain else .text) plain

/-- Begin the node of an anchor. -/
def beginAnchor (name? : Option String) : Reader Unit := do
  match name? with
  | none => return
  | some name =>
    let r ← get
    if (r.anchors.lookup name).isSome then refuse
    else set { r with anchors := (name, none) :: r.anchors }

/-- Give an anchor its node. -/
def endAnchor (name? : Option String) (n : Node) : Reader Node := do
  match name? with
  | none => return n
  | some name =>
    modify fun r => { r with anchors := (name, some n) :: r.anchors }
    return n

/-- The node of an alias. -/
def aliased (name : String) : Reader Node := do
  match (← get).anchors.lookup name with
  | some (some n) => return n
  | some none => return .enclosing
  | none => refuse

/-! ## Nodes -/

mutual

/-- A node. Blocks are read only if `inBlock` says so, and a sequence without a block of its own
only if `mayHang` does. -/
def node (inBlock mayHang : Bool) : (fuel : Nat) → Reader Node
  | 0 => refuse
  | fuel + 1 => do
    match ← head with
    | .reference name =>
      skip
      aliased name
    | _ =>
      let (anchor?, written?) ← properties
      let tag? ← written?.mapM tagOf
      let next ← head
      let collection (usual : Tag) : Tag := choose tag? usual usual
      if mayHang && next == .dash then
        beginAnchor anchor?
        let items ← hangingItems fuel
        endAnchor anchor? (.sequence (collection .sequence) items)
      else match next with
        | .scalar text isPlain =>
          skip
          beginAnchor anchor?
          endAnchor anchor? (.scalar (scalarTag tag? isPlain text) text)
        | .openBracket =>
          skip
          beginAnchor anchor?
          let items ← flowItems true fuel
          endAnchor anchor? (.sequence (collection .sequence) items)
        | .openBrace =>
          skip
          beginAnchor anchor?
          let entries ← flowEntries true fuel
          endAnchor anchor? (.mapping (collection .mapping) entries)
        | .sequenceBlock =>
          if !inBlock then refuse
          else
            skip
            beginAnchor anchor?
            let items ← blockItems fuel
            endAnchor anchor? (.sequence (collection .sequence) items)
        | .mappingBlock =>
          if !inBlock then refuse
          else
            skip
            beginAnchor anchor?
            let entries ← blockEntries fuel
            endAnchor anchor? (.mapping (collection .mapping) entries)
        | _ =>
          if anchor?.isNone && tag?.isNone then refuse
          else
            beginAnchor anchor?
            endAnchor anchor? (.scalar (scalarTag tag? true []) [])

/-- The items of a block. -/
def blockItems : (fuel : Nat) → Reader (List Node)
  | 0 => refuse
  | fuel + 1 => do
    match ← head with
    | .dash =>
      skip
      let item ← nodeUnless [.dash, .blockEnd] (node true false fuel)
      let items ← blockItems fuel
      return item :: items
    | _ =>
      expect .blockEnd
      return []

/-- The items of a sequence without a block of its own. -/
def hangingItems : (fuel : Nat) → Reader (List Node)
  | 0 => refuse
  | fuel + 1 => do
    if ← isAt [.dash] then
      skip
      let item ← nodeUnless [.dash, .key, .value, .blockEnd] (node true false fuel)
      let items ← hangingItems fuel
      return item :: items
    else return []

/-- The entries of a block. -/
def blockEntries : (fuel : Nat) → Reader (List (Node × Node))
  | 0 => refuse
  | fuel + 1 => do
    match ← head with
    | .key =>
      skip
      let key ← nodeUnless [.key, .value, .blockEnd] (node true true fuel)
      let value ← valueOr [.key, .value, .blockEnd] true fuel
      let entries ← blockEntries fuel
      return (key, value) :: entries
    | _ =>
      expect .blockEnd
      return []

/-- The value behind a key, if there is one; it may be empty before some tokens. -/
def valueOr (ts : List Token) (inBlock : Bool) : (fuel : Nat) → Reader Node
  | 0 => refuse
  | fuel + 1 => do
    if ← isAt [.value] then
      skip
      nodeUnless ts (node inBlock inBlock fuel)
    else return emptyNode

/-- The items between brackets. A key stands for a mapping of one entry. -/
def flowItems (isFirst : Bool) : (fuel : Nat) → Reader (List Node)
  | 0 => refuse
  | fuel + 1 => do
    if ← isAt [.closeBracket] then
      skip
      return []
    else
      if !isFirst then expect .comma
      match ← head with
      | .key =>
        skip
        let key ← nodeUnless [.value, .comma, .closeBracket] (node false false fuel)
        let value ← valueOr [.comma, .closeBracket] false fuel
        let items ← flowItems false fuel
        return .mapping .mapping [(key, value)] :: items
      | .closeBracket =>
        skip
        return []
      | _ =>
        let item ← node false false fuel
        let items ← flowItems false fuel
        return item :: items

/-- The entries between braces. A node that is no key has an empty value. -/
def flowEntries (isFirst : Bool) : (fuel : Nat) → Reader (List (Node × Node))
  | 0 => refuse
  | fuel + 1 => do
    if ← isAt [.closeBrace] then
      skip
      return []
    else
      if !isFirst then expect .comma
      match ← head with
      | .key =>
        skip
        let key ← nodeUnless [.value, .comma, .closeBrace] (node false false fuel)
        let value ← valueOr [.comma, .closeBrace] false fuel
        let entries ← flowEntries false fuel
        return (key, value) :: entries
      | .closeBrace =>
        skip
        return []
      | _ =>
        let key ← node false false fuel
        let entries ← flowEntries false fuel
        return (key, emptyNode) :: entries

end

/-! ## Streams -/

/-- The node of a document behind its start mark. -/
def content (fuel : Nat) : Reader Node := do
  match ← head with
  | .directive _ | .documentStart | .documentEnd | .streamEnd => return emptyNode
  | _ => node true false fuel

/-- The node of a stream, if it holds a document. -/
def stream (fuel : Nat) : Reader (Option Node) := do
  match ← head with
  | .streamEnd => return none
  | .directive _ | .documentStart =>
    if ← documentStart fuel then
      let n ← content fuel
      if ← documentStart fuel then refuse else return some n
    else return none
  | _ =>
    modify fun r => { r with handles := commonHandles }
    let n ← node true false fuel
    if ← documentStart fuel then refuse else return some n

end Reading

/-- The node that a stream of tokens stands for, if it holds a document. -/
def TokenStream.node? (s : TokenStream) : Except Fault (Option Node) :=
  ((Reading.stream (2 * s.tokens.length + 2)).run ⟨s.tokens, s.fault, [], []⟩).map Prod.fst

end Stencil.Yaml
