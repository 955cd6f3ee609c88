import Stencil.Yaml.Fault
import Stencil.Yaml.Scalar.Quoted
import Stencil.Yaml.Scalar.Unquoted
import Stencil.Yaml.Token.Cursor
import Stencil.Yaml.Token.Name

/-!
# The tokens of a document

**Blocks.** The *margin* is the least column of a block inside the present one. A block begins at
its first dash or key at the margin or behind it, and ends as soon as something stands before it.
Between brackets indentation means nothing.

**Keys.** A key without a mark in front shows only at the colon behind it. So where such a key may
begin, the place is kept as a *candidate*, one for each level of brackets, and the colon puts the
token of the key there, with that of a block if the key opens one. A candidate lapses at the end of
its line or when the text goes on for too long; at the column of the present block it must turn out
to be a key.

**Faults.** The tokens before a fault are those that are settled: all before the first candidate.
-/

namespace Stencil.Yaml

/-- The tokens of a text, and the fault that comes after them. -/
structure TokenStream where
  tokens : List Token
  /-- Why there are no more tokens. -/
  fault : Fault := .malformed

/-- A place where a key may begin. -/
structure Candidate where
  /-- The count of tokens before it. -/
  position : Nat
  /-- It must turn out to be a key. -/
  isRequired : Bool
  start : Cursor

/-- Reading tokens from a text. -/
structure Scan where
  cursor : Cursor
  /-- The tokens so far, backwards. -/
  reversed : List Token := []
  /-- The least column of a block inside the present one. -/
  margin : Nat := 0
  /-- The margins of the blocks around the present one. -/
  outer : List Nat := []
  /-- Where a key may have begun at the present level of brackets. -/
  candidate? : Option Candidate := none
  /-- The candidates of the levels around it. -/
  suspended : List (Option Candidate) := []
  /-- A key may begin here. -/
  allowsKey : Bool := true

namespace Scan

/-- A step of reading. -/
abbrev Step := Scan → Except Fault Scan

/-- Brackets are open. -/
def inFlow (s : Scan) : Bool := !s.suspended.isEmpty

/-- The text that is left. -/
def rest (s : Scan) : List Char := s.cursor.rest

/-- The column of the present place. -/
def column (s : Scan) : Nat := s.cursor.column

/-- Put a token at the end. -/
def emit (t : Token) (s : Scan) : Scan := { s with reversed := t :: s.reversed }

/-- Put tokens behind a count of others. -/
def insertAt (position : Nat) (ts : List Token) (s : Scan) : Scan :=
  let later := s.reversed.length - position
  { s with reversed := s.reversed.take later ++ ts.reverse ++ s.reversed.drop later }

/-- Go on behind some characters. -/
def skip (n : Nat) (s : Scan) : Scan := { s with cursor := s.cursor.advance n }

/-- Go on where a given end of the text is left. -/
def skipTo (rest : List Char) (s : Scan) : Scan := { s with cursor := s.cursor.advanceTo rest }

/-- From here on a key may begin, or may not. -/
def allowing (b : Bool) (s : Scan) : Scan := { s with allowsKey := b }

/-! ## Blocks -/

/-- Leave the blocks that begin behind a column. -/
def closeBlocks (column margin : Nat) (reversed : List Token) :
    (outer : List Nat) → Nat × List Nat × List Token
  | [] => (margin, [], reversed)
  | m :: outer =>
    if column + 1 < margin then closeBlocks column m (.blockEnd :: reversed) outer
    else (margin, m :: outer, reversed)

/-- Leave the blocks that begin behind the present column. -/
def closeToColumn (s : Scan) : Scan :=
  if s.inFlow then s
  else
    let (margin, outer, reversed) := closeBlocks s.column s.margin s.reversed s.outer
    { s with margin, outer, reversed }

/-- Leave all blocks. -/
def closeAll (s : Scan) : Scan :=
  if s.inFlow then s
  else
    { s with
      margin := 0
      outer := []
      reversed := s.outer.map (fun _ => .blockEnd) ++ s.reversed }

/-- Open a block at a column, with its token behind a count of others, unless one is open there. -/
def openBlock (t : Token) (position column : Nat) (s : Scan) : Scan :=
  if s.margin ≤ column then
    { s.insertAt position [t] with margin := column + 1, outer := s.margin :: s.outer }
  else s

/-- Open a block at the present place. -/
def openBlockHere (t : Token) (s : Scan) : Scan := s.openBlock t s.reversed.length s.column

/-! ## Candidates for keys -/

/-- The longest key that is known only by the colon behind it. -/
def keyLimit : Nat := 1024

/-- A candidate lapses at a place. -/
def isLapsed (p : Cursor) (k : Candidate) : Bool :=
  k.start.line != p.line || keyLimit < p.index - k.start.index

/-- Give up a candidate of the present level. -/
def dropCandidate : Step := fun s =>
  if (s.candidate?.map Candidate.isRequired).getD false then .error .malformed
  else .ok { s with candidate? := none }

/-- A candidate, unless it lapses at a place. -/
def keep (p : Cursor) (k? : Option Candidate) : Option Candidate := k?.filter (!isLapsed p ·)

/-- Give up the candidates that lapse at the present place. -/
def dropLapsed : Step := fun s =>
  let all := s.candidate?.toList ++ s.suspended.filterMap id
  if all.any fun k => k.isRequired && isLapsed s.cursor k then .error .malformed
  else
    .ok { s with
      candidate? := keep s.cursor s.candidate?
      suspended := s.suspended.map (keep s.cursor) }

/-- A key may begin with the next token. -/
def noteCandidate : Step := fun s =>
  if s.allowsKey then do
    let s ← dropCandidate s
    let isRequired := !s.inFlow && s.margin == s.column + 1
    return { s with candidate? := some ⟨s.reversed.length, isRequired, s.cursor⟩ }
  else return s

/-! ## Tokens of the structure -/

/-- An opening bracket or brace. -/
def openFlow (t : Token) : Step := fun s => do
  let s ← noteCandidate s
  let s := { s with suspended := s.candidate? :: s.suspended, candidate? := none }
  return ((s.skip 1).emit t).allowing true

/-- A closing bracket or brace. -/
def closeFlow (t : Token) : Step := fun s =>
  match s.suspended with
  | [] => .error .malformed
  | k? :: suspended =>
    .ok ((({ s with candidate? := k?, suspended }).skip 1).emit t |>.allowing false)

/-- A comma between brackets. -/
def comma : Step := fun s => do
  let s ← dropCandidate s
  return ((s.skip 1).emit .comma).allowing true

/-- A place in a block where an item or a key must not begin is a fault; between brackets all
places are good. -/
def checkBlock : Step := fun s =>
  if !s.inFlow && !s.allowsKey then .error .malformed else .ok s

/-- Open a block at the present place unless brackets are open. -/
def openBlockOutside (t : Token) (s : Scan) : Scan := if s.inFlow then s else s.openBlockHere t

/-- The dash before an item. -/
def dash : Step := fun s => do
  let s ← checkBlock s
  let s ← dropCandidate (s.openBlockOutside .sequenceBlock)
  return ((s.skip 1).emit .dash).allowing true

/-- The question mark before a key. -/
def key : Step := fun s => do
  let s ← checkBlock s
  let s ← dropCandidate (s.openBlockOutside .mappingBlock)
  return ((s.skip 1).emit .key).allowing !s.inFlow

/-- The colon behind a key that a candidate marks. -/
def settle (k : Candidate) (s : Scan) : Scan :=
  let s := { s.insertAt k.position [.key] with candidate? := none }
  let s := if s.inFlow then s else s.openBlock .mappingBlock k.position k.start.column
  ((s.skip 1).emit .value).allowing false

/-- The colon before a value. -/
def value : Step := fun s =>
  match s.candidate? with
  | some k => .ok (settle k s)
  | none => do
    let s ← checkBlock s
    let s := s.openBlockOutside .mappingBlock
    return ((s.skip 1).emit .value).allowing !s.inFlow

/-- The mark that starts or ends a document. -/
def marker (t : Token) : Step := fun s => do
  let s ← dropCandidate s.closeAll
  return ((s.skip 3).emit t).allowing false

/-! ## Tokens with a content -/

/-- A line in front of a document. -/
def directive : Step := fun s => do
  let s ← dropCandidate s.closeAll
  let (d, rest) ← Name.directive s.rest.tail
  return ((s.skipTo rest).emit (.directive d)).allowing false

/-- An anchor, an alias or a tag, with which a key may begin. -/
def property (read? : List Char → Option (α × List Char)) (t : α → Token) : Step := fun s => do
  let s ← noteCandidate s
  let (a, rest) ← required (read? s.rest.tail)
  return ((s.skipTo rest).emit (t a)).allowing false

/-- A block scalar. -/
def blockScalar (isFolded : Bool) : Step := fun s => do
  let s ← dropCandidate s
  let (text, rest) ← required (Block.scan? isFolded s.margin s.rest.tail)
  return ((s.skipTo rest).emit (.scalar text false)).allowing true

/-- A quoted scalar. -/
def quotedScalar (isDouble : Bool) : Step := fun s => do
  let s ← noteCandidate s
  let (text, rest) ← Quoted.scan isDouble s.rest.tail
  return ((s.skipTo rest).emit (.scalar text false)).allowing false

/-- A plain scalar. -/
def plainScalar : Step := fun s => do
  let s ← noteCandidate s
  let r := Unquoted.scan s.inFlow s.margin s.rest
  return ((s.skipTo r.rest).emit (.scalar r.text true)).allowing r.crossed

/-! ## The next token -/

/-- What stands between tokens, from a comment or not: the rest behind it, and whether a line was
broken. -/
def filler (inComment crossed : Bool) : List Char → List Char × Bool
  | [] => ([], crossed)
  | c :: cs =>
    if isBreak c then filler false true cs
    else if inComment || c == ' ' then filler inComment crossed cs
    else if c == '#' then filler true crossed cs
    else (c :: cs, crossed)

/-- Go to the next token. A key may begin on a new line of a block. -/
def toToken (s : Scan) : Scan :=
  let s := if s.cursor.index == 0 && s.rest.head? == some Cursor.byteOrderMark then s.skip 1 else s
  let (rest, crossed) := filler false false s.rest
  let s := s.skipTo rest
  if crossed && !s.inFlow then s.allowing true else s

/-- Go to the next token, and give up candidates and leave blocks that end before it. -/
def settled : Step := fun s => do
  let s ← dropLapsed s.toToken
  return s.closeToColumn

/-- The next token of a text that is left. -/
def fetch (c : Char) (cs : List Char) : Step := fun s =>
  let atStart := s.column == 0
  let isMarker (m : Char) : Bool := atStart && c == m && beginsWithMarker (c :: cs)
  let stands : Bool := s.inFlow || endsHere cs
  if atStart && c == '%' then directive s
  else if isMarker '-' then marker .documentStart s
  else if isMarker '.' then marker .documentEnd s
  else if c == '[' then openFlow .openBracket s
  else if c == '\x7b' then openFlow .openBrace s
  else if c == ']' then closeFlow .closeBracket s
  else if c == '\x7d' then closeFlow .closeBrace s
  else if c == ',' then comma s
  else if c == '-' && endsHere cs then dash s
  else if c == '?' && stands then key s
  else if c == ':' && stands then value s
  else if c == '*' then property Name.anchor? (fun n => .reference (String.ofList n)) s
  else if c == '&' then property Name.anchor? (fun n => .anchor (String.ofList n)) s
  else if c == '!' then property Name.tag? .tag s
  else if c == '|' && !s.inFlow then blockScalar false s
  else if c == '>' && !s.inFlow then blockScalar true s
  else if c == '\x27' then quotedScalar false s
  else if c == '\x22' then quotedScalar true s
  else if Unquoted.startsHere s.inFlow (c :: cs) then plainScalar s
  else .error .malformed

/-- The end of the text. -/
def finish : Step := fun s => do
  let s ← dropCandidate s.closeAll
  return s.emit .streamEnd

/-- The tokens that are settled: all before the first candidate. -/
def delivered (s : Scan) : List Token :=
  let positions := (s.candidate?.toList ++ s.suspended.filterMap id).map Candidate.position
  let settled := positions.foldl min s.reversed.length
  (s.reversed.drop (s.reversed.length - settled)).reverse

/-- Read all tokens. Each takes at least one character, so there are fewer of them than `fuel` if
that is more than the length of the text. -/
def run : (fuel : Nat) → Scan → TokenStream
  | 0, s => ⟨s.delivered, .malformed⟩
  | fuel + 1, s =>
    match settled s with
    | .error e => ⟨s.delivered, e⟩
    | .ok t =>
      match t.rest with
      | [] =>
        match finish t with
        | .error e => ⟨s.delivered, e⟩
        | .ok t => ⟨t.reversed.reverse, .malformed⟩
      | c :: cs =>
        match fetch c cs t with
        | .error e => ⟨t.delivered, e⟩
        | .ok t => run fuel t

end Scan

/-- The tokens of a text. -/
def TokenStream.ofText (cs : List Char) : TokenStream :=
  Scan.run (cs.length + 1) { cursor := { rest := cs } }

/-! ## Basic facts -/

/-- A block mapping with a sequence under its first key, and a flow mapping. -/
example : (TokenStream.ofText "a:\n- b\nc: \x7bd: 1\x7d".toList).tokens =
    [.mappingBlock, .key, .scalar ['a'] true, .value, .dash, .scalar ['b'] true, .key,
      .scalar ['c'] true, .value, .openBrace, .key, .scalar ['d'] true, .value,
      .scalar ['1'] true, .closeBrace, .blockEnd, .streamEnd] := by decide +kernel

end Stencil.Yaml
