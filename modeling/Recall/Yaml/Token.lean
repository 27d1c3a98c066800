/-
Recall.Yaml.Token — the tokens of a YAML text.

The structure of a block is in its columns, so reading tokens keeps a *margin*: the least column at
which a nested block may begin. A token to the left of the margin closes blocks, and a key at the
margin or to the right of it opens one.

That something was a key shows only at the colon behind it. So the place of whatever may be a key
is remembered as a *candidate*, one for the block and one for each flow collection that is open,
and the colon puts the key's token at that place. A candidate holds for its line only and for at
most 1024 characters. One that stands where a key must stand is *required*: losing it is an error.

`Scan.step` reads one token with what it implies, and `tokens` is the whole list. It ends with the
end of the text, or with the failure that stopped it.
-/
import Recall.Yaml.Scalar
import Recall.Yaml.Tag

namespace Recall

namespace Yaml

/-! ## 1. Tokens -/

/-- The tokens of a YAML text. -/
inductive Token where
  | directive (d : Directive)
  | documentStart
  | documentEnd
  | textEnd
  | blockSequenceStart
  | blockMappingStart
  | blockEnd
  | flowSequenceStart
  | flowSequenceEnd
  | flowMappingStart
  | flowMappingEnd
  | blockEntry
  | flowEntry
  | key
  | value
  | alias (name : String)
  | anchor (name : String)
  | tag (t : RawTag)
  | scalar (plain : Bool) (text : String)
  | failure (e : Error)
  deriving DecidableEq, Repr

/-! ## 2. Places -/

/-- A place in a text: the characters that are left, and how many characters, line ends and
characters of the line have been passed. -/
structure Cursor where
  rest : List Char
  index : Nat
  line : Nat
  column : Nat

namespace Cursor

/-- Passes one character; a byte order mark takes no column. -/
def next (c : Cursor) : Cursor :=
  match c.rest with
  | [] => c
  | ch :: r =>
    if isBreak ch then ⟨r, c.index + 1, c.line + 1, 0⟩
    else if ch = '\uFEFF' then ⟨r, c.index + 1, c.line, c.column⟩
    else ⟨r, c.index + 1, c.line, c.column + 1⟩

/-- Passes `n` characters. -/
def drop : Nat → Cursor → Cursor
  | 0, c => c
  | n + 1, c => drop n c.next

/-- Passes what stands before a remainder of the text. -/
def dropTo (c : Cursor) (rest : List Char) : Cursor :=
  c.drop (c.rest.length - rest.length)

end Cursor

/-- Something that may be a key. -/
structure Candidate where
  /-- The number of tokens before it. -/
  place : Nat
  index : Nat
  line : Nat
  column : Nat
  required : Bool

/-! ## 3. The state between two tokens -/

/-- What is known between two tokens. -/
structure Scan where
  cursor : Cursor
  /-- The least column of a nested block; zero outside every block. -/
  margin : Nat := 0
  /-- The margins of the blocks around. -/
  margins : List Nat := []
  /-- The candidates of the open flow collections, the innermost first, and the block's. -/
  candidates : List (Option Candidate) := [none]
  /-- Whether a key may begin here. -/
  keyAllowed : Bool := true
  /-- The tokens, the latest first. -/
  tokens : List Token := []

namespace Scan

/-- Whether a flow collection is open. -/
def inFlow (s : Scan) : Bool :=
  1 < s.candidates.length

/-- Adds a token. -/
def push (s : Scan) (t : Token) : Scan :=
  { s with tokens := t :: s.tokens }

/-- Adds tokens behind the first `place` ones. -/
def insert (s : Scan) (place : Nat) (ts : List Token) : Scan :=
  let later := s.tokens.length - place
  { s with tokens := s.tokens.take later ++ ts.reverse ++ s.tokens.drop later }

/-- Passes `n` characters. -/
def drop (n : Nat) (s : Scan) : Scan :=
  { s with cursor := s.cursor.drop n }

/-- Passes what stands before a remainder of the text. -/
def dropTo (s : Scan) (rest : List Char) : Scan :=
  { s with cursor := s.cursor.dropTo rest }

/-- Closes the blocks whose margin lies to the right of a column. -/
def unwindFrom (limit : Nat) : List Nat → Nat → List Token → List Nat × Nat × List Token
  | [], margin, ts => ([], margin, ts)
  | m :: ms, margin, ts =>
    if limit < margin then unwindFrom limit ms m (.blockEnd :: ts) else (m :: ms, margin, ts)

/-- Closes the blocks that may not go on where a token begins; flow collections pay no heed to
columns. `limit` is the greatest margin that stays. -/
def unwind (s : Scan) (limit : Nat) : Scan :=
  if s.inFlow then s
  else
    let (margins, margin, tokens) := unwindFrom limit s.margins s.margin s.tokens
    { s with margins := margins, margin := margin, tokens := tokens }

/-- Opens a block at a column unless one is open there; whether it did. -/
def openBlock (s : Scan) (column : Nat) : Bool × Scan :=
  if s.margin ≤ column then
    (true, { s with margins := s.margin :: s.margins, margin := column + 1 })
  else (false, s)

/-! ## 4. Candidates -/

/-- The innermost candidate. -/
def candidate (s : Scan) : Option Candidate :=
  s.candidates.head?.join

/-- Sets the innermost candidate. -/
def setCandidate (s : Scan) (c : Option Candidate) : Scan :=
  { s with candidates := c :: s.candidates.drop 1 }

/-- Gives the innermost candidate up. -/
def forget (s : Scan) : Except Error Scan :=
  if s.candidate.any Candidate.required then .error .malformed else .ok (s.setCandidate none)

/-- Remembers what begins here as a candidate, if a key may begin here. -/
def remember (s : Scan) : Except Error Scan := do
  if s.keyAllowed then
    let s ← s.forget
    return s.setCandidate (some {
      place := s.tokens.length
      index := s.cursor.index
      line := s.cursor.line
      column := s.cursor.column
      required := !s.inFlow && s.margin == s.cursor.column + 1 })
  else return s

/-- Whether a candidate no longer holds at a place. -/
def isStale (c : Cursor) (k : Candidate) : Bool :=
  k.line != c.line || 1024 < c.index - k.index

/-- Gives up the candidates that no longer hold. -/
def forgetStale (s : Scan) : Except Error Scan :=
  let stale (k : Option Candidate) : Bool := k.any (isStale s.cursor)
  if s.candidates.any fun k => stale k && k.any Candidate.required then .error .malformed
  else .ok { s with candidates := s.candidates.map fun k => if stale k then none else k }

/-! ## 5. Between tokens -/

/-- Passes spaces, comments and line ends; whether a line end was passed. -/
def gap (inComment : Bool) : List Char → Bool × List Char
  | [] => (false, [])
  | c :: r =>
    if isBreak c then (true, (gap false r).2)
    else if inComment || c == '#' then gap true r
    else if c == ' ' then gap false r
    else (false, c :: r)

/-- Goes to the next token. A byte order mark may stand in front of the first. -/
def skip (s : Scan) : Scan :=
  let rest := match s.cursor.index, s.cursor.rest with
    | 0, '\uFEFF' :: r => r
    | _, r => r
  let (crossed, rest) := gap false rest
  let s := s.dropTo rest
  if crossed && !s.inFlow then { s with keyAllowed := true } else s

/-! ## 6. Indicators -/

/-- A token that is its indicator of `n` characters. -/
def indicator (s : Scan) (n : Nat) (t : Token) : Scan :=
  (s.drop n).push t

/-- A directive, or a mark of documents, closes every block. -/
def closeAll (s : Scan) : Except Error Scan := do
  let s ← (s.unwind 0).forget
  return { s with keyAllowed := false }

/-- The start of a flow collection, which may be a key. -/
def openFlow (s : Scan) (t : Token) : Except Error Scan := do
  let s ← s.remember
  return { s with candidates := none :: s.candidates, keyAllowed := true }.indicator 1 t

/-- The end of a flow collection. -/
def closeFlow (s : Scan) (t : Token) : Except Error Scan := do
  let s ← s.forget
  let candidates := if s.inFlow then s.candidates.drop 1 else s.candidates
  return { s with candidates := candidates, keyAllowed := false }.indicator 1 t

/-- The comma between the items of a flow collection. -/
def flowEntry (s : Scan) : Except Error Scan := do
  let s ← s.forget
  return { s with keyAllowed := true }.indicator 1 .flowEntry

/-- Opens a block for an entry or a key that begins here, where one may begin. -/
def beginBlock (s : Scan) (t : Token) : Except Error Scan :=
  if s.inFlow then .ok s
  else if !s.keyAllowed then .error .malformed
  else
    match s.openBlock s.cursor.column with
    | (true, s) => .ok (s.push t)
    | (false, s) => .ok s

/-- The hyphen of a block sequence's entry. -/
def blockEntry (s : Scan) : Except Error Scan := do
  let s ← (← s.beginBlock .blockSequenceStart).forget
  return { s with keyAllowed := true }.indicator 1 .blockEntry

/-- The question mark of an explicit key. -/
def explicitKey (s : Scan) : Except Error Scan := do
  let s ← (← s.beginBlock .blockMappingStart).forget
  return { s with keyAllowed := !s.inFlow }.indicator 1 .key

/-- The colon of a value. The candidate becomes the key; without one the key was explicit, or is
missing. -/
def value (s : Scan) : Except Error Scan :=
  match s.candidate with
  | some k =>
    let s := s.setCandidate none
    let (opened, s) := if s.inFlow then (false, s) else s.openBlock k.column
    let s := s.insert k.place (if opened then [.blockMappingStart, .key] else [.key])
    .ok ({ s with keyAllowed := false }.indicator 1 .value)
  | none => do
    let s ← s.beginBlock .blockMappingStart
    return { s with keyAllowed := !s.inFlow }.indicator 1 .value

/-! ## 7. Nodes -/

/-- A token of a node, which may be a key: what a reader makes of the text behind `n` characters. -/
def node {α : Type} (s : Scan) (n : Nat) (read : List Char → Except Error (α × List Char))
    (t : α → Token) : Except Error Scan := do
  let s ← s.remember
  let (a, rest) ← read (s.cursor.rest.drop n)
  return ({ s with keyAllowed := false }.dropTo rest).push (t a)

/-- A quoted scalar. -/
def quoted (s : Scan) (read : List Char → Except Error (List Char × List Char)) :
    Except Error Scan :=
  s.node 1 read fun text => .scalar false (String.ofList text)

/-- A block scalar, which is never a key and behind which one may begin. -/
def blockScalar (s : Scan) (folded : Bool) : Except Error Scan := do
  let s ← s.forget
  let (text, rest) ← block folded s.margin (s.cursor.rest.drop 1)
  return ({ s with keyAllowed := true }.dropTo rest).push (.scalar false (String.ofList text))

/-- A plain scalar. A key may begin behind it if it passed a line end. -/
def plainScalar (s : Scan) : Except Error Scan := do
  let s ← s.remember
  let p := plain s.inFlow s.margin s.cursor.rest
  return ({ s with keyAllowed := p.crossed }.dropTo p.rest).push
    (.scalar true (String.ofList p.text))

/-- Whether a plain scalar begins here. Indicators do not begin one, but for a hyphen, and outside
flow collections a question mark or a colon, that no gap follows. -/
def startsPlain (flow : Bool) : List Char → Bool
  | [] => false
  | c :: r =>
    !(isGap c || ['-', '?', ':', ',', '[', ']', '{', '}', '#', '&', '*', '!', '|', '>', '\'', '"',
        '%', '@', '\x60'].contains c) ||
      (!startsGap r && (c == '-' || (!flow && (c == '?' || c == ':'))))

/-! ## 8. One token -/

/-- The token that begins here. -/
def token (s : Scan) : Except Error Scan :=
  let cs := s.cursor.rest
  let flow := s.inFlow
  let lineStart := s.cursor.column == 0
  match cs with
  | [] => do return (← s.closeAll).push .textEnd
  | c :: r =>
    if lineStart && c == '%' then do
      let s ← s.closeAll
      let (d, rest) ← directive r
      return (s.dropTo rest).push (.directive d)
    else if lineStart && startsDocument cs then do return (← s.closeAll).indicator 3 .documentStart
    else if lineStart && endsDocument cs then do return (← s.closeAll).indicator 3 .documentEnd
    else if c == '[' then s.openFlow .flowSequenceStart
    else if c == '{' then s.openFlow .flowMappingStart
    else if c == ']' then s.closeFlow .flowSequenceEnd
    else if c == '}' then s.closeFlow .flowMappingEnd
    else if c == ',' then s.flowEntry
    else if c == '-' && startsGap r then s.blockEntry
    else if c == '?' && (flow || startsGap r) then s.explicitKey
    else if c == ':' && (flow || startsGap r) then s.value
    else if c == '*' then s.node 1 anchorName .alias
    else if c == '&' then s.node 1 anchorName .anchor
    else if c == '!' then s.node 0 Yaml.tag .tag
    else if c == '|' && !flow then s.blockScalar false
    else if c == '>' && !flow then s.blockScalar true
    else if c == '\'' then s.quoted single
    else if c == '"' then s.quoted double
    else if startsPlain flow cs then s.plainScalar
    else .error .malformed

/-- Goes to the next token and reads it, with the ends of the blocks that it closes. -/
def step (s : Scan) : Except Error Scan := do
  let s ← s.skip.forgetStale
  (s.unwind (s.cursor.column + 1)).token

/-- Reads on to the end of the text. `fuel` bounds the steps. -/
def run : Nat → Scan → List Token
  | 0, s => .failure .malformed :: s.tokens
  | fuel + 1, s =>
    match s.step with
    | .error e => .failure e :: s.tokens
    | .ok s =>
      match s.tokens with
      | .textEnd :: _ => s.tokens
      | _ => run fuel s

end Scan

/-- The tokens of a text. -/
def tokens (cs : List Char) : List Token :=
  (Scan.run (cs.length + 1) { cursor := ⟨cs, 0, 0, 0⟩ }).reverse

end Yaml

end Recall
