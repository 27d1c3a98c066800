/-
Recall.Yaml.Scalar — the scalars of a YAML text.

There are five ways to write a scalar: plain, in single quotes, in double quotes, and as a literal
or folded block. A reader takes the characters after the opening indicator, or at the first
character of a plain scalar, and gives the scalar's content with the characters after it.

Inside plain and quoted scalars a line break is folded: with the spaces around it, it reads as one
space, and each empty line as a line feed. Blocks keep their lines, and what counts there is the
column at which a line begins.
-/
import Recall.Text.Digit
import Recall.Yaml.Text

namespace Recall

namespace Yaml

/-! ## 1. Plain scalars -/

/-- Whether a plain scalar's piece ends here: at a gap, at a colon before a gap, and in flow
collections at their indicators. -/
def plainEnds (flow : Bool) : List Char → Bool
  | [] => true
  | c :: r =>
    isGap c || (c == ':' && (startsGap r || (flow && startsWith [',', '[', ']', '{', '}'] r))) ||
      (flow && [',', '?', '[', ']', '{', '}'].contains c)

/-- The characters of a plain scalar up to the next gap, and the rest. -/
def plainPiece (flow : Bool) : List Char → List Char × List Char
  | [] => ([], [])
  | c :: r =>
    if plainEnds flow (c :: r) then ([], c :: r)
    else
      let (piece, rest) := plainPiece flow r
      (c :: piece, rest)

/-- The empty lines after a line break and the indentation of the next line. -/
structure Fold where
  /-- The ends of the empty lines. -/
  breaks : List Char
  /-- The column of the first character that is not a space. -/
  column : Nat
  /-- The text from there on. -/
  rest : List Char
  /-- A mark of documents begins a line, and `rest` begins with it. -/
  marked : Bool

/-- Passes empty lines and indentation, from a column on. -/
def foldFrom (column : Nat) : List Char → Fold
  | [] => ⟨[], column, [], false⟩
  | c :: r =>
    if c = ' ' then foldFrom (column + 1) r
    else if isBreak c then
      if startsMark r then ⟨[], 0, r, true⟩
      else
        let f := foldFrom 0 r
        { f with breaks := breakText c :: f.breaks }
    else ⟨[], column, c :: r, false⟩

/-- What was read of a plain scalar. -/
structure Plain where
  text : List Char
  rest : List Char
  /-- A line break was passed behind the last piece. -/
  crossed : Bool

/-- A plain scalar from one of its pieces on; the lines after the first begin at the margin or to
the right of it. `crossed` says that a line break was just passed, and `fuel` bounds the pieces. -/
def plainFrom (flow : Bool) (margin : Nat) (crossed : Bool) : Nat → List Char → Plain
  | 0, cs => ⟨[], cs, crossed⟩
  | fuel + 1, cs =>
    if startsWith ['#'] cs then ⟨[], cs, crossed⟩
    else
      match plainPiece flow cs with
      | ([], _) => ⟨[], cs, crossed⟩
      | (piece, r) =>
        let spaces := r.takeWhile (· == ' ')
        match r.dropWhile (· == ' ') with
        | [] => ⟨piece, [], false⟩
        | c :: r =>
          if isBreak c then
            if startsMark r then ⟨piece, r, true⟩
            else
              let f := foldFrom 0 r
              if f.marked || startsWith ['#'] f.rest || (!flow && f.column < margin) then
                ⟨piece, f.rest, true⟩
              else
                let p := plainFrom flow margin true fuel f.rest
                if p.text.isEmpty then ⟨piece, p.rest, p.crossed⟩
                else { p with text := piece ++ foldedBreaks (breakText c) f.breaks ++ p.text }
          else if spaces.isEmpty || c == '#' then ⟨piece, c :: r, false⟩
          else
            let p := plainFrom flow margin false fuel (c :: r)
            if p.text.isEmpty then ⟨piece, p.rest, p.crossed⟩
            else { p with text := piece ++ spaces ++ p.text }

/-- A plain scalar. -/
def plain (flow : Bool) (margin : Nat) (cs : List Char) : Plain :=
  plainFrom flow margin false (cs.length + 1) cs

/-! ## 2. Quoted scalars -/

/-- The empty lines after a line break in a quoted scalar, with the white space that begins the
next line passed. `fresh` says that a line begins; a mark of documents may not begin one. -/
def quotedBreaks (fresh : Bool) : List Char → Except Error (List Char × List Char)
  | [] => .ok ([], [])
  | c :: r =>
    if fresh && startsMark (c :: r) then .error .malformed
    else if isWhite c then quotedBreaks false r
    else if isBreak c then do
      let (breaks, rest) ← quotedBreaks true r
      return (breakText c :: breaks, rest)
    else .ok ([], c :: r)

/-- White space inside a quoted scalar: kept as it is within a line, folded around a line break. -/
def quotedGap (cs : List Char) : Except Error (List Char × List Char) :=
  match cs.dropWhile isWhite with
  | [] => .error .malformed
  | c :: r =>
    if isBreak c then do
      let (breaks, rest) ← quotedBreaks true r
      return (foldedBreaks (breakText c) breaks, rest)
    else .ok (cs.takeWhile isWhite, c :: r)

/-- The rest of a scalar in single quotes; a quote inside is written twice. -/
def singleFrom : Nat → List Char → Except Error (List Char × List Char)
  | 0, _ => .error .malformed
  | _ + 1, [] => .error .malformed
  | fuel + 1, c :: r =>
    if c = '\'' then
      match r with
      | '\'' :: r => do
        let (text, rest) ← singleFrom fuel r
        return ('\'' :: text, rest)
      | r => .ok ([], r)
    else if isGap c then do
      let (gap, r) ← quotedGap (c :: r)
      let (text, rest) ← singleFrom fuel r
      return (gap ++ text, rest)
    else do
      let (text, rest) ← singleFrom fuel r
      return (c :: text, rest)

/-- The character that a one-letter escape stands for. -/
def escaped? (c : Char) : Option Char :=
  match c with
  | '0' => some '\x00'
  | 'a' => some '\x07'
  | 'b' => some '\x08'
  | 't' => some '\t'
  | '\t' => some '\t'
  | 'n' => some '\n'
  | 'v' => some '\x0B'
  | 'f' => some '\x0C'
  | 'r' => some '\r'
  | 'e' => some '\x1B'
  | ' ' => some ' '
  | '"' => some '"'
  | '\\' => some '\\'
  | '/' => some '/'
  | 'N' => some '\x85'
  | '_' => some '\xA0'
  | 'L' => some '\u2028'
  | 'P' => some '\u2029'
  | _ => none

/-- The number of hexadecimal digits after an escape's letter. -/
def escapeWidth? (c : Char) : Option Nat :=
  match c with
  | 'x' => some 2
  | 'u' => some 4
  | 'U' => some 8
  | _ => none

/-- The number that exactly `n` hexadecimal digits denote, and the rest. -/
def hexNumber? (n : Nat) (cs : List Char) : Option (Nat × List Char) := do
  let digits ← (cs.take n).mapM Chars.hexValue?
  if digits.length = n then some (digits.foldl (fun v d => 16 * v + d) 0, cs.drop n) else none

/-- The character of a code point; half of a surrogate pair becomes the replacement character. -/
def ofCode (n : Nat) : Except Error Char :=
  if 0x7FFFFFFF < n then .error .codeTooLarge
  else if 0x10FFFF < n then .error .noCharacter
  else if 0xD800 ≤ n ∧ n ≤ 0xDFFF then .ok '\uFFFD'
  else .ok (Char.ofNat n)

/-- What an escape stands for, after its backslash: a character, or nothing for an escaped line
break with the white space around it. -/
def escape : List Char → Except Error (List Char × List Char)
  | [] => .error .malformed
  | c :: r =>
    match escaped? c, escapeWidth? c with
    | some e, _ => .ok ([e], r)
    | none, some n =>
      match hexNumber? n r with
      | none => .error .malformed
      | some (code, r) => do return ([← ofCode code], r)
    | none, none => if isBreak c then quotedBreaks true r else .error .malformed

/-- The rest of a scalar in double quotes. -/
def doubleFrom : Nat → List Char → Except Error (List Char × List Char)
  | 0, _ => .error .malformed
  | _ + 1, [] => .error .malformed
  | fuel + 1, c :: r =>
    if c = '"' then .ok ([], r)
    else do
      let (piece, r) ←
        if c = '\\' then escape r
        else if isGap c then quotedGap (c :: r)
        else .ok ([c], r)
      let (text, rest) ← doubleFrom fuel r
      return (piece ++ text, rest)

/-- A scalar in single quotes, after the opening quote. -/
def single (cs : List Char) : Except Error (List Char × List Char) :=
  singleFrom (cs.length + 1) cs

/-- A scalar in double quotes, after the opening quote. -/
def double (cs : List Char) : Except Error (List Char × List Char) :=
  doubleFrom (cs.length + 1) cs

/-! ## 3. Block scalars -/

/-- What becomes of the line ends behind a block's last line: none is kept, or one, or all. -/
inductive Chomp where
  | strip
  | clip
  | keep
  deriving DecidableEq, Repr

/-- The indicator of what becomes of the last line ends. -/
def chomp? : List Char → Option (Chomp × List Char)
  | '+' :: r => some (.keep, r)
  | '-' :: r => some (.strip, r)
  | _ => none

/-- The indicator of a block's indentation, which is not zero. -/
def indentation? : List Char → Except Error (Option Nat × List Char)
  | [] => .ok (none, [])
  | c :: r =>
    if c = '0' then .error .malformed
    else if Chars.isAsciiDigit c then .ok (some (c.toNat - '0'.toNat), r)
    else .ok (none, c :: r)

/-- The two indicators of a block, in either order. -/
def indicators (cs : List Char) : Except Error (Chomp × Option Nat × List Char) :=
  match chomp? cs with
  | some (chomp, r) => do
    let (n, r) ← indentation? r
    return (chomp, n, r)
  | none => do
    let (n, r) ← indentation? cs
    match n, chomp? r with
    | some _, some (chomp, r) => return (chomp, n, r)
    | _, _ => return (.clip, n, r)

/-- The empty lines before a block's first line: their ends, the greatest number of spaces on any
of them or before the first line, the column that is reached, and the rest. -/
def leadIn (column widest : Nat) : List Char → List Char × Nat × Nat × List Char
  | [] => ([], widest, column, [])
  | c :: r =>
    if c = ' ' then leadIn (column + 1) (max widest (column + 1)) r
    else if isBreak c then
      let (breaks, w, col, rest) := leadIn 0 widest r
      (breakText c :: breaks, w, col, rest)
    else ([], widest, column, c :: r)

/-- The empty lines before a block's line: their ends, the column that is reached, at most the
block's, and the rest. -/
def emptyLines (indent column : Nat) : List Char → List Char × Nat × List Char
  | [] => ([], column, [])
  | c :: r =>
    if c = ' ' ∧ column < indent then emptyLines indent (column + 1) r
    else if isBreak c then
      let (breaks, col, rest) := emptyLines indent 0 r
      (breakText c :: breaks, col, rest)
    else ([], column, c :: r)

/-- Whether the next character is neither a space nor a tab. -/
def startsDark (cs : List Char) : Bool :=
  !startsWith [' ', '\t'] cs

/-- What stands between two lines of a block: the line end, or in a folded block a space between
lines that both begin dark with no empty line between them. -/
def joint (folded : Bool) (cs next : List Char) (lineBreak : Option Char) (empty : List Char) :
    List Char :=
  if folded && lineBreak == some '\n' && startsDark cs && startsDark next then
    if empty.isEmpty then [' '] else []
  else lineBreak.toList

/-- What remains of the line ends behind the last line. -/
def chomped (chomp : Chomp) (lineBreak : Option Char) (empty : List Char) : List Char :=
  match chomp with
  | .strip => []
  | .clip => lineBreak.toList
  | .keep => lineBreak.toList ++ empty

/-- The lines of a block, of which the first stands behind empty lines at a column. `fuel` bounds
the lines. -/
def blockLines (folded : Bool) (chomp : Chomp) (indent : Nat) :
    Nat → List Char → Nat → List Char → List Char × List Char
  | 0, empty, _, cs => (chomped chomp none empty, cs)
  | fuel + 1, empty, column, cs =>
    if column = indent ∧ !cs.isEmpty then
      let (text, r) := line cs
      let (lineBreak, r) := lineEnd r
      let (next, column, r) := emptyLines indent 0 r
      if column = indent ∧ !r.isEmpty then
        let (more, rest) := blockLines folded chomp indent fuel next column r
        (empty ++ text ++ joint folded cs r lineBreak next ++ more, rest)
      else (empty ++ text ++ chomped chomp lineBreak next, r)
    else (chomped chomp none empty, cs)

/-- A block scalar after its opening indicator. Its lines begin at the margin, and at the second
column at least; without an indicator the first line says where. -/
def block (folded : Bool) (margin : Nat) (cs : List Char) :
    Except Error (List Char × List Char) := do
  let (chomp, increment, r) ← indicators cs
  if !startsSpace r then .error .malformed
  else
    let r ← restOfLine r
    let least := max 1 margin
    match increment with
    | some n =>
      let indent := least + n - 1
      let (empty, column, r) := emptyLines indent 0 r
      return blockLines folded chomp indent (r.length + 1) empty column r
    | none =>
      let (empty, widest, column, r) := leadIn 0 0 r
      return blockLines folded chomp (max least widest) (r.length + 1) empty column r

end Yaml

end Recall
