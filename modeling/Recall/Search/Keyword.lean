/-
Recall.Search.Keyword — keyword search over uploaded files.

Keywords are the runs of ASCII letters and digits in the lowered query that have three characters
or more. A file scores two for each hit in its name and one for each hit in its text; a keyword
that was typed twice counts twice. The snippet shows the place of the first keyword that the text
has.
-/
import Recall.Record.Basic
import Recall.Text.Case

namespace Recall

namespace Keyword

/-- Lower-case ASCII letters and digits. -/
def isKeyChar (c : Char) : Bool :=
  ('a' ≤ c && c ≤ 'z') || ('0' ≤ c && c ≤ '9')

/-- The keywords of a query, in order and with repeats. -/
def keywords (query : List Char) : List (List Char) :=
  (Chars.fields (fun c => !isKeyChar c) (Chars.lower query)).filter fun w => 3 ≤ w.length

/-- The hits of every keyword in a text. -/
def countHits (ks : List (List Char)) (text : List Char) : Nat :=
  ks.foldr (fun k n => Chars.count k (Chars.lower text) + n) 0

/-- The score of a file. -/
def score (ks : List (List Char)) (f : LibraryFile) : Nat :=
  2 * countHits ks f.name.toList + countHits ks f.text.toList

/-- The position of the first keyword that occurs in a lowered text. -/
def firstHit? (ks : List (List Char)) (lowered : List Char) : Option Nat :=
  ks.findSome? fun k => Chars.find? k lowered

/-- The neighbourhood of the first hit, forty characters before and 120 from it on, or else the
first 160 characters; blanks are collapsed. -/
def snippet (ks : List (List Char)) (text : List Char) : List Char :=
  match firstHit? ks (Chars.lower text) with
  | some i => Chars.collapse ((text.take (i + 120)).drop (i - 40))
  | none => Chars.collapse (text.take 160)

/-- A file that was found. -/
structure Hit where
  file : LibraryFile
  score : Nat
  snippet : String
  deriving DecidableEq, Repr

/-- The files with hits, best score first and equal ones in order, at most `limit` of them. -/
def search (files : List LibraryFile) (query : String) (limit : Int) : List Hit :=
  let ks := keywords query.toList
  let found := files.filterMap fun f =>
    let s := score ks f
    if s = 0 then none else some ⟨f, s, String.ofList (snippet ks f.text.toList)⟩
  (found.mergeSort fun a b => b.score ≤ a.score).take limit.toNat

end Keyword

end Recall
