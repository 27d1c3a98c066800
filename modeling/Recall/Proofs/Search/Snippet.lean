/-
Recall.Proofs.Search.Snippet — when a snippet shows the hit that it was cut for.

The hit is found in the lower case of a text, and the snippet is cut from the text at the same position.
This is the place of the hit if the two are equally long up to there. But U+0130 is lowered to two
characters, so every one of them in front moves the window by one to the right, away from the hit. The
window begins forty characters early, which makes up for forty of them (`fromStretch_iff`). With more in
front the hit is left out, and the snippet has the keyword only where it occurs once again.

Keywords are made of ASCII letters and digits. So they see neither which form a sigma has at the edge of
the window nor how the blanks are respaced (`infix_lower_collapse_iff`).
-/
import Recall.Proofs.Search.Keyword
import Recall.Proofs.Text.Stretch

namespace Recall

namespace Keyword

/-! ## 1. Keywords in a window -/

theorem toNat_of_isKeyChar {c : Char} (h : isKeyChar c = true) :
    97 ≤ c.toNat ∧ c.toNat ≤ 122 ∨ 48 ≤ c.toNat ∧ c.toNat ≤ 57 := by
  simp only [isKeyChar, Bool.or_eq_true, Bool.and_eq_true, decide_eq_true_eq] at h
  exact h

theorem isKeyChar_of_mem {query k : List Char} (h : k ∈ keywords query) :
    ∀ c ∈ k, isKeyChar c = true := by
  intro c hc
  simpa using Chars.not_of_mem_fields (List.mem_filter.mp h).1 c hc

theorem isBlank_of_isKeyChar {c : Char} (h : isKeyChar c = true) : Chars.isBlank c = false := by
  have hclear : Chars.clearOf Chars.blankRanges 48 122 = true := by decide
  have hcode := toNat_of_isKeyChar h
  rw [Chars.isBlank_eq_inRanges, Chars.inRanges_eq_false hclear (by omega) (by omega)]

theorem sigmaFree_of_mem {query k : List Char} (h : k ∈ keywords query) : Chars.SigmaFree k := by
  intro c hc
  have hkey := isKeyChar_of_mem h c hc
  constructor
  · rintro rfl
    revert hkey
    decide
  · rintro rfl
    revert hkey
    decide

/-- A keyword is in the lower case of a collapsed text if it is in that of the text. -/
theorem infix_lower_collapse_iff {query k cs : List Char} (h : k ∈ keywords query) :
    k <:+: Chars.lower (Chars.collapse cs) ↔ k <:+: Chars.lower cs := by
  rw [← Chars.collapse_lower]
  exact Chars.infix_collapse_iff (ne_nil_of_mem_keywords h) fun c hc =>
    isBlank_of_isKeyChar (isKeyChar_of_mem h c hc)

/-! ## 2. The hit -/

/-- The keyword that the snippet of a text is cut for: the first one of the query that occurs in the
lower case of the text. -/
def shown? (query text : List Char) : Option (List Char) :=
  (keywords query).find? fun k => Chars.occursIn k (Chars.lower text)

/-- The first hit is the first hit of the first keyword that occurs. -/
theorem firstHit?_eq {ks : List (List Char)} (hne : ∀ k ∈ ks, k ≠ []) (lowered : List Char) :
    firstHit? ks lowered =
      (ks.find? fun k => Chars.occursIn k lowered).bind fun k => Chars.find? k lowered := by
  induction ks with
  | nil => rfl
  | cons k ks ih =>
    obtain ⟨hk, hks⟩ := List.forall_mem_cons.mp hne
    have ih := ih hks
    rw [firstHit?] at ih ⊢
    rw [List.findSome?_cons, List.find?_cons, ih]
    cases hocc : Chars.occursIn k lowered with
    | false => rw [(Chars.find?_eq_none_iff hk).mpr hocc]
    | true =>
      cases hfind : Chars.find? k lowered with
      | none => exact absurd ((Chars.find?_eq_none_iff hk).mp hfind) (by simp [hocc])
      | some i => simp [hfind]

/-- The snippet of a result is cut around the first occurrence of the keyword that it is cut for. -/
theorem exists_snippet_eq {files : List LibraryFile} {query : String} {limit : Int} {h : Hit}
    {k : List Char} (hh : h ∈ search files query limit)
    (hk : shown? query.toList h.file.text.toList = some k) :
    ∃ i, Chars.find? k (Chars.lower h.file.text.toList) = some i ∧ h.snippet.toList =
      Chars.collapse ((h.file.text.toList.take (i + 120)).drop (i - 40)) := by
  have hmem := List.mem_of_find?_eq_some hk
  have hocc := List.find?_some hk
  obtain ⟨i, hi⟩ : ∃ i, Chars.find? k (Chars.lower h.file.text.toList) = some i := by
    rw [← Option.ne_none_iff_exists']
    intro hnone
    rw [(Chars.find?_eq_none_iff (ne_nil_of_mem_keywords hmem)).mp hnone] at hocc
    cases hocc
  have hfirst : firstHit? (keywords query.toList) (Chars.lower h.file.text.toList) = some i := by
    rw [firstHit?_eq fun w hw => ne_nil_of_mem_keywords hw]
    exact (congrArg (Option.bind · _) hk).trans hi
  rw [search_eq] at hh
  obtain ⟨r, -, rfl⟩ := List.mem_map.mp hh
  refine ⟨i, hi, ?_⟩
  simp only [hitOf] at hfirst ⊢
  rw [String.toList_ofList, snippet, hfirst]

/-! ## 3. The window -/

/-- The window around a hit has it if no more than forty U+0130 are in front of the window. -/
theorem fromStretch_iff {k cs : List Char} {i : Nat} (hne : k ≠ []) (hlen : k.length ≤ 120)
    (hi : Chars.OccursAt k (Chars.lower cs) i) :
    Chars.FromStretch cs (i - 40) (i + 120) i (i + k.length) ↔
      (cs.take (i - 40)).count 'İ' ≤ 40 := by
  have hend := hi.add_length_le hne
  have hpos : 0 < k.length := List.length_pos_iff.mpr hne
  rw [Chars.FromStretch, Chars.length_lower, Chars.length_lower]
  rw [Chars.length_lower] at hend
  rcases Nat.le_total cs.length (i - 40) with hshort | hlong
  · -- The window begins at the end of the text or behind it.
    have hcount : cs.count 'İ' ≤ cs.length := List.count_le_length
    rw [List.take_of_length_le hshort, List.take_of_length_le (by omega)]
    omega
  · have hstart : i ≤ 40 → (cs.take (i - 40)).count 'İ' = 0 := by
      intro hle
      rw [Nat.sub_eq_zero_of_le hle]
      rfl
    have hstop : i + k.length ≤ (cs.take (i + 120)).length + (cs.take (i + 120)).count 'İ' := by
      rcases Nat.le_total cs.length (i + 120) with hall | hpart
      · rwa [List.take_of_length_le hall]
      · rw [List.length_take, Nat.min_eq_left hpart]
        omega
    rw [List.length_take, Nat.min_eq_left hlong]
    omega

/-- **When a snippet shows its hit.** Let the first keyword of the query that occurs in the lower case of
a file's text have at most 120 characters, and let `i` be the position of its first occurrence there. The
lower case of the snippet has the keyword if at most forty U+0130 are in front of the window that begins
at `i - 40`, and otherwise only if a later occurrence is within the window. A text that is as long as its
lower case has none of them (`length_lower_eq_iff`), so its snippet always shows the hit. -/
theorem snippet_shows_hit_iff {files : List LibraryFile} {query : String} {limit : Int} {h : Hit}
    {k : List Char} (hh : h ∈ search files query limit)
    (hk : shown? query.toList h.file.text.toList = some k) (hlen : k.length ≤ 120) :
    ∃ i, Chars.OccursAt k (Chars.lower h.file.text.toList) i ∧
      (∀ j, j < i → ¬ Chars.OccursAt k (Chars.lower h.file.text.toList) j) ∧
      (k <:+: Chars.lower h.snippet.toList ↔
        (h.file.text.toList.take (i - 40)).count 'İ' ≤ 40 ∨
        ∃ j, i < j ∧ Chars.OccursAt k (Chars.lower h.file.text.toList) j ∧
          Chars.FromStretch h.file.text.toList (i - 40) (i + 120) j (j + k.length)) := by
  have hmem := List.mem_of_find?_eq_some hk
  have hne := ne_nil_of_mem_keywords hmem
  obtain ⟨i, hi, hsnippet⟩ := exists_snippet_eq hh hk
  obtain ⟨hocc, hfirst⟩ := (Chars.find?_eq_some_iff hne).mp hi
  refine ⟨i, hocc, hfirst, ?_⟩
  rw [hsnippet, infix_lower_collapse_iff hmem,
    Chars.infix_lower_stretch_iff hne (sigmaFree_of_mem hmem) (by omega),
    ← fromStretch_iff hne hlen hocc]
  constructor
  · rintro ⟨j, hj, hwithin⟩
    rcases Nat.lt_trichotomy j i with hlt | rfl | hlt
    · exact absurd hj (hfirst j hlt)
    · exact .inl hwithin
    · exact .inr ⟨j, hlt, hj, hwithin⟩
  · rintro (hwithin | ⟨j, -, hj, hwithin⟩)
    · exact ⟨i, hocc, hwithin⟩
    · exact ⟨j, hj, hwithin⟩

/-- A file whose text has 41 U+0130 in front of a hit. -/
def dottedFile (rest : String) : LibraryFile :=
  { id := "f", name := "n", text := String.ofList (List.replicate 41 'İ') ++ "roadmap" ++ rest }

/-- The first hit is cut, and there is another one. -/
theorem snippet_shows_hit_iff_dottedFile :
    search [dottedFile " and roadmap"] "roadmap" 3 =
      [⟨dottedFile " and roadmap", 2, "oadmap and roadmap"⟩] ∧
    shown? "roadmap".toList (dottedFile " and roadmap").text.toList = some "roadmap".toList ∧
    "roadmap".toList.length ≤ 120 ∧
    ∃ i, Chars.OccursAt "roadmap".toList (Chars.lower (dottedFile " and roadmap").text.toList) i ∧
      (∀ j, j < i → ¬ Chars.OccursAt "roadmap".toList
        (Chars.lower (dottedFile " and roadmap").text.toList) j) ∧
      ("roadmap".toList <:+: Chars.lower "oadmap and roadmap".toList ↔
        ((dottedFile " and roadmap").text.toList.take (i - 40)).count 'İ' ≤ 40 ∨
        ∃ j, i < j ∧
          Chars.OccursAt "roadmap".toList (Chars.lower (dottedFile " and roadmap").text.toList) j ∧
          Chars.FromStretch (dottedFile " and roadmap").text.toList (i - 40) (i + 120) j
            (j + "roadmap".toList.length)) := by
  have hsearch : search [dottedFile " and roadmap"] "roadmap" 3 =
      [⟨dottedFile " and roadmap", 2, "oadmap and roadmap"⟩] := by decide +kernel
  have hshown : shown? "roadmap".toList (dottedFile " and roadmap").text.toList =
      some "roadmap".toList := by decide +kernel
  have hmem : (⟨dottedFile " and roadmap", 2, "oadmap and roadmap"⟩ : Hit) ∈
      search [dottedFile " and roadmap"] "roadmap" 3 := by
    rw [hsearch]
    exact List.mem_singleton_self _
  have hlen : "roadmap".toList.length ≤ 120 := by decide
  have hshows := snippet_shows_hit_iff hmem hshown hlen
  exact ⟨hsearch, hshown, hlen, hshows⟩

/-- The only hit is cut. -/
theorem snippet_cuts_hit :
    search [dottedFile ""] "roadmap" 3 = [⟨dottedFile "", 1, "oadmap"⟩] ∧
    shown? "roadmap".toList (dottedFile "").text.toList = some "roadmap".toList ∧
    "roadmap".toList.length ≤ 120 ∧
    ¬ "roadmap".toList <:+: Chars.lower "oadmap".toList := by
  decide +kernel

end Keyword

end Recall
