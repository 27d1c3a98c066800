/-
Recall.Proofs.Search.Trait — tokens that split the results of a query.

A *trait* can be asked for and, with a hyphen, excluded: a tag, a facet (note or citation), a state.
A token for a trait at the end of a query changes one thing, the operators, by one term
(`parse_token`), and that term changes one thing about an entry: whether it shows the trait
(`accepted_add`). So the token keeps those of the results that show the trait, and its negation
keeps the others.

What an entry shows is then traced to the record it was made from (`shownBy_ofThread`,
`shownBy_ofSpace`). The entry has its tags trimmed, lowered and freed of blanks and repeats; the
typed tag has been cleaned and lowered; `splits_results` speaks of neither, but of the record's own
tags.
-/
import Recall.Proofs.Query.Merge
import Recall.Proofs.Text.Occurs
import Recall.Search.Filter

namespace Recall

/-- What a token can ask for or exclude. -/
inductive Trait where
  | tag (name : String)
  | facet (f : Facet)
  | state (s : State)
  deriving DecidableEq, Repr

namespace Trait

/-! ## 1. Typing a trait -/

/-- The token that asks for a trait, or excludes it. -/
def token (negated : Bool) (t : Trait) : String :=
  (if negated then "-" else "") ++
    match t with
    | .tag name => "tag:" ++ name
    | .facet f => "has:" ++ f.name
    | .state s => "is:" ++ s.name

/-- A tag can be typed without quotes if it is plain and not empty. -/
def Typable : Trait → Prop
  | .tag name => name ≠ "" ∧ Chars.Plain name.toList
  | _ => True

instance (t : Trait) : Decidable t.Typable :=
  match t with
  | .tag _ => inferInstanceAs (Decidable (_ ∧ _))
  | .facet _ | .state _ => inferInstanceAs (Decidable True)

/-- The term that the token is read as. -/
def term (negated : Bool) : Trait → Term
  | .tag name => .tag negated (Text.lower name)
  | .facet f => .has negated f
  | .state s => .is negated s

/-- The key of the token. -/
def key : Trait → Key
  | .tag _ => .tag
  | .facet _ => .has
  | .state _ => .is

/-- What stands behind the colon of the token. -/
def value : Trait → String
  | .tag name => name
  | .facet f => f.name
  | .state s => s.name

theorem toList_token (negated : Bool) (t : Trait) :
    (t.token negated).toList = Term.typed negated t.key t.value.toList := by
  cases negated <;> cases t <;> simp [token, Term.typed, key, Key.name, value]

theorem value_plain {t : Trait} (h : t.Typable) :
    t.value ≠ "" ∧ Chars.Plain t.value.toList := by
  cases t with
  | tag name => exact h
  | facet f => cases f <;> decide
  | state s => cases s <;> decide

theorem token_plain {t : Trait} (h : t.Typable) (negated : Bool) :
    Chars.Plain (t.token negated).toList := by
  have hname : ∀ k : Key, Chars.Plain k.name.toList := by
    intro k
    cases k <;> decide
  intro c hc
  rw [toList_token, Term.typed, List.mem_append, List.mem_append, List.mem_cons] at hc
  rcases hc with (hc | hc) | rfl | hc
  · cases negated with
    | false => cases hc
    | true =>
      obtain rfl := List.mem_singleton.mp hc
      decide
  · exact hname t.key c hc
  · decide
  · exact (value_plain h).2 c hc

theorem balanced_token {t : Trait} (h : t.Typable) (negated : Bool) :
    Token.Balanced (t.token negated) := by
  rw [Token.Balanced, Token.quotes_plain (token_plain h negated)]

theorem ofToken_token {t : Trait} (h : t.Typable) (negated : Bool) :
    Term.ofToken (t.token negated) = t.term negated := by
  obtain ⟨hne, hplain⟩ := value_plain h
  have hclean := Term.cleanValue_plain hplain
  have hoperator : Term.ofOperator? t.key negated t.value = some (t.term negated) := by
    cases t with
    | tag name => rfl
    | facet f => cases negated <;> cases f <;> decide +kernel
    | state s => cases negated <;> cases s <;> decide +kernel
  rw [← String.ofList_toList (s := t.token negated), toList_token]
  refine Term.ofToken_typed ?_ ?_
  · rw [hclean]
    simpa using hne
  · rw [hclean, String.ofList_toList, hoperator]

/-- A trait typed behind a query is its last term. -/
theorem terms_token {raw : String} {t : Trait} (hraw : Token.Balanced raw) (h : t.Typable)
    (negated : Bool) :
    Query.terms (raw ++ " " ++ t.token negated) = Query.terms raw ++ [t.term negated] := by
  have hne : (t.token negated).toList ≠ [] := by
    rw [toList_token]
    simp [Term.typed]
  rw [Query.terms_append hraw (balanced_token h negated)]
  congr 1
  rw [Query.terms, Token.tokens, Token.split_plain hne (token_plain h negated), List.map_singleton,
    String.ofList_toList, List.map_singleton, ofToken_token h]

/-- Nothing but tags, facets and states comes with a trait. -/
theorem add_keeps (t : Trait) (negated : Bool) (o : Operators) :
    (o.add (t.term negated)).kind = o.kind ∧ (o.add (t.term negated)).space = o.space ∧
      (o.add (t.term negated)).spaceId = o.spaceId ∧
      (o.add (t.term negated)).verbatim = o.verbatim := by
  cases t with
  | tag name => cases negated <;> exact ⟨rfl, rfl, rfl, rfl⟩
  | facet f => cases negated <;> cases f <;> exact ⟨rfl, rfl, rfl, rfl⟩
  | state s => cases negated <;> exact ⟨rfl, rfl, rfl, rfl⟩

/-- All that it changes about the query is one term more among the operators. -/
theorem parse_token {raw : String} {t : Trait} (hraw : Token.Balanced raw) (h : t.Typable)
    (verbatim negated : Bool) :
    Query.parse (raw ++ " " ++ t.token negated) verbatim =
      { Query.parse raw verbatim with
        operators := (Query.parse raw verbatim).operators.add (t.term negated) } := by
  have hword : (t.term negated).word? = none := by cases t <;> rfl
  have htext : Query.textOf (Query.terms raw ++ [t.term negated]) =
      Query.textOf (Query.terms raw) := by
    simp [Query.textOf, hword]
  have hoperators : Operators.ofTerms (Query.terms raw ++ [t.term negated]) =
      (Operators.ofTerms (Query.terms raw)).add (t.term negated) := by
    simp [Operators.ofTerms]
  have hverbatim := (add_keeps t negated (Operators.ofTerms (Query.terms raw))).2.2.2
  simp only [Query.parse, terms_token hraw h, htext, hoperators, hverbatim]

/-! ## 2. Accepting an entry -/

/-- Whether an entry shows a trait. -/
def shownBy (t : Trait) (e : Entry) : Bool :=
  match t with
  | .tag name => e.tags.contains (Text.lower name)
  | .facet .note => e.note != ""
  | .facet .citation => !e.citations.isEmpty
  | .state s => e.isSet s.name

/-- The family of the trait's operator. -/
def family : Trait → Family
  | .tag _ => .tags
  | .facet _ => .has
  | .state _ => .states

theorem usedBy_add {f : Family} {t : Trait} (h : f ≠ t.family) (negated : Bool) (o : Operators) :
    f.usedBy (o.add (t.term negated)) = f.usedBy o := by
  cases t with
  | tag name => cases f <;> cases negated <;> first | rfl | exact absurd rfl h
  | facet facet => cases f <;> cases negated <;> cases facet <;> first | rfl | exact absurd rfl h
  | state s => cases f <;> cases negated <;> first | rfl | exact absurd rfl h

theorem inScope_add {e : Entry} {t : Trait} (h : e.kind.supports t.family = true) (negated : Bool)
    (o : Operators) : e.inScope (o.add (t.term negated)) = e.inScope o := by
  have hfamily : ∀ f : Family, (!f.usedBy (o.add (t.term negated)) || e.kind.supports f) =
      (!f.usedBy o || e.kind.supports f) := by
    intro f
    by_cases hf : f = t.family
    · rw [hf, h, Bool.or_true, Bool.or_true]
    · rw [usedBy_add hf]
  simp only [Entry.inScope, hfamily, (add_keeps t negated o).1]

theorem inSpace_add (e : Entry) (t : Trait) (negated : Bool) (o : Operators) :
    e.inSpace (o.add (t.term negated)) = e.inSpace o := by
  obtain ⟨-, hspace, hspaceId, -⟩ := add_keeps t negated o
  simp only [Entry.inSpace, Operators.usesSpace, hspace, hspaceId]

/-- A name that is also asked for, or also excluded. -/
theorem all_and_not_any_concat (p : String → Bool) (wanted excluded : List String) (name : String) :
    ((wanted ++ [name]).all p && !excluded.any p) =
        (wanted.all p && !excluded.any p && (p name != false)) ∧
      (wanted.all p && !(excluded ++ [name]).any p) =
        (wanted.all p && !excluded.any p && (p name != true)) := by
  simp only [List.all_append, List.all_cons, List.all_nil, List.any_append, List.any_cons,
    List.any_nil, Bool.and_true, Bool.or_false, Bool.not_or, Bool.bne_false, Bool.bne_true]
  exact ⟨Bool.and_right_comm _ _ _, (Bool.and_assoc _ _ _).symm⟩

theorem hasTags_add (e : Entry) (negated : Bool) (name : String) (o : Operators) :
    e.hasTags (o.add (.tag negated name)) =
      (e.hasTags o && (e.tags.contains name != negated)) := by
  obtain ⟨hwanted, hexcluded⟩ :=
    all_and_not_any_concat (fun t => e.tags.contains t) o.tags o.notTags name
  cases negated with
  | false => exact hwanted
  | true => exact hexcluded

/-- A facet that is also asked for, or also excluded. -/
theorem facetAllowed_add (wanted excluded present : Bool) :
    Entry.facetAllowed true excluded present =
        (Entry.facetAllowed wanted excluded present && (present != false)) ∧
      Entry.facetAllowed wanted true present =
        (Entry.facetAllowed wanted excluded present && (present != true)) := by
  cases wanted <;> cases excluded <;> cases present <;> decide

theorem hasFacets_add (e : Entry) (negated : Bool) (f : Facet) (o : Operators) :
    e.hasFacets (o.add (.has negated f)) = (e.hasFacets o && ((facet f).shownBy e != negated)) := by
  cases f with
  | note =>
    obtain ⟨hwanted, hexcluded⟩ := facetAllowed_add o.hasNote o.notHasNote (e.note != "")
    cases negated with
    | false =>
      simp only [Entry.hasFacets, Operators.add, shownBy, hwanted]
      exact Bool.and_right_comm _ _ _
    | true =>
      simp only [Entry.hasFacets, Operators.add, shownBy, hexcluded]
      exact Bool.and_right_comm _ _ _
  | citation =>
    obtain ⟨hwanted, hexcluded⟩ :=
      facetAllowed_add o.hasCitation o.notHasCitation (!e.citations.isEmpty)
    cases negated with
    | false => simp only [Entry.hasFacets, Operators.add, shownBy, hwanted, Bool.and_assoc]
    | true => simp only [Entry.hasFacets, Operators.add, shownBy, hexcluded, Bool.and_assoc]

theorem hasStates_add (e : Entry) (negated : Bool) (s : State) (o : Operators) :
    e.hasStates (o.add (.is negated s)) = (e.hasStates o && (e.isSet s.name != negated)) := by
  obtain ⟨hwanted, hexcluded⟩ := all_and_not_any_concat e.isSet o.states o.notStates s.name
  cases negated with
  | false => exact hwanted
  | true => exact hexcluded

/-- One trait more is one test more, which its negation turns around. -/
theorem checks_add (e : Entry) (t : Trait) (negated : Bool) (o : Operators) :
    (e.hasTags (o.add (t.term negated)) && e.hasFacets (o.add (t.term negated)) &&
        e.hasStates (o.add (t.term negated))) =
      (e.hasTags o && e.hasFacets o && e.hasStates o && (t.shownBy e != negated)) := by
  cases t with
  | tag name =>
    have hfacets : e.hasFacets (o.add (.tag negated (Text.lower name))) = e.hasFacets o := by
      cases negated <;> rfl
    have hstates : e.hasStates (o.add (.tag negated (Text.lower name))) = e.hasStates o := by
      cases negated <;> rfl
    rw [term, hasTags_add, hfacets, hstates, shownBy, Bool.and_right_comm (e.hasTags o),
      Bool.and_right_comm (_ && _)]
  | facet f =>
    have htags : e.hasTags (o.add (.has negated f)) = e.hasTags o := by
      cases negated <;> cases f <;> rfl
    have hstates : e.hasStates (o.add (.has negated f)) = e.hasStates o := by
      cases negated <;> cases f <;> rfl
    rw [term, hasFacets_add, htags, hstates, ← Bool.and_assoc, Bool.and_right_comm (_ && _)]
  | state s =>
    have htags : e.hasTags (o.add (.is negated s)) = e.hasTags o := by cases negated <;> rfl
    have hfacets : e.hasFacets (o.add (.is negated s)) = e.hasFacets o := by
      cases negated <;> rfl
    rw [term, hasStates_add, htags, hfacets, shownBy, ← Bool.and_assoc]

theorem accepted_add {e : Entry} {t : Trait} (h : e.kind.supports t.family = true)
    (negated : Bool) (q : Query) (window : String) (now : Int) :
    e.accepted { q with operators := q.operators.add (t.term negated) } window now =
      (e.accepted q window now && (t.shownBy e != negated)) := by
  have hchecks := checks_add e t negated q.operators
  simp only [Entry.accepted, inScope_add h, inSpace_add, Bool.and_assoc] at hchecks ⊢
  rw [hchecks]

/-! ## 3. Many tokens -/

/-- A query with tokens for traits behind it, some of them negated. -/
def typedBehind (raw : String) (ts : List (Bool × Trait)) : String :=
  ts.foldl (fun raw s => raw ++ " " ++ s.2.token s.1) raw

/-- Behind a query any number of tokens test an entry one by one. -/
theorem accepted_typedBehind {e : Entry} (verbatim : Bool) (window : String) (now : Int) :
    ∀ (ts : List (Bool × Trait)) {raw : String}, Token.Balanced raw →
      (∀ s ∈ ts, s.2.Typable ∧ e.kind.supports s.2.family = true) →
      e.accepted (Query.parse (typedBehind raw ts) verbatim) window now =
        (e.accepted (Query.parse raw verbatim) window now && ts.all fun s => s.2.shownBy e != s.1)
  | [], raw, _, _ => by simp [typedBehind]
  | s :: r, raw, hraw, h => by
      -- The first token is part of the query for the rest, so the query is not fixed.
      obtain ⟨htyp, hsup⟩ := h s List.mem_cons_self
      have hnext := hraw.append (balanced_token htyp s.1)
      have ih := accepted_typedBehind verbatim window now r hnext fun u hu =>
        h u (List.mem_cons_of_mem s hu)
      rw [typedBehind, List.foldl_cons, ← typedBehind, ih, parse_token hraw htyp,
        accepted_add hsup, List.all_cons, Bool.and_assoc]

/-! ## 4. Records -/

/-- Whether a thread with its note has a trait. -/
def heldByThread (t : Trait) (x : Thread × Option String) : Bool :=
  match t with
  | .tag name => x.1.tags.any fun tag => Text.lower (Text.trim tag) == Text.lower name
  | .facet .note => x.2.any fun note => !Text.isBlank note
  | .facet .citation => !x.1.citations.isEmpty
  | .state .pinned => x.1.pinned
  | .state .favorite => x.1.favorite
  | .state .archived => x.1.archived

/-- Whether a space with its tags has a trait; only a tag it can have. -/
def heldBySpace (t : Trait) (x : Space × List String) : Bool :=
  match t with
  | .tag name => x.2.any fun tag => Text.lower (Text.trim tag) == Text.lower name
  | _ => false

/-- The tags of an entry are those of the record, trimmed and lowered; a blank one is no tag. -/
theorem contains_tagSet {name : String} (h : name ≠ "") (tags : List String) :
    (Entry.tagSet tags).contains (Text.lower name) =
      tags.any fun tag => Text.lower (Text.trim tag) == Text.lower name := by
  rw [Bool.eq_iff_iff, List.contains_iff_mem, Entry.tagSet, Text.mem_distinct, List.any_eq_true]
  simp only [List.mem_map, List.mem_filter, Bool.not_eq_eq_eq_not, Bool.not_true, beq_iff_eq]
  constructor
  · rintro ⟨tag, ⟨htag, -⟩, heq⟩
    exact ⟨tag, htag, heq⟩
  · rintro ⟨tag, htag, heq⟩
    refine ⟨tag, ⟨htag, ?_⟩, heq⟩
    -- A blank tag is dropped, but a trimmed blank is empty and no name lowers to that.
    by_contra hblank
    have hempty := Text.trim_eq_empty_iff.mpr (Bool.not_eq_false _ ▸ hblank)
    rw [hempty] at heq
    exact h (Text.lower_eq_empty_iff.mp heq.symm)

theorem trim_bne_empty (s : String) : (Text.trim s != "") = !Text.isBlank s := by
  rw [Bool.eq_iff_iff]
  simp [Text.trim_eq_empty_iff]

theorem shownBy_ofThread {t : Trait} (h : t.Typable) (x : Thread × Option String) :
    t.shownBy (Entry.ofThread x.1 x.2) = t.heldByThread x := by
  obtain ⟨thread, note⟩ := x
  cases t with
  | tag name => exact contains_tagSet h.1 thread.tags
  | facet f =>
    cases f with
    | note =>
      cases note with
      | none => rfl
      | some s => exact trim_bne_empty s
    | citation => rfl
  | state s => cases s <;> rfl

theorem shownBy_ofSpace {name : String} (h : name ≠ "") (x : Space × List String) :
    (tag name).shownBy (Entry.ofSpace x.1 x.2) = (tag name).heldBySpace x := by
  have hempty : (Text.lower (Text.trim "") == Text.lower name) = false :=
    beq_false_of_ne fun heq => h (Text.lower_eq_empty_iff.mp heq.symm)
  have htag : ∀ tag : String, (tag != "" && Text.lower (Text.trim tag) == Text.lower name) =
      (Text.lower (Text.trim tag) == Text.lower name) := by
    intro tag
    by_cases ht : tag = ""
    · rw [ht, hempty, Bool.and_false]
    · rw [bne_iff_ne.mpr ht, Bool.true_and]
  refine (contains_tagSet h (x.2.filter fun t => t != "")).trans ?_
  rw [List.any_filter, heldBySpace]
  simp only [htag]

/-! ## 5. Results -/

/-- The entry of a thread with its note. -/
def threadEntry (x : Thread × Option String) : Entry := Entry.ofThread x.1 x.2

/-- The entry of a space with its tags. -/
def spaceEntry (x : Space × List String) : Entry := Entry.ofSpace x.1 x.2

/-- The rows whose entries a query keeps, in order. -/
def kept {β : Type} (entry : β → Entry) (q : Query) (window : String) (now : Int)
    (rows : List β) : List β :=
  rows.filter fun x => (entry x).accepted q window now

/-- What tokens for traits do to the results of a query. The rows kept stand for the entries kept;
a token keeps those that hold the trait and its negation those that do not; and of many tokens
neither the order nor the repetition counts. -/
structure Splits {β : Type} (entry : β → Entry) (holds : Trait → β → Bool) (allowed : Trait → Prop)
    (raw : String) (verbatim : Bool) (window : String) (now : Int) (rows : List β) : Prop where
  stand : ∀ q, Entry.filter q window now (rows.map entry) =
    (kept entry q window now rows).map entry
  wanted : ∀ t, allowed t →
    kept entry (Query.parse (raw ++ " " ++ t.token false) verbatim) window now rows =
      (kept entry (Query.parse raw verbatim) window now rows).filter (holds t)
  excluded : ∀ t, allowed t →
    kept entry (Query.parse (raw ++ " " ++ t.token true) verbatim) window now rows =
      (kept entry (Query.parse raw verbatim) window now rows).filter fun x => !holds t x
  order : ∀ ts us : List (Bool × Trait), (∀ s ∈ ts, allowed s.2) → (∀ s, s ∈ ts ↔ s ∈ us) →
    kept entry (Query.parse (typedBehind raw ts) verbatim) window now rows =
      kept entry (Query.parse (typedBehind raw us) verbatim) window now rows

theorem kept_typedBehind {β : Type} {entry : β → Entry} {holds : Trait → β → Bool}
    {raw : String} (hraw : Token.Balanced raw) (verbatim : Bool) (window : String) (now : Int)
    (rows : List β) (ts : List (Bool × Trait))
    (h : ∀ s ∈ ts, s.2.Typable ∧
      ∀ x, (entry x).kind.supports s.2.family = true ∧ s.2.shownBy (entry x) = holds s.2 x) :
    kept entry (Query.parse (typedBehind raw ts) verbatim) window now rows =
      (kept entry (Query.parse raw verbatim) window now rows).filter fun x =>
        ts.all fun s => holds s.2 x != s.1 := by
  rw [kept, kept, List.filter_filter]
  refine List.filter_congr fun x _ => ?_
  rw [accepted_typedBehind verbatim window now ts hraw fun s hs => ⟨(h s hs).1, ((h s hs).2 x).1⟩,
    Bool.and_comm]
  congr 1
  rw [Bool.eq_iff_iff, List.all_eq_true, List.all_eq_true]
  refine forall₂_congr fun s hs => ?_
  rw [((h s hs).2 x).2]

theorem splits {β : Type} {entry : β → Entry} {holds : Trait → β → Bool} {allowed : Trait → Prop}
    {raw : String} (hraw : Token.Balanced raw)
    (h : ∀ t, allowed t → t.Typable ∧
      ∀ x, (entry x).kind.supports t.family = true ∧ t.shownBy (entry x) = holds t x)
    (verbatim : Bool) (window : String) (now : Int) (rows : List β) :
    Splits entry holds allowed raw verbatim window now rows where
  stand q := List.filter_map
  wanted t ht := by
    have hone := kept_typedBehind hraw verbatim window now rows [(false, t)]
      (by simpa using h t ht)
    simpa [typedBehind] using hone
  excluded t ht := by
    have hone := kept_typedBehind hraw verbatim window now rows [(true, t)]
      (by simpa using h t ht)
    simpa [typedBehind] using hone
  order ts us hts hsame := by
    have hus : ∀ s ∈ us, allowed s.2 := fun s hs => hts s ((hsame s).mpr hs)
    rw [kept_typedBehind hraw verbatim window now rows ts fun s hs => h s.2 (hts s hs),
      kept_typedBehind hraw verbatim window now rows us fun s hs => h s.2 (hus s hs)]
    congr 1
    funext x
    rw [Bool.eq_iff_iff, List.all_eq_true, List.all_eq_true]
    exact forall_congr' fun s => imp_congr_left (hsame s)

/-- **Tokens split the results.** Behind any query with balanced quotes a token for a tag, a note, a
citation or a state keeps those of the threads found that have it, and with a hyphen the others. So
does a token for a tag with the spaces found. -/
theorem splits_results (raw : String) (verbatim : Bool) (window : String) (now : Int)
    (hraw : Token.Balanced raw) :
    (∀ rows : List (Thread × Option String),
      Splits threadEntry heldByThread Typable raw verbatim window now rows) ∧
    ∀ rows : List (Space × List String),
      Splits spaceEntry heldBySpace (fun t => t.Typable ∧ ∃ name, t = tag name)
        raw verbatim window now rows := by
  refine ⟨splits hraw (fun t ht => ⟨ht, fun x => ⟨rfl, shownBy_ofThread ht x⟩⟩) verbatim window now,
    splits hraw ?_ verbatim window now⟩
  rintro t ⟨ht, name, rfl⟩
  exact ⟨ht, fun x => ⟨rfl, shownBy_ofSpace ht.1 x⟩⟩

theorem splits_results_negated_tag :
    Token.Balanced "\"plan b\"" ∧ (tag "Q1").Typable ∧
      (kept threadEntry (Query.parse ("\"plan b\"" ++ " " ++ (tag "Q1").token true) false) "all" 0
        [({ id := "t1", question := "plan b", tags := [" q1 ", "x"] }, none),
          ({ id := "t2", question := "plan b", tags := ["Q2"] }, some "later")]).map
          (fun x => x.1.id) = ["t2"] := by
  have hraw : Token.Balanced "\"plan b\"" := by decide +kernel
  have htag : (tag "Q1").Typable := by decide +kernel
  refine ⟨hraw, htag, ?_⟩
  rw [((splits_results "\"plan b\"" false "all" 0 hraw).1 _).excluded (tag "Q1") htag]
  decide +kernel

end Trait

end Recall
