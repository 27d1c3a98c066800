/-
Recall.Proofs.Query.Range — what a query can ask for.

`WellFormed` describes operators without a word about typing: kinds and states by their names,
spaces and tags without blanks at their ends, tags in lower case. `operators_range` says that
reading gives these and no others, and that each of them can be typed, next to any free text of
plain words.

* Reading keeps to the range: a token is read as a `Proper` term (`proper_ofToken`), one proper term
  more keeps operators well formed (`wellFormed_add`), and so does any number of them.
* `write` types operators and words. It spells the operators out as terms (`ofTerms_terms`), writes
  each with its value padded, and puts the whole token between quotes. So a token is read back as
  the term it was written for (`ofToken_written`), even where the value holds quotes, backslashes,
  colons or blanks.

⚠️ Words of free text are typed bare. A quoted word could not end in a backslash; a bare one cannot
hold a blank or a quote, and with a colon it might be taken for an operator.
-/
import Recall.Proofs.Query.Merge

namespace Recall

/-! ## 1. Reading keeps to the range -/

namespace Operators

/-- Operators that a query can ask for. -/
structure WellFormed (o : Operators) : Prop where
  kind : ∀ name ∈ o.kind, ∃ k : Kind, name = k.name
  space : ∀ name ∈ o.space, Text.Trimmed name
  spaceId : ∀ id ∈ o.spaceId, Text.Trimmed id
  tags : ∀ t ∈ o.tags, Text.Trimmed t ∧ Text.lower t = t
  notTags : ∀ t ∈ o.notTags, Text.Trimmed t ∧ Text.lower t = t
  states : ∀ s ∈ o.states, ∃ st : State, s = st.name
  notStates : ∀ s ∈ o.notStates, ∃ st : State, s = st.name

end Operators

namespace Term

/-- What reading promises of an operator. Nothing is asked of words. -/
def Proper : Term → Prop
  | .space name | .spaceId name => Text.Trimmed name
  | .tag _ name => Text.Trimmed name ∧ Text.lower name = name
  | _ => True

theorem proper_of_ofOperator? {key : Key} {negated : Bool} {value : String} {t : Term}
    (hv : Text.Trimmed value) (h : ofOperator? key negated value = some t) : t.Proper := by
  cases key with
  | space | spaceId =>
    cases negated with
    | true => cases h
    | false =>
      cases h
      exact hv
  | tag =>
    cases h
    exact ⟨Text.trimmed_lower hv, Text.lower_lower value⟩
  | kind =>
    cases negated with
    | true => cases h
    | false =>
      obtain ⟨k, -, rfl⟩ := Option.map_eq_some_iff.mp h
      trivial
  | has | is | verbatim =>
    obtain ⟨v, -, rfl⟩ := Option.map_eq_some_iff.mp h
    trivial

theorem proper_ofToken (token : String) : (ofToken token).Proper := by
  rw [ofToken]
  cases h : operator? token.toList with
  | none => trivial
  | some t =>
    obtain ⟨key, negated, rest, hne, hkey⟩ := exists_of_operator? h
    refine proper_of_ofOperator? (Text.trimmed_iff.mpr ?_) hkey
    rw [String.toList_ofList]
    exact ⟨hne, trim_cleanValue rest⟩

end Term

namespace Operators

theorem wellFormed_empty : WellFormed {} := by
  constructor <;> simp

theorem wellFormed_add {o : Operators} {t : Term} (ho : o.WellFormed) (ht : t.Proper) :
    (o.add t).WellFormed := by
  cases t with
  | word => exact ho
  | kind k => exact { ho with kind := fun name hname => ⟨k, (Option.some.inj hname).symm⟩ }
  | space s => exact { ho with space := fun name hname => Option.some.inj hname ▸ ht }
  | spaceId s => exact { ho with spaceId := fun id hid => Option.some.inj hid ▸ ht }
  | verbatim => exact { ho with }
  | tag negated s =>
    have hmem : ∀ l : List String, (∀ t ∈ l, Text.Trimmed t ∧ Text.lower t = t) →
        ∀ t ∈ l ++ [s], Text.Trimmed t ∧ Text.lower t = t := by
      intro l hl t hin
      rcases List.mem_append.mp hin with hin | hin
      · exact hl t hin
      · rwa [List.mem_singleton.mp hin]
    cases negated with
    | false => exact { ho with tags := hmem o.tags ho.tags }
    | true => exact { ho with notTags := hmem o.notTags ho.notTags }
  | is negated st =>
    have hmem : ∀ l : List String, (∀ s ∈ l, ∃ st : State, s = st.name) →
        ∀ s ∈ l ++ [st.name], ∃ st : State, s = st.name := by
      intro l hl s hin
      rcases List.mem_append.mp hin with hin | hin
      · exact hl s hin
      · exact ⟨st, List.mem_singleton.mp hin⟩
    cases negated with
    | false => exact { ho with states := hmem o.states ho.states }
    | true => exact { ho with notStates := hmem o.notStates ho.notStates }
  | has negated facet => cases negated <;> cases facet <;> exact { ho with }

theorem wellFormed_foldl_add : ∀ (ts : List Term) (o : Operators), (∀ t ∈ ts, t.Proper) →
    o.WellFormed → (ts.foldl add o).WellFormed
  | [], _, _, ho => ho
  | t :: r, o, h, ho =>
      wellFormed_foldl_add r (o.add t) (fun u hu => h u (List.mem_cons_of_mem t hu))
        (wellFormed_add ho (h t List.mem_cons_self))

end Operators

theorem Query.wellFormed_operators (raw : String) (verbatim : Bool) :
    (Query.parse raw verbatim).operators.WellFormed := by
  refine Operators.wellFormed_foldl_add _ _ (fun t ht => ?_) Operators.wellFormed_empty
  obtain ⟨token, -, rfl⟩ := List.mem_map.mp ht
  exact Term.proper_ofToken token

/-! ## 2. Spelling operators out -/

namespace Operators

/-- The terms that ask for what operators ask for. -/
def terms (o : Operators) : List Term :=
  List.flatten [
    (o.kind.bind Kind.ofName?).toList.map .kind,
    o.space.toList.map .space,
    o.spaceId.toList.map .spaceId,
    o.tags.map (.tag false),
    o.notTags.map (.tag true),
    (o.states.filterMap State.ofName?).map (.is false),
    (o.notStates.filterMap State.ofName?).map (.is true),
    if o.hasNote then [.has false .note] else [],
    if o.notHasNote then [.has true .note] else [],
    if o.hasCitation then [.has false .citation] else [],
    if o.notHasCitation then [.has true .citation] else [],
    o.verbatim.toList.map .verbatim]

/-- A list of terms of one form asks for what its terms make of operators one by one. -/
theorem ofTerms_map {α : Type} {f : α → Term} {g : List α → Operators} (hnil : g [] = {})
    (hcons : ∀ a r, (add {} (f a)).merge (g r) = g (a :: r)) : ∀ l, ofTerms (l.map f) = g l
  | [] => hnil.symm
  | a :: r => by rw [List.map_cons, ofTerms_cons, ofTerms_map hnil hcons r, hcons]

theorem ofTerms_tags (l : List String) : ofTerms (l.map (.tag false)) = { tags := l } :=
  ofTerms_map (g := fun l => { tags := l }) rfl (fun _ _ => rfl) l

theorem ofTerms_notTags (l : List String) : ofTerms (l.map (.tag true)) = { notTags := l } :=
  ofTerms_map (g := fun l => { notTags := l }) rfl (fun _ _ => rfl) l

theorem ofTerms_states (l : List State) :
    ofTerms (l.map (.is false)) = { states := l.map State.name } :=
  ofTerms_map (g := fun l => { states := l.map State.name }) rfl (fun _ _ => rfl) l

theorem ofTerms_notStates (l : List State) :
    ofTerms (l.map (.is true)) = { notStates := l.map State.name } :=
  ofTerms_map (g := fun l => { notStates := l.map State.name }) rfl (fun _ _ => rfl) l

theorem ofTerms_words (l : List String) : ofTerms (l.map .word) = {} :=
  ofTerms_map (g := fun _ => {}) rfl (fun _ _ => rfl) l

end Operators

theorem Kind.ofName?_name (k : Kind) : Kind.ofName? k.name = some k := by
  cases k <;> decide

theorem State.ofName?_name (st : State) : State.ofName? st.name = some st := by
  cases st <;> decide

/-- Names of states stand for states. -/
theorem State.map_name_filterMap : ∀ {l : List String}, (∀ s ∈ l, ∃ st : State, s = st.name) →
    (l.filterMap State.ofName?).map State.name = l
  | [], _ => rfl
  | s :: r, h => by
      obtain ⟨st, rfl⟩ := h s List.mem_cons_self
      rw [List.filterMap_cons, State.ofName?_name, List.map_cons,
        State.map_name_filterMap fun x hx => h x (List.mem_cons_of_mem _ hx)]

namespace Operators

theorem ofTerms_terms {o : Operators} (h : o.WellFormed) : ofTerms o.terms = o := by
  -- Each group of terms makes up one field, and the merge of all is the whole.
  have hkind : ofTerms ((o.kind.bind Kind.ofName?).toList.map .kind) = { kind := o.kind } := by
    cases hk : o.kind with
    | none => rfl
    | some name =>
      obtain ⟨k, rfl⟩ := h.kind name hk
      rw [Option.bind_some, Kind.ofName?_name]
      rfl
  have hspace : ofTerms (o.space.toList.map .space) = { space := o.space } := by
    cases o.space <;> rfl
  have hspaceId : ofTerms (o.spaceId.toList.map .spaceId) = { spaceId := o.spaceId } := by
    cases o.spaceId <;> rfl
  have hverbatim : ofTerms (o.verbatim.toList.map .verbatim) = { verbatim := o.verbatim } := by
    cases o.verbatim <;> rfl
  have hhasNote : ofTerms (if o.hasNote then [.has false .note] else []) =
      { hasNote := o.hasNote } := by
    cases o.hasNote <;> rfl
  have hnotHasNote : ofTerms (if o.notHasNote then [.has true .note] else []) =
      { notHasNote := o.notHasNote } := by
    cases o.notHasNote <;> rfl
  have hhasCitation : ofTerms (if o.hasCitation then [.has false .citation] else []) =
      { hasCitation := o.hasCitation } := by
    cases o.hasCitation <;> rfl
  have hnotHasCitation : ofTerms (if o.notHasCitation then [.has true .citation] else []) =
      { notHasCitation := o.notHasCitation } := by
    cases o.notHasCitation <;> rfl
  simp only [terms, List.flatten_cons, List.flatten_nil, ofTerms_append, hkind, hspace, hspaceId,
    hverbatim, hhasNote, hnotHasNote, hhasCitation, hnotHasCitation, ofTerms_tags, ofTerms_notTags,
    ofTerms_states, ofTerms_notStates, State.map_name_filterMap h.states,
    State.map_name_filterMap h.notStates]
  simp [merge]

theorem proper_of_mem_terms {o : Operators} (h : o.WellFormed) {t : Term} (ht : t ∈ o.terms) :
    t.Proper ∧ t.word? = none := by
  simp only [terms, List.flatten_cons, List.flatten_nil, List.append_nil, List.mem_append,
    List.mem_map, Option.mem_toList, List.mem_ite_nil_right, List.mem_singleton] at ht
  rcases ht with ⟨k, -, rfl⟩ | ⟨s, hs, rfl⟩ | ⟨s, hs, rfl⟩ | ⟨s, hs, rfl⟩ | ⟨s, hs, rfl⟩ |
    ⟨st, -, rfl⟩ | ⟨st, -, rfl⟩ | ⟨-, rfl⟩ | ⟨-, rfl⟩ | ⟨-, rfl⟩ | ⟨-, rfl⟩ | ⟨on, -, rfl⟩
  · exact ⟨trivial, rfl⟩
  · exact ⟨h.space s hs, rfl⟩
  · exact ⟨h.spaceId s hs, rfl⟩
  · exact ⟨h.tags s hs, rfl⟩
  · exact ⟨h.notTags s hs, rfl⟩
  all_goals exact ⟨trivial, rfl⟩

end Operators

/-! ## 3. Writing a term -/

/-- A word of free text that needs no quotes and cannot be taken for an operator. -/
def PlainWord (w : String) : Prop :=
  w ≠ "" ∧ Chars.Plain w.toList ∧ ':' ∉ w.toList

instance (w : String) : Decidable (PlainWord w) :=
  inferInstanceAs (Decidable (_ ∧ _ ∧ _))

namespace Term

/-- A key with a padded value. -/
def keyed (negated : Bool) (key : Key) (value : String) : List Char :=
  typed negated key (padded value.toList)

/-- A token that is read as the term. -/
def written : Term → List Char
  | .word text => text.toList
  | .kind k => keyed false .kind k.name
  | .space name => keyed false .space name
  | .spaceId id => keyed false .spaceId id
  | .tag negated name => keyed negated .tag name
  | .has negated facet => keyed negated .has facet.name
  | .is negated state => keyed negated .is state.name
  | .verbatim on => keyed false .verbatim (if on then "on" else "off")

/-- A term that can be written. -/
def Writable : Term → Prop
  | .word text => PlainWord text
  | t => t.Proper

theorem ofToken_keyed {negated : Bool} {key : Key} {value : String} {t : Term}
    (hv : Text.Trimmed value) (ht : ofOperator? key negated value = some t) :
    ofToken (String.ofList (keyed negated key value)) = t := by
  obtain ⟨hne, htrim⟩ := Text.trimmed_iff.mp hv
  have hclean := cleanValue_padded htrim
  refine ofToken_typed (by rwa [hclean]) ?_
  rwa [hclean, String.ofList_toList]

theorem ofToken_written {t : Term} (h : t.Writable) : ofToken (String.ofList t.written) = t := by
  cases t with
  | word text =>
    rw [written, String.ofList_toList, ofToken, operator?_eq_none h.2.2]
    rfl
  | kind k => exact ofToken_keyed (by cases k <;> decide) (by cases k <;> decide +kernel)
  | space name | spaceId name => exact ofToken_keyed h rfl
  | tag negated name => exact ofToken_keyed h.1 (by rw [ofOperator?, h.2])
  | has negated facet =>
    exact ofToken_keyed (by cases facet <;> decide)
      (by cases negated <;> cases facet <;> decide +kernel)
  | is negated state =>
    exact ofToken_keyed (by cases state <;> decide)
      (by cases negated <;> cases state <;> decide +kernel)
  | verbatim on => exact ofToken_keyed (by cases on <;> decide) (by cases on <;> decide +kernel)

/-- How a term is typed: a word bare, an operator between quotes. -/
def spelling : Term → List Char
  | .word text => text.toList
  | t => Token.quoted t.written

/-- Quoting keeps an operator's token, since its padded value does not end in a backslash. -/
theorem split_quoted_keyed (negated : Bool) (key : Key) (value : String) :
    Token.quotes (Token.quoted (keyed negated key value)) % 2 = 0 ∧
      Token.split (Token.quoted (keyed negated key value)) = [keyed negated key value] := by
  have hlast : (keyed negated key value).getLast? = some '"' := by
    simp [keyed, typed, padded, List.getLast?_cons]
  have hne : keyed negated key value ≠ [] := by
    intro hnil
    rw [hnil] at hlast
    cases hlast
  have hesc : (keyed negated key value).getLast? ≠ some '\\' := by
    rw [hlast]
    decide
  exact ⟨by rw [Token.quotes_quoted hesc], Token.split_quoted hne hesc⟩

theorem split_spelling {t : Term} (h : t.Writable) :
    Token.quotes t.spelling % 2 = 0 ∧ Token.split t.spelling = [t.written] := by
  cases t with
  | word text =>
    have hne : text.toList ≠ [] := by simpa using h.1
    exact ⟨by rw [spelling, Token.quotes_plain h.2.1], Token.split_plain hne h.2.1⟩
  | kind | space | spaceId | tag | has | is | verbatim => exact split_quoted_keyed _ _ _

end Term

/-! ## 4. Writing a query -/

namespace Query

/-- Terms typed in a row. -/
def spell (ts : List Term) : String :=
  String.ofList (Chars.join [' '] (ts.map Term.spelling))

/-- A query with given operators and words. -/
def write (o : Operators) (words : List String) : String :=
  spell (o.terms ++ words.map .word)

theorem terms_spell {ts : List Term} (h : ∀ t ∈ ts, t.Writable) : terms (spell ts) = ts := by
  have hsplit : Token.split (spell ts).toList = ts.map Term.written := by
    rw [spell, String.toList_ofList]
    exact Token.split_join_map fun t ht => Term.split_spelling (h t ht)
  rw [terms, Token.tokens, hsplit, List.map_map, List.map_map]
  exact (List.map_congr_left fun t ht => Term.ofToken_written (h t ht)).trans (List.map_id ts)

theorem parse_write {o : Operators} {words : List String} (ho : o.WellFormed)
    (hw : ∀ w ∈ words, PlainWord w) (verbatim : Bool) :
    (parse (write o words) verbatim).operators = o ∧
      (parse (write o words) verbatim).text = Text.join " " words := by
  have hterms : terms (write o words) = o.terms ++ words.map .word := by
    refine terms_spell fun t ht => ?_
    rcases List.mem_append.mp ht with ht | ht
    · obtain ⟨hproper, hword⟩ := Operators.proper_of_mem_terms ho ht
      cases t with
      | word => cases hword
      | kind | space | spaceId | tag | has | is | verbatim => exact hproper
    · obtain ⟨w, hin, rfl⟩ := List.mem_map.mp ht
      exact hw w hin
  have hnone : o.terms.filterMap Term.word? = [] :=
    List.filterMap_eq_nil_iff.mpr fun t ht => (Operators.proper_of_mem_terms ho ht).2
  have hwords : (words.map Term.word).filterMap Term.word? = words := by
    rw [List.filterMap_map]
    exact List.filterMap_some
  constructor
  · rw [operators_parse, hterms, Operators.ofTerms_append, Operators.ofTerms_terms ho,
      Operators.ofTerms_words, Operators.merge_empty]
  · rw [text_parse, hterms, textOf, List.filterMap_append, hnone, hwords, List.nil_append]

/-- **The range of the operator grammar.** Reading any query gives well-formed operators, and any
well-formed operators are read from some query, next to any words that are plain. So every trimmed
text can be asked for as a space or its id, and in lower case as a tag, wanted or excluded. -/
theorem operators_range :
    (∀ (raw : String) (verbatim : Bool), (parse raw verbatim).operators.WellFormed) ∧
    (∀ (o : Operators) (words : List String), o.WellFormed → (∀ w ∈ words, PlainWord w) →
      ∃ raw, ∀ verbatim, (parse raw verbatim).operators = o ∧
        (parse raw verbatim).text = Text.join " " words) ∧
    ∀ s : String, Text.Trimmed s →
      ∀ o ∈ [({ space := some s } : Operators), { spaceId := some s },
        { tags := [Text.lower s] }, { notTags := [Text.lower s] }],
      ∃ raw, ∀ verbatim, (parse raw verbatim).operators = o := by
  refine ⟨wellFormed_operators, fun o words ho hw => ⟨write o words, parse_write ho hw⟩,
    fun s hs o ho => ⟨write o [], fun verbatim => (parse_write ?_ (by simp) verbatim).1⟩⟩
  have htag : Text.Trimmed (Text.lower s) ∧ Text.lower (Text.lower s) = Text.lower s :=
    ⟨Text.trimmed_lower hs, Text.lower_lower s⟩
  simp only [List.mem_cons, List.not_mem_nil, or_false] at ho
  rcases ho with rfl | rfl | rfl | rfl <;> constructor <;> simp [hs, htag]

/-- Operators whose names hold quotes, backslashes, colons and blanks. -/
def hostile : Operators where
  kind := some Kind.task.name
  space := some "\"a\\\" : b\\"
  spaceId := some "\"id:1"
  tags := ["x\"", "-c:d", "\\"]
  notTags := ["ß \"\"", "ß \"\""]
  states := [State.pinned.name, State.archived.name]
  notStates := [State.pinned.name]
  hasNote := true
  notHasNote := true
  verbatim := some false

theorem wellFormed_hostile : hostile.WellFormed where
  kind := by simp [hostile]
  space := by simp only [hostile]; decide +kernel
  spaceId := by simp only [hostile]; decide +kernel
  tags := by simp only [hostile]; decide +kernel
  notTags := by simp only [hostile]; decide +kernel
  states := by simp [hostile]
  notStates := by simp [hostile]

theorem operators_range_hostile :
    hostile.WellFormed ∧ (∀ w ∈ ["plan", "\\"], PlainWord w) ∧ Text.Trimmed "Q1 \"" ∧
      (∃ raw, ∀ verbatim, (parse raw verbatim).operators = hostile ∧
        (parse raw verbatim).text = "plan \\") ∧
      ∃ raw, ∀ verbatim, (parse raw verbatim).operators = { tags := ["q1 \""] } := by
  have hwords : ∀ w ∈ ["plan", "\\"], PlainWord w := by decide +kernel
  have htrimmed : Text.Trimmed "Q1 \"" := by decide +kernel
  have htext : Text.join " " ["plan", "\\"] = "plan \\" := by decide +kernel
  have hlower : Text.lower "Q1 \"" = "q1 \"" := by decide +kernel
  refine ⟨wellFormed_hostile, hwords, htrimmed, ?_, ?_⟩
  · rw [← htext]
    exact operators_range.2.1 hostile _ wellFormed_hostile hwords
  · rw [← hlower]
    exact operators_range.2.2 "Q1 \"" htrimmed _ (by simp)

end Query

end Recall
