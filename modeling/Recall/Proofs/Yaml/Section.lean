/-
Recall.Proofs.Yaml.Section — reading a section of bare members.

The tokens of a section are a mapping with one member, whose value is the mapping of its lines. The
nodes of scalars and mappings are read off their tokens (`node_scalar`, `node_mapping`,
`blockMembers_lines`); there are no merge keys among them, and each is checked on its own level, so
the value is the object of the members (`read_section`).
-/
import Recall.Json.Writer
import Recall.Proofs.Json.Member
import Recall.Proofs.Yaml.Block
import Recall.Yaml.Value

namespace Recall

namespace Yaml

/-! ## 1. Members written as bare words -/

/-- The word that a value is written as. -/
def word : Json → List Char
  | .str s => s.toList
  | .bool b => if b then ['t', 'r', 'u', 'e'] else ['f', 'a', 'l', 's', 'e']
  | .int n => Json.intText n
  | _ => []

/-- The value that a plain scalar stands for. -/
def plainValue (w : List Char) : Except Error Json :=
  scalarValue (plainTag (String.ofList w)) (String.ofList w)

/-- A key that is a bare word and read as a text. -/
structure IsKey (key : String) : Prop where
  bare : IsBare key.toList
  short : key.toList.length ≤ 1024
  text : plainTag key = Tag.str

/-- A value that is a bare word and read as it was. -/
structure IsWord (j : Json) : Prop where
  bare : IsBare (word j)
  value : plainValue (word j) = .ok j

/-- The line of a member. -/
def lineOf (m : String × Json) : List Char × List Char :=
  (m.1.toList, word m.2)

/-- Members below a name. -/
def sectionText (name : String) (n : Nat) (members : List (String × Json)) : List Char :=
  name.toList ++ ':' :: '\n' :: (List.replicate n ' ' ++ Scan.linesText n (members.map lineOf))

namespace Node

/-! ## 2. Nodes of tokens -/

/-- The node of a bare word. -/
def ofWord (w : List Char) : Node :=
  .scalar (plainTag (String.ofList w)) (String.ofList w)

/-- The nodes of a line. -/
def ofLine (e : List Char × List Char) : Node × Node :=
  (ofWord e.1, ofWord e.2)

theorem node_scalar (handles : List (String × String)) (d : Nat) (place : Place) (w : List Char)
    (r : List Token) (as : List (String × Node)) :
    node handles d place ⟨.scalar true (String.ofList w) :: r, as⟩ = .ok (ofWord w, ⟨r, as⟩) := by
  cases d <;> rfl

theorem node_mapping (handles : List (String × String)) (d : Nat) {place : Place}
    (hplace : place ≠ .flow) (r : List Token) (as : List (String × Node)) :
    node handles (d + 1) place ⟨.blockMappingStart :: r, as⟩ =
      collection none (.mapping Tag.map) (blockMembers (node handles d .member) (r.length + 2))
        ⟨r, as⟩ := by
  cases place
  · exact absurd rfl hplace
  · rfl
  · rfl

/-- A member is a bare word, then the node of its value. -/
theorem blockMembers_member (handles : List (String × String)) (d fuel : Nat) (w : List Char)
    {t : Token} {r : List Token} {as : List (String × Node)} {v : Node} {s : Rest}
    (ht : [Token.key, .value, .blockEnd].contains t = false)
    (hvalue : node handles d .member ⟨t :: r, as⟩ = .ok (v, s)) :
    blockMembers (node handles d .member) (fuel + 1)
      ⟨.key :: .scalar true (String.ofList w) :: .value :: t :: r, as⟩ =
        (blockMembers (node handles d .member) fuel s).map fun p => ((ofWord w, v) :: p.1, p.2) := by
  have hkey : itemUnless [.key, .value, .blockEnd] (node handles d .member)
      (drop ⟨.key :: .scalar true (String.ofList w) :: .value :: t :: r, as⟩) =
        .ok (ofWord w, ⟨.value :: t :: r, as⟩) := node_scalar handles d .member w _ as
  have hbehind : behind .value (itemUnless [.key, .value, .blockEnd] (node handles d .member))
      ⟨.value :: t :: r, as⟩ = .ok (v, s) := by
    have hstart : startsWith [.value] ⟨.value :: t :: r, as⟩ = true := rfl
    have hother : startsWith [.key, .value, .blockEnd] (drop ⟨.value :: t :: r, as⟩) = false := ht
    rw [behind, if_pos hstart, itemUnless, hother]
    exact hvalue
  have hstart : startsWith [.key]
      ⟨.key :: .scalar true (String.ofList w) :: .value :: t :: r, as⟩ = true := rfl
  rw [blockMembers, if_pos hstart]
  simp only [hkey, hbehind, bind, Except.bind]
  cases blockMembers (node handles d .member) fuel s <;> rfl

theorem blockMembers_lines (handles : List (String × String)) (d : Nat)
    (entries : List (List Char × List Char)) (r : List Token) (as : List (String × Node)) {fuel : Nat}
    (hfuel : entries.length < fuel) :
    blockMembers (node handles d .member) fuel
      ⟨entries.flatMap Scan.lineTokens ++ .blockEnd :: r, as⟩ =
        .ok (entries.map ofLine, ⟨r, as⟩) := by
  induction entries generalizing fuel with
  | nil =>
    obtain ⟨fuel, rfl⟩ : ∃ f, fuel = f + 1 := Nat.exists_eq_add_one_of_ne_zero (by omega)
    rfl
  | cons e rest ih =>
    obtain ⟨fuel, rfl⟩ : ∃ f, fuel = f + 1 := Nat.exists_eq_add_one_of_ne_zero (by omega)
    have hline := blockMembers_member handles d fuel e.1 rfl (node_scalar handles d .member e.2
      (rest.flatMap Scan.lineTokens ++ .blockEnd :: r) as)
    rw [ih (by simpa using hfuel)] at hline
    rw [List.flatMap_cons, List.append_assoc]
    exact hline

theorem length_lines (entries : List (List Char × List Char)) :
    (entries.flatMap Scan.lineTokens).length = 4 * entries.length := by
  induction entries with
  | nil => rfl
  | cons e rest ih =>
    rw [List.flatMap_cons, List.length_append, ih, List.length_cons, Nat.mul_succ, Nat.add_comm]
    rfl

/-- The nodes of a section. -/
theorem ofTokens_section {depth : Nat} (hdepth : 2 ≤ depth) (name : List Char)
    (entries : List (List Char × List Char)) :
    ofTokens depth (.blockMappingStart :: .key :: .scalar true (String.ofList name) :: .value ::
        .blockMappingStart ::
          (entries.flatMap Scan.lineTokens ++ [.blockEnd, .blockEnd, .textEnd])) =
      .ok (some (.mapping Tag.map [(ofWord name, .mapping Tag.map (entries.map ofLine))])) := by
  have hinner (d : Nat) (r : List Token) : node commonHandles (d + 1) .member
      ⟨.blockMappingStart :: (entries.flatMap Scan.lineTokens ++ .blockEnd :: r), []⟩ =
        .ok (.mapping Tag.map (entries.map ofLine), ⟨r, []⟩) := by
    have hcount : entries.length <
        (entries.flatMap Scan.lineTokens ++ .blockEnd :: r).length + 2 := by
      rw [List.length_append, length_lines]
      omega
    rw [node_mapping _ _ (by decide), collection, keep, blockMembers_lines _ _ _ _ _ hcount]
    rfl
  have houter (d : Nat) : node commonHandles (d + 2) .block
      ⟨.blockMappingStart :: .key :: .scalar true (String.ofList name) :: .value ::
        .blockMappingStart ::
          (entries.flatMap Scan.lineTokens ++ [.blockEnd, .blockEnd, .textEnd]), []⟩ =
        .ok (.mapping Tag.map [(ofWord name, .mapping Tag.map (entries.map ofLine))],
          ⟨[.textEnd], []⟩) := by
    rw [node_mapping _ _ (by decide), collection, keep,
      blockMembers_member _ _ _ name rfl (hinner d [.blockEnd, .textEnd])]
    rfl
  obtain ⟨d, rfl⟩ : ∃ d, depth = d + 2 := ⟨depth - 2, by omega⟩
  exact congrArg (· >>= _) (houter d)

/-! ## 3. Values of nodes -/

/-- A mapping without merge keys is resolved as it is. -/
theorem resolve_eq_self {members : List (Node × Node)} (h : ∀ p ∈ members, isMerge p.1 = false) :
    resolve members = members := by
  rw [resolve, List.flatMap_eq_nil_iff.mpr, List.filter_eq_self.mpr, List.nil_append]
  · intro p hp
    simp [h p hp]
  · intro p hp
    simp [h p hp]

theorem isCollectionTag_plainTag (text : String) : isCollectionTag (plainTag text) = false := by
  simp only [plainTag]
  split_ifs <;> decide

theorem checkSelf_ofWord {w : List Char} {j : Json} (h : plainValue w = .ok j) :
    checkSelf (ofWord w) = .ok () := by
  have hscalar : scalarOf (ofWord w) = .ok j := h
  rw [checkSelf, hscalar]
  split <;> rfl

theorem checkKey_ofWord {w : List Char} (h : plainTag (String.ofList w) = Tag.str) :
    checkKey (ofWord w) = .ok () := by
  have hvalue : plainValue w = .ok (.str (String.ofList w)) := by
    rw [plainValue, h]
    rfl
  have htag : (ofWord w).tag = Tag.str := h
  rw [checkKey, htag, if_neg (by decide), if_neg (by decide), checkSelf_ofWord hvalue]

/-- Scalars have nothing inside. -/
theorem nextLevel_words (ws : List (List Char)) : nextLevel (ws.map ofWord) = .ok [] := by
  induction ws with
  | nil => rfl
  | cons w ws ih =>
    have hinside : inside (ofWord w) = .ok [] := by
      have htag : isCollectionTag (ofWord w).tag = false := isCollectionTag_plainTag _
      simp only [isCollectionTag, List.contains_eq_mem, List.mem_cons, List.not_mem_nil, or_false,
        decide_eq_false_iff_not, not_or] at htag
      obtain ⟨hseq, hmap, hset, homap, hpairs⟩ := htag
      simp [inside, hseq, hmap, hset, homap, hpairs]
    rw [List.map_cons, nextLevel, hinside, ih]
    rfl

theorem checkLevels_nil (levels : Nat) : checkLevels levels [] = .ok () := by
  cases levels <;> rfl

/-- Nodes are fine if those on the next level are. -/
theorem checkLevels_of_nextLevel {ns next : List Node} (h : nextLevel ns = .ok next)
    (hnext : ∀ levels, checkLevels levels next = .ok ()) (levels : Nat) :
    checkLevels levels ns = .ok () := by
  cases levels with
  | zero => rfl
  | succ levels =>
    rw [checkLevels, h]
    split
    · rfl
    · exact hnext levels

/-- What is inside a mapping with checked members. -/
theorem nextLevel_mapping {members : List (Node × Node)} (h : checkMembers members = .ok ()) :
    nextLevel [.mapping Tag.map members] = .ok (members.map Prod.snd) := by
  have hinside : inside (.mapping Tag.map members) = .ok (members.map Prod.snd) := by
    have hseq : Tag.map ≠ Tag.seq := by decide
    simp only [inside, tag, if_neg hseq, true_or, if_true, h]
    rfl
  rw [nextLevel, hinside]
  exact congrArg Except.ok (List.append_nil _)

/-- The nodes of a section. -/
def ofSection (name : String) (members : List (String × Json)) : Node :=
  .mapping Tag.map [(ofWord name.toList, .mapping Tag.map ((members.map lineOf).map ofLine))]

section Members

variable {members : List (String × Json)}

theorem checkMembers_lines (hkeys : ∀ m ∈ members, IsKey m.1) (hwords : ∀ m ∈ members, IsWord m.2) :
    checkMembers ((members.map lineOf).map ofLine) = .ok () := by
  induction members with
  | nil => rfl
  | cons m r ih =>
    rw [List.forall_mem_cons] at hkeys hwords
    have hkey : checkKey (ofWord m.1.toList) = .ok () :=
      checkKey_ofWord (by simpa using hkeys.1.text)
    have hword : checkSelf (ofWord (word m.2)) = .ok () := checkSelf_ofWord hwords.1.value
    rw [List.map_cons, List.map_cons, lineOf, ofLine, checkMembers, hkey, hword,
      ih hkeys.2 hwords.2]
    rfl

theorem mergedMembers_lines (entries : List (List Char × List Char)) :
    mergedMembers (entries.map ofLine) = entries.map ofLine := by
  induction entries with
  | nil => rfl
  | cons e r ih =>
    rw [List.map_cons, ofLine, mergedMembers, ih]
    rfl

theorem isMerge_ofWord {key : String} (h : IsKey key) : isMerge (ofWord key.toList) = false := by
  have htag : plainTag (String.ofList key.toList) = Tag.str := by simpa using h.text
  show (plainTag (String.ofList key.toList) == Tag.merge) = false
  rw [htag]
  decide

theorem merged_section {name : String} (hname : IsKey name) (hkeys : ∀ m ∈ members, IsKey m.1) :
    (ofSection name members).merged = ofSection name members := by
  have hlines : (Node.mapping Tag.map ((members.map lineOf).map ofLine)).merged =
      .mapping Tag.map ((members.map lineOf).map ofLine) := by
    rw [merged, mergedMembers_lines, resolve_eq_self]
    intro p hp
    rw [List.map_map, List.mem_map] at hp
    obtain ⟨m, hm, rfl⟩ := hp
    exact isMerge_ofWord (hkeys m hm)
  have hname' : (ofWord name.toList).merged = ofWord name.toList := rfl
  rw [ofSection, merged, mergedMembers, hname', hlines, mergedMembers, resolve_eq_self]
  simpa using isMerge_ofWord hname

/-- The name is checked with the block, then the block's keys with their values, then nothing. -/
theorem check_section {name : String} (hname : IsKey name) (hkeys : ∀ m ∈ members, IsKey m.1)
    (hwords : ∀ m ∈ members, IsWord m.2) : check (ofSection name members) = .ok () := by
  have hwordLevel : ((members.map lineOf).map ofLine).map Prod.snd =
      (members.map fun m => word m.2).map ofWord := by
    simp only [List.map_map]
    rfl
  have hlines := checkLevels_of_nextLevel (nextLevel_mapping (checkMembers_lines hkeys hwords))
    (hwordLevel ▸ checkLevels_of_nextLevel (nextLevel_words _) checkLevels_nil)
  have hmember : checkMembers [(ofWord name.toList,
      .mapping Tag.map ((members.map lineOf).map ofLine))] = .ok () := by
    rw [checkMembers, checkKey_ofWord (by simpa using hname.text)]
    rfl
  rw [check, ofSection, checkLevels_of_nextLevel (nextLevel_mapping hmember) hlines]
  rfl

theorem jsonMembers_lines (hwords : ∀ m ∈ members, IsWord m.2) :
    jsonMembers ((members.map lineOf).map ofLine) =
      members.map fun m => (ofWord m.1.toList, m.2) := by
  induction members with
  | nil => rfl
  | cons m r ih =>
    rw [List.forall_mem_cons] at hwords
    have hjson : (ofWord (word m.2)).json = m.2 := by
      have hvalue := hwords.1.value
      rw [plainValue] at hvalue
      simp only [ofWord, json, hvalue]
    rw [List.map_cons, List.map_cons, lineOf, ofLine, jsonMembers, hjson, ih hwords.2]
    rfl

/-- An object of members with distinct keys. -/
theorem object_of_keys (hkeys : ∀ m ∈ members, IsKey m.1) (hnodup : (members.map Prod.fst).Nodup) :
    object (members.map fun m => (ofWord m.1.toList, m.2)) = .obj members := by
  have hput : members.foldl (fun done m => Json.put done m.1 m.2) [] = members :=
    Json.foldl_put hnodup
  rw [object, List.foldl_map]
  refine congrArg Json.obj (Eq.trans (List.foldl_ext _ _ _ fun done m hm => ?_) hput)
  have hkey : keyText? (ofWord m.1.toList) = some m.1 := by
    simp [keyText?, ofWord, (hkeys m hm).text]
  simp only [hkey]

theorem json_section {name : String} (hname : IsKey name) (hkeys : ∀ m ∈ members, IsKey m.1)
    (hwords : ∀ m ∈ members, IsWord m.2) (hnodup : (members.map Prod.fst).Nodup) :
    (ofSection name members).json = .obj [(name, .obj members)] := by
  have hlines : (Node.mapping Tag.map ((members.map lineOf).map ofLine)).json = .obj members := by
    rw [json, if_pos rfl, jsonMembers_lines hwords, object_of_keys hkeys hnodup]
  have hkey : ∀ m ∈ [(name, Json.obj members)], IsKey m.1 := by simpa using hname
  rw [ofSection, json, if_pos rfl, jsonMembers, hlines]
  exact object_of_keys hkey (List.nodup_singleton name)

end Members

end Node

/-! ## 4. Texts -/

section Texts

variable {name : String} {n depth : Nat} {members : List (String × Json)}

/-- Characters that stand for themselves in a text. -/
def isPlainChar (c : Char) : Bool :=
  isPrintable c && c != '\r'

theorem isPlainChar_of_isBareChar {c : Char} (h : isBareChar c = true) : isPlainChar c = true := by
  rw [isPlainChar, isPrintable_of_isBareChar h, Bool.true_and, bne_iff_ne]
  exact ne_of_isBareChar h (by decide)

theorem all_isPlainChar_of_isBare {w : List Char} (h : IsBare w) : w.all isPlainChar = true :=
  List.all_eq_true.mpr fun c hc => isPlainChar_of_isBareChar (h.2 c hc)

theorem all_isPlainChar_spaces (n : Nat) : (List.replicate n ' ').all isPlainChar = true := by
  refine List.all_eq_true.mpr fun c hc => ?_
  rw [(List.mem_replicate.mp hc).2]
  decide

theorem all_isPlainChar_linesText {entries : List (List Char × List Char)} (h : Scan.AreBare entries)
    (n : Nat) : (Scan.linesText n entries).all isPlainChar = true := by
  have hmarks : isPlainChar ':' = true ∧ isPlainChar ' ' = true ∧ isPlainChar '\n' = true := by decide
  induction entries with
  | nil => rfl
  | cons e rest ih =>
    obtain ⟨⟨hkey, -, hword⟩, hrest⟩ := List.forall_mem_cons.mp h
    simp [Scan.linesText, hmarks, all_isPlainChar_of_isBare hkey, all_isPlainChar_of_isBare hword,
      all_isPlainChar_spaces, ih hrest, -List.all_replicate]

theorem all_isPlainChar_section (hname : IsKey name) (hbare : Scan.AreBare (members.map lineOf)) :
    (sectionText name n members).all isPlainChar = true := by
  have hmarks : isPlainChar ':' = true ∧ isPlainChar '\n' = true := by decide
  simp [sectionText, hmarks, all_isPlainChar_of_isBare hname.bare, all_isPlainChar_spaces,
    all_isPlainChar_linesText hbare, -List.all_replicate]

theorem areBare_lines (hkeys : ∀ m ∈ members, IsKey m.1) (hwords : ∀ m ∈ members, IsWord m.2) :
    Scan.AreBare (members.map lineOf) := by
  intro e he
  obtain ⟨m, hm, rfl⟩ := List.mem_map.mp he
  exact ⟨(hkeys m hm).bare, (hkeys m hm).short, (hwords m hm).bare⟩

/-- A section reads as the object of its members. -/
theorem read_section (hdepth : 2 ≤ depth) (hname : IsKey name) (hkeys : ∀ m ∈ members, IsKey m.1)
    (hwords : ∀ m ∈ members, IsWord m.2) (hnodup : (members.map Prod.fst).Nodup)
    (hne : members ≠ []) (hn : 0 < n) :
    read depth (sectionText name n members) = .ok (.obj [(name, .obj members)]) := by
  have hbare := areBare_lines hkeys hwords
  have htokens := tokens_section hname.bare hname.short hbare (by simpa using hne) hn
  have hnodes : Node.ofTokens depth (tokens (sectionText name n members)) =
      .ok (some (Node.ofSection name members)) := by
    rw [sectionText, htokens]
    exact Node.ofTokens_section hdepth _ _
  have hvalue : (Node.ofSection name members).value = .ok (.obj [(name, .obj members)]) := by
    rw [Node.value, Node.merged_section hname hkeys, Node.check_section hname hkeys hwords,
      Node.json_section hname hkeys hwords hnodup]
    rfl
  have hprint : (sectionText name n members).all isPrintable = true := by
    refine List.all_eq_true.mpr fun c hc => ?_
    have hc := List.all_eq_true.mp (all_isPlainChar_section hname hbare) c hc
    rw [isPlainChar, Bool.and_eq_true] at hc
    exact hc.1
  rw [read]
  simp [hprint, hnodes, hvalue, bind, Except.bind]

/-- A section has no carriage returns. -/
theorem return_notMem_section (hname : IsKey name) (hkeys : ∀ m ∈ members, IsKey m.1)
    (hwords : ∀ m ∈ members, IsWord m.2) : '\r' ∉ sectionText name n members := by
  intro hmem
  have hplain := all_isPlainChar_section (n := n) hname (areBare_lines hkeys hwords)
  exact absurd (List.all_eq_true.mp hplain '\r' hmem) (by decide)

end Texts

end Yaml

end Recall
