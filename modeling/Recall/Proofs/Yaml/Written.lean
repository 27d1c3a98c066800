/-
Recall.Proofs.Yaml.Written — a section is read as it was written.

Members that are bare words are written line by line below their section's name, in the order of their
keys (`write?_section`); they are written if and only if no number among them is too long. That text is
the text of a section, so it is read as the members again (`read_of_write?`).
-/
import Recall.Proofs.Yaml.Word

namespace Recall

namespace Yaml

variable {name : String} {members : List (String × Json)}

/-- Members in the order of their keys. -/
def inOrder (members : List (String × Json)) : List (String × Json) :=
  members.mergeSort fun a b => Chars.le a.1.toList b.1.toList

theorem inOrder_perm (members : List (String × Json)) : (inOrder members).Perm members :=
  List.mergeSort_perm members _

theorem mem_inOrder {m : String × Json} : m ∈ inOrder members ↔ m ∈ members :=
  List.mem_mergeSort

theorem inOrder_ne_nil (h : members ≠ []) : inOrder members ≠ [] := by
  intro hnil
  have hperm := inOrder_perm members
  rw [hnil] at hperm
  exact h hperm.symm.eq_nil

theorem sortedMembers_eq_self (h : ∀ m ∈ members, IsBareValue m.2) :
    sortedMembers members = members := by
  induction members with
  | nil => rfl
  | cons m r ih =>
    rw [List.forall_mem_cons] at h
    rw [sortedMembers, sorted_eq_self h.1, ih h.2]

/-- Members are written line by line, each but the last with the indentation of the next. -/
theorem membersText_eq (hkeys : ∀ m ∈ members, IsKey m.1) (hvalues : ∀ m ∈ members, IsBareValue m.2)
    (hne : members ≠ []) (n : Nat) :
    membersText n members ++ ['\n'] = Scan.linesText n (members.map lineOf) := by
  induction members with
  | nil => exact absurd rfl hne
  | cons m r ih =>
    rw [List.forall_mem_cons] at hkeys hvalues
    have hkey : textAt false n n m.1 = m.1.toList := textAt_eq hkeys.1.bare hkeys.1.text false n n
    rw [membersText, hkey, valueText_eq hvalues.1, List.map_cons, lineOf, Scan.linesText]
    cases r with
    | nil => simp [membersText, Scan.linesText, Scan.indentOf]
    | cons m' r =>
      have hrest := ih hkeys.2 hvalues.2 (List.cons_ne_nil m' r)
      simpa [newline, Scan.indentOf] using hrest

theorem membersText_section (hname : IsKey name) (hkeys : ∀ m ∈ members, IsKey m.1)
    (hvalues : ∀ m ∈ members, IsBareValue m.2) (hne : members ≠ []) :
    membersText 0 [(name, .obj members)] ++ ['\n'] = sectionText name 2 members := by
  have hkey : textAt false 0 0 name = name.toList := textAt_eq hname.bare hname.text false 0 0
  obtain ⟨m, r, rfl⟩ := List.exists_cons_of_ne_nil hne
  have hvalue (column : Nat) : valueText 0 column (.obj (m :: r)) =
      newline 2 ++ membersText 2 (m :: r) := by rw [valueText]
  have hlines := membersText_eq hkeys hvalues hne 2
  rw [membersText, hkey, hvalue, sectionText, ← hlines]
  simp [membersText, newline]

/-- The text of a section is there if no number in it is too long. -/
theorem write?_section (hname : IsKey name) (hkeys : ∀ m ∈ members, IsKey m.1)
    (hvalues : ∀ m ∈ members, IsBareValue m.2) (hne : members ≠ []) :
    write? [(name, .obj members)] =
      if ∀ m ∈ members, Json.isWritable m.2 = true then some (sectionText name 2 (inOrder members))
      else none := by
  have hsorted : sorted (.obj [(name, .obj members)]) = .obj [(name, .obj (inOrder members))] := by
    rw [sorted, sortedMembers, sorted, sortedMembers_eq_self hvalues, sortedMembers,
      List.mergeSort_singleton]
    rfl
  have hwritable : Json.areWritableMembers [(name, .obj (inOrder members))] = true ↔
      ∀ m ∈ members, Json.isWritable m.2 = true := by
    rw [Json.areWritableMembers, Json.areWritableMembers, Bool.and_true, Json.isWritable,
      Json.areWritableMembers_iff]
    exact forall_congr' fun m => imp_congr_left mem_inOrder
  have htext := membersText_section hname (fun m hm => hkeys m (mem_inOrder.mp hm))
    (fun m hm => hvalues m (mem_inOrder.mp hm)) (inOrder_ne_nil hne)
  rw [write?, hsorted]
  by_cases h : ∀ m ∈ members, Json.isWritable m.2 = true
  · rw [if_pos h]
    simp [hwritable.mpr h, htext]
  · rw [if_neg h]
    simp [Bool.eq_false_iff.mpr (mt hwritable.mp h)]

/-- What was written has no carriage returns and is read again. -/
theorem read_of_write? {depth : Nat} {cs : List Char} (hdepth : 2 ≤ depth) (hname : IsKey name)
    (hkeys : ∀ m ∈ members, IsKey m.1) (hvalues : ∀ m ∈ members, IsBareValue m.2)
    (hnodup : (members.map Prod.fst).Nodup) (hne : members ≠ [])
    (h : write? [(name, .obj members)] = some cs) :
    '\r' ∉ cs ∧ read depth cs = .ok (.obj [(name, .obj (inOrder members))]) := by
  rw [write?_section hname hkeys hvalues hne, Option.ite_none_right_eq_some] at h
  obtain ⟨hwritable, htext⟩ := h
  have hkeys' : ∀ m ∈ inOrder members, IsKey m.1 := fun m hm => hkeys m (mem_inOrder.mp hm)
  have hwords : ∀ m ∈ inOrder members, IsWord m.2 := by
    intro m hm
    have hm := mem_inOrder.mp hm
    exact isWord_of_isBareValue (hvalues m hm) (hwritable m hm)
  rw [← Option.some.inj htext]
  exact ⟨return_notMem_section hname hkeys' hwords,
    read_section hdepth hname hkeys' hwords
      (((inOrder_perm members).map Prod.fst).nodup_iff.mpr hnodup) (inOrder_ne_nil hne) (by decide)⟩

end Yaml

end Recall
