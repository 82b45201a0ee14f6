import LoadGenerator.Json.Value
import Mathlib.Tactic

/-!
# Nested values

Induction on a value goes through the members of its lists and objects. Members in the order of their keys are kept as they are by sorting, so a canonical value is its own canonical form.
-/

namespace LoadGenerator.Json

/-! ## Induction -/

/-- A property of all values follows from that of the values inside. -/
@[elab_as_elim]
theorem nestedInduction {motive : Json → Prop} (null : motive .null) (bool : ∀ b, motive (.bool b))
    (number : ∀ n, motive (.number n)) (string : ∀ s, motive (.string s))
    (array : ∀ items, (∀ item ∈ items, motive item) → motive (.array items))
    (object : ∀ members, (∀ member ∈ members, motive member.2) → motive (.object members)) : ∀ value, motive value
  | .null => null
  | .bool b => bool b
  | .number n => number n
  | .string s => string s
  | .array items => array items fun item _ => nestedInduction null bool number string array object item
  | .object members => object members fun member _ => nestedInduction null bool number string array object member.2
termination_by value => sizeOf value
decreasing_by
  · have := List.sizeOf_lt_of_mem ‹item ∈ items›
    simp only [Json.array.sizeOf_spec]
    omega
  · have hmember := List.sizeOf_lt_of_mem ‹member ∈ members›
    have hvalue : sizeOf member.2 < sizeOf member := by
      cases member
      simp only [Prod.mk.sizeOf_spec]
      omega
    simp only [Json.object.sizeOf_spec]
    omega

/-! ## The order of keys -/

/-- The keys of the members increase. -/
def Increasing {α : Type} (members : List (String × α)) : Prop := (members.map Prod.fst).Pairwise (· < ·)

theorem insertMember_last {α : Type} {sorted : List (String × α)} {key : String} (h : ∀ member ∈ sorted, member.1 < key)
    (value : α) : insertMember key value sorted = sorted ++ [(key, value)] := by
  induction sorted with
  | nil => rfl
  | cons member sorted ih =>
    obtain ⟨other, old⟩ := member
    have hother : other < key := h (other, old) (by simp)
    have hne : key ≠ other := by
      rintro rfl
      exact String.lt_irrefl key hother
    rw [insertMember, if_neg (String.lt_asymm hother), if_neg hne, ih fun m hm => h m (by simp [hm]), List.cons_append]

private theorem foldl_insertMember {α : Type} (front back : List (String × α)) (h : Increasing (front ++ back)) :
    back.foldl (fun sorted (key, value) => insertMember key value sorted) front = front ++ back := by
  induction back generalizing front with
  | nil => simp
  | cons member back ih =>
    obtain ⟨key, value⟩ := member
    have hlast : ∀ member ∈ front, member.1 < key := by
      unfold Increasing at h
      rw [List.map_append, List.pairwise_append] at h
      exact fun member hmember => h.2.2 member.1 (List.mem_map_of_mem hmember) key (by simp)
    rw [List.foldl_cons]
    dsimp only
    rw [insertMember_last hlast, ih (front ++ [(key, value)]) (by simpa using h), List.append_assoc, List.singleton_append]

theorem sortMembers_of_increasing {α : Type} {members : List (String × α)} (h : Increasing members) :
    sortMembers members = members := foldl_insertMember [] members h

theorem mem_insertMember {α : Type} {key : String} {value : α} {members : List (String × α)} {member : String × α}
    (h : member ∈ insertMember key value members) : member = (key, value) ∨ member ∈ members := by
  induction members with
  | nil => exact .inl (List.mem_singleton.mp h)
  | cons first members ih =>
    obtain ⟨other, old⟩ := first
    rw [insertMember] at h
    split_ifs at h with hless heq
    · exact List.mem_cons.mp h
    · rcases List.mem_cons.mp h with hnew | hmem
      · exact .inl hnew
      · exact .inr (List.mem_cons_of_mem _ hmem)
    · rcases List.mem_cons.mp h with hfirst | hmem
      · exact .inr (by simp [hfirst])
      · exact (ih hmem).imp_right (List.mem_cons_of_mem _)

theorem increasing_cons {α : Type} {member : String × α} {members : List (String × α)} :
    Increasing (member :: members) ↔ (∀ other ∈ members, member.1 < other.1) ∧ Increasing members := by
  rw [Increasing, List.map_cons, List.pairwise_cons, List.forall_mem_map]
  rfl

theorem increasing_insertMember {α : Type} (key : String) (value : α) {members : List (String × α)} (h : Increasing members) :
    Increasing (insertMember key value members) := by
  induction members with
  | nil => simp [insertMember, Increasing]
  | cons first members ih =>
    obtain ⟨other, old⟩ := first
    obtain ⟨hfirst, hrest⟩ := increasing_cons.mp h
    rw [insertMember]
    split_ifs with hless heq
    · refine increasing_cons.mpr ⟨fun member hmember => ?_, h⟩
      rcases List.mem_cons.mp hmember with rfl | hmem
      · exact hless
      · exact String.lt_trans hless (hfirst member hmem)
    · rw [heq]
      exact increasing_cons.mpr ⟨hfirst, hrest⟩
    · refine increasing_cons.mpr ⟨fun member hmember => ?_, ih hrest⟩
      rcases mem_insertMember hmember with rfl | hmem
      · by_contra hgreater
        exact heq (String.le_antisymm (String.not_lt.mp hgreater) (String.not_lt.mp hless))
      · exact hfirst member hmem

theorem increasing_sortMembers {α : Type} (members : List (String × α)) : Increasing (sortMembers members) := by
  have hfold (front : List (String × α)) (hfront : Increasing front) :
      Increasing (members.foldl (fun sorted (key, value) => insertMember key value sorted) front) := by
    induction members generalizing front with
    | nil => exact hfront
    | cons member members ih => exact ih _ (increasing_insertMember _ _ hfront)
  exact hfold [] List.Pairwise.nil

theorem mem_sortMembers {α : Type} {members : List (String × α)} {member : String × α} (h : member ∈ sortMembers members) :
    member ∈ members := by
  have hfold (front : List (String × α))
      (hmem : member ∈ members.foldl (fun sorted (key, value) => insertMember key value sorted) front) :
      member ∈ front ∨ member ∈ members := by
    clear h
    induction members generalizing front with
    | nil => exact .inl hmem
    | cons first members ih =>
      rcases ih _ hmem with hinserted | hlater
      · rcases mem_insertMember hinserted with rfl | hfront
        · exact .inr (by simp)
        · exact .inl hfront
      · exact .inr (List.mem_cons_of_mem _ hlater)
  exact (hfold [] h).resolve_left List.not_mem_nil

theorem insertMember_map {α β : Type} (f : α → β) (key : String) (value : α) (members : List (String × α)) :
    insertMember key (f value) (members.map fun member => (member.1, f member.2)) =
      (insertMember key value members).map fun member => (member.1, f member.2) := by
  induction members with
  | nil => rfl
  | cons member members ih =>
    rw [List.map_cons, insertMember, insertMember, ih]
    split_ifs <;> rfl

theorem sortMembers_map {α β : Type} (f : α → β) (members : List (String × α)) :
    sortMembers (members.map fun member => (member.1, f member.2)) = (sortMembers members).map fun member => (member.1, f member.2) := by
  have hfold (front : List (String × α)) :
      (members.map fun member => (member.1, f member.2)).foldl (fun sorted (key, value) => insertMember key value sorted)
        (front.map fun member => (member.1, f member.2)) =
      (members.foldl (fun sorted (key, value) => insertMember key value sorted) front).map fun member => (member.1, f member.2) := by
    induction members generalizing front with
    | nil => rfl
    | cons member members ih =>
      rw [List.map_cons, List.foldl_cons, List.foldl_cons, ← ih]
      dsimp only
      rw [insertMember_map]
  exact hfold []

theorem perm_insertMember {α : Type} {key : String} (value : α) {members : List (String × α)} (h : key ∉ members.map Prod.fst) :
    (insertMember key value members).Perm ((key, value) :: members) := by
  induction members with
  | nil => rfl
  | cons member members ih =>
    rw [List.map_cons, List.mem_cons, not_or] at h
    rw [insertMember]
    split_ifs with hless heq
    · rfl
    · exact absurd heq h.1
    · exact ((ih h.2).cons member).trans (.swap _ _ _)

/-- Members with different keys only change their places. -/
theorem perm_sortMembers {α : Type} {members : List (String × α)} (h : (members.map Prod.fst).Nodup) :
    (sortMembers members).Perm members := by
  have hfold (front : List (String × α)) (hnodup : ((front ++ members).map Prod.fst).Nodup) :
      (members.foldl (fun sorted (key, value) => insertMember key value sorted) front).Perm (front ++ members) := by
    clear h
    induction members generalizing front with
    | nil => rw [List.append_nil, List.foldl_nil]
    | cons member members ih =>
      have hmiddle : (front ++ member :: members).Perm (member :: front ++ members) := List.perm_middle
      have hnew : member.1 ∉ front.map Prod.fst := fun hmem => by
        have := ((hmiddle.map Prod.fst).nodup_iff.mp hnodup)
        rw [List.cons_append, List.map_cons, List.nodup_cons, List.map_append, List.mem_append, not_or] at this
        exact this.1.1 hmem
      have hinsert : (insertMember member.1 member.2 front ++ members).Perm (front ++ member :: members) :=
        ((perm_insertMember member.2 hnew).append_right members).trans hmiddle.symm
      rw [List.foldl_cons]
      exact (ih _ ((hinsert.map Prod.fst).nodup_iff.mpr hnodup)).trans hinsert
  exact hfold [] h

/-! ## Canonical values -/

theorem canonicalItems_eq_map (items : List Json) : canonicalItems items = items.map canonical := by
  induction items with
  | nil => rfl
  | cons item items ih => rw [canonicalItems, ih, List.map_cons]

theorem canonicalMembers_eq_map (members : List (String × Json)) :
    canonicalMembers members = members.map fun member => (member.1, member.2.canonical) := by
  induction members with
  | nil => rfl
  | cons member members ih => rw [canonicalMembers, ih, List.map_cons]

theorem allCanonical_iff {items : List Json} : AllCanonical items ↔ ∀ item ∈ items, item.IsCanonical := by
  induction items with
  | nil => simp [AllCanonical]
  | cons item items ih => rw [AllCanonical, ih, List.forall_mem_cons]

theorem membersCanonical_iff {members : List (String × Json)} :
    MembersCanonical members ↔ ∀ member ∈ members, member.2.IsCanonical := by
  induction members with
  | nil => simp [MembersCanonical]
  | cons member members ih => rw [MembersCanonical, ih, List.forall_mem_cons]

theorem isCanonical_canonical (v : Json) : v.canonical.IsCanonical := by
  induction v using nestedInduction with
  | null => trivial
  | bool b => trivial
  | number n => trivial
  | string s => trivial
  | array items ih =>
    rw [canonical, IsCanonical, canonicalItems_eq_map, allCanonical_iff]
    exact List.forall_mem_map.mpr ih
  | object members ih =>
    rw [canonical, IsCanonical, membersCanonical_iff]
    refine ⟨increasing_sortMembers _, fun member hmember => ?_⟩
    have hmem := mem_sortMembers hmember
    rw [canonicalMembers_eq_map] at hmem
    obtain ⟨source, hsource, rfl⟩ := List.mem_map.mp hmem
    exact ih source hsource

theorem canonical_of_isCanonical {v : Json} (h : v.IsCanonical) : v.canonical = v := by
  induction v using nestedInduction with
  | null => rfl
  | bool b => rfl
  | number n => rfl
  | string s => rfl
  | array items ih =>
    rw [IsCanonical, allCanonical_iff] at h
    rw [canonical, canonicalItems_eq_map, List.map_congr_left fun item hitem => ih item hitem (h item hitem), List.map_id']
  | object members ih =>
    rw [IsCanonical, membersCanonical_iff] at h
    have hmembers : members.map (fun member => (member.1, member.2.canonical)) = members := by
      refine (List.map_congr_left fun member hmember => ?_).trans (List.map_id members)
      rw [ih member hmember (h.2 member hmember)]
      rfl
    rw [canonical, canonicalMembers_eq_map, hmembers, sortMembers_of_increasing h.1]

end LoadGenerator.Json
