import LoadGenerator.Proofs.Json.Values

/-!
# Values that are read as they are

An integer is read as it is from its text, and so are most other numbers. A value of such numbers is read in its canonical form, and a canonical one as it is.
-/

namespace LoadGenerator

open JsonReader

/-- The number has a text, from which it is read as it is. -/
def Binary64.IsFaithful (x : Binary64) : Prop := x.isFinite = true ∧ x.reread = x

def JsonNumber.IsFaithful : JsonNumber → Prop
  | .real x => x.IsFaithful
  | _ => True

namespace Json

mutual

/-- All numbers are integers. -/
def IsIntegral : Json → Prop
  | number n => n.toInt?.isSome = true
  | array items => AllIntegral items
  | object members => MembersIntegral members
  | _ => True

def AllIntegral : List Json → Prop
  | [] => True
  | item :: rest => item.IsIntegral ∧ AllIntegral rest

def MembersIntegral : List (String × Json) → Prop
  | [] => True
  | (_, value) :: rest => value.IsIntegral ∧ MembersIntegral rest

end

mutual

/-- All numbers have texts and are read from them as they are. -/
def IsFaithful : Json → Prop
  | number n => n.IsFaithful
  | array items => AllFaithful items
  | object members => MembersFaithful members
  | _ => True

def AllFaithful : List Json → Prop
  | [] => True
  | item :: rest => item.IsFaithful ∧ AllFaithful rest

def MembersFaithful : List (String × Json) → Prop
  | [] => True
  | (_, value) :: rest => value.IsFaithful ∧ MembersFaithful rest

end

theorem allFaithful_iff {items : List Json} : AllFaithful items ↔ ∀ item ∈ items, item.IsFaithful := by
  induction items with
  | nil => simp [AllFaithful]
  | cons item items ih => rw [AllFaithful, ih, List.forall_mem_cons]

theorem membersFaithful_iff {members : List (String × Json)} :
    MembersFaithful members ↔ ∀ member ∈ members, member.2.IsFaithful := by
  induction members with
  | nil => simp [MembersFaithful]
  | cons member members ih => rw [MembersFaithful, ih, List.forall_mem_cons]

theorem allIntegral_iff {items : List Json} : AllIntegral items ↔ ∀ item ∈ items, item.IsIntegral := by
  induction items with
  | nil => simp [AllIntegral]
  | cons item items ih => rw [AllIntegral, ih, List.forall_mem_cons]

theorem membersIntegral_iff {members : List (String × Json)} :
    MembersIntegral members ↔ ∀ member ∈ members, member.2.IsIntegral := by
  induction members with
  | nil => simp [MembersIntegral]
  | cons member members ih => rw [MembersIntegral, ih, List.forall_mem_cons]

theorem isWritable_of_isFaithful {v : Json} (h : v.IsFaithful) : v.IsWritable := by
  induction v using nestedInduction with
  | null => trivial
  | bool b => trivial
  | string s => trivial
  | number n =>
    cases n with
    | natural n => trivial
    | negative n => trivial
    | real x => exact h.1
  | array items ih =>
    rw [IsFaithful, allFaithful_iff] at h
    rw [IsWritable, allWritable_iff]
    exact fun item hitem => ih item hitem (h item hitem)
  | object members ih =>
    rw [IsFaithful, membersFaithful_iff] at h
    rw [IsWritable, membersWritable_iff]
    exact fun member hmember => ih member hmember (h member hmember)

/-- A value of numbers that are read as they are is read in its canonical form. -/
theorem reread_of_isFaithful {v : Json} (h : v.IsFaithful) : v.reread = v.canonical := by
  induction v using nestedInduction with
  | null => rfl
  | bool b => rfl
  | string s => rfl
  | number n =>
    rw [reread, canonical]
    cases n with
    | natural n => rw [reread_natural]
    | negative n => rw [reread_negative]
    | real x => rw [reread_real h.1, h.2]
  | array items ih =>
    rw [IsFaithful, allFaithful_iff] at h
    rw [reread, canonical, rereadItems_eq_map, canonicalItems_eq_map, List.map_congr_left fun item hitem => ih item hitem (h item hitem)]
  | object members ih =>
    rw [IsFaithful, membersFaithful_iff] at h
    have hmembers : rereadMembers members = canonicalMembers members := by
      rw [rereadMembers_eq_map, canonicalMembers_eq_map]
      exact List.map_congr_left fun member hmember => by rw [ih member hmember (h member hmember)]
    rw [reread, canonical, hmembers]

theorem isFaithful_of_isIntegral {v : Json} (h : v.IsIntegral) : v.IsFaithful := by
  induction v using nestedInduction with
  | null => trivial
  | bool b => trivial
  | string s => trivial
  | number n =>
    cases n with
    | natural n => trivial
    | negative n => trivial
    | real x => cases h
  | array items ih =>
    rw [IsIntegral, allIntegral_iff] at h
    rw [IsFaithful, allFaithful_iff]
    exact fun item hitem => ih item hitem (h item hitem)
  | object members ih =>
    rw [IsIntegral, membersIntegral_iff] at h
    rw [IsFaithful, membersFaithful_iff]
    exact fun member hmember => ih member hmember (h member hmember)

theorem isWritable_of_isIntegral {v : Json} (h : v.IsIntegral) : v.IsWritable := isWritable_of_isFaithful (isFaithful_of_isIntegral h)

/-- A value without fractions is read in its canonical form. -/
theorem reread_of_isIntegral {v : Json} (h : v.IsIntegral) : v.reread = v.canonical := reread_of_isFaithful (isFaithful_of_isIntegral h)

/-- A value as programs hold it: keys increase in each object, and numbers are finite and are read as they are. -/
structure IsSettled (v : Json) : Prop where
  canonical : v.IsCanonical
  faithful : v.IsFaithful

theorem IsSettled.writable {v : Json} (h : v.IsSettled) : v.IsWritable := isWritable_of_isFaithful h.faithful

theorem IsSettled.reread {v : Json} (h : v.IsSettled) : v.reread = v := by
  rw [reread_of_isFaithful h.faithful, canonical_of_isCanonical h.canonical]

/-! ### Canonical values -/

theorem isWritable_canonical {v : Json} (h : v.IsWritable) : v.canonical.IsWritable := by
  induction v using nestedInduction with
  | null => trivial
  | bool b => trivial
  | string s => trivial
  | number n => exact h
  | array items ih =>
    rw [IsWritable, allWritable_iff] at h
    rw [canonical, IsWritable, canonicalItems_eq_map, allWritable_iff]
    exact List.forall_mem_map.mpr fun item hitem => ih item hitem (h item hitem)
  | object members ih =>
    rw [IsWritable, membersWritable_iff] at h
    rw [canonical, IsWritable, canonicalMembers_eq_map, membersWritable_iff]
    intro member hmember
    obtain ⟨source, hsource, rfl⟩ := List.mem_map.mp (mem_sortMembers hmember)
    exact ih source hsource (h source hsource)

theorem depth_canonical_le (v : Json) : v.canonical.depth ≤ v.depth := by
  induction v using nestedInduction with
  | array items ih =>
    rw [canonical, depth, depth, canonicalItems_eq_map]
    refine Nat.succ_le_succ (Nat.le_of_not_lt fun hdeep => ?_)
    obtain ⟨item, hitem, hless⟩ := exists_of_lt_itemsDepth hdeep
    obtain ⟨source, hsource, rfl⟩ := List.mem_map.mp hitem
    exact Nat.not_le.mpr hless ((ih source hsource).trans (depth_le_itemsDepth hsource))
  | object members ih =>
    rw [canonical, depth, depth, canonicalMembers_eq_map]
    refine Nat.succ_le_succ (Nat.le_of_not_lt fun hdeep => ?_)
    obtain ⟨member, hmember, hless⟩ := exists_of_lt_membersDepth hdeep
    obtain ⟨source, hsource, rfl⟩ := List.mem_map.mp (mem_sortMembers hmember)
    exact Nat.not_le.mpr hless ((ih source hsource).trans (depth_le_membersDepth hsource))
  | _ => exact Nat.le_refl 0

/-- Bringing a value into its canonical form first makes no difference to what is read. -/
theorem reread_canonical (v : Json) : v.canonical.reread = v.reread := by
  induction v using nestedInduction with
  | array items ih =>
    rw [canonical, reread, reread, canonicalItems_eq_map, rereadItems_eq_map, rereadItems_eq_map, List.map_map]
    exact congrArg array (List.map_congr_left ih)
  | object members ih =>
    have hmembers : (members.map fun member => (member.1, member.2.canonical)).map (fun member => (member.1, member.2.reread)) =
        members.map fun member => (member.1, member.2.reread) := by
      rw [List.map_map]
      exact List.map_congr_left fun member hmember => by rw [Function.comp_apply, ih member hmember]
    rw [canonical, reread, reread, canonicalMembers_eq_map, rereadMembers_eq_map, rereadMembers_eq_map, ← sortMembers_map, hmembers,
      sortMembers_of_increasing (increasing_sortMembers _)]
  | _ => rfl

end Json

/-! ## Integers of fixed width -/

namespace JsonNumber

theorem toInt?_ofInt64 (n : Int64) : (JsonNumber.ofInt64 n).toInt? = some n.toInt := by
  unfold ofInt64
  split_ifs with hnegative
  · simp only [toInt?, Option.some.injEq]
    omega
  · have hbound := n.toInt_lt
    simp only [toInt?, Option.some.injEq, UInt64.toNat_ofNat']
    omega

theorem reread_ofInt64 (n : Int64) : (ofInt64 n).reread = ofInt64 n := by
  unfold ofInt64
  split_ifs
  · exact reread_negative _
  · exact reread_natural _

theorem reread_ofInt32 (n : Int32) : (ofInt32 n).reread = ofInt32 n := reread_ofInt64 n.toInt64

theorem isIntegral_ofInt64 (n : Int64) : (Json.number (.ofInt64 n)).IsIntegral := by
  rw [Json.IsIntegral, toInt?_ofInt64]
  rfl

theorem isIntegral_ofInt32 (n : Int32) : (Json.number (.ofInt32 n)).IsIntegral := isIntegral_ofInt64 n.toInt64

end JsonNumber

end LoadGenerator
