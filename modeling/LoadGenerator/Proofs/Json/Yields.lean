import LoadGenerator.Json.Record
import LoadGenerator.Proofs.Json.Canonical
import LoadGenerator.Proofs.Json.Strings

/-!
# What a reader can return

Whatever the text is, some things hold of all that a reader makes of it. The keys of an object that was read increase, so each of its members is found by its key; and where a record is taken from the members of an object, each part of the record is the one that its own member stands for.
-/

namespace LoadGenerator

namespace JsonReader

variable {α β : Type}

/-- Whatever the reader returns is of this kind. -/
def Yields (reader : JsonReader α) (kind : α → Prop) : Prop := ∀ s a rest, reader s = .ok (a, rest) → kind a

namespace Yields

variable {reader : JsonReader α} {kind : α → Prop} {result : β → Prop}

theorem pure {a : α} (h : kind a) : Yields (pure a) kind := by
  intro s b rest hread
  obtain ⟨rfl, -⟩ := Prod.mk.inj (Except.ok.inj hread)
  exact h

theorem bind {next : α → JsonReader β} (h : Yields reader kind) (hnext : ∀ a, kind a → Yields (next a) result) :
    Yields (reader >>= next) result := by
  intro s b rest hread
  obtain ⟨a, s', hfirst, hrest⟩ := exists_of_bind_ok hread
  exact hnext a (h s a s' hfirst) s' b rest hrest

/-- What comes first does not matter where the rest is of the kind after anything. -/
theorem then_any {next : α → JsonReader β} (hnext : ∀ a, Yields (next a) result) : Yields (reader >>= next) result :=
  bind (show Yields reader fun _ => True from fun _ _ _ _ => trivial) fun a _ => hnext a

theorem map {f : α → β} (h : Yields reader fun a => result (f a)) : Yields (f <$> reader) result := by
  intro s b rest hread
  rw [map_eq_pure_bind] at hread
  exact bind h (fun a ha => pure ha) s b rest hread

theorem of_fails (h : ∀ s, ∃ failure, reader s = .error failure) : Yields reader kind := by
  intro s a rest hread
  obtain ⟨failure, hfailure⟩ := h s
  cases hfailure.symm.trans hread

theorem failNext (problem : JsonProblem) : Yields (failNext problem) kind := of_fails fun _ => ⟨_, rfl⟩

theorem failHere (problem : JsonProblem) : Yields (failHere problem) kind := of_fails fun _ => ⟨_, rfl⟩

theorem failUnplaced (problem : JsonProblem) : Yields (failUnplaced problem) kind := of_fails fun _ => ⟨_, rfl⟩

theorem expecting {accepts : Char → Bool} {expected : String} (h : Yields reader kind) : Yields (expecting accepts expected reader) kind := by
  have hwrong : Yields (wrongType expected) kind := then_any fun _ => then_any fun _ => failHere _
  refine then_any fun _ => then_any fun s => ?_
  cases s with
  | nil => exact hwrong
  | cons c _ =>
    dsimp only
    split_ifs
    · exact h
    · exact hwrong

theorem bracketed {finish : List Char → Except ReadFailure Unit × List Char} (h : Yields reader kind) :
    Yields (bracketed finish reader) kind := by
  intro s a rest hread
  unfold JsonReader.bracketed at hread
  split at hread
  next b inner hinside =>
    split at hread
    next =>
      obtain ⟨rfl, -⟩ := Prod.mk.inj (Except.ok.inj hread)
      exact h _ _ _ hinside
    next => cases hread
  next => cases hread
  next => cases hread

end Yields

end JsonReader

namespace Json

/-- The members of the value, if it is an object, are in the order of their keys. -/
def IsOrdered : Json → Prop
  | object members => Increasing members
  | _ => True

end Json

namespace JsonReader

theorem yields_scalarOr {other : Char → JsonReader Json} (h : ∀ c, Yields (other c) Json.IsOrdered) :
    Yields (scalarOr other) Json.IsOrdered := by
  refine Yields.then_any fun s => ?_
  cases s with
  | nil => exact Yields.failHere _
  | cons c rest =>
    dsimp only
    split_ifs
    · exact Yields.then_any fun _ => Yields.then_any fun _ => Yields.pure trivial
    · exact Yields.then_any fun _ => Yields.then_any fun _ => Yields.pure trivial
    · exact Yields.then_any fun _ => Yields.then_any fun _ => Yields.pure trivial
    · exact Yields.map fun _ _ _ _ => trivial
    · exact Yields.map fun _ _ _ _ => trivial
    · exact h c

theorem yields_value (depth : Nat) : Yields (value depth) Json.IsOrdered := by
  cases depth with
  | zero => exact Yields.then_any fun _ => yields_scalarOr fun _ => Yields.failNext _
  | succ depth =>
    refine Yields.then_any fun _ => yields_scalarOr fun c => ?_
    split_ifs
    · exact Yields.map fun _ _ _ _ => trivial
    · exact Yields.map fun _ _ _ _ => Json.increasing_sortMembers _
    · exact Yields.failNext _

end JsonReader

/-! ## Records -/

namespace RecordType

open JsonReader

variable {α β : Type} {record : RecordType α} {kind : α → Prop}

/-- Reading any member keeps a record of this kind. -/
def Keeps (members : List (RecordMember α)) (kind : α → Prop) : Prop :=
  ∀ member ∈ members, ∀ depth a, kind a → Yields (member.read depth a) kind

theorem yields_readMembers (h : Keeps record.members kind) (depth fuel : Nat) (first : Bool) (seen : List String) {a : α} (ha : kind a) :
    Yields (record.readMembers depth fuel first seen a) fun found => kind found.2 := by
  induction fuel generalizing first seen a with
  | zero => exact Yields.pure ha
  | succ fuel ih =>
    refine Yields.then_any fun key? => ?_
    cases key? with
    | none => exact Yields.pure ha
    | some key =>
      dsimp only
      cases hmember : record.member? key with
      | none => exact Yields.then_any fun _ => Yields.then_any fun _ => ih false seen ha
      | some member =>
        dsimp only
        split_ifs
        · exact Yields.failUnplaced _
        · exact Yields.then_any fun _ => Yields.bind (h member (List.mem_of_find?_eq_some hmember) depth a ha) fun b hb => ih false (key :: seen) hb

theorem yields_readItems {members : List (RecordMember α)} (h : Keeps members kind) (depth count : Nat) {a : α} (ha : kind a) :
    Yields (record.readItems depth members count a) kind := by
  induction members generalizing count a with
  | nil => exact Yields.pure ha
  | cons member members ih =>
    have hrest : Keeps members kind := fun other hother => h other (List.mem_cons_of_mem _ hother)
    refine Yields.then_any fun more => ?_
    split_ifs
    · exact Yields.bind (h member List.mem_cons_self depth a ha) fun b hb => ih hrest (count + 1) hb
    · exact ih hrest count ha
    · exact Yields.failUnplaced _

theorem yields_read (h : Keeps record.members kind) (hblank : kind record.blank) (depth : Nat) : Yields (record.read depth) kind := by
  cases depth with
  | zero => exact Yields.expecting (Yields.failNext _)
  | succ depth =>
    have hobject : Yields (record.readObject depth) kind := by
      refine Yields.then_any fun s => Yields.bind (yields_readMembers h depth _ true [] hblank) fun found hfound => ?_
      obtain ⟨seen, a⟩ := found
      dsimp only
      cases record.missing? seen with
      | none => exact Yields.pure hfound
      | some name => exact Yields.failUnplaced _
    refine Yields.expecting (Yields.then_any fun s => ?_)
    split
    · exact Yields.bracketed (yields_readItems h depth 0 hblank)
    · exact Yields.bracketed hobject

theorem kind_of_parse (h : Keeps record.members kind) (hblank : kind record.blank) {text : String} {a : α}
    (hparse : record.codec.parse text = .ok a) : kind a := by
  have hread : Yields (do let a ← record.read depthLimit; finished; return a : JsonReader α) kind :=
    Yields.bind (yields_read h hblank depthLimit) fun a ha => Yields.then_any fun _ => Yields.pure ha
  unfold JsonCodec.parse run at hparse
  split at hparse
  next b rest hok =>
    obtain rfl := Except.ok.inj hparse
    exact hread _ _ _ hok
  next => cases hparse
  next => cases hparse

theorem name_of_member? {key : String} {member : RecordMember α} (h : record.member? key = some member) : member.name = key := by
  have hfound := List.find?_some h
  exact beq_iff_eq.mp hfound

/-- Decoding an object takes its first member, or passes over it where the record does not know it. -/
theorem decodeObject_cons {name : String} {value : Json} {members : List (String × Json)} {seen : List String} {a a' : α}
    (h : record.decodeObject ((name, value) :: members) seen a = .ok a') :
    (record.member? name = none ∧ record.decodeObject members seen a = .ok a') ∨
      ∃ member b, record.member? name = some member ∧ member.decode value a = .ok b ∧
        record.decodeObject members (name :: seen) b = .ok a' := by
  simp only [decodeObject] at h
  cases hmember : record.member? name with
  | none =>
    rw [hmember] at h
    exact .inl ⟨rfl, h⟩
  | some member =>
    rw [hmember] at h
    cases hdecode : member.decode value a with
    | error problem =>
      simp only [hdecode] at h
      cases h
    | ok b =>
      simp only [hdecode] at h
      exact .inr ⟨member, b, rfl, hdecode, h⟩

/-- The part of a record that has a member of its own is taken from that member, and stays as it was where the member does not occur. -/
theorem part_of_decodeObject {part : α → β} {decode : Json → Except JsonProblem β} {key : String}
    (hown : ∃ member, record.member? key = some member ∧
      ∀ value a a', member.decode value a = .ok a' → decode value = .ok (part a'))
    (hothers : ∀ member ∈ record.members, member.name ≠ key → ∀ value a a', member.decode value a = .ok a' → part a' = part a)
    {members : List (String × Json)} (hmembers : Json.Increasing members) {seen : List String} {a a' : α}
    (h : record.decodeObject members seen a = .ok a') :
    match members.lookup key with
    | none => part a' = part a
    | some value => decode value = .ok (part a') := by
  induction members generalizing seen a with
  | nil =>
    unfold decodeObject at h
    split at h
    next => cases h
    next =>
      obtain rfl := Except.ok.inj h
      rfl
  | cons member members ih =>
    obtain ⟨name, value⟩ := member
    obtain ⟨hfirst, hincreasing⟩ := Json.increasing_cons.mp hmembers
    by_cases hname : name = key
    · subst hname
      have hlater : members.lookup name = none := by
        rw [List.lookup_eq_none_iff]
        intro other hother
        rw [bne_iff_ne]
        rintro rfl
        exact String.lt_irrefl _ (hfirst other hother)
      obtain ⟨own, hmember, htake⟩ := hown
      obtain ⟨hnone, -⟩ | ⟨member, b, hsome, hdecode, hrest⟩ := decodeObject_cons h
      · rw [hnone] at hmember
        cases hmember
      · obtain rfl := Option.some.inj (hmember.symm.trans hsome)
        have hsame := ih hincreasing hrest
        rw [hlater] at hsame
        rw [List.lookup_cons_self, show part a' = part b from hsame]
        exact htake value a b hdecode
    · rw [List.lookup_cons, beq_eq_false_iff_ne.mpr (Ne.symm hname)]
      obtain ⟨-, hrest⟩ | ⟨member, b, hsome, hdecode, hrest⟩ := decodeObject_cons h
      · exact ih hincreasing hrest
      · have hsame := ih hincreasing hrest
        rwa [hothers member (List.mem_of_find?_eq_some hsome) (name_of_member? hsome ▸ hname) value a b hdecode] at hsame

end RecordType

namespace RecordMember

variable {α β : Type} {codec : JsonCodec β} {name : String} {presence : Presence} {get : α → β} {put : β → α → α} {omitted : β → Bool}

theorem yields_of {kind : α → Prop} {depth : Nat} {a : α} (h : JsonReader.Yields (codec.read depth) fun b => kind (put b a)) :
    JsonReader.Yields ((RecordMember.of name presence codec get put omitted).read depth a) kind :=
  JsonReader.Yields.bind h fun _ hb => JsonReader.Yields.pure hb

theorem exists_of_decode {value : Json} {a a' : α} (h : (RecordMember.of name presence codec get put omitted).decode value a = .ok a') :
    ∃ b, codec.decode value = .ok b ∧ a' = put b a := by
  change (codec.decode value >>= fun b => pure (put b a)) = _ at h
  cases hdecode : codec.decode value with
  | error problem =>
    rw [hdecode] at h
    cases h
  | ok b =>
    rw [hdecode] at h
    exact ⟨b, rfl, (Except.ok.inj h).symm⟩

end RecordMember

end LoadGenerator
