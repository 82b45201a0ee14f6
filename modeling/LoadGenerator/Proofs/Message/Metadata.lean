import LoadGenerator.Client.Basic
import LoadGenerator.Connection.Basic
import LoadGenerator.Proofs.Json.Canonical

/-!
# Metadata in any order

Nobody chooses the order in which metadata is written, and nobody who reads it depends on it: its keys differ, so a key has its value wherever it stands, and what is read is put in the order of the keys.
-/

namespace LoadGenerator

namespace Json

section

variable {α : Type} {members other : List (String × α)}

theorem nodup_of_increasing (h : Increasing members) : (members.map Prod.fst).Nodup :=
  List.Pairwise.imp (fun {_ _} hless => String.ne_of_lt hless) h

/-- A key has its value wherever it stands. -/
theorem lookup_of_perm (h : members.Perm other) (hkeys : (members.map Prod.fst).Nodup) (key : String) :
    members.lookup key = other.lookup key := by
  induction h with
  | nil => rfl
  | cons member _ ih =>
    rw [List.map_cons, List.nodup_cons] at hkeys
    rw [List.lookup_cons, List.lookup_cons, ih hkeys.2]
  | swap first second rest =>
    rw [List.lookup_cons, List.lookup_cons, List.lookup_cons, List.lookup_cons]
    cases hfirst : key == first.1 with
    | false => rfl
    | true =>
      obtain rfl := beq_iff_eq.mp hfirst
      have hsecond : (first.1 == second.1) = false := beq_eq_false_iff_ne.mpr fun heq => by simp [heq] at hkeys
      rw [hsecond]
  | trans hleft _ ih ih' => exact (ih hkeys).trans (ih' ((hleft.map Prod.fst).nodup_iff.mp hkeys))

theorem eq_of_perm_of_increasing (h : members.Perm other) (hmembers : Increasing members) (hother : Increasing other) : members = other := by
  rw [Increasing, List.pairwise_map] at hmembers hother
  exact h.eq_of_pairwise (fun _ _ _ _ hless hgreater => absurd hgreater (String.lt_asymm hless)) hmembers hother

theorem sortMembers_of_perm (h : members.Perm other) (hother : Increasing other) : sortMembers members = other :=
  have hkeys : (members.map Prod.fst).Nodup := (h.map Prod.fst).nodup_iff.mpr (nodup_of_increasing hother)
  eq_of_perm_of_increasing ((perm_sortMembers hkeys).trans h) (increasing_sortMembers members) hother

end

end Json

open Message

namespace Message.MapOrder

theorem lookup_arrange (order : MapOrder) {metadata : Metadata} (h : Json.Increasing metadata) (key : String) :
    (order.arrange metadata).lookup key = metadata.lookup key :=
  (Json.lookup_of_perm (order.perm_arrange metadata).symm (Json.nodup_of_increasing h) key).symm

theorem sortMembers_arrange (order : MapOrder) {metadata : Metadata} (h : Json.Increasing metadata) :
    Json.sortMembers (order.arrange metadata) = metadata :=
  Json.sortMembers_of_perm (order.perm_arrange metadata) h

end Message.MapOrder

/-! ## The metadata of a call -/

theorem Connection.OpenCall.increasing_metadata (call : OpenCall) : Json.Increasing call.metadata := by
  have hnil : Json.Increasing ([] : Metadata) := List.Pairwise.nil
  have hid := Json.increasing_insertMember Metadata.requestIdKey call.requestId hnil
  unfold Connection.OpenCall.metadata
  dsimp only
  split_ifs
  · exact hid
  · exact Json.increasing_insertMember _ _ hid

/-- A response has the ids of its call, in whatever order. -/
theorem Connection.OpenCall.lookup_response (call : OpenCall) (outcome : Except Service.Status Service.Reply) (key : String) :
    (call.response outcome).metadata.lookup key = call.metadata.lookup key :=
  call.order.lookup_arrange call.increasing_metadata key

end LoadGenerator
