import LoadGenerator.Load.Worker.Thread
import Mathlib.Tactic

/-!
# What a worker leaves behind

A worker that has ended stays as it is. Every move keeps the account of the scratch directory: it has the entries that it had before any worker, and the file of each worker that has one. Once the token is cancelled, a worker has few moves before it, and while it lives it can make one.
-/

namespace LoadGenerator.Load

/-! ## The scratch directory -/

/-- The directory has the entries that it had before, and these files. -/
def Directory.Holds (before : Directory) (files : List String) (directory : Directory) : Prop :=
  match before, directory with
  | none, none => files = []
  | some before, some entries => entries.Perm (before ++ files)
  | _, _ => False

namespace Directory.Holds

open scoped List

variable {before directory : Directory} {front back : List String} {file : String}

theorem initial (before : Directory) : before.Holds [] before := by
  cases before with
  | none => rfl
  | some entries => exact .of_eq (List.append_nil entries).symm

theorem create {entries : List String} (h : before.Holds (front ++ back) (some entries)) (file : String) :
    before.Holds (front ++ file :: back) (some (entries ++ [file])) := by
  cases before with
  | none => exact h
  | some before =>
    calc entries ++ [file]
      _ ~ before ++ (front ++ back) ++ [file] := List.Perm.append_right _ h
      _ ~ before ++ ((front ++ back) ++ [file]) := .of_eq (List.append_assoc _ _ _)
      _ ~ before ++ (front ++ file :: back) :=
        List.Perm.append_left _ ((List.perm_append_singleton _ _).trans List.perm_middle.symm)

theorem remove (h : before.Holds (front ++ file :: back) directory) :
    before.Holds (front ++ back) (directory.map fun entries => entries.erase file) := by
  cases before with
  | none =>
    cases directory with
    | none => exact absurd h (by simp [Directory.Holds])
    | some entries => exact h
  | some before =>
    cases directory with
    | none => exact h
    | some entries =>
      have hfront : entries.Perm (file :: (before ++ (front ++ back))) := by
        rw [← List.append_assoc]
        refine List.Perm.trans h ?_
        rw [← List.append_assoc]
        exact List.perm_middle
      have herased := hfront.erase file
      rwa [List.erase_cons_head] at herased

end Directory.Holds

/-! ## Looks at the token -/

/-- The interval divides the number at which the counter wraps, so a wrap makes no difference to the looks at the token. -/
theorem Processor.Spin.polls_iff (spin : Processor.Spin) : spin.polls = true ↔ 1024 ∣ spin.count.toNat + 1 := by
  have hcount : ((spin.count + 1) % pollInterval).toNat = (spin.count.toNat + 1) % 1024 := by
    rw [UInt32.toNat_mod, UInt32.toNat_add]
    change (spin.count.toNat + 1) % 4294967296 % 1024 = (spin.count.toNat + 1) % 1024
    omega
  rw [polls, beq_iff_eq, ← UInt32.toNat_inj, hcount]
  exact Nat.dvd_iff_mod_eq_zero.symm

/-! ## Moves -/

namespace WorkerStage

/-- The kind of worker that can be at this stage, as long as it lives. -/
def kind? : WorkerStage → Option Worker
  | spinning _ => some .processor
  | committing _ _ | holding _ => some .memory
  | opening | churning _ _ => some .disk
  | ended _ => none

theorem kind?_start (spec : Spec) (kind : Worker) : (start spec kind).kind? = some kind := by
  cases kind <;> rfl

theorem isLive_eq_isSome_kind? (stage : WorkerStage) : stage.isLive = stage.kind?.isSome := by
  cases stage <;> rfl

theorem kind?_of_file? {stage : WorkerStage} {file : String} (h : stage.file? = some file) : stage.kind? = some .disk := by
  cases stage with
  | churning => rfl
  | _ => cases h

/-- What a move can do: go on with the directory as it is, create a file under a new name, or end and take the file along. -/
inductive Advance (directory : Directory) (stage : WorkerStage) : WorkerStage × Directory → Prop where
  | goes (stage' : WorkerStage) (hkind : stage'.kind? = stage.kind? ∨ stage'.kind? = none) (hfile : stage'.file? = stage.file?) :
      Advance directory stage (stage', directory)
  | creates (entries : List String) (file : String) (churn : Disk.Churn) (hdirectory : directory = some entries)
      (hnew : file ∉ entries) (hstage : stage = opening) : Advance directory stage (churning file churn, some (entries ++ [file]))
  | leaves (file : String) (failure : Option String) (hfile : stage.file? = some file) :
      Advance directory stage (leave file failure directory)

theorem next_advance (size : Nat) (cancelled : Bool) (directory : Directory) (stage : WorkerStage) (move : Move) :
    Advance directory stage (stage.next size cancelled directory move) := by
  have hstill : Advance directory stage (stage, directory) := .goes stage (.inl rfl) rfl
  cases stage with
  | spinning spin =>
    cases move with
    | step =>
      rw [next]
      cases spin.next cancelled with
      | none => exact .goes _ (.inr rfl) rfl
      | some spin => exact .goes _ (.inl rfl) rfl
    | create file => exact hstill
    | fail reason => exact hstill
  | committing taken left =>
    cases move with
    | step =>
      rw [next]
      split_ifs
      · exact .goes _ (.inl rfl) rfl
      · exact .goes _ (.inl rfl) rfl
    | create file => exact hstill
    | fail reason => exact hstill
  | holding chunks =>
    cases move with
    | step =>
      rw [next]
      split_ifs
      · exact .goes _ (.inr rfl) rfl
      · exact hstill
    | create file => exact hstill
    | fail reason => exact hstill
  | opening =>
    cases move with
    | step => exact hstill
    | create file =>
      cases directory with
      | none => exact hstill
      | some entries =>
        simp only [next]
        split_ifs with hold
        · exact hstill
        · exact .creates entries file _ rfl hold rfl
    | fail reason => exact .goes _ (.inr rfl) rfl
  | churning file churn =>
    cases move with
    | step =>
      rw [next]
      obtain ⟨action, churn'⟩ := churn.next cancelled
      cases action with
      | some action => exact .goes _ (.inl rfl) rfl
      | none => exact .leaves file none rfl
    | create name => exact hstill
    | fail reason => exact .leaves file _ rfl
  | ended failure => exact hstill

variable {size : Nat} {cancelled : Bool} {directory before : Directory} {stage : WorkerStage}

/-- A worker that has ended does nothing more. -/
theorem next_of_not_isLive (h : stage.isLive = false) (move : Move) : stage.next size cancelled directory move = (stage, directory) := by
  cases stage with
  | ended failure => rfl
  | _ => cases h

/-- A worker stays of its kind until it ends. -/
theorem kind?_next (size : Nat) (cancelled : Bool) (directory : Directory) (stage : WorkerStage) (move : Move) :
    (stage.next size cancelled directory move).1.kind? = stage.kind? ∨ (stage.next size cancelled directory move).1.kind? = none := by
  have hadvance := next_advance size cancelled directory stage move
  generalize stage.next size cancelled directory move = result at hadvance
  cases hadvance with
  | goes stage' hkind => exact hkind
  | creates entries file churn hdirectory hnew hstage =>
    rw [hstage]
    exact .inl rfl
  | leaves file failure => exact .inr rfl

/-- Whatever a worker does, the directory keeps the entries from before and the files of the workers that have one. -/
theorem next_holds {front back : List String} (h : before.Holds (front ++ (stage.file?.toList ++ back)) directory) (move : Move) :
    before.Holds (front ++ ((stage.next size cancelled directory move).1.file?.toList ++ back))
      (stage.next size cancelled directory move).2 := by
  have hadvance := next_advance size cancelled directory stage move
  generalize stage.next size cancelled directory move = result at hadvance
  cases hadvance with
  | goes stage' hkind hfile => rwa [hfile]
  | creates entries file churn hdirectory hnew hstage =>
    rw [hstage, hdirectory] at h
    exact h.create file
  | leaves file failure hfile =>
    rw [hfile] at h
    exact h.remove

/-! ## The end of a worker -/

/-- How many moves a worker has before it at the most, once its token is cancelled. -/
def remaining : WorkerStage → Nat
  | spinning spin => Processor.pollInterval.toNat - spin.count.toNat % Processor.pollInterval.toNat
  | committing _ _ => 2
  | holding _ => 1
  | opening => 3
  | churning _ churn => if churn.stage = .writing 0 then 2 else 1
  | ended _ => 0

theorem remaining_spin {spin rest : Processor.Spin} (h : spin.next true = some rest) :
    (spinning rest).remaining < (spinning spin).remaining := by
  unfold Processor.Spin.next at h
  split_ifs at h with hpolls
  obtain rfl := (Option.some.inj h).symm
  rw [Bool.and_true, Processor.Spin.polls_iff] at hpolls
  change 1024 - (spin.count.toNat + 1) % 2 ^ 32 % 1024 < 1024 - spin.count.toNat % 1024
  omega

/-- Once the token is cancelled, a move that a worker makes brings it nearer to its end. -/
theorem next_cancelled (size : Nat) (directory : Directory) (stage : WorkerStage) (move : Move) :
    stage.next size true directory move = (stage, directory) ∨ (stage.next size true directory move).1.remaining < stage.remaining := by
  cases stage with
  | spinning spin =>
    cases move with
    | step =>
      right
      rw [next]
      cases hnext : spin.next true with
      | some rest => exact remaining_spin hnext
      | none => exact Nat.sub_pos_of_lt (Nat.mod_lt _ (by decide))
    | create file => exact .inl rfl
    | fail reason => exact .inl rfl
  | committing taken left =>
    cases move with
    | step => exact .inr (by simp [next, remaining])
    | create file => exact .inl rfl
    | fail reason => exact .inl rfl
  | holding chunks =>
    cases move with
    | step => exact .inr (by simp [next, remaining])
    | create file => exact .inl rfl
    | fail reason => exact .inl rfl
  | opening =>
    cases move with
    | step => exact .inl rfl
    | create file =>
      cases directory with
      | none => exact .inl rfl
      | some entries =>
        simp only [next]
        split_ifs with hold
        · exact .inl rfl
        · exact .inr (by simp [remaining, Disk.Churn.start])
    | fail reason => exact .inr (by simp [next, remaining])
  | churning file churn =>
    obtain ⟨churnSize, stage, offset, length⟩ := churn
    cases move with
    | step =>
      right
      cases stage with
      | betweenPasses => simp [next, Disk.Churn.next, leave, remaining]
      | writing left =>
        cases left with
        | zero => simp [next, Disk.Churn.next, remaining]
        | succ left => simp [next, Disk.Churn.next, leave, remaining]
      | stopped => simp [next, Disk.Churn.next, leave, remaining]
    | create name => exact .inl rfl
    | fail reason =>
      right
      simp only [next, leave, remaining]
      split_ifs <;> decide
  | ended failure => exact .inl rfl

/-- Once the token is cancelled, a worker that lives has a move to make. -/
theorem exists_move (size : Nat) (directory : Directory) (h : stage.isLive = true) :
    ∃ move, (stage.next size true directory move).1.remaining < stage.remaining := by
  have hmoves : ∀ move, stage.next size true directory move ≠ (stage, directory) →
      ∃ move, (stage.next size true directory move).1.remaining < stage.remaining := fun move hne =>
    ⟨move, (next_cancelled size directory stage move).resolve_left hne⟩
  cases stage with
  | opening => exact hmoves (.fail "") (by simp [next])
  | spinning spin =>
    refine hmoves .step ?_
    rw [next]
    cases hnext : spin.next true with
    | none => simp
    | some rest =>
      have hless := remaining_spin hnext
      intro heq
      rw [(Prod.mk.inj heq).1] at hless
      exact absurd hless (Nat.lt_irrefl _)
  | committing taken left => exact hmoves .step (by simp [next])
  | holding chunks => exact hmoves .step (by simp [next])
  | churning file churn =>
    refine hmoves .step ?_
    obtain ⟨churnSize, stage, offset, length⟩ := churn
    cases stage with
    | betweenPasses => simp [next, Disk.Churn.next, leave]
    | writing left =>
      cases left with
      | zero => simp [next, Disk.Churn.next]
      | succ left => simp [next, Disk.Churn.next, leave]
    | stopped => simp [next, Disk.Churn.next, leave]
  | ended failure => cases h

/-! ## Steps of a loop -/

/-- A worker and the directory after a number of steps of its loop, where step `k` sees `cancelled k`. -/
def afterSteps (size : Nat) (cancelled : Nat → Bool) (directory : Directory) (stage : WorkerStage) : Nat → WorkerStage × Directory
  | 0 => (stage, directory)
  | n + 1 =>
    let (stage, directory) := afterSteps size cancelled directory stage n
    stage.next size (cancelled n) directory .step

theorem afterSteps_succ (size : Nat) (cancelled : Nat → Bool) (directory : Directory) (stage : WorkerStage) (n : Nat) :
    stage.afterSteps size cancelled directory (n + 1) =
      (stage.afterSteps size cancelled directory n).1.next size (cancelled n) (stage.afterSteps size cancelled directory n).2 .step := rfl

end WorkerStage

end LoadGenerator.Load
