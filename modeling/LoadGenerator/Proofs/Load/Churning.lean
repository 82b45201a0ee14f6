import LoadGenerator.Proofs.Load.Workers
import Mathlib.Algebra.Order.Floor.Div

/-!
# Rewriting the head of a file

A disk worker goes through whole passes: back to the start, writes without a gap up to the size, a synchronisation. It looks at its token between two passes and between two writes, and stops where it sees it cancelled. So its file is never longer than the size, and exactly as long from the last write of the first pass on.
-/

namespace LoadGenerator.Load.Disk

/-! ## Passes -/

/-- The writes of a pass: one buffer after another, and what is left in the last one. -/
def passWrites (size : Nat) : List Action :=
  (List.range (size ⌈/⌉ bufferLimit)).map fun k => .write (k * bufferLimit) (min bufferLimit (size - k * bufferLimit))

def pass (size : Nat) : List Action := .rewind :: (passWrites size ++ [.sync])

/-- So many passes, one behind the other. -/
def passes (size whole : Nat) : List Action := (List.replicate whole (pass size)).flatten

/-- Writes one behind the other, from one place to another: each begins where the one before it ended, and takes one byte at least and `limit` bytes at the most. -/
inductive Covers (limit : Nat) : Nat → Nat → List Action → Prop where
  | nil (place : Nat) : Covers limit place place []
  | cons {place length stop : Nat} {writes : List Action} (hpositive : 1 ≤ length) (hlength : length ≤ limit)
      (rest : Covers limit (place + length) stop writes) : Covers limit place stop (.write place length :: writes)

variable {size limit : Nat}

theorem Covers.concat {place middle length : Nat} {writes : List Action} (h : Covers limit place middle writes)
    (hpositive : 1 ≤ length) (hlength : length ≤ limit) : Covers limit place (middle + length) (writes ++ [.write middle length]) := by
  induction h with
  | nil place => exact .cons hpositive hlength (.nil _)
  | cons hpositive' hlength' rest ih => exact .cons hpositive' hlength' ih

theorem length_passWrites (size : Nat) : (passWrites size).length = size ⌈/⌉ bufferLimit := by
  rw [passWrites, List.length_map, List.length_range]

theorem lt_ceilDiv_iff {k : Nat} : k < size ⌈/⌉ bufferLimit ↔ k * bufferLimit < size := by
  rw [Nat.ceilDiv_eq_add_pred_div]
  unfold bufferLimit
  omega

/-- The next write of a pass, when `k` of them are done. -/
theorem passWrites_getElem? {k : Nat} (hk : k * bufferLimit < size) :
    (passWrites size)[k]? = some (.write (k * bufferLimit) (min bufferLimit (size - k * bufferLimit))) := by
  rw [passWrites, List.getElem?_map, List.getElem?_range (lt_ceilDiv_iff.mpr hk), Option.map_some]

theorem take_passWrites_succ {k : Nat} (hk : k * bufferLimit < size) :
    (passWrites size).take (k + 1) =
      (passWrites size).take k ++ [.write (k * bufferLimit) (min bufferLimit (size - k * bufferLimit))] := by
  rw [List.take_add_one, passWrites_getElem? hk, Option.toList_some]

theorem take_of_done {k : Nat} (hdone : size ≤ k * bufferLimit) : (passWrites size).take k = passWrites size := by
  refine List.take_of_length_le ?_
  rw [length_passWrites]
  exact not_lt.mp (mt lt_ceilDiv_iff.mp (not_lt.mpr hdone))

/-- The first writes of a pass cover the file up to where the last of them ended. -/
theorem covers_take (size k : Nat) : Covers (min size bufferLimit) 0 (min size (k * bufferLimit)) ((passWrites size).take k) := by
  induction k with
  | zero =>
    rw [Nat.zero_mul, Nat.min_zero]
    exact .nil 0
  | succ k ih =>
    by_cases hk : k * bufferLimit < size
    · rw [take_passWrites_succ hk]
      rw [Nat.min_eq_right hk.le] at ih
      have hend : min size ((k + 1) * bufferLimit) = k * bufferLimit + min bufferLimit (size - k * bufferLimit) := by
        rw [Nat.succ_mul]
        omega
      rw [hend]
      refine ih.concat (Nat.le_min.mpr ⟨by decide, by omega⟩) ?_
      omega
    · have hdone : size ≤ k * bufferLimit := not_lt.mp hk
      have hlater : size ≤ (k + 1) * bufferLimit := hdone.trans (Nat.mul_le_mul_right _ (Nat.le_succ k))
      rw [take_of_done hdone, Nat.min_eq_left hdone] at ih
      rw [take_of_done hlater, Nat.min_eq_left hlater]
      exact ih

theorem covers_passWrites (size : Nat) : Covers (min size bufferLimit) 0 size (passWrites size) := by
  have hdone : size ≤ size ⌈/⌉ bufferLimit * bufferLimit := not_lt.mp fun hless => absurd (lt_ceilDiv_iff.mpr hless) (lt_irrefl _)
  have h := covers_take size (size ⌈/⌉ bufferLimit)
  rwa [Nat.min_eq_left hdone, take_of_done hdone] at h

/-- The bytes that an action writes. -/
def Action.length : Action → Nat
  | write _ length => length
  | _ => 0

theorem Covers.add_sum {place stop : Nat} {writes : List Action} (h : Covers limit place stop writes) :
    place + (writes.map Action.length).sum = stop := by
  induction h with
  | nil place => rfl
  | cons hpositive hlength rest ih => rw [List.map_cons, List.sum_cons, Action.length, ← Nat.add_assoc, ih]

theorem Covers.bounds {place stop offset length : Nat} {writes : List Action} (h : Covers limit place stop writes)
    (hmem : .write offset length ∈ writes) : 1 ≤ length ∧ length ≤ limit ∧ offset + length ≤ stop := by
  induction h with
  | nil => exact absurd hmem List.not_mem_nil
  | cons hpositive hlength rest ih =>
    rcases List.mem_cons.mp hmem with heq | hrest
    · cases heq
      have hstop := rest.add_sum
      exact ⟨hpositive, hlength, by omega⟩
    · exact ih hrest

theorem length_pass (size : Nat) : (pass size).length = size ⌈/⌉ bufferLimit + 2 := by
  rw [pass, List.length_cons, List.length_append, length_passWrites, List.length_singleton]

theorem length_passes (size whole : Nat) : (passes size whole).length = whole * (size ⌈/⌉ bufferLimit + 2) := by
  rw [passes, List.length_flatten, List.map_replicate, List.sum_replicate, length_pass, smul_eq_mul]

theorem passes_succ (size whole : Nat) : passes size (whole + 1) = passes size whole ++ pass size := by
  rw [passes, List.replicate_succ', List.flatten_concat, passes]

theorem sync_notMem_passWrites (size : Nat) : Action.sync ∉ passWrites size := by
  rw [passWrites, List.mem_map]
  rintro ⟨k, -, h⟩
  cases h

theorem mem_passWrites_of_mem_pass {offset length : Nat} (h : .write offset length ∈ pass size) :
    .write offset length ∈ passWrites size := by
  simpa [pass] using h

theorem mem_pass_of_mem_passes {whole : Nat} {action : Action} (h : action ∈ passes size whole) : action ∈ pass size := by
  obtain ⟨actions, hactions, hmem⟩ := List.mem_flatten.mp h
  rwa [List.eq_of_mem_replicate hactions] at hmem

/-! ## Where the worker is in its passes -/

/-- How long the file is after so many passes. -/
def lengthAfter (size whole : Nat) : Nat := if whole = 0 then 0 else size

/-- The worker between two passes, after so many of them. -/
def atRest (size whole : Nat) : Churn := ⟨size, .betweenPasses, lengthAfter size whole, lengthAfter size whole⟩

/-- The worker behind the first `k` writes of a pass, after so many whole ones. -/
def behindWrites (size whole k : Nat) : Churn :=
  ⟨size, .writing (size - k * bufferLimit), min size (k * bufferLimit), max (lengthAfter size whole) (min size (k * bufferLimit))⟩

/-- What the worker has done and where it is, as long as it goes on. -/
inductive Underway (size : Nat) : List Action → Churn → Prop where
  | rests (whole : Nat) : Underway size (passes size whole) (atRest size whole)
  | writes (whole k : Nat) (hk : k ≤ size ⌈/⌉ bufferLimit) :
      Underway size (passes size whole ++ .rewind :: (passWrites size).take k) (behindWrites size whole k)

/-- The worker goes on, or it stopped somewhere, and keeps what it had done. -/
def Reached (size : Nat) (actions : List Action) (churn : Churn) : Prop :=
  ∃ before, Underway size actions before ∧ (churn = before ∨ churn = { before with stage := .stopped })

variable {actions : List Action} {churn : Churn}

theorem underway_start (size : Nat) : Underway size [] (.start size) := .rests 0

theorem lengthAfter_le (size whole : Nat) : lengthAfter size whole ≤ size := by
  unfold lengthAfter
  split_ifs
  · exact Nat.zero_le _
  · exact le_rfl

theorem next_atRest (size whole : Nat) : (atRest size whole).next false = (some .rewind, behindWrites size whole 0) := by
  rw [behindWrites, Nat.zero_mul, Nat.sub_zero, Nat.min_zero, Nat.max_zero]
  rfl

theorem next_behindWrites (whole : Nat) {k : Nat} (hmore : k * bufferLimit < size) :
    (behindWrites size whole k).next false =
      (some (.write (k * bufferLimit) (min bufferLimit (size - k * bufferLimit))), behindWrites size whole (k + 1)) := by
  have hplace : min size (k * bufferLimit) = k * bufferLimit := Nat.min_eq_right hmore.le
  have hlength : min (size - k * bufferLimit) (min bufferLimit size) = min bufferLimit (size - k * bufferLimit) := by omega
  have hend : k * bufferLimit + min bufferLimit (size - k * bufferLimit) = min size ((k + 1) * bufferLimit) := by
    rw [Nat.succ_mul]
    omega
  have hleft : size - k * bufferLimit - min bufferLimit (size - k * bufferLimit) = size - (k + 1) * bufferLimit := by
    rw [Nat.succ_mul]
    omega
  have hlonger : max (max (lengthAfter size whole) (k * bufferLimit)) (min size ((k + 1) * bufferLimit)) =
      max (lengthAfter size whole) (min size ((k + 1) * bufferLimit)) := by
    rw [Nat.succ_mul]
    omega
  rw [behindWrites, Churn.next]
  dsimp only
  rw [if_neg (Nat.sub_ne_zero_of_lt hmore), if_neg Bool.false_ne_true, hlength, hplace, hend, hleft, hlonger]
  rfl

theorem next_behindAll (whole : Nat) {k : Nat} (hdone : size ≤ k * bufferLimit) :
    (behindWrites size whole k).next false = (some .sync, atRest size (whole + 1)) := by
  have hlength : max (lengthAfter size whole) size = size := Nat.max_eq_right (lengthAfter_le size whole)
  rw [behindWrites, Nat.min_eq_left hdone, hlength, Churn.next]
  dsimp only
  rw [if_pos (Nat.sub_eq_zero_of_le hdone)]
  rfl

theorem Underway.next (h : Underway size actions churn) :
    ∃ action rest, churn.next false = (some action, rest) ∧ Underway size (actions ++ [action]) rest := by
  cases h with
  | rests whole => exact ⟨_, _, next_atRest size whole, .writes whole 0 (Nat.zero_le _)⟩
  | writes whole k hk =>
    rcases Nat.lt_or_ge (k * bufferLimit) size with hmore | hdone
    · refine ⟨_, _, next_behindWrites whole hmore, ?_⟩
      rw [List.append_assoc, List.cons_append, ← take_passWrites_succ hmore]
      exact .writes whole (k + 1) (lt_ceilDiv_iff.mpr hmore)
    · refine ⟨_, _, next_behindAll whole hdone, ?_⟩
      rw [take_of_done hdone, List.append_assoc, List.cons_append, ← pass, ← passes_succ]
      exact .rests (whole + 1)

/-- A step goes on as if the token were not cancelled, or it stops without doing anything. -/
theorem next_cases (churn : Churn) (cancelled : Bool) :
    churn.next cancelled = churn.next false ∨ churn.next cancelled = (none, { churn with stage := .stopped }) := by
  cases cancelled with
  | false => exact .inl rfl
  | true =>
    obtain ⟨size, stage, offset, fileLength⟩ := churn
    cases stage with
    | betweenPasses => exact .inr rfl
    | stopped => exact .inl rfl
    | writing remaining =>
      cases remaining with
      | zero => exact .inl rfl
      | succ remaining => exact .inr rfl

/-- A step that does nothing leaves the worker stopped, and no other does. -/
theorem next_eq_none_iff (churn : Churn) (cancelled : Bool) :
    (churn.next cancelled).1 = none ↔ (churn.next cancelled).2.stage = .stopped := by
  obtain ⟨size, stage, offset, fileLength⟩ := churn
  cases stage with
  | betweenPasses => cases cancelled <;> simp [Churn.next]
  | stopped => exact iff_of_true rfl rfl
  | writing remaining =>
    cases remaining with
    | zero => simp [Churn.next]
    | succ remaining => cases cancelled <;> simp [Churn.next]

theorem after_succ (size : Nat) (cancelled : Nat → Bool) (n : Nat) :
    after size cancelled (n + 1) =
      ((after size cancelled n).1 ++ ((after size cancelled n).2.next (cancelled n)).1.toList,
        ((after size cancelled n).2.next (cancelled n)).2) := rfl

theorem Reached.next (h : Reached size actions churn) (cancelled : Bool) :
    Reached size (actions ++ (churn.next cancelled).1.toList) (churn.next cancelled).2 := by
  obtain ⟨before, hunderway, rfl | rfl⟩ := h
  · rcases next_cases churn cancelled with hgoes | hstops
    · obtain ⟨action, rest, hnext, hrest⟩ := hunderway.next
      rw [hgoes, hnext]
      exact ⟨rest, hrest, .inl rfl⟩
    · rw [hstops, Option.toList_none, List.append_nil]
      exact ⟨churn, hunderway, .inr rfl⟩
  · refine ⟨before, ?_, .inr rfl⟩
    change Underway size (actions ++ []) before
    rwa [List.append_nil]

theorem reached_after (size : Nat) (cancelled : Nat → Bool) (n : Nat) :
    Reached size (after size cancelled n).1 (after size cancelled n).2 := by
  induction n with
  | zero => exact ⟨_, underway_start size, .inl rfl⟩
  | succ n ih => exact ih.next (cancelled n)

/-- As long as no look sees the token cancelled, each step does something. -/
theorem underway_after {cancelled : Nat → Bool} {n : Nat} (h : ∀ k < n, cancelled k = false) :
    Underway size (after size cancelled n).1 (after size cancelled n).2 ∧ (after size cancelled n).1.length = n := by
  induction n with
  | zero => exact ⟨underway_start size, rfl⟩
  | succ n ih =>
    obtain ⟨hunderway, hlength⟩ := ih fun k hk => h k (Nat.lt_succ_of_lt hk)
    obtain ⟨action, rest, hnext, hrest⟩ := hunderway.next
    rw [after_succ, h n (Nat.lt_succ_self n), hnext, Option.toList_some]
    exact ⟨hrest, by rw [List.length_append, hlength, List.length_singleton]⟩

/-! ## What has been done -/

/-- The worker has gone through whole passes, and the first actions of one more. -/
theorem Underway.trace (h : Underway size actions churn) :
    ∃ whole part, part < (pass size).length ∧ actions = passes size whole ++ (pass size).take part := by
  cases h with
  | rests whole => exact ⟨whole, 0, by rw [length_pass]; omega, by rw [List.take_zero, List.append_nil]⟩
  | writes whole k hk =>
    refine ⟨whole, k + 1, by rw [length_pass]; omega, ?_⟩
    rw [pass, List.take_succ_cons, List.take_append_of_le_length (by rwa [length_passWrites])]

theorem Underway.eq_passes {whole : Nat} (h : Underway size actions churn)
    (hlength : actions.length = whole * (size ⌈/⌉ bufferLimit + 2)) : actions = passes size whole := by
  obtain ⟨whole', part, hpart, rfl⟩ := h.trace
  rw [List.length_append, List.length_take, Nat.min_eq_left hpart.le, length_passes] at hlength
  rw [length_pass] at hpart
  have hnone : part = 0 := by
    have hrest := congrArg (· % (size ⌈/⌉ bufferLimit + 2)) hlength
    simpa only [Nat.mul_add_mod_self_right, Nat.mul_mod_left, Nat.mod_eq_of_lt hpart] using hrest
  rw [hnone, Nat.add_zero] at hlength
  rw [hnone, List.take_zero, List.append_nil, Nat.eq_of_mul_eq_mul_right (Nat.succ_pos _) hlength]

/-- No write leaves the head of the file. -/
theorem Underway.bounds {offset length : Nat} (h : Underway size actions churn) (hmem : .write offset length ∈ actions) :
    1 ≤ length ∧ length ≤ min size bufferLimit ∧ offset + length ≤ size := by
  refine (covers_passWrites size).bounds (mem_passWrites_of_mem_pass ?_)
  obtain ⟨whole, part, -, rfl⟩ := h.trace
  rcases List.mem_append.mp hmem with hpasses | hpart
  · exact mem_pass_of_mem_passes hpasses
  · exact List.mem_of_mem_take hpart

/-- What is left to write and where the next write begins make up the size, so nothing was ever taken from a smaller number. -/
theorem Underway.add_remaining {remaining : Nat} (h : Underway size actions churn) (hstage : churn.stage = .writing remaining) :
    churn.offset + remaining = size := by
  cases h with
  | rests whole => cases hstage
  | writes whole k hk =>
    obtain rfl := Stage.writing.inj hstage
    change min size (k * bufferLimit) + (size - k * bufferLimit) = size
    omega

theorem Underway.fileLength_le (h : Underway size actions churn) : churn.fileLength ≤ size := by
  cases h with
  | rests whole => exact lengthAfter_le size whole
  | writes whole k hk => exact Nat.max_le.mpr ⟨lengthAfter_le size whole, Nat.min_le_left _ _⟩

/-- After a synchronisation the file is as long as it is ever to be. -/
theorem Underway.fileLength_of_sync (h : Underway size actions churn) (hsync : .sync ∈ actions) : churn.fileLength = size := by
  have hwhole (whole : Nat) (hmem : .sync ∈ passes size whole) : lengthAfter size whole = size := by
    refine if_neg fun hnone => ?_
    rw [hnone] at hmem
    exact absurd hmem List.not_mem_nil
  cases h with
  | rests whole => exact hwhole whole hsync
  | writes whole k hk =>
    rcases List.mem_append.mp hsync with hpasses | hpart
    · rw [behindWrites, hwhole whole hpasses]
      exact Nat.max_eq_left (Nat.min_le_left _ _)
    · rcases List.mem_cons.mp hpart with heq | hwrites
      · cases heq
      · exact absurd (List.mem_of_mem_take hwrites) (sync_notMem_passWrites size)

theorem Underway.fileLength_of_written (h : Underway size actions churn) (hstage : churn.stage = .writing 0) :
    churn.fileLength = size := by
  have hle := h.fileLength_le
  cases h with
  | rests whole => cases hstage
  | writes whole k hk =>
    have hdone := Nat.le_of_sub_eq_zero (Stage.writing.inj hstage)
    exact hle.antisymm ((Nat.min_eq_left hdone).ge.trans (Nat.le_max_right _ _))

/-- Nothing is left of a pass exactly where its writes are done and its synchronisation is not. -/
theorem Underway.eq_of_written (h : Underway size actions churn) (hstage : churn.stage = .writing 0) :
    ∃ whole, actions = passes size whole ++ .rewind :: passWrites size := by
  cases h with
  | rests whole => cases hstage
  | writes whole k hk =>
    exact ⟨whole, by rw [take_of_done (Nat.le_of_sub_eq_zero (Stage.writing.inj hstage))]⟩

/-! ## The file -/

/-- The scratch file: the place of its cursor, and its bytes. -/
structure File where
  cursor : Nat
  bytes : List UInt8

/-- A write goes to the cursor, whatever place it is said to go to, and moves the cursor to its end. -/
def File.perform (file : File) : Action → File
  | .rewind => { file with cursor := 0 }
  | .write _ length =>
    ⟨file.cursor + length, file.bytes.take file.cursor ++ (List.replicate length 0xa5 ++ file.bytes.drop (file.cursor + length))⟩
  | .sync => file

/-- The file that was empty before these actions. -/
def fileAfter (actions : List Action) : File := actions.foldl File.perform ⟨0, []⟩

/-- The worker knows the place of the cursor and the length of the file, and the file has nothing but bytes that it wrote. -/
structure Agrees (churn : Churn) (file : File) : Prop where
  cursor : file.cursor = churn.offset
  bytes : file.bytes = List.replicate churn.fileLength 0xa5
  within : churn.offset ≤ churn.fileLength

theorem Agrees.perform_write {file : File} (h : Agrees churn file) (stage : Stage) (length : Nat) :
    Agrees { churn with stage, offset := churn.offset + length, fileLength := max churn.fileLength (churn.offset + length) }
      (file.perform (.write churn.offset length)) where
  cursor := by rw [File.perform, h.cursor]
  bytes := by
    have hwithin := h.within
    rw [File.perform, h.cursor, h.bytes, List.take_replicate, List.drop_replicate, List.replicate_append_replicate,
      List.replicate_append_replicate]
    refine congrArg (List.replicate · _) ?_
    dsimp only
    omega
  within := Nat.le_max_right _ _

theorem Agrees.next {file : File} (h : Agrees churn file) (cancelled : Bool) :
    Agrees (churn.next cancelled).2 ((churn.next cancelled).1.elim file file.perform) := by
  obtain ⟨size, stage, offset, fileLength⟩ := churn
  cases stage with
  | stopped => exact h
  | betweenPasses =>
    cases cancelled with
    | false => exact ⟨rfl, h.bytes, Nat.zero_le _⟩
    | true => exact ⟨h.cursor, h.bytes, h.within⟩
  | writing remaining =>
    cases remaining with
    | zero => exact ⟨h.cursor, h.bytes, h.within⟩
    | succ remaining =>
      cases cancelled with
      | false => exact h.perform_write _ _
      | true => exact ⟨h.cursor, h.bytes, h.within⟩

theorem agrees_after (size : Nat) (cancelled : Nat → Bool) (n : Nat) :
    Agrees (after size cancelled n).2 (fileAfter (after size cancelled n).1) := by
  induction n with
  | zero => exact ⟨rfl, rfl, le_rfl⟩
  | succ n ih =>
    have hnext := ih.next (cancelled n)
    rw [after_succ, fileAfter, List.foldl_append]
    generalize (after size cancelled n).2.next (cancelled n) = result at hnext ⊢
    obtain ⟨action, rest⟩ := result
    cases action with
    | none => exact hnext
    | some action => exact hnext

/-! ## Cancellation -/

/-- A worker whose token is cancelled ends at its next step, and does nothing more, but where it is at the end of a pass it finishes that first. -/
theorem after_cancelled (size : Nat) {cancelled : Nat → Bool} {n : Nat} (h : ∀ k, n ≤ k → cancelled k = true) (more : Nat) :
    (after size cancelled (n + 1 + more)).1 =
        (after size cancelled n).1 ++ (if (after size cancelled n).2.stage = .writing 0 then [.sync] else []) ∧
      ((after size cancelled (n + 1 + more)).2.stage = .stopped ∨
        more = 0 ∧ (after size cancelled (n + 1 + more)).2.stage = .betweenPasses) := by
  induction more with
  | zero =>
    rw [Nat.add_zero, after_succ, h n le_rfl]
    generalize after size cancelled n = before
    obtain ⟨actions, size, stage, offset, fileLength⟩ := before
    cases stage with
    | betweenPasses => exact ⟨by simp [Churn.next], .inl rfl⟩
    | stopped => exact ⟨by simp [Churn.next], .inl rfl⟩
    | writing remaining =>
      cases remaining with
      | zero => exact ⟨rfl, .inr ⟨rfl, rfl⟩⟩
      | succ remaining => exact ⟨by simp [Churn.next], .inl rfl⟩
  | succ more ih =>
    obtain ⟨hactions, hstage⟩ := ih
    rw [← hactions, ← Nat.add_assoc, after_succ, h _ (by omega)]
    generalize after size cancelled (n + 1 + more) = before at hstage
    obtain ⟨actions, size, stage, offset, fileLength⟩ := before
    obtain rfl | ⟨-, rfl⟩ := hstage
    · exact ⟨List.append_nil _, .inl rfl⟩
    · exact ⟨List.append_nil _, .inl rfl⟩

/-! ## Whole runs -/

/-- The disk worker of a run goes through the steps of the loop, and takes its file along when the loop stops. -/
theorem afterSteps_churning (file : String) (size : Nat) (cancelled : Nat → Bool) (directory : Directory) (n : Nat) :
    (WorkerStage.churning file (.start size)).afterSteps size cancelled directory n =
      if (after size cancelled n).2.stage = .stopped then WorkerStage.leave file none directory
      else (.churning file (after size cancelled n).2, directory) := by
  induction n with
  | zero => rfl
  | succ n ih =>
    rw [WorkerStage.afterSteps_succ, ih, after_succ]
    generalize after size cancelled n = before
    obtain ⟨actions, churn⟩ := before
    dsimp only
    by_cases hstopped : churn.stage = .stopped
    · have hnext : churn.next (cancelled n) = (none, churn) := by simp only [Churn.next, hstopped]
      rw [if_pos hstopped, hnext, if_pos hstopped]
      exact WorkerStage.next_of_not_isLive rfl _
    · rw [if_neg hstopped, WorkerStage.next]
      have hiff := next_eq_none_iff churn (cancelled n)
      generalize churn.next (cancelled n) = result at hiff ⊢
      obtain ⟨action, rest⟩ := result
      cases action with
      | none => rw [if_pos (hiff.mp rfl)]
      | some action => rw [if_neg fun hstop => Option.some_ne_none action (hiff.mpr hstop)]

/-- What the worker has done after a number of steps, where step `k` would see `cancelled k`, and what has become of its file. -/
structure Rewrites (size : Nat) (cancelled : Nat → Bool) (n : Nat) : Prop where
  /-- It went through whole passes, and the first actions of one more; so there is no synchronisation but at the end of a whole pass. -/
  trace : ∃ whole part, part < (pass size).length ∧ (after size cancelled n).1 = passes size whole ++ (pass size).take part
  bounds : ∀ offset length, .write offset length ∈ (after size cancelled n).1 →
    1 ≤ length ∧ length ≤ min size 32768 ∧ offset + length ≤ size
  /-- What is left of a pass was never taken from a smaller number. -/
  remaining : ∀ remaining, (after size cancelled n).2.stage = .writing remaining → (after size cancelled n).2.offset + remaining = size
  /-- Where nothing is left of a pass, all its writes are done and only its synchronisation is not. -/
  written : (after size cancelled n).2.stage = .writing 0 →
    ∃ whole, (after size cancelled n).1 = passes size whole ++ .rewind :: passWrites size
  /-- The next write goes to the place that the worker takes it to go to. -/
  cursor : (fileAfter (after size cancelled n).1).cursor = (after size cancelled n).2.offset
  short : (fileAfter (after size cancelled n).1).bytes.length ≤ size
  /-- From the last write of the first pass on, the file is full. -/
  full : .sync ∈ (after size cancelled n).1 ∨ (after size cancelled n).2.stage = .writing 0 →
    (fileAfter (after size cancelled n).1).bytes = List.replicate size 0xa5
  /-- The worker goes from action to action as long as its token is not cancelled, and comes to the end of each pass. -/
  busy : (∀ k < n, cancelled k = false) → (after size cancelled n).1.length = n ∧
    ∀ whole, n = whole * (size ⌈/⌉ 32768 + 2) → (after size cancelled n).1 = passes size whole
  /-- Where step `n` and all later ones would see the token cancelled, what was begun before is done, and after it nothing but the synchronisation of a pass whose writes are done. -/
  stops : (∀ k, n ≤ k → cancelled k = true) → ∀ more,
    (after size cancelled (n + 1 + more)).1 =
        (after size cancelled n).1 ++ (if (after size cancelled n).2.stage = .writing 0 then [.sync] else []) ∧
      (after size cancelled (n + 2 + more)).2.stage = .stopped
  /-- The disk worker of a run is in the same place after as many steps, or has ended and taken its file along. -/
  worker : ∀ file directory, (WorkerStage.churning file (.start size)).afterSteps size cancelled directory n =
    if (after size cancelled n).2.stage = .stopped then WorkerStage.leave file none directory
    else (.churning file (after size cancelled n).2, directory)

/-- A pass covers the head of the file without a gap, in as few writes as a buffer allows. A disk worker goes through such passes, one behind the other, and whenever its token is cancelled it comes to its end between two writes. -/
theorem passes_are_exact (size : Nat) :
    Covers (min size 32768) 0 size (passWrites size) ∧ ((passWrites size).map Action.length).sum = size ∧
      (passWrites size).length = size ⌈/⌉ 32768 ∧ ∀ cancelled n, Rewrites size cancelled n := by
  have hcovers := covers_passWrites size
  refine ⟨hcovers, (Nat.zero_add _).symm.trans hcovers.add_sum, length_passWrites size, fun cancelled n => ?_⟩
  obtain ⟨before, hunderway, hchurn⟩ := reached_after size cancelled n
  have hagrees := agrees_after size cancelled n
  have hlength : (after size cancelled n).2.fileLength = before.fileLength := by
    obtain heq | heq := hchurn <;> rw [heq]
  have hstage (remaining : Nat) (h : (after size cancelled n).2.stage = .writing remaining) : (after size cancelled n).2 = before := by
    refine hchurn.resolve_right fun hstopped => ?_
    rw [hstopped] at h
    cases h
  exact {
    trace := hunderway.trace
    bounds := fun offset length hmem => hunderway.bounds hmem
    remaining := by
      intro remaining h
      have heq := hstage remaining h
      rw [heq] at h ⊢
      exact hunderway.add_remaining h
    written := fun h => hunderway.eq_of_written (hstage 0 h ▸ h)
    cursor := hagrees.cursor
    short := by
      rw [hagrees.bytes, List.length_replicate, hlength]
      exact hunderway.fileLength_le
    full := by
      intro h
      rw [hagrees.bytes, hlength]
      rcases h with hsync | hwritten
      · rw [hunderway.fileLength_of_sync hsync]
      · rw [hunderway.fileLength_of_written (hstage 0 hwritten ▸ hwritten)]
    busy := by
      intro h
      obtain ⟨hgoes, hbusy⟩ := underway_after h
      exact ⟨hbusy, fun whole hwhole => hgoes.eq_passes (hbusy.trans hwhole)⟩
    stops := by
      intro h more
      refine ⟨(after_cancelled size h more).1, ?_⟩
      have hend := (after_cancelled size h (more + 1)).2
      rw [show n + 2 + more = n + 1 + (more + 1) by omega]
      exact hend.resolve_right fun hfirst => absurd hfirst.1 (Nat.succ_ne_zero more)
    worker := fun file directory => afterSteps_churning file size cancelled directory n }

/-- Where the size is no multiple of a buffer, the last write is a shorter one. -/
example : passWrites 40000 = [.write 0 32768, .write 32768 7232] ∧ passWrites 32768 = [.write 0 32768] := by decide

end LoadGenerator.Load.Disk
