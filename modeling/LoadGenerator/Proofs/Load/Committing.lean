import LoadGenerator.Load.Worker.Memory
import LoadGenerator.Proofs.Load.Workers

/-!
# Chunks are complete

Cancellation is seen between chunks only. So the chunks that a memory worker has taken, however many, are whole, with one byte written in each page and all others zero.
-/

namespace LoadGenerator.Load.Memory

/-! ## The bytes of a chunk -/

/-- The byte of a page is odd, also where the page number has the low byte zero. -/
theorem pageByte_ne_zero (page : Nat) : pageByte page ≠ 0 := by
  intro h
  have hbits := congrArg (fun byte => byte.toNat.testBit 0) h
  simp [pageByte] at hbits

theorem getElem_touch (pages : Nat) (h : pages ≤ pageCount) (place : Nat) (hplace : place < chunkSize) :
    (touch pages h)[place] = if pageSize ∣ place ∧ place / pageSize < pages then pageByte (place / pageSize) else 0 := by
  induction pages with
  | zero => simp [touch]
  | succ page ih =>
    rw [touch, Vector.getElem_set, ih (Nat.le_of_succ_le h)]
    have hsame : page * pageSize = place ↔ pageSize ∣ place ∧ place / pageSize = page := by
      unfold pageSize
      omega
    by_cases heq : page * pageSize = place
    · obtain ⟨hdvd, hpage⟩ := hsame.mp heq
      rw [if_pos heq, if_pos ⟨hdvd, hpage ▸ Nat.lt_succ_self page⟩, hpage]
    · rw [if_neg heq]
      refine if_congr (and_congr_right fun hdvd => ?_) rfl rfl
      have hne : place / pageSize ≠ page := fun hpage => heq (hsame.mpr ⟨hdvd, hpage⟩)
      omega

theorem getElem_chunk (place : Nat) (hplace : place < chunkSize) :
    chunk[place] = if pageSize ∣ place then pageByte (place / pageSize) else 0 := by
  have hpage : place / pageSize < pageCount := by
    unfold chunkSize pageCount pageSize at hplace
    unfold pageSize pageCount
    omega
  rw [chunk, getElem_touch]
  exact if_congr (and_iff_left hpage) rfl rfl

/-! ## The loop over the pages -/

/-- Writes a byte, if there is one at this place. -/
def write? (bytes : Array UInt8) (place : Nat) (byte : UInt8) : Option (Array UInt8) :=
  if h : place < bytes.size then some (bytes.set place byte) else none

/-- The places of the first bytes of so many pages, in order. -/
def pagePlaces (pages : Nat) : List Nat := List.range' 0 pages pageSize

/-- Writes a byte at each of these places, by its number among them, and fails at one that is not in the chunk. -/
def touchEach (places : List Nat) : Option (Array UInt8) :=
  places.zipIdx.foldlM (fun bytes entry => write? bytes entry.1 (pageByte entry.2)) (Array.replicate chunkSize 0)

theorem touchEach_concat (places : List Nat) (place : Nat) :
    touchEach (places ++ [place]) = (touchEach places).bind fun bytes => write? bytes place (pageByte places.length) := by
  rw [touchEach, List.zipIdx_append, List.foldlM_append, Nat.zero_add]
  change (touchEach places).bind (fun bytes => (write? bytes place (pageByte places.length)).bind some) = _
  simp only [Option.bind_fun_some]

theorem touchEach_pagePlaces (pages : Nat) (h : pages ≤ pageCount) : touchEach (pagePlaces pages) = some (touch pages h).toArray := by
  induction pages with
  | zero => rfl
  | succ page ih =>
    have hplaces : pagePlaces (page + 1) = pagePlaces page ++ [page * pageSize] := by
      rw [pagePlaces, List.range'_concat, Nat.zero_add, Nat.mul_comm]
      rfl
    have hlength : (pagePlaces page).length = page := List.length_range'
    have hplace : page * pageSize < (touch page (Nat.le_of_succ_le h)).toArray.size := by
      rw [Vector.size_toArray]
      exact page_lt_chunkSize h
    rw [hplaces, touchEach_concat, ih (Nat.le_of_succ_le h), hlength, Option.bind_some, write?, dif_pos hplace]
    rfl

/-! ## The chunks that are taken -/

theorem chunk_of_mem_commitFrom {cancelled : Nat → Bool} {done wanted : Nat} {bytes : Chunk}
    (h : bytes ∈ commitFrom cancelled done wanted) : bytes = chunk := by
  induction wanted generalizing done with
  | zero => exact absurd h List.not_mem_nil
  | succ wanted ih =>
    rw [commitFrom] at h
    split_ifs at h with hcancelled
    · exact absurd h List.not_mem_nil
    · rcases List.mem_cons.mp h with rfl | hmem
      · rfl
      · exact ih hmem

/-- Chunks are taken up to the first look that sees the token cancelled. -/
theorem length_commitFrom (cancelled : Nat → Bool) (done wanted : Nat) :
    (commitFrom cancelled done wanted).length ≤ wanted ∧
      (∀ k < (commitFrom cancelled done wanted).length, cancelled (done + k) = false) ∧
      ((commitFrom cancelled done wanted).length < wanted → cancelled (done + (commitFrom cancelled done wanted).length) = true) := by
  induction wanted generalizing done with
  | zero => exact ⟨Nat.le_refl _, fun k hk => absurd hk (Nat.not_lt_zero k), fun h => absurd h (Nat.lt_irrefl _)⟩
  | succ wanted ih =>
    rw [commitFrom]
    split_ifs with hcancelled
    · exact ⟨Nat.zero_le _, fun k hk => absurd hk (Nat.not_lt_zero k), fun _ => hcancelled⟩
    · obtain ⟨hle, hbefore, hstop⟩ := ih (done + 1)
      have hshift (k : Nat) : done + 1 + k = done + (k + 1) := by omega
      simp only [hshift] at hbefore hstop
      rw [List.length_cons]
      refine ⟨Nat.succ_le_succ hle, fun k hk => ?_, fun hless => hstop (Nat.lt_of_succ_lt_succ hless)⟩
      cases k with
      | zero => exact Bool.eq_false_of_not_eq_true hcancelled
      | succ k => exact hbefore k (Nat.lt_of_succ_lt_succ hk)

theorem length_commit (cancelled : Nat → Bool) (wanted : Nat) :
    (commit cancelled wanted).length ≤ wanted ∧ (∀ k < (commit cancelled wanted).length, cancelled k = false) ∧
      ((commit cancelled wanted).length < wanted → cancelled (commit cancelled wanted).length = true) := by
  have h := length_commitFrom cancelled 0 wanted
  simp only [Nat.zero_add] at h
  exact h

/-- The memory worker of a run takes a chunk with each step, and holds them with one step more. -/
theorem afterSteps_committing (size : Nat) (cancelled : Nat → Bool) (directory : Directory) (wanted : Nat) {k : Nat}
    (hk : k ≤ (commit cancelled wanted).length) :
    (WorkerStage.committing 0 wanted).afterSteps size cancelled directory k = (.committing k (wanted - k), directory) := by
  obtain ⟨hle, hbefore, -⟩ := length_commit cancelled wanted
  induction k with
  | zero => rfl
  | succ k ih =>
    have hnone : ¬ (wanted - k = 0 ∨ cancelled k = true) := by
      rw [hbefore k hk]
      simp only [Bool.false_eq_true, or_false]
      omega
    rw [WorkerStage.afterSteps_succ, ih (Nat.le_of_succ_le hk), WorkerStage.next, if_neg hnone, Nat.sub_sub]

theorem afterSteps_committed (size : Nat) (cancelled : Nat → Bool) (directory : Directory) (wanted : Nat) :
    (WorkerStage.committing 0 wanted).afterSteps size cancelled directory ((commit cancelled wanted).length + 1) =
      (.holding (commit cancelled wanted).length, directory) := by
  obtain ⟨hle, -, hstop⟩ := length_commit cancelled wanted
  have hlast : wanted - (commit cancelled wanted).length = 0 ∨ cancelled (commit cancelled wanted).length = true := by
    rcases Nat.lt_or_eq_of_le hle with hless | heq
    · exact .inr (hstop hless)
    · exact .inl (by omega)
  rw [WorkerStage.afterSteps_succ, afterSteps_committing size cancelled directory wanted (Nat.le_refl _), WorkerStage.next, if_pos hlast]

/-- What becomes of a request for so many chunks, where the token is seen cancelled or not before each of them. -/
structure Commits (cancelled : Nat → Bool) (wanted : Nat) : Prop where
  all : (∀ k < wanted, cancelled k = false) → (commit cancelled wanted).length = wanted
  /-- Where a look sees the token cancelled, there are the chunks before the first such look. -/
  first : ∀ k < wanted, cancelled k = true → (∀ j < k, cancelled j = false) → (commit cancelled wanted).length = k
  size : ∀ bytes ∈ commit cancelled wanted, bytes.toArray.size = 1048576
  /-- The byte at every multiple of the page size is written, and no other. -/
  written : ∀ bytes ∈ commit cancelled wanted, ∀ (place : Nat) (h : place < chunkSize), bytes[place] ≠ 0 ↔ 4096 ∣ place
  /-- No page number makes a byte of zero, in particular none whose low byte is zero. -/
  nonzero : ∀ page, pageByte page ≠ 0
  /-- The loop over the pages finds each of its places in the chunk. -/
  within : ∀ bytes ∈ commit cancelled wanted, touchEach (pagePlaces pageCount) = some bytes.toArray
  /-- The memory worker of a run holds as many chunks after one step for each and one more. -/
  worker : ∀ size directory, (WorkerStage.committing 0 wanted).afterSteps size cancelled directory ((commit cancelled wanted).length + 1) =
    (.holding (commit cancelled wanted).length, directory)

/-- A worker that is asked for chunks takes all of them, or those before the first look at its token that sees it cancelled, and each of them is whole. -/
theorem chunks_are_complete (cancelled : Nat → Bool) (wanted : Nat) : Commits cancelled wanted where
  all h := by
    obtain ⟨hle, -, hstop⟩ := length_commit cancelled wanted
    by_contra hne
    have hless : (commit cancelled wanted).length < wanted := by omega
    exact absurd (hstop hless) (Bool.eq_false_iff.mp (h _ hless))
  first k hk hcancelled hfirst := by
    obtain ⟨hle, hbefore, hstop⟩ := length_commit cancelled wanted
    rcases Nat.lt_trichotomy (commit cancelled wanted).length k with hless | heq | hmore
    · exact absurd (hstop (hless.trans hk)) (Bool.eq_false_iff.mp (hfirst _ hless))
    · exact heq
    · exact absurd hcancelled (Bool.eq_false_iff.mp (hbefore k hmore))
  size bytes _ := bytes.size_toArray
  written bytes hmem place hplace := by
    rw [chunk_of_mem_commitFrom hmem, getElem_chunk]
    split_ifs with hdvd
    · exact iff_of_true (pageByte_ne_zero _) hdvd
    · exact iff_of_false (not_not_intro rfl) hdvd
  nonzero := pageByte_ne_zero
  within bytes hmem := by
    rw [chunk_of_mem_commitFrom hmem]
    exact touchEach_pagePlaces pageCount (Nat.le_refl _)
  worker size directory := afterSteps_committed size cancelled directory wanted

end LoadGenerator.Load.Memory
