import LoadGenerator.Proofs.Connection.Transcript

/-!
# The bytes of a connection

Every byte that a connection reads or writes belongs to one passage. The log entry of a call says how many there are in its passage; the passages without an entry are those of the lines that opened no call. So the entries, the open call and these lines make up all that was read, and the same for what was written.
-/

namespace LoadGenerator

namespace Connection

open Message Service

/-! ## Entries -/

/-- The log entry of a passage. That of a call has the bytes of all lines that were read and written for it; a line that opens no call has none. -/
inductive Passage.Logs (passage : Passage) : Option CallEvent → Prop where
  | aside (hopens : ∀ request, ¬ Opens passage.line request) (hstream : passage.stream = []) : Logs passage none
  | call {event : CallEvent} {request : Request} (hopens : Opens passage.line request)
      (hlabels : event.labels = ⟨callMode request.method request.params, request.method⟩)
      (hin : event.bytesIn = Utf8.size passage.lines.flatten) (hout : event.bytesOut = Utf8.size passage.written) :
      Logs passage (some event)

/-- The passages of lines that opened no call. -/
def asides (entries : List (Passage × Option CallEvent)) : List Passage := (entries.filter (·.2.isNone)).map (·.1)

/-- The passages of a connection, each with its log entry, and what the open call has counted of the lines since. -/
structure Ledger (before : List CallEvent) (conn : Connection) (log : List CallEvent) (entries : List (Passage × Option CallEvent))
    (taken : List (List Char)) (frames : List Frame) : Prop where
  logs : ∀ entry ∈ entries, entry.1.Logs entry.2
  log_eq : log = before ++ entries.filterMap (·.2)
  calling : ∀ meter, conn.meter? = some meter → ∃ line stream request, taken = line :: stream ∧ Opens line request ∧
    meter = ⟨⟨callMode request.method request.params, request.method⟩, Utf8.size taken.flatten, Utf8.size (frames.flatMap Frame.line)⟩

section

variable {before log log' : List CallEvent} {conn next : Connection} {entries : List (Passage × Option CallEvent)}
  {taken taken' : List (List Char)} {frames frames' : List Frame} {passages : List Passage}

theorem Ledger.note (h : Ledger before conn log entries taken frames) {passage : Passage} {event? : Option CallEvent}
    (hlogs : passage.Logs event?) (hmeter : next.meter? = none) :
    Ledger before next (log ++ event?.toList) (entries ++ [(passage, event?)]) [] [] where
  logs entry hentry := by
    rcases List.mem_append.mp hentry with hmem | hmem
    · exact h.logs entry hmem
    · rwa [List.mem_singleton.mp hmem]
  log_eq := by
    rw [h.log_eq, List.filterMap_append, List.append_assoc]
    cases event? <;> rfl
  calling meter hopen := by
    rw [hmeter] at hopen
    cases hopen

/-- The ledger is kept by whatever an event adds to the account. -/
theorem Ledger.grows (h : Ledger before conn log entries taken frames)
    (hgrows : Grows conn log (entries.map (·.1)) taken frames next log' passages taken' frames') :
    ∃ entries', passages = entries'.map (·.1) ∧ Ledger before next log' entries' taken' frames' := by
  cases hgrows with
  | still hmeter => exact ⟨entries, rfl, h.logs, h.log_eq, hmeter ▸ h.calling⟩
  | @aside passage hopens hstream htaken hframes hmeter =>
    have hnext := h.note (.aside hopens hstream) hmeter
    rw [Option.toList_none, List.append_nil] at hnext
    exact ⟨entries ++ [(passage, none)], by simp, hnext⟩
  | @opened line request hopens htaken hframes hmeter =>
    refine ⟨entries, rfl, h.logs, h.log_eq, fun meter hopen => ?_⟩
    obtain rfl := Option.some.inj (hmeter.symm.trans hopen)
    exact ⟨line, [], request, rfl, hopens, by simp [Utf8.size]⟩
  | @goesOn meter more frames' hbefore hmeter =>
    obtain ⟨line, stream, request, rfl, hopens, rfl⟩ := h.calling meter hbefore
    refine ⟨entries, rfl, h.logs, h.log_eq, fun meter hopen => ?_⟩
    obtain rfl := Option.some.inj (hmeter.symm.trans hopen)
    refine ⟨line, stream ++ more, request, rfl, hopens, ?_⟩
    rw [List.flatten_append, Utf8.size_append, List.flatMap_append, Utf8.size_append]
  | @ended meter line stream request response event htaken hopens hbefore hevent hmeter =>
    obtain ⟨_, _, request', heq, hopens', rfl⟩ := h.calling meter hbefore
    rw [htaken] at heq
    obtain ⟨rfl, rfl⟩ := List.cons.inj heq
    simp only [Prod.mk.injEq] at hevent
    obtain ⟨hlabels, hin, hout⟩ := hevent
    have hlogs : Passage.Logs { line, stream, frames, response := some response } (some event) :=
      .call hopens' hlabels (by rw [hin, htaken]; rfl) (by rw [hout, Passage.written, Utf8.size_append]; rfl)
    exact ⟨entries ++ [(_, some event)], by simp, h.note hlogs hmeter⟩

/-! ## Sums -/

theorem Passage.Logs.sizes {passage : Passage} {event? : Option CallEvent} (h : passage.Logs event?) :
    Utf8.size passage.lines.flatten = event?.elim (Utf8.size passage.line) CallEvent.bytesIn ∧
      Utf8.size passage.written = event?.elim (Utf8.size passage.written) CallEvent.bytesOut := by
  cases h with
  | aside hopens hstream => simp [Passage.lines, hstream]
  | call hopens hlabels hin hout => exact ⟨hin.symm, hout.symm⟩

/-- What the passages have read is what the entries say and the lines that opened no call. -/
theorem size_lines (hlogs : ∀ entry ∈ entries, entry.1.Logs entry.2) :
    Utf8.size ((entries.map (·.1)).flatMap Passage.lines).flatten =
      ((entries.filterMap (·.2)).map CallEvent.bytesIn).sum + ((asides entries).map fun passage => Utf8.size passage.line).sum := by
  induction entries with
  | nil => rfl
  | cons entry entries ih =>
    obtain ⟨passage, event?⟩ := entry
    obtain ⟨hfirst, hrest⟩ := List.forall_mem_cons.mp hlogs
    have hsize := hfirst.sizes.1
    have hsum := ih hrest
    simp only [List.map_cons, List.flatMap_cons, List.flatten_append, Utf8.size_append, hsum, hsize]
    cases event? <;> simp [asides] <;> omega

/-- The same for what they have written. -/
theorem size_written (hlogs : ∀ entry ∈ entries, entry.1.Logs entry.2) :
    Utf8.size ((entries.map (·.1)).flatMap Passage.written) =
      ((entries.filterMap (·.2)).map CallEvent.bytesOut).sum + ((asides entries).map fun passage => Utf8.size passage.written).sum := by
  induction entries with
  | nil => rfl
  | cons entry entries ih =>
    obtain ⟨passage, event?⟩ := entry
    obtain ⟨hfirst, hrest⟩ := List.forall_mem_cons.mp hlogs
    have hsize := hfirst.sizes.2
    have hsum := ih hrest
    simp only [List.map_cons, List.flatMap_cons, Utf8.size_append, hsum]
    rw [hsize]
    cases event? <;> simp [asides] <;> omega

end

/-! ## Whole runs -/

theorem Ledger.applyAll {ids : Nat → String} {before : List CallEvent} {missing last : List UInt8} {text : List Char} (settings : Settings)
    {events : List ConnectionEvent} (hall : BringsAll missing events last) :
    ∀ {conn : Connection} {shared : Shared} {entries : List (Passage × Option CallEvent)} {taken : List (List Char)} {frames : List Frame}
      {rest : List Char}, Account ids conn missing text (entries.map (·.1)) taken frames rest →
      Ledger before conn shared.log entries taken frames →
      ∃ entries' taken' frames' rest',
        Account ids (conn.applyAll settings shared events).1 last text (entries'.map (·.1)) taken' frames' rest' ∧
          Ledger before (conn.applyAll settings shared events).1 (conn.applyAll settings shared events).2.log entries' taken' frames' := by
  induction hall with
  | nil missing =>
    intro conn shared entries taken frames rest haccount hledger
    exact ⟨entries, taken, frames, rest, haccount, hledger⟩
  | cons hevent _ ih =>
    intro conn shared entries taken frames rest haccount hledger
    obtain ⟨passages', taken', frames', rest', haccount', hgrows⟩ := haccount.apply settings shared hevent
    obtain ⟨entries', rfl, hledger'⟩ := hledger.grows hgrows
    exact ih haccount' hledger'

theorem Standing.meter {ids : Nat → String} {conn : Connection} {taken : List (List Char)} {frames : List Frame}
    (h : Standing ids conn.phase taken frames) (hmeter : conn.meter? = none) : taken = [] ∧ frames = [] := by
  unfold meter? at hmeter
  generalize conn.phase = phase at h hmeter
  cases h with
  | idle => exact ⟨rfl, rfl⟩
  | closed => exact ⟨rfl, rfl⟩
  | serving => cases hmeter

/-- The bytes that the open call has counted are those of what was read and written since the last passage. -/
theorem Ledger.counts {ids : Nat → String} {before log : List CallEvent} {conn : Connection} {entries : List (Passage × Option CallEvent)}
    {taken : List (List Char)} {frames : List Frame} (h : Ledger before conn log entries taken frames)
    (hstanding : Standing ids conn.phase taken frames) :
    Utf8.size taken.flatten = conn.meter?.elim 0 Meter.bytesIn ∧
      Utf8.size (frames.flatMap Frame.line) = conn.meter?.elim 0 Meter.bytesOut := by
  cases hmeter : conn.meter? with
  | none =>
    obtain ⟨rfl, rfl⟩ := hstanding.meter hmeter
    exact ⟨rfl, rfl⟩
  | some meter =>
    obtain ⟨-, -, -, -, -, rfl⟩ := h.calling meter hmeter
    exact ⟨rfl, rfl⟩

/-- The bytes of a run: the passages and their log entries, what is left unread, and the sums that they make up. -/
structure Balances (ids : Nat → String) (text : List Char) (before : List CallEvent) (conn : Connection) (log : List CallEvent)
    (entries : List (Passage × Option CallEvent)) (taken : List (List Char)) (frames : List Frame) (rest : List Char) : Prop where
  transcribes : Transcribes ids conn (textLines text) (entries.map (·.1)) taken frames (textLines rest)
  ledger : Ledger before conn log entries taken frames
  read : Utf8.size text = ((entries.filterMap (·.2)).map CallEvent.bytesIn).sum + conn.meter?.elim 0 Meter.bytesIn +
    ((asides entries).map fun passage => Utf8.size passage.line).sum + Utf8.size rest
  written : conn.wire.outbox.length = ((entries.filterMap (·.2)).map CallEvent.bytesOut).sum + conn.meter?.elim 0 Meter.bytesOut +
    ((asides entries).map fun passage => Utf8.size passage.written).sum

/-- All bytes of a run are accounted for. -/
theorem exists_balances (settings : Settings) (shared : Shared) (ids : Nat → String) (orders : Nat → MapOrder) (text : List Char)
    {events : List ConnectionEvent} {missing : List UInt8} (hevents : BringsAll (Utf8.encode text) events missing) :
    let result := applyAll settings { ids, orders } shared events
    ∃ entries taken frames rest, Balances ids text shared.log result.1 result.2.log entries taken frames rest ∧
      (result.1.isClosed = true → .shutdown ∉ events → rest = []) := by
  intro result
  have hstart := account_start ids orders text
  have hempty : Ledger shared.log { ids, orders } shared.log [] [] [] := ⟨by simp, by simp, nofun⟩
  obtain ⟨entries, taken, frames, rest, haccount, hledger⟩ := hempty.applyAll settings hevents hstart
  have hleads := ((accounted_start ids orders text).applyAll settings hevents shared).2
  rw [show applyAll settings { ids, orders } shared events = result from rfl] at haccount hledger hleads
  obtain ⟨hin, hout⟩ := hledger.counts haccount.standing
  refine ⟨entries, taken, frames, rest,
    ⟨⟨haccount.proper, haccount.standing, haccount.lines_eq, haccount.outbox_eq⟩, hledger, ?_, ?_⟩, fun hclosed hlive => ?_⟩
  · have htext := congrArg (fun lines => Utf8.size lines.flatten) haccount.lines_eq
    simp only [flatten_textLines, List.flatten_append, Utf8.size_append, size_lines hledger.logs, hin] at htext
    omega
  · have hlength := congrArg List.length haccount.outbox_eq
    change _ = Utf8.size _ at hlength
    rw [Utf8.size_append, size_written hledger.logs, hout] at hlength
    omega
  · refine (haccount.closed hclosed).resolve_right fun hshutdown => ?_
    exact hlive ((hleads.shutdown_iff.mp hshutdown).resolve_left Bool.false_ne_true)

end Connection

end LoadGenerator
