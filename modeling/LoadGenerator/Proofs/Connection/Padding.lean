import LoadGenerator.Proofs.Connection.Breaks

/-!
# Blank lines

Blank lines may stand before any line of a text. Between calls a connection passes over them one at a time, and within a stream the call that looks for its next frame passes over all of them at once and counts them. Either way the connection goes on as it would without them, so the run over a text with blank lines is step by step the run over the text without them, where the latter rests while a blank line is passed between calls. The two end with the same bytes written and the same counts, and an entry of the log differs by the blank lines in the stream of its call.
-/

namespace LoadGenerator

open Message Service

/-! ## Lines with blank ones among them -/

/-- The lines of some text. -/
def AreLines (lines : List (List Char)) : Prop := textLines lines.flatten = lines

theorem areLines_textLines (text : List Char) : AreLines (textLines text) := congrArg textLines (flatten_textLines text)

/-- The last lines are the ones before them with these blank lines put among them. -/
inductive Padded : List (List Char) → List (List Char) → List (List Char) → Prop where
  | nil : Padded [] [] []
  | line (line : List Char) {blanks lines lines' : List (List Char)} (h : Padded blanks lines lines') : Padded blanks (line :: lines) (line :: lines')
  | blank {blank : List Char} (hblank : isBlankLine blank = true) {blanks lines lines' : List (List Char)} (h : Padded blanks lines lines') :
      Padded (blank :: blanks) lines (blank :: lines')

/-- The lines up to the first that is not blank, with it. -/
def toVisible (lines : List (List Char)) : List (List Char) :=
  lines.takeWhile isBlankLine ++ (lines.dropWhile isBlankLine).head?.toList

/-- The first line that is not blank. -/
def visible? (lines : List (List Char)) : Option (List Char) := (lines.dropWhile isBlankLine).head?

def behindVisible (lines : List (List Char)) : List (List Char) := (lines.dropWhile isBlankLine).tail

section

variable {line : List Char} {blanks lines lines' : List (List Char)}

theorem toVisible_append_behind (lines : List (List Char)) : toVisible lines ++ behindVisible lines = lines := by
  have hsplit : (lines.dropWhile isBlankLine).head?.toList ++ (lines.dropWhile isBlankLine).tail = lines.dropWhile isBlankLine := by
    cases lines.dropWhile isBlankLine <;> rfl
  rw [toVisible, behindVisible, List.append_assoc, hsplit, List.takeWhile_append_dropWhile]

theorem skim_blank (lines : List (List Char)) (hblank : isBlankLine line = true) :
    toVisible (line :: lines) = line :: toVisible lines ∧ visible? (line :: lines) = visible? lines ∧
      behindVisible (line :: lines) = behindVisible lines := by
  simp only [toVisible, visible?, behindVisible, List.takeWhile_cons_of_pos hblank, List.dropWhile_cons_of_pos hblank, List.cons_append, and_self]

theorem skim_visible (lines : List (List Char)) (hvisible : isBlankLine line = false) :
    toVisible (line :: lines) = [line] ∧ visible? (line :: lines) = some line ∧ behindVisible (line :: lines) = lines := by
  have hnot : ¬ isBlankLine line = true := by simp [hvisible]
  simp only [toVisible, visible?, behindVisible, List.takeWhile_cons_of_neg hnot, List.dropWhile_cons_of_neg hnot]
  exact ⟨rfl, rfl, rfl⟩

theorem Padded.append {blanks' more more' : List (List Char)} (h : Padded blanks lines lines') (hmore : Padded blanks' more more') :
    Padded (blanks ++ blanks') (lines ++ more) (lines' ++ more') := by
  induction h with
  | nil => exact hmore
  | line line _ ih => exact .line line ih
  | blank hblank _ ih => exact .blank hblank ih

theorem Padded.size_eq (h : Padded blanks lines lines') : Utf8.size lines'.flatten = Utf8.size lines.flatten + Utf8.size blanks.flatten := by
  induction h with
  | nil => rfl
  | line line _ ih => rw [List.flatten_cons, List.flatten_cons, Utf8.size_append, Utf8.size_append, ih, Nat.add_assoc]
  | blank _ _ ih => rw [List.flatten_cons, List.flatten_cons, Utf8.size_append, Utf8.size_append, ih, Nat.add_left_comm]

/-- Blank lines do not change what the next visible line is. -/
theorem Padded.skim (h : Padded blanks lines lines') :
    visible? lines' = visible? lines ∧ (∃ passed, Padded passed (toVisible lines) (toVisible lines')) ∧
      ∃ behind, Padded behind (behindVisible lines) (behindVisible lines') := by
  induction h with
  | nil => exact ⟨rfl, ⟨[], .nil⟩, [], .nil⟩
  | @line line blanks lines lines' h ih =>
    obtain ⟨hvisible, ⟨passed, htaken⟩, hbehind⟩ := ih
    cases hblank : isBlankLine line with
    | true =>
      obtain ⟨htaken₁, hvisible₁, hbehind₁⟩ := skim_blank lines hblank
      obtain ⟨htaken₂, hvisible₂, hbehind₂⟩ := skim_blank lines' hblank
      rw [htaken₁, hvisible₁, hbehind₁, htaken₂, hvisible₂, hbehind₂]
      exact ⟨hvisible, ⟨passed, .line line htaken⟩, hbehind⟩
    | false =>
      obtain ⟨htaken₁, hvisible₁, hbehind₁⟩ := skim_visible lines hblank
      obtain ⟨htaken₂, hvisible₂, hbehind₂⟩ := skim_visible lines' hblank
      rw [htaken₁, hvisible₁, hbehind₁, htaken₂, hvisible₂, hbehind₂]
      exact ⟨rfl, ⟨[], .line line .nil⟩, blanks, h⟩
  | @blank blank hblank blanks lines lines' h ih =>
    obtain ⟨hvisible, ⟨passed, htaken⟩, hbehind⟩ := ih
    obtain ⟨htaken₂, hvisible₂, hbehind₂⟩ := skim_blank lines' hblank
    rw [htaken₂, hvisible₂, hbehind₂]
    exact ⟨hvisible, ⟨blank :: passed, .blank hblank htaken⟩, hbehind⟩

end

/-! ## Wires with a number of lines left -/

namespace Wire

/-- The wire where these lines are left and the other side has ended. -/
def supply (lines : List (List Char)) (wire : Wire) : Wire := { wire with inbox := Utf8.encode lines.flatten, inputEnded := true }

section

variable {line : List Char} {lines : List (List Char)} (wire : Wire)

theorem readLine_supply (hlines : AreLines (line :: lines)) :
    (wire.supply (line :: lines)).readLine = (.line line, wire.supply lines) ∧ AreLines lines := by
  have hexpects : (wire.supply (line :: lines)).Expects [] (line :: lines).flatten := ⟨List.append_nil _, fun _ => rfl⟩
  have hread := hexpects.readsLine
  generalize (wire.supply (line :: lines)).readLine = reading at hread ⊢
  cases hread with
  | waiting hopen => cases hopen
  | ended _ htext =>
    rw [AreLines, htext] at hlines
    cases hlines
  | line front rest inbox htext hfront hline hinbox hrest =>
    rw [AreLines, htext, textLines_of_line hfront hline] at hlines
    obtain ⟨rfl, rfl⟩ := List.cons.inj hlines
    have hbytes : inbox = Utf8.encode (textLines rest).flatten := by
      rw [flatten_textLines, ← hrest.bytes, List.append_nil]
    rw [hbytes]
    exact ⟨rfl, areLines_textLines rest⟩

/-- Looking for a visible line takes the blank ones before it, or all if there is none. -/
theorem nextLine_supply (hlines : AreLines lines) :
    (wire.supply lines).nextLine =
        ((visible? lines).elim .ended .line, Utf8.size (toVisible lines).flatten, wire.supply (behindVisible lines)) ∧
      AreLines (behindVisible lines) := by
  induction lines with
  | nil => exact ⟨rfl, hlines⟩
  | cons line lines ih =>
    obtain ⟨hread, hrest⟩ := wire.readLine_supply hlines
    rw [nextLine_eq, hread]
    dsimp only
    cases hblank : isBlankLine line with
    | true =>
      obtain ⟨hnext, hbehind⟩ := ih hrest
      obtain ⟨htaken', hvisible', hbehind'⟩ := skim_blank lines hblank
      rw [if_pos rfl, hnext, htaken', hvisible', hbehind', List.flatten_cons, Utf8.size_append]
      exact ⟨rfl, hbehind⟩
    | false =>
      obtain ⟨htaken', hvisible', hbehind'⟩ := skim_visible lines hblank
      rw [if_neg Bool.false_ne_true, htaken', hvisible', hbehind', List.flatten_singleton]
      exact ⟨rfl, hrest⟩

end

end Wire

theorem AreLines.tail {line : List Char} {lines : List (List Char)} (h : AreLines (line :: lines)) : AreLines lines := (Wire.readLine_supply {} h).2

theorem AreLines.behind {lines : List (List Char)} (h : AreLines lines) : AreLines (behindVisible lines) := (Wire.nextLine_supply {} h).2

/-! ## Steps that leave the lines alone -/

/-- The books with this log. -/
def Service.Shared.logged (log : List CallEvent) (shared : Shared) : Shared := { shared with log }

theorem Service.runItem_logged (limits : Load.Limits) (shared : Shared) (request : WorkRequest) (log : List CallEvent) :
    runItem limits (shared.logged log) request = ((runItem limits shared request).1, (runItem limits shared request).2.logged log) := by
  have hdraws : (shared.logged log).draws = shared.draws := rfl
  unfold runItem
  rw [hdraws]
  rcases runConfig limits shared.draws request.config with ⟨_ | ⟨outcome, message⟩, draws⟩ <;> rfl

namespace Connection

/-- The stream where the call has counted this many bytes. -/
def CallStream.counting (size : Nat) (stream : CallStream) : CallStream := { stream with bytesIn := size }

/-- The call looks for a frame of its stream. -/
structure Receives (call : Call) (stream : CallStream) : Prop where
  stage : call.stage = .head
  shape : ∀ item left, call.shape ≠ .repeated item left
  live : stream.cancelled = false
  reading : stream.ended = false

/-- What the next visible line brings to a call, or the end of the input if there is none. -/
def afterVisible (stream : CallStream) : Option (List Char) → Except Status (Option WorkRequest) × CallStream
  | some line => afterLine stream line
  | none => (.ok none, { stream with ended := true })

section

variable (limits : Load.Limits) {call : Call} {stream : CallStream} {wire : Wire} {lines : List (List Char)}

theorem receive_of_ended (hended : stream.ended = true) (wire : Wire) : receive (wire, stream) = (some (.ok none), wire, stream) := by
  simp only [receive, hended, if_true]

theorem call_step_quiet (hquiet : ¬ Receives call stream) (shared : Shared) (hroom : wire.room = none) :
    let result := call.step peer limits shared (wire, stream)
    result.2.2.2.1.room = none ∧ ∀ lines size log, call.step peer limits (shared.logged log) (wire.supply lines, stream.counting size) =
      (result.1, result.2.1, result.2.2.1.logged log, result.2.2.2.1.supply lines, result.2.2.2.2.counting size) := by
  dsimp only
  obtain ⟨shape, stage⟩ := call
  cases stage with
  | ended outcome => exact ⟨hroom, fun _ _ _ => rfl⟩
  | running request =>
    simp only [Call.step, runItem_logged]
    exact ⟨hroom, fun _ _ _ => trivial⟩
  | sending response =>
    have hsupplied (lines : List (List Char)) : (wire.supply lines).room = none := hroom
    simp only [Call.step, peer, send_of_room hroom, send_of_room (hsupplied _)]
    exact ⟨hroom, fun _ _ _ => rfl⟩
  | head =>
    by_cases hrepeated : ∃ item left, shape = .repeated item left
    · obtain ⟨item, left, rfl⟩ := hrepeated
      cases left with
      | zero => exact ⟨hroom, fun _ _ _ => rfl⟩
      | succ left =>
        cases hcancelled : stream.cancelled with
        | true =>
          have hcounting (size : Nat) : (stream.counting size).cancelled = true := hcancelled
          simp only [Call.step, peer, hcancelled, hcounting]
          exact ⟨hroom, fun _ _ _ => trivial⟩
        | false =>
          have hcounting (size : Nat) : (stream.counting size).cancelled = false := hcancelled
          simp only [Call.step, peer, hcancelled, hcounting, runItem_logged]
          exact ⟨hroom, fun _ _ _ => trivial⟩
    · have hshape : ∀ item left, shape ≠ .repeated item left := fun item left heq => hrepeated ⟨item, left, heq⟩
      cases hcancelled : stream.cancelled with
      | true =>
        have hnever : ∀ item, shape ≠ .repeated item 0 := fun item => hshape item 0
        have hcounting (size : Nat) : (stream.counting size).cancelled = true := hcancelled
        rw [step_cancelled limits shared hnever hcancelled]
        exact ⟨hroom, fun _ size log => step_cancelled limits (shared.logged log) hnever (hcounting size)⟩
      | false =>
        have hended : stream.ended = true := by
          by_contra hreading
          exact hquiet ⟨rfl, hshape, hcancelled, by simpa using hreading⟩
        have hcounting (size : Nat) : (stream.counting size).cancelled = false := hcancelled
        have hcountingEnded (size : Nat) : (stream.counting size).ended = true := hended
        rw [call_step_reads limits hshape shared wire hcancelled, receive_of_ended hended]
        refine ⟨hroom, fun lines size log => ?_⟩
        rw [call_step_reads limits hshape (shared.logged log) _ (hcounting size), receive_of_ended (hcountingEnded size)]

theorem receive_supply (hreading : stream.ended = false) (hlines : AreLines lines) (wire : Wire) (size : Nat) :
    receive (wire.supply lines, stream.counting size) =
      (some (afterVisible stream (visible? lines)).1, wire.supply (behindVisible lines),
        (afterVisible stream (visible? lines)).2.counting (size + Utf8.size (toVisible lines).flatten)) := by
  obtain ⟨id, cancelled, ended, bytesIn, bytesOut⟩ := stream
  obtain rfl : ended = false := hreading
  obtain ⟨hnext, -⟩ := wire.nextLine_supply hlines
  simp only [receive, CallStream.counting, hnext, Bool.false_eq_true, if_false]
  cases visible? lines with
  | none => rfl
  | some line =>
    simp only [Option.elim, afterVisible, afterLine]
    cases requestOf id line with
    | error fault => rfl
    | ok received => cases received <;> rfl

theorem call_step_receiving (h : Receives call stream) (hlines : AreLines lines) (shared : Shared) (wire : Wire) (size : Nat) :
    (call.step peer limits shared (wire.supply lines, stream.counting size)).2 =
      (afterReceive call.shape (some (afterVisible stream (visible? lines)).1), shared, wire.supply (behindVisible lines),
        (afterVisible stream (visible? lines)).2.counting (size + Utf8.size (toVisible lines).flatten)) := by
  obtain ⟨shape, stage⟩ := call
  obtain ⟨hstage, hshape, hlive, hreading⟩ := h
  obtain rfl : stage = .head := hstage
  have hcounting : (stream.counting size).cancelled = false := hlive
  rw [call_step_reads limits hshape shared _ hcounting, receive_supply hreading hlines]
  rcases (afterVisible stream (visible? lines)).1 with _ | _ | request <;> rfl

end

/-! ## Steps over a number of lines -/

/-- The phase where the call has counted this many bytes, and nobody looks out for the peer. -/
def Phase.counting (size : Nat) : Phase → Phase
  | .serving call => .serving { call with watching := false, stream := call.stream.counting size }
  | phase => phase

/-- The connection where the peer has hung up with these lines left, and the open call has counted this many bytes. -/
def supplied (lines : List (List Char)) (size : Nat) (conn : Connection) : Connection :=
  { conn with wire := conn.wire.supply lines, phase := conn.phase.counting size }

/-- Nothing is wrong with the transport or the daemon. -/
structure IsSound (conn : Connection) : Prop where
  room : conn.wire.room = none
  live : conn.shutdown = false

/-- What a step of an open call can do: go on without a line, look for a visible one, or end the call. It is the same for all lines that are left, all that the call has counted, and all logs. -/
inductive CallTurn (settings : Settings) (conn : Connection) (shared : Shared) : Prop where
  | goesOn (next : Connection) (call : OpenCall) (shared' : Shared) (hsound : next.IsSound) (hphase : next.phase = .serving call)
      (h : ∀ lines size log, proceed settings (conn.supplied lines size, shared.logged log) = (next.supplied lines size, shared'.logged log))
  | looks (after : Option (List Char) → Connection) (hsound : ∀ front?, (after front?).IsSound)
      (hphase : ∀ front?, ∃ call, (after front?).phase = .serving call)
      (h : ∀ lines size log, AreLines lines → proceed settings (conn.supplied lines size, shared.logged log) =
        ((after (visible? lines)).supplied (behindVisible lines) (size + Utf8.size (toVisible lines).flatten), shared.logged log))
  | ends (next : Connection) (shared' : Shared) (event : CallEvent) (hsound : next.IsSound) (hphase : next.phase = .idle)
      (h : ∀ lines size log, proceed settings (conn.supplied lines size, shared.logged log) =
        (next.supplied lines 0, shared'.logged (log ++ [{ event with bytesIn := size }])))

/-- What a step between calls does with a line: it passes or rejects it, or opens a call that has counted it. -/
inductive LineTurn (settings : Settings) (conn : Connection) (shared : Shared) (line : List Char) : Prop where
  | passes (next : Connection) (hopens : ∀ request, ¬ Opens line request) (hsound : next.IsSound) (hphase : next.phase = .idle)
      (h : ∀ lines log, AreLines (line :: lines) →
        proceed settings (conn.supplied (line :: lines) 0, shared.logged log) = (next.supplied lines 0, shared.logged log))
  | begins (next : Connection) (call : OpenCall) (shared' : Shared) (request : Request) (hopens : Opens line request) (hsound : next.IsSound)
      (hphase : next.phase = .serving call)
      (h : ∀ lines log, AreLines (line :: lines) →
        proceed settings (conn.supplied (line :: lines) 0, shared.logged log) = (next.supplied lines (Utf8.size line), shared'.logged log))

section

variable (settings : Settings) {conn : Connection} (shared : Shared)

theorem proceed_supplied_serving {call : OpenCall} (hphase : conn.phase = .serving call) (houtcome : call.call.outcome? = none)
    {lines : List (List Char)} {size : Nat} {next : Call} {shared' : Shared} {wire : Wire} {stream : CallStream}
    (hstep : (call.call.step peer settings.limits shared (conn.wire.supply lines, call.stream.counting size)).2 = (next, shared', wire, stream)) :
    proceed settings (conn.supplied lines size, shared) =
      ({ conn with wire, phase := .serving { call with watching := false, call := next, stream } }, shared') := by
  have hserving : (conn.supplied lines size).phase = .serving { call with watching := false, stream := call.stream.counting size } :=
    congrArg (Phase.counting size) hphase
  rw [proceed, step_serving settings shared hserving houtcome hstep]
  rfl

/-- A call that has its outcome ends with the next step. -/
theorem IsSound.ends (h : conn.IsSound) {call : OpenCall} (hphase : conn.phase = .serving call) {outcome : Except Status Reply}
    (houtcome : call.call.outcome? = some outcome) :
    ∃ (next : Connection) (shared' : Shared) (event : CallEvent), next.IsSound ∧ next.phase = .idle ∧ ∀ lines size log,
      proceed settings (conn.supplied lines size, shared.logged log) =
        (next.supplied lines 0, shared'.logged (log ++ [{ event with bytesIn := size }])) := by
  obtain ⟨wire, shutdown, phase, ids, used, orders, opened⟩ := conn
  obtain ⟨hroom, hlive⟩ := h
  obtain rfl : phase = .serving call := hphase
  let stream := { call.stream with bytesOut := call.stream.bytesOut + Utf8.size (call.response outcome).line }
  refine ⟨{ wire := { wire with outbox := wire.outbox ++ Utf8.encode (call.response outcome).line }, shutdown, ids, idsUsed := used, orders, callsOpened := opened },
    { shared with metrics := shared.metrics.finish call.labels ({ call with stream }.event outcome).code }, { call with stream }.event outcome,
    ⟨hroom, hlive⟩, rfl, fun lines size log => ?_⟩
  have hsupplied : (wire.supply lines).room = none := hroom
  simp only [proceed, step, supplied, Phase.counting, stepCall, houtcome, closeCall, writeLine_of_room hsupplied]
  rfl

theorem IsSound.callTurn (h : conn.IsSound) {call : OpenCall} (hphase : conn.phase = .serving call) : CallTurn settings conn shared := by
  cases houtcome : call.call.outcome? with
  | some outcome =>
    obtain ⟨next, shared', event, hsound, hidle, hstep⟩ := h.ends settings shared hphase houtcome
    exact .ends next shared' event hsound hidle hstep
  | none =>
    obtain ⟨wire, shutdown, phase, ids, used, orders, opened⟩ := conn
    obtain ⟨hroom, hlive⟩ := h
    obtain rfl : phase = .serving call := hphase
    by_cases hreceives : Receives call.call call.stream
    · refine .looks (fun front? => { wire, shutdown, ids, idsUsed := used, orders, callsOpened := opened, phase := .serving { call with
          call := afterReceive call.call.shape (some (afterVisible call.stream front?).1), stream := (afterVisible call.stream front?).2 } })
        (fun _ => ⟨hroom, hlive⟩) (fun _ => ⟨_, rfl⟩) fun lines size log hlines => ?_
      exact proceed_supplied_serving settings _ rfl houtcome (call_step_receiving settings.limits hreceives hlines (shared.logged log) wire size)
    · obtain ⟨hroom', hquiet⟩ := call_step_quiet settings.limits hreceives shared hroom
      generalize call.call.step peer settings.limits shared (wire, call.stream) = result at hroom' hquiet
      obtain ⟨act, next, shared', wire', stream'⟩ := result
      refine .goesOn { wire := wire', shutdown, ids, idsUsed := used, orders, callsOpened := opened, phase := .serving { call with call := next, stream := stream' } } _ shared'
        ⟨hroom', hlive⟩ rfl fun lines size log => ?_
      exact proceed_supplied_serving settings _ rfl houtcome (congrArg Prod.snd (hquiet lines size log))

theorem proceed_supplied_nil (hphase : conn.phase = .idle) (hlive : conn.shutdown = false) (shared : Shared) :
    proceed settings (conn.supplied [] 0, shared) = (({ conn with phase := .closed none } : Connection).supplied [] 0, shared) := by
  obtain ⟨wire, shutdown, phase, ids, used, orders, opened⟩ := conn
  obtain rfl : phase = .idle := hphase
  obtain rfl : shutdown = false := hlive
  rfl

theorem proceed_supplied_line (hphase : conn.phase = .idle) (hlive : conn.shutdown = false) {line : List Char} {lines : List (List Char)}
    (hlines : AreLines (line :: lines)) :
    proceed settings (conn.supplied (line :: lines) 0, shared) =
      ((takeLine settings (conn.supplied lines 0) shared line).1.unwatched, (takeLine settings (conn.supplied lines 0) shared line).2) := by
  obtain ⟨wire, shutdown, phase, ids, used, orders, opened⟩ := conn
  obtain rfl : phase = .idle := hphase
  obtain rfl : shutdown = false := hlive
  obtain ⟨hread, -⟩ := wire.readLine_supply hlines
  simp only [proceed, step, supplied, Phase.counting, stepIdle, hread, Bool.false_eq_true, if_false]

/-- A blank line between calls is passed over. -/
theorem proceed_blank (hphase : conn.phase = .idle) (hlive : conn.shutdown = false) {blank : List Char} (hblank : isBlankLine blank = true)
    {lines : List (List Char)} (hlines : AreLines (blank :: lines)) :
    proceed settings (conn.supplied (blank :: lines) 0, shared) = (conn.supplied lines 0, shared) := by
  rw [proceed_supplied_line settings shared hphase hlive hlines, takeLine, if_pos hblank]
  obtain ⟨wire, shutdown, phase, ids, used, orders, opened⟩ := conn
  obtain rfl : phase = .idle := hphase
  rfl

theorem IsSound.lineTurn (h : conn.IsSound) (hphase : conn.phase = .idle) (line : List Char) : LineTurn settings conn shared line := by
  obtain ⟨hroom, hlive⟩ := h
  cases hblank : isBlankLine line with
  | true =>
    have hopens : ∀ request, ¬ Opens line request := fun request hopens => by simp [hopens.visible] at hblank
    exact .passes conn hopens ⟨hroom, hlive⟩ hphase fun lines log hlines => proceed_blank settings _ hphase hlive hblank hlines
  | false =>
    by_cases hopens : ∃ request, Opens line request
    · obtain ⟨request, hopens⟩ := hopens
      refine .begins (conn.openCall settings shared request (Utf8.size line)).1 _ (conn.openCall settings shared request (Utf8.size line)).2 request
        hopens ⟨hroom, hlive⟩ rfl fun lines log hlines => ?_
      rw [proceed_supplied_line settings _ hphase hlive hlines, takeLine_of_opens settings _ hopens]
      rfl
    · have hnone : ∀ request, ¬ Opens line request := fun request hopen => hopens ⟨request, hopen⟩
      obtain ⟨id, code, message, hrejects⟩ := exists_rejection hblank hnone
      refine .passes { conn with wire := { conn.wire with outbox := conn.wire.outbox ++ Utf8.encode (Response.plainFailure id code message).line } }
        hnone ⟨hroom, hlive⟩ hphase fun lines log hlines => ?_
      have hsupplied : (conn.supplied lines 0).wire.room = none := hroom
      rw [proceed_supplied_line settings _ hphase hlive hlines, hrejects, reject_of_room hsupplied]
      obtain ⟨wire, shutdown, phase, ids, used, orders, opened⟩ := conn
      obtain rfl : phase = .idle := hphase
      rfl

end

/-! ## Runs that are abreast -/

/-- The logs of two connections that have read the same lines, the second one with blank lines among them. Those between calls are in no entry; those in the stream of a call are counted in its entry, and nothing else is different. -/
inductive PaddedLogs (before : List CallEvent) : List (List Char) → List (List Char) → List CallEvent → List CallEvent → Prop where
  | nil : PaddedLogs before [] [] before before
  | gap {lines lines' : List (List Char)} {log log' : List CallEvent} {blank : List Char} (h : PaddedLogs before lines lines' log log')
      (hblank : isBlankLine blank = true) : PaddedLogs before lines (lines' ++ [blank]) log log'
  | aside {lines lines' : List (List Char)} {log log' : List CallEvent} {line : List Char} (h : PaddedLogs before lines lines' log log')
      (hopens : ∀ request, ¬ Opens line request) : PaddedLogs before (lines ++ [line]) (lines' ++ [line]) log log'
  | call {lines lines' blanks stream stream' : List (List Char)} {log log' : List CallEvent} {line : List Char} {request : Request}
      {event : CallEvent} (h : PaddedLogs before lines lines' log log') (hopens : Opens line request) (hstream : Padded blanks stream stream')
      (hsize : event.bytesIn = Utf8.size (line :: stream).flatten) :
      PaddedLogs before (lines ++ line :: stream) (lines' ++ line :: stream') (log ++ [event])
        (log' ++ [{ event with bytesIn := event.bytesIn + Utf8.size blanks.flatten }])

/-- Two connections that have come equally far, the second one with blank lines in what it has read and in what is left. -/
inductive Abreast (before : List CallEvent) (all all' : List (List Char)) : Connection × Shared → Connection × Shared → Prop where
  | idle {conn : Connection} {shared : Shared} {read read' blanks lines lines' : List (List Char)} {log log' : List CallEvent} (hsound : conn.IsSound)
      (hphase : conn.phase = .idle) (hlogs : PaddedLogs before read read' log log') (hlines : AreLines lines) (hlines' : AreLines lines')
      (hpadded : Padded blanks lines lines') (hall : read ++ lines = all) (hall' : read' ++ lines' = all') :
      Abreast before all all' (conn.supplied lines 0, shared.logged log) (conn.supplied lines' 0, shared.logged log')
  | serving {conn : Connection} {call : OpenCall} {shared : Shared} {read read' within stream stream' blanks lines lines' : List (List Char)}
      {line : List Char} {request : Request} {log log' : List CallEvent} (hsound : conn.IsSound) (hphase : conn.phase = .serving call)
      (hlogs : PaddedLogs before read read' log log') (hopens : Opens line request) (hstream : Padded within stream stream')
      (hlines : AreLines lines) (hlines' : AreLines lines') (hpadded : Padded blanks lines lines') (hall : read ++ line :: stream ++ lines = all)
      (hall' : read' ++ line :: stream' ++ lines' = all') :
      Abreast before all all' (conn.supplied lines (Utf8.size (line :: stream).flatten), shared.logged log)
        (conn.supplied lines' (Utf8.size (line :: stream').flatten), shared.logged log')
  | closed {conn : Connection} {shared : Shared} {log log' : List CallEvent} (hphase : conn.phase = .closed none)
      (hlogs : PaddedLogs before all all' log log') :
      Abreast before all all' (conn.supplied [] 0, shared.logged log) (conn.supplied [] 0, shared.logged log')

section

variable {settings : Settings} {before : List CallEvent} {all all' : List (List Char)} {state state' last' : Connection × Shared}

variable (settings) in
/-- The second connection passes a blank line between calls, or both take the same step. -/
theorem Abreast.proceed (h : Abreast before all all' state state') :
    Abreast before all all' (proceed settings state) (proceed settings state') ∨ Abreast before all all' state (proceed settings state') := by
  cases h with
  | @idle conn shared read read' blanks lines lines' log log' hsound hphase hlogs hlines hlines' hpadded hall hall' =>
    cases hpadded with
    | nil =>
      left
      rw [proceed_supplied_nil settings hphase hsound.live, proceed_supplied_nil settings hphase hsound.live]
      rw [List.append_nil] at hall hall'
      exact .closed rfl (hall ▸ hall' ▸ hlogs)
    | @blank blank hblank blanks _ lines' hpadded =>
      right
      rw [proceed_blank settings _ hphase hsound.live hblank hlines']
      exact .idle hsound hphase (.gap hlogs hblank) hlines hlines'.tail hpadded hall ((List.append_assoc _ _ _).trans hall')
    | @line line _ lines lines' hpadded =>
      left
      cases hsound.lineTurn settings shared hphase line with
      | passes next hopens hnext hidle hstep =>
        rw [hstep lines log hlines, hstep lines' log' hlines']
        exact .idle hnext hidle (.aside hlogs hopens) hlines.tail hlines'.tail hpadded ((List.append_assoc _ _ _).trans hall)
          ((List.append_assoc _ _ _).trans hall')
      | begins next call shared' request hopens hnext hserving hstep =>
        have hone : Utf8.size line = Utf8.size [line].flatten := by rw [List.flatten_singleton]
        rw [hstep lines log hlines, hstep lines' log' hlines', hone]
        exact .serving hnext hserving hlogs hopens .nil hlines.tail hlines'.tail hpadded ((List.append_assoc _ _ _).trans hall)
          ((List.append_assoc _ _ _).trans hall')
  | @serving conn call shared read read' within stream stream' blanks lines lines' line request log log' hsound hphase hlogs hopens hstream hlines
      hlines' hpadded hall hall' =>
    left
    cases hsound.callTurn settings shared hphase with
    | goesOn next call' shared' hnext hserving hstep =>
      rw [hstep, hstep]
      exact .serving hnext hserving hlogs hopens hstream hlines hlines' hpadded hall hall'
    | looks after hnext hserving hstep =>
      obtain ⟨hvisible, ⟨passed, htaken⟩, behind, hbehind⟩ := hpadded.skim
      obtain ⟨call', hserving⟩ := hserving (visible? lines)
      rw [hstep lines _ log hlines, hstep lines' _ log' hlines', hvisible, ← Utf8.size_append, ← Utf8.size_append, ← List.flatten_append,
        ← List.flatten_append, List.cons_append, List.cons_append]
      refine .serving (hnext _) hserving hlogs hopens (hstream.append htaken) hlines.behind hlines'.behind hbehind ?_ ?_
      · rw [← hall, List.append_assoc, List.append_assoc, List.cons_append, List.append_assoc, toVisible_append_behind, List.cons_append]
      · rw [← hall', List.append_assoc, List.append_assoc, List.cons_append, List.append_assoc, toVisible_append_behind, List.cons_append]
    | ends next shared' event hnext hidle hstep =>
      have hsize : ({ event with bytesIn := Utf8.size (line :: stream).flatten } : CallEvent).bytesIn = Utf8.size (line :: stream).flatten := rfl
      have hpads : Utf8.size (line :: stream').flatten = Utf8.size (line :: stream).flatten + Utf8.size within.flatten := (hstream.line line).size_eq
      rw [hstep, hstep, hpads]
      exact .idle hnext hidle (.call hlogs hopens hstream hsize) hlines hlines' hpadded hall hall'
  | @closed conn shared log log' hphase hlogs =>
    left
    have hclosed : (conn.supplied [] 0).isClosed = true := by
      rw [supplied, hphase]
      rfl
    have hstays (log : List CallEvent) : Connection.proceed settings (conn.supplied [] 0, shared.logged log) = (conn.supplied [] 0, shared.logged log) :=
      proceed_of_closed hclosed
    rw [hstays, hstays]
    exact .closed hphase hlogs

theorem Abreast.isClosed_eq (h : Abreast before all all' state state') : state.1.isClosed = state'.1.isClosed := by
  cases h with
  | idle _ hphase => simp only [isClosed, supplied, hphase, Phase.counting]
  | serving _ hphase => simp only [isClosed, supplied, hphase, Phase.counting]
  | closed hphase => rfl

/-- Where the second connection closes, the first one does as well. -/
theorem Abreast.endsAt (h : Abreast before all all' state state') (hend : EndsAt settings state' last') :
    ∃ last, EndsAt settings state last ∧ Abreast before all all' last last' := by
  obtain ⟨hclosed, steps, hlast⟩ := hend
  induction steps generalizing state state' with
  | zero =>
    obtain rfl : state' = last' := hlast
    exact ⟨state, ⟨h.isClosed_eq.trans hclosed, 0, rfl⟩, h⟩
  | succ steps ih =>
    rw [Function.iterate_succ_apply] at hlast
    rcases h.proceed settings with hboth | hpasses
    · obtain ⟨last, hends, habreast⟩ := ih hboth hlast
      exact ⟨last, endsAt_proceed.mp hends, habreast⟩
    · exact ih hpasses hlast

end

/-- The two have written, drawn and counted the same. -/
structure SameOutcome (state state' : Connection × Shared) : Prop where
  outbox_eq : state'.1.wire.outbox = state.1.wire.outbox
  draws_eq : state'.2.draws = state.2.draws
  metrics_eq : state'.2.metrics = state.2.metrics

theorem Abreast.same_of_closed {before : List CallEvent} {all all' : List (List Char)} {state state' : Connection × Shared}
    (h : Abreast before all all' state state') (hclosed : state.1.isClosed = true) :
    SameOutcome state state' ∧ PaddedLogs before all all' state.2.log state'.2.log := by
  cases h with
  | idle _ hphase => simp [isClosed, supplied, hphase, Phase.counting] at hclosed
  | serving _ hphase => simp [isClosed, supplied, hphase, Phase.counting] at hclosed
  | closed _ hlogs => exact ⟨⟨rfl, rfl, rfl⟩, hlogs⟩

/-! ## Complete runs -/

/-- A run in which the peer sends the text and hangs up, and which nothing cuts short before the connection has closed. -/
structure IsComplete (settings : Settings) (shared : Shared) (ids : Nat → String) (orders : Nat → MapOrder) (text : List Char) (events : List ConnectionEvent) : Prop where
  brings : BringsAll (Utf8.encode text) events []
  undisturbed : IsUndisturbed settings { ids, orders } shared events
  closed : (applyAll settings { ids, orders } shared events).1.isClosed = true

section

variable {settings : Settings} {shared : Shared} {ids : Nat → String} {orders : Nat → MapOrder} {text : List Char} {events : List ConnectionEvent}

/-- Where nobody looks out for the peer, nothing but a shutdown cuts a call short. -/
theorem isUndisturbed_of_unwatched (hlive : .shutdown ∉ events) (hunwatched : .watch ∉ events) (conn : Connection) (shared : Shared) :
    IsUndisturbed settings conn shared events := by
  induction events generalizing conn shared with
  | nil => trivial
  | cons event events ih =>
    obtain ⟨hquiet, hlive⟩ := not_or.mp (mt List.mem_cons.mpr hlive)
    obtain ⟨hunheard, hunwatched⟩ := not_or.mp (mt List.mem_cons.mpr hunwatched)
    exact ⟨⟨fun heq => hquiet heq.symm, fun heq => absurd heq.symm hunheard⟩, ih hlive hunwatched _ _⟩

/-- The text arrives at once, the peer hangs up, and enough steps follow. -/
theorem isComplete_at_once {steps : Nat}
    (hclosed : (applyAll settings { ids, orders } shared (.deliver (Utf8.encode text) :: .hangUp :: List.replicate steps .step)).1.isClosed = true) :
    IsComplete settings shared ids orders text (.deliver (Utf8.encode text) :: .hangUp :: List.replicate steps .step) where
  brings := .deliver (.cons .hangUp (bringsAll_steps [] steps))
  undisturbed := isUndisturbed_of_unwatched (by simp [List.mem_replicate]) (by simp [List.mem_replicate]) _ _
  closed := hclosed

theorem IsComplete.endsAt (h : IsComplete settings shared ids orders text events) :
    EndsAt settings (({ ids, orders } : Connection).toEnd (Utf8.encode text), shared)
      ((applyAll settings { ids, orders } shared events).1.toEnd [], (applyAll settings { ids, orders } shared events).2) :=
  ((accounted_start ids orders text).endsAt_applyAll h.brings shared h.undisturbed).mp (endsAt_of_closed h.closed _)

theorem toEnd_start (ids : Nat → String) (orders : Nat → MapOrder) (text : List Char) :
    ({ ids, orders } : Connection).toEnd (Utf8.encode text) = ({ ids, orders } : Connection).supplied (textLines text) 0 := by
  rw [supplied, Wire.supply, flatten_textLines]
  rfl

/-- Complete runs over a text and over the same with blank lines. -/
theorem IsComplete.padded {text' : List Char} {events' : List ConnectionEvent} (h : IsComplete settings shared ids orders text events)
    (h' : IsComplete settings shared ids orders text' events') {blanks : List (List Char)} (hpadded : Padded blanks (textLines text) (textLines text')) :
    SameOutcome (applyAll settings { ids, orders } shared events) (applyAll settings { ids, orders } shared events') ∧
      PaddedLogs shared.log (textLines text) (textLines text') (applyAll settings { ids, orders } shared events).2.log
        (applyAll settings { ids, orders } shared events').2.log := by
  have hstart : Abreast shared.log (textLines text) (textLines text') (({ ids, orders } : Connection).toEnd (Utf8.encode text), shared)
      (({ ids, orders } : Connection).toEnd (Utf8.encode text'), shared) := by
    rw [toEnd_start, toEnd_start]
    exact .idle ⟨rfl, rfl⟩ rfl .nil (areLines_textLines text) (areLines_textLines text') hpadded rfl rfl
  obtain ⟨last, hend, habreast⟩ := hstart.endsAt h'.endsAt
  obtain rfl := hend.unique h.endsAt
  have hclosed := h.endsAt.1
  obtain ⟨⟨houtbox, hdraws, hmetrics⟩, hlogs⟩ := habreast.same_of_closed hclosed
  exact ⟨⟨houtbox, hdraws, hmetrics⟩, hlogs⟩

end

end Connection

end LoadGenerator
