import LoadGenerator.Proofs.Connection.Transcript
import LoadGenerator.Proofs.Service.Settled

/-!
# Connections that leave nothing to chance

Where no config in the text of a connection has a rate strictly between zero and one, each step of the connection does the same whoever else is served: where it leads and what it enters in the counts and the log depend on the connection alone.
-/

namespace LoadGenerator.Connection

open Message Service

/-! ## The configs of a text -/

/-- The values in which a line can bring configs: the parameters of a request, and the data of a frame. -/
def valuesIn (line : List Char) : List Json :=
  (Request.codec.parse (String.ofList line)).toOption.toList.map Request.params ++
    (Frame.codec.parse (String.ofList line)).toOption.toList.map Frame.data

/-- The configs that a line can bring. -/
def configsIn (line : List Char) : List WorkConfig :=
  (valuesIn line).flatMap fun value =>
    ((WorkRequest.codec.ofJson value).toOption.bind WorkRequest.config).toList ++
      ((RepeatRequest.codec.ofJson value).toOption.bind RepeatRequest.config).toList

/-- No config of the text has a rate strictly between zero and one. -/
def HasSettledRates (text : List Char) : Prop := ∀ line ∈ textLines text, ∀ config ∈ configsIn line, Load.IsSettled config.errorRate

instance (text : List Char) : Decidable (HasSettledRates text) := inferInstanceAs (Decidable (∀ _ ∈ _, ∀ _ ∈ _, _))

/-- The lines of a text without its first ones have settled rates if all have. -/
theorem HasSettledRates.rest {text rest : List Char} (h : HasSettledRates text) (front : List (List Char))
    (hlines : textLines text = front ++ textLines rest) : HasSettledRates rest := fun line hline =>
  h line (hlines ▸ List.mem_append_right front hline)

section

variable {line : List Char} (hsettled : ∀ config ∈ configsIn line, Load.IsSettled config.errorRate)

include hsettled

theorem isSettled_of_value {value : Json} (hvalue : value ∈ valuesIn line) {work : WorkRequest} (hwork : WorkRequest.codec.ofJson value = .ok work) :
    work.IsSettled := by
  intro config hconfig
  refine hsettled config (List.mem_flatMap.mpr ⟨value, hvalue, List.mem_append_left _ ?_⟩)
  rw [hwork]
  exact Option.mem_toList.mpr hconfig

theorem isSettled_of_repeat {value : Json} (hvalue : value ∈ valuesIn line) {work : RepeatRequest}
    (hwork : RepeatRequest.codec.ofJson value = .ok work) : WorkRequest.IsSettled { requestId := work.requestId, config := work.config } := by
  intro config hconfig
  refine hsettled config (List.mem_flatMap.mpr ⟨value, hvalue, List.mem_append_right _ ?_⟩)
  rw [hwork]
  exact Option.mem_toList.mpr hconfig

omit hsettled in
theorem isSettled_finished (outcome : Except Status Reply) : (Call.finished .unary outcome).IsSettled where
  running _ hstage := by cases hstage
  repeated _ _ hshape := by cases hshape

omit hsettled in
theorem isSettled_unary {work : WorkRequest} (h : work.IsSettled) : (Call.unary work).IsSettled where
  running other hstage := CallStage.running.inj hstage ▸ h
  repeated _ _ hshape := by cases hshape

omit hsettled in
theorem isSettled_repeated {work : RepeatRequest} (h : WorkRequest.IsSettled { requestId := work.requestId, config := work.config }) :
    (Call.repeated work).IsSettled where
  running _ hstage := by
    unfold Call.repeated at hstage
    dsimp only at hstage
    split_ifs at hstage
    cases hstage
  repeated _ _ hshape := by
    unfold Call.repeated at hshape
    dsimp only at hshape
    split_ifs at hshape
    · exact (Shape.repeated.inj hshape).1 ▸ h
    · exact (Shape.repeated.inj hshape).1 ▸ h

omit hsettled in
/-- Absent parameters stand for an empty object. -/
theorem isSettled_openWith {α : Type} {codec : JsonCodec α} {params : Json} {start : α → Call}
    (hparams : ∀ a, codec.ofJson params = .ok a → (start a).IsSettled) (hempty : ∀ a, codec.ofJson (.object []) = .ok a → (start a).IsSettled) :
    (openWith codec params start).IsSettled := by
  unfold openWith decodeParams
  split_ifs
  · cases hdecoded : codec.ofJson (.object []) with
    | error e => exact isSettled_finished _
    | ok a => exact hempty a hdecoded
  · cases hdecoded : codec.ofJson params with
    | error e => exact isSettled_finished _
    | ok a => exact hparams a hdecoded

/-- The call of a request whose rates are settled. -/
theorem isSettled_openCall (settings : Settings) {request : Request} (hparse : Request.codec.parse (String.ofList line) = .ok request) :
    (Service.openCall settings request.method request.params).IsSettled := by
  have hvalue : request.params ∈ valuesIn line := by
    rw [valuesIn, hparse]
    exact List.mem_append_left _ List.mem_cons_self
  unfold Service.openCall
  split_ifs
  · exact isSettled_finished _
  · exact isSettled_openWith (fun _ _ => isSettled_finished _) fun _ _ => isSettled_finished _
  · refine isSettled_openWith (fun work hwork => isSettled_unary (isSettled_of_value hsettled hvalue hwork)) fun work hwork => ?_
    obtain rfl : {} = work := Except.ok.inj hwork
    exact isSettled_unary (by simp [WorkRequest.IsSettled])
  · refine isSettled_openWith (fun work hwork => isSettled_repeated (isSettled_of_repeat hsettled hvalue hwork)) fun work hwork => ?_
    obtain rfl : {} = work := Except.ok.inj hwork
    exact isSettled_repeated (by simp [WorkRequest.IsSettled])
  · exact ⟨by simp [Call.tally], by simp [Call.tally]⟩
  · exact ⟨by simp [Call.exchange], by simp [Call.exchange]⟩
  · exact isSettled_finished _

omit hsettled in
theorem requestOf_eq_ok {id : Option RequestId} {work : WorkRequest} (h : requestOf id line = .ok (some work)) :
    ∃ value ∈ valuesIn line, WorkRequest.codec.ofJson value = .ok work := by
  unfold requestOf at h
  cases hparse : Frame.codec.parse (String.ofList line) with
  | error e => simp [hparse] at h
  | ok frame =>
    simp only [hparse] at h
    split_ifs at h
    cases hkind : frame.kind with
    | finish => simp [hkind] at h
    | item =>
      simp only [hkind] at h
      cases hwork : WorkRequest.codec.ofJson frame.data with
      | error e => simp [hwork] at h
      | ok other =>
        rw [hwork] at h
        obtain rfl : other = work := by simpa using h
        refine ⟨frame.data, ?_, hwork⟩
        rw [valuesIn, hparse]
        exact List.mem_append_right _ List.mem_cons_self

end

/-! ## Steps -/

/-- The connection has settled items only, now and in the text that it still expects. -/
structure IsSettled (conn : Connection) (missing : List UInt8) : Prop where
  expects : ∃ rest, conn.wire.Expects missing rest ∧ HasSettledRates rest
  call : ∀ call, conn.phase = .serving call → call.call.IsSettled

section

variable {conn : Connection} {missing : List UInt8} (settings : Settings)

theorem expects_write {wire : Wire} {rest : List Char} (h : wire.Expects missing rest) (bytes : List UInt8) :
    (wire.write bytes).2.Expects missing rest := by
  unfold Wire.write
  cases wire.room <;> exact ⟨h.bytes, h.complete⟩

theorem wire_writeLine (line : List Char) (s : Wire × CallStream) : (writeLine line s).2.1 = (s.1.write (Utf8.encode line)).2 := by
  unfold writeLine
  rcases s.1.write (Utf8.encode line) with ⟨_ | _, wire⟩ <;> rfl

theorem wire_send (s : Wire × CallStream) (response : WorkResponse) :
    (send s response).2.1 = (s.1.write (Utf8.encode (Frame.item s.2.id (WorkResponse.codec.toJson response)).line)).2 := by
  unfold send
  rw [← wire_writeLine]
  rcases writeLine (Frame.item s.2.id (WorkResponse.codec.toJson response)).line s with ⟨_ | _, s'⟩ <;> rfl

/-- What is received from a text with settled rates is settled, and so is what is left of the text. -/
theorem receive_of_settled {wire : Wire} {rest : List Char} (hexpects : wire.Expects missing rest) (hrates : HasSettledRates rest)
    (stream : CallStream) :
    (∃ rest, (receive (wire, stream)).2.1.Expects missing rest ∧ HasSettledRates rest) ∧
      ∀ request, (receive (wire, stream)).1 = some (.ok (some request)) → request.IsSettled := by
  cases hended : stream.ended with
  | true =>
    simp only [receive, hended, if_true]
    exact ⟨⟨rest, hexpects, hrates⟩, by simp⟩
  | false =>
    have hread := hexpects.readsNext
    simp only [receive, hended, Bool.false_eq_true, if_false]
    generalize wire.nextLine = reading at hread
    cases hread with
    | waiting blanks rest' inbox hlines _ _ hexpects' => exact ⟨⟨rest', hexpects', hrates.rest blanks hlines⟩, by simp⟩
    | ended blanks hlines hend =>
      refine ⟨⟨[], ⟨?_, hexpects.complete⟩, List.forall_mem_nil _⟩, by simp⟩
      rw [hexpects.complete hend]
      rfl
    | line blanks front rest' inbox hlines _ _ hexpects' =>
      have hfront : ∀ config ∈ configsIn front, Load.IsSettled config.errorRate := hrates front (by rw [hlines]; simp)
      have hrest : HasSettledRates rest' := hrates.rest (blanks ++ [front]) (by simp [hlines])
      dsimp only
      cases hrequest : requestOf stream.id front with
      | error fault => exact ⟨⟨rest', hexpects', hrest⟩, by simp⟩
      | ok received =>
        cases received with
        | none => exact ⟨⟨rest', hexpects', hrest⟩, by simp⟩
        | some work =>
          refine ⟨⟨rest', hexpects', hrest⟩, fun request heq => ?_⟩
          obtain rfl : work = request := by simpa using heq
          obtain ⟨value, hvalue, hwork⟩ := requestOf_eq_ok hrequest
          exact isSettled_of_value hfront hvalue hwork

theorem settles_peer (missing : List UInt8) :
    peer.Settles fun s => ∃ rest, s.1.Expects missing rest ∧ HasSettledRates rest where
  cancelled _ h := h
  receive s h := by
    obtain ⟨rest, hexpects, hrates⟩ := h
    exact (receive_of_settled hexpects hrates s.2).1
  send s response h := by
    obtain ⟨rest, hexpects, hrates⟩ := h
    refine ⟨rest, ?_, hrates⟩
    change (send s response).2.1.Expects missing rest
    rw [wire_send]
    exact expects_write hexpects _
  request s h := by
    obtain ⟨rest, hexpects, hrates⟩ := h
    exact (receive_of_settled hexpects hrates s.2).2

theorem takeLine_of_settled {front rest : List Char} (hphase : conn.phase = .idle) (hexpects : conn.wire.Expects missing rest)
    (hrates : HasSettledRates rest) (hfront : ∀ config ∈ configsIn front, Load.IsSettled config.errorRate) :
    ∃ next posting, (∀ shared, takeLine settings conn shared front = (next, shared.post posting)) ∧ next.IsSettled missing := by
  have hreject (response : Response) : (conn.reject response).IsSettled missing :=
    ⟨⟨rest, expects_write hexpects _, hrates⟩, fun call hcall => by
      unfold reject afterWrite at hcall
      dsimp only at hcall
      split_ifs at hcall⟩
  unfold takeLine
  split_ifs with hblank
  · refine ⟨conn, .nothing, fun _ => rfl, ⟨rest, hexpects, hrates⟩, fun call hcall => ?_⟩
    rw [hphase] at hcall
    cases hcall
  · cases hparse : Request.codec.parse (String.ofList front) with
    | error e => exact ⟨_, .nothing, fun _ => rfl, hreject _⟩
    | ok request =>
      dsimp only
      split_ifs
      · exact ⟨_, .nothing, fun _ => rfl, hreject _⟩
      · refine ⟨_, .begun _, fun _ => rfl, ⟨rest, hexpects, hrates⟩, fun call hcall => ?_⟩
        obtain rfl := Phase.serving.inj hcall
        exact isSettled_openCall hfront settings hparse

theorem stepIdle_of_settled (h : conn.IsSettled missing) (hphase : conn.phase = .idle) :
    ∃ next posting, (∀ shared, conn.stepIdle settings shared = (next, shared.post posting)) ∧ next.IsSettled missing := by
  obtain ⟨⟨text, hexpects, hrates⟩, -⟩ := h
  have hclosed (failure : Option String) : ({ conn with phase := .closed failure } : Connection).IsSettled missing :=
    ⟨⟨text, hexpects, hrates⟩, fun call hcall => by cases hcall⟩
  unfold stepIdle
  split_ifs
  · exact ⟨_, .nothing, fun _ => rfl, hclosed none⟩
  · have hread := hexpects.readsLine
    generalize conn.wire.readLine = reading at hread
    cases hread with
    | waiting =>
      refine ⟨conn, .nothing, fun _ => rfl, ⟨text, hexpects, hrates⟩, fun call hcall => ?_⟩
      rw [hphase] at hcall
      cases hcall
    | ended => exact ⟨_, .nothing, fun _ => rfl, hclosed none⟩
    | line front rest inbox htext hnonempty hline _ hexpects' =>
      have hlines := Wire.textLines_of_line hnonempty hline
      rw [← htext] at hlines
      have hnext : ({ conn with wire := { conn.wire with inbox } } : Connection).phase = .idle := hphase
      exact takeLine_of_settled settings hnext hexpects' (hrates.rest [front] hlines) (hrates front (by rw [hlines]; simp))

theorem closeCall_eq (conn : Connection) (shared : Shared) (call : OpenCall) (outcome : Except Status Reply) :
    conn.closeCall shared call outcome =
      let result := writeLine (call.response outcome).line (conn.wire, call.stream)
      ({ conn with wire := result.2.1, phase := afterWrite result.1 },
        shared.post (.finished ({ call with stream := result.2.2 }.event outcome))) := rfl

theorem stepCall_of_settled (h : conn.IsSettled missing) {call : OpenCall} (hphase : conn.phase = .serving call) :
    ∃ next posting, (∀ shared, conn.stepCall settings shared call = (next, shared.post posting)) ∧ next.IsSettled missing := by
  obtain ⟨⟨text, hexpects, hrates⟩, hcall⟩ := h
  unfold stepCall
  cases houtcome : call.call.outcome? with
  | some outcome =>
    refine ⟨_, _, fun shared => closeCall_eq conn shared call outcome, ⟨text, ?_, hrates⟩, fun other hother => ?_⟩
    · rw [wire_writeLine]
      exact expects_write hexpects _
    · unfold afterWrite at hother
      dsimp only at hother
      split_ifs at hother
  | none =>
    obtain ⟨act, next, posting, s', hstep, hnext, hexpects'⟩ :=
      Call.step_of_settled settings.limits (conn.wire, call.stream) (settles_peer missing) ⟨text, hexpects, hrates⟩ (hcall call hphase)
    refine ⟨{ conn with wire := s'.1, phase := .serving { call with call := next, stream := s'.2 } }, posting, fun shared => ?_,
      hexpects', fun other hother => ?_⟩
    · dsimp only
      rw [hstep]
    · obtain rfl := Phase.serving.inj hother
      exact hnext

/-- What a step does is the same whoever else is served. -/
theorem step_of_settled (h : conn.IsSettled missing) :
    ∃ next posting, (∀ shared, conn.step settings shared = (next, shared.post posting)) ∧ next.IsSettled missing := by
  unfold step
  cases hphase : conn.phase with
  | idle => exact stepIdle_of_settled settings h hphase
  | serving call => exact stepCall_of_settled settings h hphase
  | closed failure => exact ⟨conn, .nothing, fun _ => rfl, h⟩

/-! ## Other events -/

theorem IsSettled.same (h : conn.IsSettled missing) {next : Connection} (hwire : next.wire = conn.wire)
    (hphase : ∀ call, next.phase = .serving call → ∃ other, conn.phase = .serving other ∧ call.call = other.call) : next.IsSettled missing where
  expects := by
    rw [hwire]
    exact h.expects
  call call hcall := by
    obtain ⟨other, hother, heq⟩ := hphase call hcall
    rw [heq]
    exact h.call other hother

theorem IsSettled.cancelCall (h : conn.IsSettled missing) : conn.cancelCall.IsSettled missing := by
  refine h.same (cancelCall_frame conn).1 fun call hcall => ?_
  unfold Connection.cancelCall at hcall
  cases hphase : conn.phase with
  | serving other =>
    rw [hphase] at hcall
    obtain rfl := Phase.serving.inj hcall
    exact ⟨other, rfl, rfl⟩
  | _ => simp only [hphase] at hcall; cases hcall

theorem IsSettled.watch (h : conn.IsSettled missing) : conn.watch.IsSettled missing := by
  have hwatched := conn.watched
  have hstops {call : OpenCall} (hphase : conn.phase = .serving call) :
      ({ conn with phase := .serving { call with watching := false } } : Connection).IsSettled missing := by
    refine h.same rfl fun other hother => ⟨call, hphase, ?_⟩
    obtain rfl := Phase.serving.inj hother
    rfl
  generalize conn.watch = next at hwatched
  cases hwatched with
  | still => exact h
  | stops call hphase => exact hstops hphase
  | hears call hphase => exact (hstops hphase).cancelCall

/-- An event that brings some of the text does the same whoever else is served. -/
theorem apply_of_settled (h : conn.IsSettled missing) {event : ConnectionEvent} {later : List UInt8} (hevent : Brings missing event later) :
    ∃ next posting, (∀ shared, conn.apply settings shared event = (next, shared.post posting)) ∧ next.IsSettled later := by
  have ⟨⟨rest, hexpects, hrates⟩, hcall⟩ := h
  cases hevent with
  | deliver bytes =>
    refine ⟨_, .nothing, fun _ => rfl, ⟨rest, ⟨?_, fun hended => (List.append_eq_nil_iff.mp (hexpects.complete hended)).2⟩, hrates⟩, hcall⟩
    rw [← hexpects.bytes]
    exact List.append_assoc _ _ _
  | hangUp => exact ⟨_, .nothing, fun _ => rfl, ⟨rest, ⟨hexpects.bytes, fun _ => rfl⟩, hrates⟩, hcall⟩
  | shutdown =>
    have hnext : ({ conn with shutdown := true } : Connection).IsSettled missing := h.same rfl fun call hcall => ⟨call, hcall, rfl⟩
    exact ⟨_, .nothing, fun _ => rfl, hnext.cancelCall⟩
  | watch => exact ⟨_, .nothing, fun _ => rfl, h.watch⟩
  | step => exact step_of_settled settings h

end

end LoadGenerator.Connection
