import LoadGenerator.Proofs.Connection.Account
import LoadGenerator.Proofs.Message.Lines

/-!
# The transcript of a connection

The bytes of a text may arrive in any pieces, and the peer may hang up after them or the daemon shut down at any time. Whatever the order, what the connection has written is the passages of the lines it has read, and once the peer has hung up or the daemon shuts down a bounded number of steps closes it.
-/

namespace LoadGenerator.Connection

open Message Service

/-! ## Events that bring a text -/

/-- An event that brings some of what is missing of a text, and does not give the connection up. The peer hangs up only when nothing is missing. -/
inductive Brings : List UInt8 → ConnectionEvent → List UInt8 → Prop where
  | deliver (bytes missing : List UInt8) : Brings (bytes ++ missing) (.deliver bytes) missing
  | hangUp : Brings [] .hangUp []
  | shutdown (missing : List UInt8) : Brings missing .shutdown missing
  | watch (missing : List UInt8) : Brings missing .watch missing
  | step (missing : List UInt8) : Brings missing .step missing

/-- A sequence of such events. -/
inductive BringsAll : List UInt8 → List ConnectionEvent → List UInt8 → Prop where
  | nil (missing : List UInt8) : BringsAll missing [] missing
  | cons {missing later last : List UInt8} {event : ConnectionEvent} {events : List ConnectionEvent}
      (h : Brings missing event later) (hall : BringsAll later events last) : BringsAll missing (event :: events) last

theorem BringsAll.append {missing later last : List UInt8} {events more : List ConnectionEvent}
    (h : BringsAll missing events later) (hmore : BringsAll later more last) : BringsAll missing (events ++ more) last := by
  induction h with
  | nil => exact hmore
  | cons hevent _ ih => exact .cons hevent (ih hmore)

/-- The whole text arrives at once. -/
theorem BringsAll.deliver {bytes last : List UInt8} {events : List ConnectionEvent} (h : BringsAll [] events last) :
    BringsAll bytes (.deliver bytes :: events) last := by
  have hbrings := Brings.deliver bytes []
  rw [List.append_nil] at hbrings
  exact .cons hbrings h

theorem bringsAll_steps (missing : List UInt8) (count : Nat) : BringsAll missing (List.replicate count .step) missing := by
  induction count with
  | zero => exact .nil missing
  | succ count ih => exact .cons (.step missing) ih

/-! ## The way to the end -/

/-- The peer has hung up or the daemon shuts down. -/
def IsEnding (conn : Connection) : Prop := conn.wire.inputEnded = true ∨ conn.shutdown = true

/-- A bound on the steps that an ending connection takes until it is closed. -/
def distance (conn : Connection) : Nat :=
  if conn.shutdown then conn.weight else conn.wire.inbox.length * 4294967303 + conn.weight

/-- What events do to the flags of a connection and to its way to the end. -/
structure Leads (conn : Connection) (events : List ConnectionEvent) (next : Connection) : Prop where
  shutdown_iff : next.shutdown = true ↔ conn.shutdown = true ∨ .shutdown ∈ events
  inputEnded_iff : next.wire.inputEnded = true ↔ conn.wire.inputEnded = true ∨ .hangUp ∈ events
  distance_le : conn.IsEnding → next.distance ≤ conn.distance - events.count .step

theorem Leads.isEnding {conn next : Connection} {events : List ConnectionEvent} (h : conn.Leads events next)
    (hending : conn.IsEnding) : next.IsEnding := by
  rcases hending with hended | hshutdown
  · exact .inl (h.inputEnded_iff.mpr (.inl hended))
  · exact .inr (h.shutdown_iff.mpr (.inl hshutdown))

theorem Leads.trans {conn next last : Connection} {events more : List ConnectionEvent} (h : conn.Leads events next)
    (hmore : next.Leads more last) : conn.Leads (events ++ more) last where
  shutdown_iff := by rw [hmore.shutdown_iff, h.shutdown_iff, List.mem_append, or_assoc]
  inputEnded_iff := by rw [hmore.inputEnded_iff, h.inputEnded_iff, List.mem_append, or_assoc]
  distance_le hending := by
    have hfirst := h.distance_le hending
    have hsecond := hmore.distance_le (h.isEnding hending)
    rw [List.count_append]
    omega

section

variable {ids : Nat → String} {conn : Connection} {missing : List UInt8} {text : List Char} (settings : Settings)
  (shared : Shared)

theorem distance_of_live (hlive : conn.shutdown = false) :
    conn.distance = conn.wire.inbox.length * 4294967303 + conn.weight := by
  rw [distance, hlive]
  rfl

theorem distance_of_shutdown (hshutdown : conn.shutdown = true) : conn.distance = conn.weight := by
  rw [distance, hshutdown]
  rfl

theorem weight_le_distance (conn : Connection) : conn.weight ≤ conn.distance := by
  unfold distance
  split_ifs
  · exact le_rfl
  · exact Nat.le_add_left _ _

theorem Accounted.distance_of_closed (h : Accounted ids conn missing text) (hclosed : conn.isClosed = true) :
    conn.distance = 0 := by
  obtain ⟨passages, taken, frames, rest, h⟩ := h
  have hweight := isClosed_iff_weight_eq_zero.mp hclosed
  cases hshutdown : conn.shutdown with
  | true => rw [distance_of_shutdown hshutdown, hweight]
  | false =>
    rcases h.closed hclosed with rfl | hfalse
    · have hinbox := (List.append_eq_nil_iff.mp h.expects.bytes).1
      rw [distance_of_live hshutdown, hweight, hinbox]
      rfl
    · rw [hshutdown] at hfalse
      cases hfalse

theorem isClosed_of_distance (hdistance : conn.distance = 0) : conn.isClosed = true := by
  have hweight := weight_le_distance conn
  exact isClosed_iff_weight_eq_zero.mpr (by omega)

theorem Advances.distance_lt {next : Connection} (h : conn.Advances next) (hending : conn.IsEnding) :
    next.distance < conn.distance := by
  cases hshutdown : conn.shutdown with
  | true =>
    rw [distance_of_shutdown hshutdown, distance_of_shutdown (h.shutdown_eq.trans hshutdown)]
    rcases h.nearer hending with ⟨-, hless⟩ | ⟨-, hlive, -⟩
    · exact hless
    · rw [hshutdown] at hlive
      cases hlive
  | false =>
    rw [distance_of_live hshutdown, distance_of_live (h.shutdown_eq.trans hshutdown)]
    rcases h.nearer hending with ⟨hinbox, hless⟩ | ⟨hinbox, -, hless⟩
    · omega
    · omega

theorem step_of_closed (hclosed : conn.isClosed = true) : conn.step settings shared = (conn, shared) := by
  unfold isClosed at hclosed
  unfold Connection.step
  cases hphase : conn.phase <;> simp [hphase] at hclosed ⊢

theorem applyAll_steps_of_closed (hclosed : conn.isClosed = true) (count : Nat) :
    conn.applyAll settings shared (List.replicate count .step) = (conn, shared) := by
  induction count with
  | zero => rfl
  | succ count ih =>
    have hstep : conn.apply settings shared .step = (conn, shared) := step_of_closed settings shared hclosed
    exact (congrArg (fun state => state.1.applyAll settings state.2 (List.replicate count .step)) hstep).trans ih

theorem Accounted.leads_step (h : Accounted ids conn missing text) :
    conn.Leads [.step] (conn.step settings shared).1 := by
  have hstep := (h.step settings shared).2
  cases hclosed : conn.isClosed with
  | true =>
    rw [step_of_closed settings shared hclosed]
    refine ⟨by simp, by simp, fun _ => ?_⟩
    rw [h.distance_of_closed hclosed]
    exact Nat.zero_le _
  | false =>
    have hadvances := hstep hclosed
    refine ⟨by simp [hadvances.shutdown_eq], by simp [hadvances.inputEnded_eq], fun hending => ?_⟩
    have hless := hadvances.distance_lt hending
    rw [List.count_singleton_self]
    omega

theorem cancelCall_frame (conn : Connection) : conn.cancelCall.wire = conn.wire ∧ conn.cancelCall.shutdown = conn.shutdown ∧
    conn.cancelCall.weight = conn.weight := by
  unfold cancelCall
  cases hphase : conn.phase with
  | serving call => exact ⟨rfl, rfl, (weight_of_serving hphase).symm⟩
  | idle => exact ⟨rfl, rfl, rfl⟩
  | closed failure => exact ⟨rfl, rfl, rfl⟩

theorem watch_frame (conn : Connection) : conn.watch.wire = conn.wire ∧ conn.watch.shutdown = conn.shutdown ∧
    conn.watch.weight = conn.weight := by
  have hwatched := conn.watched
  generalize conn.watch = next at hwatched
  cases hwatched with
  | still => exact ⟨rfl, rfl, rfl⟩
  | stops call hphase => exact ⟨rfl, rfl, (weight_of_serving hphase).symm⟩
  | hears call hphase =>
    obtain ⟨hwire, hshutdown, hsame⟩ := cancelCall_frame { conn with phase := .serving { call with watching := false } }
    exact ⟨hwire, hshutdown, hsame.trans (weight_of_serving hphase).symm⟩

/-- Only the inbox, the shutdown and the weight matter for the way to the end. -/
theorem distance_of_frame {next : Connection} (hinbox : next.wire.inbox = conn.wire.inbox)
    (hshutdown : next.shutdown = conn.shutdown) (hweight : next.weight = conn.weight) : next.distance ≤ conn.distance := by
  rw [distance, distance, hinbox, hshutdown, hweight]

/-- Bytes that arrive at an ending connection do not bring it further from its end. -/
theorem Accounted.leads_deliver {bytes : List UInt8} (h : Accounted ids conn (bytes ++ missing) text) :
    conn.Leads [.deliver bytes] { conn with wire := conn.wire.deliver bytes } := by
  obtain ⟨passages, taken, frames, rest, h⟩ := h
  refine ⟨by simp, by simp [Wire.deliver], fun hending => ?_⟩
  by_cases hshutdown : conn.shutdown = true
  · have hnext : ({ conn with wire := conn.wire.deliver bytes } : Connection).distance = conn.weight :=
      distance_of_shutdown hshutdown
    exact hnext.le.trans (weight_le_distance _)
  · have hended : conn.wire.inputEnded = true := hending.resolve_right hshutdown
    have hbytes := (List.append_eq_nil_iff.mp (h.expects.complete hended)).1
    have hinbox : conn.wire.inbox ++ bytes = conn.wire.inbox := by rw [hbytes, List.append_nil]
    exact distance_of_frame hinbox rfl rfl

theorem meter?_cancelCall (conn : Connection) : conn.cancelCall.meter? = conn.meter? := by
  unfold cancelCall
  cases hphase : conn.phase with
  | serving call => exact (meter?_of_serving hphase).symm
  | _ => rfl

theorem meter?_watch (conn : Connection) : conn.watch.meter? = conn.meter? := by
  have hwatched := conn.watched
  generalize conn.watch = next at hwatched
  cases hwatched with
  | still => rfl
  | stops call hphase => exact (meter?_of_serving hphase).symm
  | hears call hphase => exact (meter?_cancelCall _).trans (meter?_of_serving hphase).symm

theorem Account.apply {passages : List Passage} {taken : List (List Char)} {frames : List Frame} {rest : List Char}
    (h : Account ids conn missing text passages taken frames rest) {event : ConnectionEvent} {last : List UInt8}
    (hevent : Brings missing event last) :
    Continues ids last text conn shared.log passages taken frames (conn.apply settings shared event) := by
  cases hevent with
  | deliver bytes =>
    refine ⟨passages, taken, frames, rest, ⟨h.proper, h.standing, h.lines_eq, h.outbox_eq, ⟨?_, ?_⟩, h.room, h.ids_eq,
      h.cancelled, h.closed⟩, .still rfl⟩
    · rw [← h.expects.bytes]
      exact List.append_assoc _ _ _
    · intro hended
      exact (List.append_eq_nil_iff.mp (h.expects.complete hended)).2
  | hangUp =>
    exact ⟨passages, taken, frames, rest, ⟨h.proper, h.standing, h.lines_eq, h.outbox_eq, ⟨h.expects.bytes, fun _ => rfl⟩,
      h.room, h.ids_eq, h.cancelled, h.closed⟩, .still rfl⟩
  | shutdown => exact ⟨passages, taken, frames, rest, h.cancelCall fun _ => rfl, .still (meter?_cancelCall _)⟩
  | watch => exact ⟨passages, taken, frames, rest, h.watch, .still conn.meter?_watch⟩
  | step => exact (h.step settings shared).1

theorem Accounted.leads (h : Accounted ids conn missing text) {event : ConnectionEvent} {last : List UInt8}
    (hevent : Brings missing event last) : conn.Leads [event] (conn.apply settings shared event).1 := by
  cases hevent with
  | deliver bytes => exact h.leads_deliver
  | hangUp =>
    exact ⟨by simp [Connection.apply, Wire.endInput], by simp [Connection.apply, Wire.endInput],
      fun _ => distance_of_frame rfl rfl rfl⟩
  | shutdown =>
    obtain ⟨hwire, hshutdown, hweight⟩ := cancelCall_frame { conn with shutdown := true }
    refine ⟨by simp [Connection.apply, hshutdown], by simp [Connection.apply, hwire], fun _ => ?_⟩
    have hnext : (conn.apply settings shared .shutdown).1.distance = conn.weight :=
      (distance_of_shutdown hshutdown).trans hweight
    have hcount : [ConnectionEvent.shutdown].count .step = 0 := by simp
    rw [hnext, hcount, Nat.sub_zero]
    exact weight_le_distance _
  | watch =>
    obtain ⟨hwire, hshutdown, hweight⟩ := watch_frame conn
    refine ⟨by simp [Connection.apply, hshutdown], by simp [Connection.apply, hwire], fun _ => ?_⟩
    exact distance_of_frame (congrArg Wire.inbox hwire) hshutdown hweight
  | step => exact h.leads_step settings shared

theorem Accounted.apply (h : Accounted ids conn missing text) {event : ConnectionEvent} {last : List UInt8}
    (hevent : Brings missing event last) :
    Accounted ids (conn.apply settings shared event).1 last text ∧
      conn.Leads [event] (conn.apply settings shared event).1 := by
  have ⟨_, _, _, _, haccount⟩ := h
  exact ⟨(haccount.apply settings shared hevent).accounted, h.leads settings shared hevent⟩

theorem applyAll_append (conn : Connection) (events more : List ConnectionEvent) :
    conn.applyAll settings shared (events ++ more) =
      (conn.applyAll settings shared events).1.applyAll settings (conn.applyAll settings shared events).2 more :=
  List.foldl_append

theorem Accounted.applyAll {events : List ConnectionEvent} {last : List UInt8} (hall : BringsAll missing events last) :
    ∀ {conn : Connection} (shared : Shared), Accounted ids conn missing text →
      Accounted ids (conn.applyAll settings shared events).1 last text ∧
        conn.Leads events (conn.applyAll settings shared events).1 := by
  induction hall with
  | nil missing =>
    intro conn shared h
    exact ⟨h, by simp [Connection.applyAll], by simp [Connection.applyAll], fun _ => Nat.le_refl _⟩
  | cons hevent _ ih =>
    intro conn shared h
    obtain ⟨hnext, hleads⟩ := h.apply settings shared hevent
    obtain ⟨hlast, hmore⟩ := ih (conn.apply settings shared _).2 hnext
    exact ⟨hlast, hleads.trans hmore⟩

end

/-! ## The transcript -/

theorem Standing.of_isClosed {ids : Nat → String} {conn : Connection} {taken : List (List Char)} {frames : List Frame}
    (h : Standing ids conn.phase taken frames) (hclosed : conn.isClosed = true) :
    conn.phase = .closed none ∧ taken = [] ∧ frames = [] := by
  unfold isClosed at hclosed
  generalize conn.phase = phase at h hclosed
  cases h with
  | idle => cases hclosed
  | serving => cases hclosed
  | closed => exact ⟨rfl, rfl, rfl⟩

/-- What a connection has done with the lines of a text: the passages of the first of them, then what the open call has read and written, and what is left. -/
structure Transcribes (ids : Nat → String) (conn : Connection) (lines : List (List Char)) (passages : List Passage)
    (taken : List (List Char)) (frames : List Frame) (unread : List (List Char)) : Prop where
  proper : ∀ passage ∈ passages, passage.IsProper ids
  standing : Standing ids conn.phase taken frames
  lines_eq : lines = passages.flatMap Passage.lines ++ (taken ++ unread)
  outbox_eq : conn.wire.outbox = Utf8.encode (passages.flatMap Passage.written ++ frames.flatMap Frame.line)

/-- At all times a connection has written the passages of the lines that it has read, and after the peer hangs up or the daemon shuts down it comes to its end in a bounded number of steps, with all lines read unless the daemon shut down. -/
theorem connection_transcript (settings : Settings) (shared : Shared) (ids : Nat → String) (orders : Nat → MapOrder) (text : List Char)
    {events : List ConnectionEvent} {missing : List UInt8} (hevents : BringsAll (Utf8.encode text) events missing) :
    (∃ passages taken frames unread,
      Transcribes ids (applyAll settings { ids, orders } shared events).1 (textLines text) passages taken frames unread) ∧
    (.hangUp ∈ events ∨ .shutdown ∈ events →
      ∃ bound, ∀ more last, BringsAll missing more last → bound ≤ more.count .step →
        (applyAll settings { ids, orders } shared (events ++ more)).1.phase = .closed none ∧
        ∃ passages unread,
          Transcribes ids (applyAll settings { ids, orders } shared (events ++ more)).1 (textLines text) passages [] [] unread ∧
          (unread = [] ∨ .shutdown ∈ events ++ more)) := by
  obtain ⟨hmiddle, hleads⟩ := (accounted_start ids orders text).applyAll settings hevents shared
  constructor
  · obtain ⟨passages, taken, frames, rest, h⟩ := hmiddle
    exact ⟨passages, taken, frames, textLines rest, h.proper, h.standing, h.lines_eq, h.outbox_eq⟩
  · intro hend
    have hending : (applyAll settings { ids, orders } shared events).1.IsEnding :=
      hend.imp (fun h => hleads.inputEnded_iff.mpr (.inr h)) (fun h => hleads.shutdown_iff.mpr (.inr h))
    refine ⟨(applyAll settings { ids, orders } shared events).1.distance, fun more last hmore hbound => ?_⟩
    rw [applyAll_append]
    obtain ⟨hlast, hmoreLeads⟩ := hmiddle.applyAll settings hmore (applyAll settings { ids, orders } shared events).2
    obtain ⟨passages, taken, frames, rest, h⟩ := hlast
    have hdistance := hmoreLeads.distance_le hending
    rw [Nat.sub_eq_zero_of_le hbound] at hdistance
    have hclosed := isClosed_of_distance (Nat.le_zero.mp hdistance)
    obtain ⟨hphase, rfl, rfl⟩ := h.standing.of_isClosed hclosed
    refine ⟨hphase, passages, textLines rest, ⟨h.proper, h.standing, h.lines_eq, h.outbox_eq⟩, ?_⟩
    rcases h.closed hclosed with rfl | hshutdown
    · exact .inl rfl
    · exact .inr (((hleads.trans hmoreLeads).shutdown_iff.mp hshutdown).resolve_left Bool.false_ne_true)

/-- A call with two ids that sends two items, a blank line and a line that is no request: each has its passage, and nothing is left unread. -/
theorem connection_transcript_two_items :
    let settings : Settings := { limits := .unbounded }
    let request := { Request.new (.number 1) repeatMethod (.object [("repeat", .number (.natural 2))]) with metadata := [(Metadata.traceIdKey, "t")] }
    let text := request.line ++ ['\n'] ++ ['x', '\n']
    let start : Connection := { ids := toString, orders := fun _ => .reversed }
    let events := ConnectionEvent.deliver (Utf8.encode text) :: .hangUp :: List.replicate 12 .step
    let conn := (applyAll settings start { draws := .cycle [] } events).1
    BringsAll (Utf8.encode text) events [] ∧ conn.phase = .closed none ∧
      ∃ frames response e, frames.length = 2 ∧ Transcribes toString conn (textLines text)
        [{ line := request.line, frames, response := some response }, { line := ['\n'] },
          { line := ['x', '\n'], response := some (.plainFailure none parseErrorCode (JsonError.message e)) }] [] [] [] := by
  intro settings request text start events conn
  have hevents : BringsAll (Utf8.encode text) events [] := .deliver (.cons .hangUp (bringsAll_steps [] 12))
  obtain ⟨bound, hbound⟩ := (connection_transcript settings { draws := .cycle [] } toString (fun _ => .reversed) text hevents).2
    (.inl (List.mem_cons_of_mem _ List.mem_cons_self))
  obtain ⟨hphase, passages, unread, htranscribes, hunread⟩ :=
    hbound (List.replicate bound .step) [] (bringsAll_steps [] bound) (by rw [List.count_replicate_self])
  have hclosed : conn.isClosed = true := by decide +kernel
  have hlive : .shutdown ∉ events ++ List.replicate bound .step := by simp [events, List.mem_replicate]
  obtain rfl := hunread.resolve_right hlive
  rw [applyAll_append, applyAll_steps_of_closed settings _ hclosed] at hphase htranscribes
  dsimp only at hphase htranscribes
  have hlines : textLines text = [request.line, ['\n'], ['x', '\n']] := by decide +kernel
  have hpassages := htranscribes.lines_eq
  rw [hlines, List.nil_append, List.append_nil] at hpassages
  have hwritable : request.params.IsWritable := ⟨trivial, trivial⟩
  have hopens : Opens request.line request.received := ⟨rfl, Request.parse_line hwritable (by decide), rfl⟩
  obtain ⟨e, hparse⟩ : ∃ e, Request.codec.parse (String.ofList ['x', '\n']) = .error e := ⟨_, rfl⟩
  obtain ⟨frames, response, rest, rfl, -, hproper, hrest⟩ := passages_of_opens htranscribes.proper hpassages hopens (by decide)
  obtain ⟨rest, rfl, hproper, hrest⟩ := passages_of_blank hproper hrest (by decide)
  obtain ⟨rest, rfl, -, hrest⟩ := passages_of_unreadable hproper hrest (by decide) hparse
  obtain rfl : rest = [] := by
    cases rest with
    | nil => rfl
    | cons => cases hrest
  refine ⟨hevents, hphase, frames, response, e, ?_, htranscribes⟩
  -- Every frame and every response is one line of the output, which has four.
  let written := frames.map Frame.line ++ [response.line, (Response.plainFailure none parseErrorCode e.message).line]
  have houtbox : conn.wire.outbox = Utf8.encode written.flatten :=
    htranscribes.outbox_eq.trans (congrArg Utf8.encode (by simp [written, Passage.written, List.flatMap_def]))
  have hfull : ∀ line ∈ written, IsFullLine line := by
    simp only [written, List.forall_mem_append, List.forall_mem_map, List.forall_mem_cons, List.not_mem_nil, false_implies, implies_true, and_true]
    exact ⟨fun frame _ => isFullLine_lineOf Frame.record frame, isFullLine_lineOf Response.record _, isFullLine_lineOf Response.record _⟩
  have hcount : (Utf8.decode conn.wire.outbox).toOption.map (fun text => (textLines text).length) = some 4 := by decide +kernel
  rw [houtbox, Utf8.decode_encode, Except.toOption, Option.map_some, Option.some_inj, textLines_flatten hfull] at hcount
  simpa [written] using hcount

end LoadGenerator.Connection
