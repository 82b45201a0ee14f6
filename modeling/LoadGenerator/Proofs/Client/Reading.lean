import LoadGenerator.Proofs.Client.Progress
import LoadGenerator.Proofs.Client.Streams

/-!
# What a call reads of a stream

In whatever portions the bytes of a stream arrive, a call on it comes to the place where the stream ends it, returns what that place makes of it, and reads no further. Each of its steps writes a line of its plan, passes over some lines, or ends the call at that place.
-/

namespace LoadGenerator.Client

open Message Connection

/-! ## What a step does on a stream -/

/-- The call keeps the next item. -/
def Stage.TakesItems : Stage → Prop
  | .awaiting _ | .collecting => True
  | _ => False

theorem Stage.turns_le (stage : Stage) : stage.turns ≤ 2 := by
  cases stage with
  | opening => exact Nat.zero_le 2
  | sending => exact Nat.le_succ 1
  | _ => exact Nat.le_refl 2

namespace OpenCall

section

variable {call : OpenCall} {wire : Wire} {missing : List UInt8} {rest : List Char} {sent : List (List Char)}

/-- A call that reads keeps items as long as its invocation does. -/
theorem Follows.keeps_iff {messages : List Incoming} (h : call.Follows messages) (hreading : call.stage.IsReading) :
    call.invocation.Keeps call.items.length ↔ call.stage.TakesItems := by
  cases h with
  | ended hstage =>
    rw [hstage] at hreading
    cases hreading
  | live _ hitems hstands =>
    have hcount : (call.invocation.kept (itemData messages)).length = call.items.length := by
      have hlength := congrArg List.length hitems
      rwa [List.length_map, List.length_map] at hlength
    cases hstands with
    | opening hstage =>
      rw [hstage] at hreading
      cases hreading
    | sending hstage =>
      rw [hstage] at hreading
      cases hreading
    | reading hreads =>
      cases hreads with
      | awaiting hstage hinvocation hleft =>
        rw [hinvocation, Invocation.kept, List.length_take] at hcount
        rw [hstage, hinvocation]
        refine iff_of_true ?_ trivial
        show call.items.length < _
        omega
      | collecting hstage hinvocation =>
        rw [hstage, hinvocation]
        exact iff_of_true trivial trivial
      | finishing hstage hdropped =>
        rw [hstage]
        refine iff_of_false (fun hkeeps => ?_) fun htakes => htakes
        have hmore := congrArg List.length (hdropped [.null])
        rcases hinvocation : call.invocation with _ | _ | _ | _ | _ | requests | _
        all_goals rw [hinvocation] at hkeeps hmore hcount
        case repeated => simp [Invocation.kept] at hmore
        case exchange =>
          have hless : call.items.length < requests.length := hkeeps
          simp only [Invocation.kept, List.length_take, List.length_append, List.length_singleton] at hmore hcount
          omega
        all_goals exact hkeeps

/-- A call that reads passes over a message or ends with it. -/
theorem takeMessage_cases (hreading : call.stage.IsReading) (hkeeps : call.invocation.Keeps call.items.length ↔ call.stage.TakesItems)
    (message : Incoming) :
    (∃ stage items, call.invocation.Passes call.items message items ∧ call.takeMessage message = { call with stage, items } ∧
        (stage = call.stage ∧ items = call.items ∨ stage = afterTaking call.stage ∧ items.length = call.items.length + 1)) ∨
      ∃ ending, call.invocation.Stops call.items message ending ∧
        call.takeMessage message = { call with stage := .ended (ending.result call.bytesOut call.bytesIn) } := by
  cases message with
  | frame frame =>
    cases hkind : frame.kind with
    | finish => exact .inl ⟨call.stage, call.items, .finish hkind, by rw [takeMessage, hkind], .inl ⟨rfl, rfl⟩⟩
    | item =>
      have htake : call.takeMessage (.frame frame) = call.takeItem frame.data := by rw [takeMessage, hkind]
      rw [htake]
      by_cases htakes : call.stage.TakesItems
      · have hstage : (∃ left, call.stage = .awaiting left) ∨ call.stage = .collecting := by
          cases hstage : call.stage with
          | awaiting left => exact .inl ⟨left, rfl⟩
          | collecting => exact .inr rfl
          | _ =>
            rw [hstage] at htakes
            cases htakes
        rw [takeItem_of_kept hstage]
        cases hitem : WorkResponse.codec.ofJson frame.data with
        | error e => exact .inr ⟨.failed (.malformed e), .garbled hkind (hkeeps.mpr htakes) hitem, rfl⟩
        | ok item =>
          refine .inl ⟨_, _, .kept hkind (hkeeps.mpr htakes) hitem, rfl, .inr ⟨rfl, ?_⟩⟩
          rw [List.length_append, List.length_singleton]
      · have hfinishing : call.stage = .finishing := by
          cases hstage : call.stage with
          | finishing => rfl
          | awaiting | collecting =>
            rw [hstage] at htakes
            exact absurd trivial htakes
          | _ =>
            rw [hstage] at hreading
            cases hreading
        refine .inl ⟨call.stage, call.items, .dropped hkind (mt hkeeps.mp htakes), ?_, .inl ⟨rfl, rfl⟩⟩
        simp only [takeItem, hfinishing]
        rw [← hfinishing]
  | response response =>
    refine .inr ?_
    rw [takeMessage, takeResponse]
    cases herror : response.error with
    | some error => exact ⟨.failed (.rpc error), .refused herror, rfl⟩
    | none =>
      cases hvalue : call.invocation.valueOf call.items (response.result.getD .null) with
      | error e => exact ⟨.failed (.malformed e), .valueless herror (Invocation.valueOf_eq_error_iff.mp hvalue), rfl⟩
      | ok value => exact ⟨.reply value response.metadata, .reply herror (Invocation.valueOf_eq_ok_iff.mp hvalue), rfl⟩

/-- What a step of a call can do that has not returned and has written these lines, where the text to be read is known. -/
inductive Advances (call : OpenCall) (wire : Wire) (missing : List UInt8) (rest : List Char) (sent : List (List Char)) : OpenCall × Wire → Prop where
  | writes (line : List Char) (next : Stage)
      (hunderway : ∀ bytesOut, Underway { call with stage := next, bytesOut } (sent ++ [line]) call.items.length) :
      Advances call wire missing rest sent
        ({ call with stage := next, bytesOut := call.bytesOut + Utf8.size line }, { wire with outbox := wire.outbox ++ Utf8.encode line })
  /-- It passes over lines, or waits for the next. -/
  | passes (front : List (List Char)) (unread : List Char) (inbox : List UInt8) (stage : Stage) (items : List WorkResponse)
      (hlines : textLines rest = front ++ textLines unread) (hexpects : Wire.Expects { wire with inbox } missing unread)
      (hpasses : call.invocation.PassesAll call.items front items)
      (hunderway : ∀ bytesIn, Underway { call with stage, items, bytesIn } sent items.length)
      (hwaits : inbox.length < wire.inbox.length ∨ wire.inputEnded = false ∧ newline ∉ inbox) :
      Advances call wire missing rest sent ({ call with stage, items, bytesIn := call.bytesIn + Utf8.size front.flatten }, { wire with inbox })
  | ends (front : List (List Char)) (unread : List Char) (inbox : List UInt8) (ending : Ending)
      (hlines : textLines rest = front ++ textLines unread) (hexpects : Wire.Expects { wire with inbox } missing unread)
      (hends : call.invocation.EndsOn call.items (textLines rest) front ending) :
      Advances call wire missing rest sent
        ({ call with
            stage := .ended (ending.result call.bytesOut (call.bytesIn + Utf8.size front.flatten))
            bytesIn := call.bytesIn + Utf8.size front.flatten }, { wire with inbox })

theorem Underway.count {read : Nat} (h : call.Underway sent read) (bytesIn : Nat) : Underway { call with bytesIn } sent read :=
  ⟨h.live, h.plan, h.turns⟩

theorem Underway.advances_read (h : call.Underway sent call.items.length) {messages : List Incoming} (hfollows : call.Follows messages)
    (hreading : call.stage.IsReading) (hexpects : wire.Expects missing rest) : Advances call wire missing rest sent (call.read wire) := by
  have hread := hexpects.readsNext
  unfold OpenCall.read
  generalize wire.nextLine = reading at hread
  cases hread with
  | waiting blanks unread inbox hlines hopen hpart hexpects' hblanks =>
    exact .passes blanks unread inbox call.stage call.items hlines hexpects' (Invocation.passesAll_blanks _ _ hblanks) h.count (.inr ⟨hopen, hpart⟩)
  | ended blanks hlines hended hblanks =>
    have hnothing : Wire.Expects { wire with inbox := [] } missing [] := ⟨by rw [hexpects.complete hended]; rfl, hexpects.complete⟩
    have hends := Invocation.EndsOn.closed (Invocation.passesAll_blanks call.invocation call.items hblanks)
    refine .ends blanks [] [] (.failed .closed) (by rw [hlines, textLines, List.append_nil]) hnothing ?_
    rwa [hlines]
  | line blanks front unread inbox hlines hvisible hshorter hexpects' hblanks =>
    have hlines' : textLines rest = (blanks ++ [front]) ++ textLines unread := by rw [hlines, List.append_assoc, List.singleton_append]
    have hflatten : (blanks ++ [front]).flatten = blanks.flatten ++ front := by
      rw [List.flatten_append, List.flatten_cons, List.flatten_nil, List.append_nil]
    have hblank : call.invocation.PassesAll call.items blanks call.items := Invocation.passesAll_blanks _ _ hblanks
    dsimp only
    rw [takeLine_eq, ← hflatten]
    have hstop {ending : Ending} (hstops : call.invocation.StopsAt call.items front ending) :
        Advances call wire missing rest sent
          ({ call with
              stage := .ended (ending.result call.bytesOut (call.bytesIn + Utf8.size (blanks ++ [front]).flatten))
              bytesIn := call.bytesIn + Utf8.size (blanks ++ [front]).flatten }, { wire with inbox }) :=
      .ends (blanks ++ [front]) unread inbox ending hlines' hexpects' (.line hlines hblank hstops)
    cases hmessage : incomingOf front with
    | error e => exact hstop (.unreadable hvisible hmessage)
    | ok message =>
      have hstage : ({ call with bytesIn := call.bytesIn + Utf8.size (blanks ++ [front]).flatten } : OpenCall).stage.IsReading := hreading
      rcases takeMessage_cases hstage (hfollows.keeps_iff hreading) message with ⟨stage, items, hpasses, htake, hnext⟩ | ⟨ending, hstops, htake⟩
      · dsimp only
        rw [htake]
        refine .passes _ unread inbox stage items hlines' hexpects' (hblank.append (.message hvisible hmessage hpasses (.nil items))) ?_ (.inl hshorter)
        intro bytesIn
        rcases hnext with ⟨rfl, rfl⟩ | ⟨rfl, hcount⟩
        · exact h.count bytesIn
        · rw [hcount]
          exact h.afterTaking hreading items bytesIn
      · dsimp only
        rw [htake]
        exact hstop (.message hvisible hmessage hstops)

theorem Underway.advances (h : call.Underway sent call.items.length) {messages : List Incoming} (hfollows : call.Follows messages)
    (hroom : wire.room = none) (hexpects : wire.Expects missing rest) : Advances call wire missing rest sent (call.step wire) := by
  rcases h.step_cases wire with ⟨hreading, hstep⟩ | ⟨line, next, hstep, hnext⟩
  · rw [hstep]
    exact h.advances_read hfollows hreading hexpects
  · rw [hstep, write_of_room hroom]
    exact .writes line next hnext

end

/-! ## Calls on a stream -/

/-- Where a call stands that has read some lines of a stream, with so many more to read. -/
inductive OnLines (call : OpenCall) (front back : List (List Char)) : Prop where
  | live {messages : List Incoming} (hlive : call.result? = none) (hfollows : call.Follows messages)
      (hpasses : call.invocation.PassesAll [] front call.items)
  | ended {ending : Ending} (hstage : call.stage = .ended (ending.result call.bytesOut call.bytesIn))
      (hends : call.invocation.EndsOn [] (front ++ back) front ending)

/-- The call has written these lines of its plan. -/
structure HasSent (call : OpenCall) (sent : List (List Char)) : Prop where
  bytesOut : call.bytesOut = Utf8.size sent.flatten
  front : sent <+: call.plan
  /-- A request is written after as many items as there are requests before it. -/
  turns : ∀ requests, call.invocation = .exchange requests → sent.length ≤ call.items.length + 2
  underway : call.result? = none → call.Underway sent call.items.length

/-- A call on a stream whose text is known: it has read a front of the lines and written a front of its plan. -/
structure OnStream (start call : OpenCall) (text : List Char) (written : List UInt8) (wire : Wire) (missing : List UInt8) : Prop where
  invocation : call.invocation = start.invocation
  plan : call.plan = start.plan
  room : wire.room = none
  read : ∃ front rest, textLines text = front ++ textLines rest ∧ wire.Expects missing rest ∧ call.bytesIn = Utf8.size front.flatten ∧
    call.OnLines front (textLines rest)
  sent : ∃ sent, wire.outbox = written ++ Utf8.encode sent.flatten ∧ call.HasSent sent

section

variable {start call : OpenCall} {text : List Char} {written missing : List UInt8} {wire : Wire} {sent : List (List Char)}

theorem Underway.hasSent (h : call.Underway sent call.items.length) (hbytes : call.bytesOut = Utf8.size sent.flatten) : call.HasSent sent where
  bytesOut := hbytes
  front := ⟨call.unsent, h.plan⟩
  turns requests hrequests := (h.turns requests hrequests).trans (Nat.add_le_add_left (Stage.turns_le _) _)
  underway _ := h

/-- What a call has written and what it is still to write are its plan. -/
theorem Underway.length_unsent {other : OpenCall} {sent' : List (List Char)} {read read' : Nat} (h : call.Underway sent read)
    (h' : other.Underway sent' read') (hplan : other.plan = call.plan) :
    sent'.length + other.unsent.length = sent.length + call.unsent.length := by
  rw [← List.length_append, ← List.length_append, h.plan, h'.plan, hplan]

theorem size_flatten_append (front back : List (List Char)) : Utf8.size front.flatten + Utf8.size back.flatten = Utf8.size (front ++ back).flatten := by
  rw [List.flatten_append, Utf8.size_append]

theorem OnStream.step (h : OnStream start call text written wire missing) :
    OnStream start (call.step wire).1 text written (call.step wire).2 missing ∧ (call.step wire).2.inputEnded = wire.inputEnded := by
  obtain ⟨hinvocation, hplan, hroom, ⟨front, rest, htext, hexpects, hbytesIn, hlines⟩, sent, houtbox, hsent⟩ := h
  cases hlines with
  | ended hstage hends =>
    have hsame : call.step wire = (call, wire) := by rw [OpenCall.step, hstage]
    rw [hsame]
    exact ⟨⟨hinvocation, hplan, hroom, ⟨front, rest, htext, hexpects, hbytesIn, .ended hstage hends⟩, sent, houtbox, hsent⟩, rfl⟩
  | live hlive hfollows hpasses =>
    have hfollows' := hfollows.step wire
    have hadvances := (hsent.underway hlive).advances hfollows hroom hexpects
    generalize call.step wire = next at hfollows' hadvances
    cases hadvances with
    | writes line stage hunderway =>
      have hbytes : call.bytesOut + Utf8.size line = Utf8.size (sent ++ [line]).flatten := by
        rw [← size_flatten_append, ← hsent.bytesOut, List.flatten_cons, List.flatten_nil, List.append_nil]
      refine ⟨⟨hinvocation, hplan, hroom, ⟨front, rest, htext, ⟨hexpects.bytes, hexpects.complete⟩, hbytesIn,
        .live (hunderway 0).live hfollows' hpasses⟩, sent ++ [line], ?_, (hunderway _).hasSent hbytes⟩, rfl⟩
      rw [houtbox, List.append_assoc, ← Utf8.encode_append, List.flatten_append, List.flatten_cons, List.flatten_nil, List.append_nil]
    | passes more unread inbox stage items hmore hexpects' hpasses' hunderway =>
      have htext' : textLines text = (front ++ more) ++ textLines unread := by rw [htext, hmore, List.append_assoc]
      exact ⟨⟨hinvocation, hplan, hroom, ⟨front ++ more, unread, htext', hexpects', by rw [← size_flatten_append, ← hbytesIn],
        .live (hunderway 0).live hfollows' (hpasses.append hpasses')⟩, sent, houtbox, (hunderway _).hasSent hsent.bytesOut⟩, rfl⟩
    | ends more unread inbox ending hmore hexpects' hends =>
      have htext' : textLines text = (front ++ more) ++ textLines unread := by rw [htext, hmore, List.append_assoc]
      have hwhole : call.invocation.EndsOn [] (front ++ more ++ textLines unread) (front ++ more) ending := by
        rw [List.append_assoc, ← hmore]
        exact hpasses.endsOn hends
      exact ⟨⟨hinvocation, hplan, hroom, ⟨front ++ more, unread, htext', hexpects', by rw [← size_flatten_append, ← hbytesIn], .ended rfl hwhole⟩,
        sent, houtbox, hsent.bytesOut, hsent.front, hsent.turns, fun hlive => by cases hlive⟩, rfl⟩

/-- Steps of a call with its wire. -/
theorem OnStream.steps (h : OnStream start call text written wire missing) (count : Nat) :
    let state := (fun state : OpenCall × Wire => state.1.step state.2)^[count] (call, wire)
    OnStream start state.1 text written state.2 missing ∧ state.2.inputEnded = wire.inputEnded := by
  induction count with
  | zero => exact ⟨h, rfl⟩
  | succ count ih =>
    rw [Function.iterate_succ_apply']
    obtain ⟨hstream, hended⟩ := ih
    exact ⟨hstream.step.1, hstream.step.2.trans hended⟩

theorem OnStream.deliver {bytes : List UInt8} (h : OnStream start call text written wire (bytes ++ missing)) :
    OnStream start call text written (wire.deliver bytes) missing := by
  obtain ⟨hinvocation, hplan, hroom, ⟨front, rest, htext, hexpects, hread⟩, hsent⟩ := h
  refine ⟨hinvocation, hplan, hroom, ⟨front, rest, htext, ⟨?_, fun hended => ?_⟩, hread⟩, hsent⟩
  · rw [← hexpects.bytes]
    exact List.append_assoc _ _ _
  · exact (List.append_eq_nil_iff.mp (hexpects.complete hended)).2

theorem OnStream.endInput (h : OnStream start call text written wire []) : OnStream start call text written wire.endInput [] := by
  obtain ⟨hinvocation, hplan, hroom, ⟨front, rest, htext, hexpects, hread⟩, hsent⟩ := h
  exact ⟨hinvocation, hplan, hroom, ⟨front, rest, htext, ⟨hexpects.bytes, fun _ => rfl⟩, hread⟩, hsent⟩

/-- A call that has not returned comes to an end, or to wait for a line while the daemon's side is open. -/
theorem OnStream.settles (h : OnStream start call text written wire missing) :
    ∃ steps, let settled := (fun state : OpenCall × Wire => state.1.step state.2)^[steps] (call, wire)
      settled.1.result? = none → wire.inputEnded = false ∧ newline ∉ settled.2.inbox := by
  -- A step that neither ends the call nor waits leaves a line less to write or a shorter inbox.
  induction hrank : call.unsent.length + wire.inbox.length using Nat.strongRecOn generalizing call wire with
  | ind rank ih =>
    have hnext := h.step.1
    obtain ⟨-, hplan, hroom, ⟨front, rest, -, hexpects, -, hlines⟩, sent, -, hsent⟩ := h
    cases hlines with
    | ended hstage =>
      refine ⟨0, fun hlive => ?_⟩
      rw [Function.iterate_zero_apply, result?, hstage] at hlive
      cases hlive
    | live hlive hfollows hpasses =>
      have hunderway := hsent.underway hlive
      have hadvances := hunderway.advances hfollows hroom hexpects
      generalize hstep : call.step wire = next at hnext hadvances
      cases hadvances with
      | writes line stage hwrites =>
        have hless := hunderway.length_unsent (hwrites (call.bytesOut + Utf8.size line)) rfl
        rw [List.length_append, List.length_singleton] at hless
        obtain ⟨steps, hsettled⟩ := ih _ (by dsimp only; omega) hnext rfl
        refine ⟨steps + 1, ?_⟩
        rw [Function.iterate_succ_apply, hstep]
        exact hsettled
      | passes more unread inbox stage items hmore hexpects' hpasses' hpassed hwaits =>
        rcases hwaits with hshorter | hwaits
        · have hsame := hunderway.length_unsent (hpassed (call.bytesIn + Utf8.size more.flatten)) rfl
          obtain ⟨steps, hsettled⟩ := ih _ (by dsimp only; omega) hnext rfl
          refine ⟨steps + 1, ?_⟩
          rw [Function.iterate_succ_apply, hstep]
          exact hsettled
        · refine ⟨1, fun _ => ?_⟩
          rw [Function.iterate_one, hstep]
          exact hwaits
      | ends =>
        refine ⟨1, fun hopen => ?_⟩
        rw [Function.iterate_one, hstep] at hopen
        cases hopen

/-- A line has arrived where no more is missing than what comes behind it. -/
theorem newline_mem_inbox {rest line : List Char} {lines later : List (List Char)} (hexpects : wire.Expects missing rest)
    (hlines : textLines rest = lines ++ line :: later) (hnewline : '\n' ∈ line)
    (harrived : Utf8.size (lines.flatten ++ line) + missing.length ≤ Utf8.size rest) : newline ∈ wire.inbox := by
  have hrest : rest = (lines.flatten ++ line) ++ later.flatten := by
    rw [← flatten_textLines rest, hlines, List.flatten_append, List.flatten_cons, List.append_assoc]
  have hfront : Utf8.encode (lines.flatten ++ line) <+: Utf8.encode rest := by
    rw [hrest, Utf8.encode_append (lines.flatten ++ line)]
    exact List.prefix_append _ _
  rw [hexpects.size_eq] at harrived
  have hprefix := List.prefix_of_prefix_length_le hfront ⟨missing, hexpects.bytes⟩ (by simp only [Utf8.size] at harrived; omega)
  exact hprefix.subset (newline_mem_encode_iff.mpr (List.mem_append_right _ hnewline))

/-- What a stream makes of a call has come to the client: the daemon has ended its side, or the line that ends the call is all there. -/
def HasCome (text : List Char) (wire : Wire) (missing : List UInt8) (read : List (List Char)) (ending : Ending) : Prop :=
  wire.inputEnded = true ∨
    ending ≠ .failed .closed ∧ (∃ body, read.flatten = body ++ ['\n']) ∧ Utf8.size read.flatten + missing.length ≤ Utf8.size text

/-- A call that waits has not got the line that ends it. -/
theorem OnStream.not_waiting (h : OnStream start call text written wire missing) (hlive : call.result? = none) {read : List (List Char)}
    {ending : Ending} (hends : start.invocation.EndsOn [] (textLines text) read ending) (hcome : HasCome text wire missing read ending)
    (hopen : wire.inputEnded = false) : newline ∈ wire.inbox := by
  obtain ⟨hinvocation, -, -, ⟨front, rest, htext, hexpects, -, hlines⟩, -⟩ := h
  rcases hcome with hended | ⟨hstopped, ⟨body, hbody⟩, harrived⟩
  · rw [hopen] at hended
    cases hended
  · cases hlines with
    | ended hstage =>
      rw [result?, hstage] at hlive
      cases hlive
    | live _ _ hpasses =>
      rw [hinvocation] at hpasses
      cases hends with
      | closed => exact absurd rfl hstopped
      | @line front' later line _ _ hlines' hpasses' hstops =>
        have hnonempty : line ≠ [] := by
          rintro rfl
          cases hstops.visible
        have hnewline : '\n' ∈ line := by
          rw [List.flatten_append, List.flatten_cons, List.flatten_nil, List.append_nil] at hbody
          have hlast := congrArg List.getLast? hbody
          rw [List.getLast?_append_of_ne_nil _ hnonempty, List.getLast?_concat] at hlast
          exact List.mem_of_getLast? hlast
        obtain ⟨between, rfl, hrest⟩ : ∃ between, front' = front ++ between ∧ textLines rest = between ++ line :: later := by
          rcases List.append_eq_append_iff.mp (htext.symm.trans hlines') with ⟨between, hfront, hback⟩ | ⟨between, hfront, hback⟩
          · exact ⟨between, hfront, hback⟩
          · cases between with
            | nil =>
              rw [List.append_nil] at hfront
              exact ⟨[], by rw [hfront, List.append_nil], hback.symm⟩
            | cons first between =>
              obtain ⟨rfl, -⟩ := List.cons.inj hback
              rw [hfront] at hpasses
              exact absurd (hpasses'.rest hpasses) hstops.not_passesAll
        refine newline_mem_inbox hexpects hrest hnewline ?_
        have hsize : Utf8.size text = Utf8.size front.flatten + Utf8.size rest := by
          rw [← flatten_textLines text, htext, ← size_flatten_append, flatten_textLines]
        rw [List.append_assoc, ← size_flatten_append, List.flatten_append, List.flatten_cons, List.flatten_nil, List.append_nil] at harrived
        omega

/-- Once that has come, some steps of the client make the call return it. -/
theorem OnStream.returns (h : OnStream start call text written wire missing) {read : List (List Char)} {ending : Ending}
    (hends : start.invocation.EndsOn [] (textLines text) read ending) (hcome : HasCome text wire missing read ending) :
    ∃ steps, let returned := ((fun state : OpenCall × Wire => state.1.step state.2)^[steps] (call, wire)).1
      returned.result? = some (ending.result returned.bytesOut (Utf8.size read.flatten)) := by
  obtain ⟨steps, hsettled⟩ := h.settles
  obtain ⟨hstream, hended⟩ := h.steps steps
  refine ⟨steps, ?_⟩
  generalize (fun state : OpenCall × Wire => state.1.step state.2)^[steps] (call, wire) = state at hsettled hstream hended ⊢
  dsimp only at hsettled hstream hended ⊢
  cases hresult : state.1.result? with
  | none =>
    obtain ⟨hopen, hnothing⟩ := hsettled hresult
    rw [HasCome, ← hended] at hcome
    exact absurd (hstream.not_waiting hresult hends hcome (hended.trans hopen)) hnothing
  | some result =>
    obtain ⟨hinvocation, -, -, ⟨front, rest, htext, -, hbytesIn, hlines⟩, -⟩ := hstream
    cases hlines with
    | live hlive =>
      rw [hlive] at hresult
      cases hresult
    | ended hstage hends' =>
      rw [hinvocation, ← htext] at hends'
      obtain ⟨rfl, rfl⟩ := hends.unique hends'
      rw [result?, hstage, hbytesIn] at hresult
      exact hresult.symm

end

end OpenCall

/-! ## Clients -/

/-- The events bring the missing bytes of a stream to a client in portions, up to those that are missing still, and the end of the daemon's side after the last. -/
inductive Plays : List UInt8 → List ClientEvent → List UInt8 → Prop where
  | nil (missing : List UInt8) : Plays missing [] missing
  | step {missing left : List UInt8} {events : List ClientEvent} (h : Plays missing events left) : Plays missing (.step :: events) left
  | deliver {missing left : List UInt8} {events : List ClientEvent} (bytes : List UInt8) (h : Plays missing events left) :
      Plays (bytes ++ missing) (.deliver bytes :: events) left
  | endInput {left : List UInt8} {events : List ClientEvent} (h : Plays [] events left) : Plays [] (.endInput :: events) left

section

variable {client : Client} {start call : OpenCall} {text : List Char} {written missing left : List UInt8}

theorem step_of_call (hcall : client.call = some call) :
    client.step = { client with wire := (call.step client.wire).2, call := some (call.step client.wire).1 } := by
  simp only [Client.step, hcall]

theorem iterate_step (hcall : client.call = some call) (count : Nat) :
    let state := (fun state : OpenCall × Wire => state.1.step state.2)^[count] (call, client.wire)
    Client.step^[count] client = { client with wire := state.2, call := some state.1 } := by
  induction count with
  | zero =>
    show client = { client with call := some call }
    rw [← hcall]
  | succ count ih =>
    rw [Function.iterate_succ_apply', Function.iterate_succ_apply', ih]
    rfl

theorem Plays.onStream {events : List ClientEvent} (h : Plays missing events left) (hcall : client.call = some call)
    (hstream : OpenCall.OnStream start call text written client.wire missing) :
    ∃ last, (events.foldl apply client).call = some last ∧ OpenCall.OnStream start last text written (events.foldl apply client).wire left := by
  induction h generalizing client call with
  | nil => exact ⟨call, hcall, hstream⟩
  | step _ ih =>
    have hstep : client.apply .step = { client with wire := (call.step client.wire).2, call := some (call.step client.wire).1 } :=
      step_of_call hcall
    have hnext : (client.apply .step).call = some (call.step client.wire).1 := by rw [hstep]
    refine ih hnext ?_
    rw [hstep]
    exact hstream.step.1
  | deliver bytes _ ih => exact ih hcall hstream.deliver
  | endInput _ ih => exact ih hcall hstream.endInput

end

theorem OpenCall.onStream_start {wire : Wire} {missing : List UInt8} {text : List Char} (hexpects : wire.Expects missing text)
    (hroom : wire.room = none) (id : RequestId) (invocation : Invocation) (correlation : Correlation) (order : MapOrder) :
    OnStream { id, invocation, correlation, order } { id, invocation, correlation, order } text wire.outbox wire missing where
  invocation := rfl
  plan := rfl
  room := hroom
  read := by
    have hfollows : Follows { id, invocation, correlation, order } [] := .live (List.forall_mem_nil _) (congrArg _ invocation.kept_nil) (.opening rfl rfl)
    exact ⟨[], text, rfl, hexpects, rfl, .live rfl hfollows (.nil [])⟩
  sent := ⟨[], (List.append_nil _).symm, (underway_start id invocation correlation order).hasSent rfl⟩

/-- Each stream makes each call end in one way, after one number of lines.

At every moment of a call, in whatever portions the bytes of the stream arrive, the call has read a front of these lines and counted their bytes, and the rest is there for the next call. It has passed over them all, or it has read up to the line that ends it and has returned what that makes of it. It returns that once the line is there or the daemon has ended its side. What it has written is a front of its plan, and where it waits for an answer to each request, no request is written before all earlier ones have their items. -/
theorem calls_read_streams (invocation : Invocation) (text : List Char) :
    (∃ read ending, invocation.EndsOn [] (textLines text) read ending ∧
        ∀ read' ending', invocation.EndsOn [] (textLines text) read' ending' → read' = read ∧ ending' = ending) ∧
      ∀ (client : Client) (correlation : Correlation) (order : MapOrder) (missing left : List UInt8) (events : List ClientEvent),
        client.wire.Expects missing text → client.wire.room = none → Plays missing events left →
          let start : OpenCall := { id := .number client.nextId, invocation, correlation, order }
          let last := events.foldl apply (client.begin invocation correlation order)
          ∃ call, last.call = some call ∧
            (∃ front rest, textLines text = front ++ textLines rest ∧ last.wire.inbox ++ left = Utf8.encode rest ∧
              call.bytesIn = Utf8.size front.flatten ∧ (call.result? = none → invocation.PassesAll [] front call.items) ∧
              ∀ result, call.result? = some result →
                ∃ ending, invocation.EndsOn [] (textLines text) front ending ∧ result = ending.result call.bytesOut call.bytesIn) ∧
            (∀ read ending, invocation.EndsOn [] (textLines text) read ending → OpenCall.HasCome text last.wire left read ending →
              ∃ steps returned, (Client.step^[steps] last).call = some returned ∧
                returned.result? = some (ending.result returned.bytesOut (Utf8.size read.flatten))) ∧
            ∃ sent, sent <+: start.plan ∧ last.wire.outbox = client.wire.outbox ++ Utf8.encode sent.flatten ∧
              call.bytesOut = Utf8.size sent.flatten ∧ ∀ requests, invocation = .exchange requests → sent.length ≤ call.items.length + 2 := by
  obtain ⟨read, ending, hends⟩ := invocation.exists_endsOn [] (textLines text)
  refine ⟨⟨read, ending, hends, fun _ _ => hends.unique⟩, ?_⟩
  intro client correlation order missing left events hexpects hroom hplays start last
  have hbegin : (client.begin invocation correlation order).call = some start := rfl
  obtain ⟨call, hcall, hstream⟩ := hplays.onStream hbegin (OpenCall.onStream_start hexpects hroom start.id invocation correlation order)
  refine ⟨call, hcall, ?_⟩
  have hreturns : ∀ read ending, invocation.EndsOn [] (textLines text) read ending → OpenCall.HasCome text last.wire left read ending →
      ∃ steps returned, (Client.step^[steps] last).call = some returned ∧
        returned.result? = some (ending.result returned.bytesOut (Utf8.size read.flatten)) := by
    intro read ending hends hcome
    obtain ⟨steps, hreturned⟩ := hstream.returns hends hcome
    refine ⟨steps, _, ?_, hreturned⟩
    rw [iterate_step hcall]
  obtain ⟨hinvocation, hplan, -, ⟨front, rest, htext, hexpects', hbytesIn, hlines⟩, sent, houtbox, hsent⟩ := hstream
  refine ⟨⟨front, rest, htext, hexpects'.bytes, hbytesIn, ?_⟩, hreturns, sent, hplan ▸ hsent.front, houtbox, hsent.bytesOut, ?_⟩
  · have hinvocation : call.invocation = invocation := hinvocation
    cases hlines with
    | live hlive _ hpasses =>
      refine ⟨fun _ => hinvocation ▸ hpasses, fun result hresult => ?_⟩
      rw [hlive] at hresult
      cases hresult
    | ended hstage hends' =>
      rw [OpenCall.result?, hstage]
      refine ⟨fun hlive => (by cases hlive), fun result hresult => ⟨_, ?_, (Option.some.inj hresult).symm⟩⟩
      rwa [htext, ← hinvocation]
  · intro requests hrequests
    exact hsent.turns requests (hinvocation.trans hrequests)

/-- A blank line, the end of a stream and an item come before the response, and another line after it. -/
theorem calls_read_streams_repeated :
    let text := "\n\x7b\"type\":\"end\"\x7d\n\x7b\"type\":\"item\",\"data\":\x7b\x7d\x7d\n\x7b\"jsonrpc\":\"2.0\"\x7d\nlater".toList
    let events : List ClientEvent := [.step, .deliver (Utf8.encode text), .step, .step, .step]
    let last := events.foldl apply (({} : Client).begin (.repeated {}) {})
    ∃ call front rest ending, last.call = some call ∧ textLines text = front ++ textLines rest ∧ last.wire.inbox = Utf8.encode rest ∧
      (Invocation.repeated {}).EndsOn [] (textLines text) front ending ∧ call.result? = some (ending.result call.bytesOut call.bytesIn) ∧
      call.items.length = 1 ∧ call.bytesIn = Utf8.size front.flatten := by
  intro text events last
  have hrun : last.call.map (fun call => (call.items.length, call.result?.isSome)) = some (1, true) := by decide +kernel
  have hplays : Plays (Utf8.encode text) events [] := by
    have hlater : Plays [] [.step, .step, .step] [] := .step (.step (.step (.nil [])))
    have hall := Plays.step (hlater.deliver (Utf8.encode text))
    rwa [List.append_nil] at hall
  obtain ⟨call, hcall, ⟨front, rest, htext, hinbox, hbytesIn, -, hreturned⟩, -⟩ :=
    (calls_read_streams (.repeated {}) text).2 {} {} .listed (Utf8.encode text) [] events ⟨List.nil_append _, fun h => by cases h⟩ rfl hplays
  rw [List.append_nil] at hinbox
  have hlast : last.call = some call := hcall
  rw [hlast, Option.map_some] at hrun
  obtain ⟨hitems, hsome⟩ := Prod.mk.inj (Option.some.inj hrun)
  obtain ⟨result, hresult⟩ := Option.isSome_iff_exists.mp hsome
  obtain ⟨ending, hends, rfl⟩ := hreturned result hresult
  refine ⟨call, front, rest, ending, hcall, htext, ?_, hends, hresult, hitems, hbytesIn⟩
  rw [← hinbox, show last = events.foldl apply (({} : Client).begin (.repeated {}) {}) from rfl]

end LoadGenerator.Client
