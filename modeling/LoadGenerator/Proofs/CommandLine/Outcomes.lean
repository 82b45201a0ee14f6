import LoadGenerator.CommandLine.Ongoing
import LoadGenerator.Proofs.Client.Messages

/-!
# What the program prints and how it exits

While its call is open the program prints nothing, and when the call returns it prints all of the value or nothing of the failure. So standard output and exit status stand or fall together, whatever the daemon's side does and whenever the deadline passes. The account below follows one program event by event, along with the messages that its call has taken.
-/

namespace LoadGenerator.Client

open Message

/-! ## Messages that make a reply -/

section

variable {invocation : Invocation} {messages : List Incoming} {reply : Reply}

/-- Frames alone make no reply. -/
theorem not_explains_reply_of_frames (hframes : ∀ message ∈ messages, message.IsFrame) : ¬ Explains invocation messages (.ok reply) := by
  rintro ⟨rfl, -, -, -, -, -⟩
  obtain ⟨frame, hframe⟩ := hframes _ (List.mem_append_right _ List.mem_cons_self)
  cases hframe

/-- Messages that make a failure make no reply. -/
theorem Explains.not_reply {failure : Failure} (h : Explains invocation messages (.error failure)) :
    ¬ Explains invocation messages (.ok reply) := by
  intro hreply
  cases h with
  | refused hmessages _ herror =>
    obtain ⟨hmessages', -, hnone, -⟩ := hreply
    obtain ⟨-, hlast⟩ := List.append_inj' (hmessages.symm.trans hmessages') rfl
    obtain rfl := Incoming.response.inj (List.singleton_inj.mp hlast)
    rw [hnone] at herror
    cases herror
  | valueless hmessages _ _ hitems hvalue =>
    obtain ⟨hmessages', -, -, hitems', hvalue', -⟩ := hreply
    obtain ⟨rfl, hlast⟩ := List.append_inj' (hmessages.symm.trans hmessages') rfl
    obtain rfl := Incoming.response.inj (List.singleton_inj.mp hlast)
    obtain rfl := List.map_injective_iff.mpr (fun _ _ => Except.ok.inj) (hitems.symm.trans hitems')
    exact hvalue'.not_baffles hvalue
  | garbled _ hframes => exact not_explains_reply_of_frames hframes hreply
  | broken hframes => exact not_explains_reply_of_frames hframes hreply

end

end LoadGenerator.Client

namespace LoadGenerator.CommandLine

open Client Message

/-! ## What there is to print -/

/-- The items that a call of these arguments collects of those that come: all, or one for each request. -/
def Arguments.collected (arguments : Arguments) (data : List Json) : List Json :=
  if arguments.mode = .server then data else data.take arguments.times.toNatClampNeg

/-- What the messages of a call give to print: one entry for its value, or one for each of its items, numbered from one in the order in which they came. -/
inductive Prints (arguments : Arguments) : List Incoming → List String → Prop where
  | health {earlier : List Incoming} {response : Response} {health : Health} (hmode : arguments.mode = .health)
      (hvalue : Health.codec.ofJson (response.result.getD .null) = .ok health) :
      Prints arguments (earlier ++ [.response response]) [s!"health: {Health.codec.render health}"]
  | ping {earlier : List Incoming} {response : Response} {reply : PingReply} (hmode : arguments.mode = .ping)
      (hvalue : PingReply.codec.ofJson (response.result.getD .null) = .ok reply) :
      Prints arguments (earlier ++ [.response response]) [s!"ping reply: {reply.message}"]
  | unary {earlier : List Incoming} {response : Response} {work : WorkResponse} (hmode : arguments.mode = .unary)
      (hvalue : WorkResponse.codec.ofJson (response.result.getD .null) = .ok work) :
      Prints arguments (earlier ++ [.response response]) [s!"do-work unary: {outcomeText work}"]
  | client {earlier : List Incoming} {response : Response} {summary : WorkSummary} (hmode : arguments.mode = .client)
      (hvalue : WorkSummary.codec.ofJson (response.result.getD .null) = .ok summary) :
      Prints arguments (earlier ++ [.response response])
        [s!"client stream summary: total={summary.total.toInt} success={summary.success.toInt} failed={summary.failed.toInt}"]
  | items {earlier : List Incoming} {response : Response} {items : List WorkResponse} {title : String} {output : List String}
      (hmode : arguments.mode = .server ∧ title = "server stream" ∨ arguments.mode = .bidi ∧ title = "bidi")
      (hitems : (arguments.collected (itemData earlier)).map WorkResponse.codec.ofJson = items.map .ok) (hlength : output.length = items.length)
      (hentries : ∀ place item, items[place]? = some item →
        output[place]? = some s!"{title} [{place + 1}/{arguments.times.toInt}]: {outcomeText item}") :
      Prints arguments (earlier ++ [.response response]) output

section

variable {arguments : Arguments} {ids : RunIds} {invocation : Invocation} {messages : List Incoming} {reply : Reply}

theorem length_itemLines (title : String) (times : Int32) (items : List WorkResponse) : (itemLines title times items).length = items.length := by
  rw [itemLines, List.length_map, List.length_zipIdx]

theorem getElem?_itemLines {title : String} {times : Int32} {items : List WorkResponse} {place : Nat} {item : WorkResponse}
    (h : items[place]? = some item) :
    (itemLines title times items)[place]? = some s!"{title} [{place + 1}/{times.toInt}]: {outcomeText item}" := by
  rw [itemLines, List.getElem?_map, List.getElem?_zipIdx, h, Option.map_some, Option.map_some, Nat.zero_add]

theorem length_streamRequests (ids : RunIds) (times : Int32) (config : WorkConfig) :
    (Arguments.streamRequests ids times config).length = times.toNatClampNeg := by
  rw [Arguments.streamRequests, List.length_map, List.length_range]

/-- A call with a load has its quantities. -/
theorem exists_of_bind_pure {result : Except TooLong WorkConfig} {call : WorkConfig → Invocation}
    (h : (result >>= fun config => pure (call config)) = .ok invocation) : ∃ config, invocation = call config := by
  cases result with
  | error e => cases h
  | ok config => exact ⟨config, (Except.ok.inj h).symm⟩

/-- What a call returns is what its messages give to print. -/
theorem prints_valueLines (hinvocation : arguments.invocation ids = .ok invocation) (hexplains : Explains invocation messages (.ok reply)) :
    Prints arguments messages (valueLines arguments reply.value) := by
  obtain ⟨rfl, -, -, hitems, hvalue, -⟩ := hexplains
  generalize reply.value = value at hvalue ⊢
  cases hmode : arguments.mode with
  | health =>
    simp only [Arguments.invocation, hmode] at hinvocation
    obtain rfl := Except.ok.inj hinvocation
    cases hvalue with
    | health hhealth => exact .health hmode hhealth
  | ping =>
    simp only [Arguments.invocation, hmode] at hinvocation
    obtain rfl := Except.ok.inj hinvocation
    cases hvalue with
    | ping hpong => exact .ping hmode hpong
  | unary =>
    simp only [Arguments.invocation, hmode] at hinvocation
    obtain ⟨config, rfl⟩ := exists_of_bind_pure hinvocation
    cases hvalue with
    | work hwork => exact .unary hmode hwork
  | client =>
    simp only [Arguments.invocation, hmode] at hinvocation
    obtain ⟨config, rfl⟩ := exists_of_bind_pure hinvocation
    cases hvalue with
    | tally hsummary => exact .client hmode hsummary
  | server =>
    simp only [Arguments.invocation, hmode] at hinvocation
    obtain ⟨config, rfl⟩ := exists_of_bind_pure hinvocation
    cases hvalue
    rw [valueLines, if_pos hmode]
    refine .items (.inl ⟨hmode, rfl⟩) ?_ (length_itemLines _ _ _) fun _ _ => getElem?_itemLines
    rwa [Arguments.collected, if_pos hmode]
  | bidi =>
    simp only [Arguments.invocation, hmode] at hinvocation
    obtain ⟨config, rfl⟩ := exists_of_bind_pure hinvocation
    have hother : arguments.mode ≠ .server := by rw [hmode]; decide
    cases hvalue
    rw [valueLines, if_neg hother]
    refine .items (.inr ⟨hmode, rfl⟩) ?_ (length_itemLines _ _ _) fun _ _ => getElem?_itemLines
    rwa [Arguments.collected, if_neg hother, ← length_streamRequests ids arguments.times config]

end

/-! ## A program and what its call has taken -/

section

variable (arguments : Arguments) (ids : RunIds) (late : Bool)

/-- The message that the call of the program takes with an event. -/
def Program.message? (program : Program) : ProgramEvent → Option Incoming
  | .step => if program.phase = .calling then program.client.call.bind fun call => call.message? program.client.wire else none
  | _ => none

/-- The program after these events, and the messages that its call has taken. -/
def history (events : List ProgramEvent) : Program × List Incoming :=
  events.foldl (fun (program, messages) event => (program.apply arguments ids late event, messages ++ (program.message? event).toList))
    (Program.start arguments ids, [])

theorem history_append (front back : List ProgramEvent) :
    history arguments ids late (front ++ back) = back.foldl
      (fun (program, messages) event => (program.apply arguments ids late event, messages ++ (program.message? event).toList))
      (history arguments ids late front) := List.foldl_append

/-- How a call of these arguments fails, given what has happened and the messages that it has taken. -/
inductive Fails (events : List ProgramEvent) (messages : List Incoming) : CallFailure → Prop where
  | unconnected {reason : String} (h : .refused reason ∈ events) : Fails events messages (.unconnected arguments.address reason)
  | tooLong {e : TooLong} (h : arguments.invocation ids = .error e) : Fails events messages (.tooLong e)
  | deadline (h : .deadline ∈ events) : Fails events messages (.deadline arguments.timeout)
  | broken {reason : String} (h : .broken reason ∈ events) : Fails events messages (.failed (.transport reason))
  | failed {invocation : Invocation} {failure : Failure} (hinvocation : arguments.invocation ids = .ok invocation)
      (h : Explains invocation messages (.error failure)) : Fails events messages (.failed failure)

/-- No call of these arguments makes a reply of the messages. -/
def NoReply (messages : List Incoming) : Prop :=
  ∀ invocation reply, arguments.invocation ids = .ok invocation → ¬ Explains invocation messages (.ok reply)

/-- Where a program stands, and what it has printed. -/
inductive Account (events : List ProgramEvent) (program : Program) (messages : List Incoming) : Prop where
  | refused {e : InvalidArgument} (hrefused : arguments.validate = .error e) (hprogram : program = .start arguments ids) (hmessages : messages = [])
  | connecting (haccepted : arguments.validate = .ok ()) (hprogram : program = .start arguments ids) (hmessages : messages = [])
  | calling {invocation : Invocation} {call : OpenCall} (haccepted : arguments.validate = .ok ()) (hphase : program.phase = .calling)
      (hinvocation : arguments.invocation ids = .ok invocation) (hcall : program.client.call = some call) (hsame : call.invocation = invocation)
      (hfollows : call.Follows messages) (hlive : call.result? = none) (houtput : program.output = [])
      (hcomplaints : program.complaints = [])
  | failed {failure : CallFailure} (haccepted : arguments.validate = .ok ()) (hphase : program.phase = .exited 1) (houtput : program.output = [])
      (hcomplaints : program.complaints = [s!"Call failed: {failure.fullMessage}"]) (hfails : Fails arguments ids events messages failure)
      (hnone : NoReply arguments ids messages)
  | succeeded {invocation : Invocation} {reply : Reply} (haccepted : arguments.validate = .ok ()) (hphase : program.phase = .exited 0)
      (hinvocation : arguments.invocation ids = .ok invocation) (hexplains : Explains invocation messages (.ok reply))
      (houtput : program.output = valueLines arguments reply.value)

end

section

variable {arguments : Arguments} {ids : RunIds} {late : Bool} {events : List ProgramEvent} {event : ProgramEvent} {program : Program}
  {messages : List Incoming}

theorem noReply_nil : NoReply arguments ids [] := fun _ _ _ => not_explains_reply_of_frames (List.forall_mem_nil _)

theorem noReply_of_live {call : OpenCall} (hfollows : call.Follows messages) (hlive : call.result? = none) : NoReply arguments ids messages := by
  intro _ reply _
  cases hfollows with
  | live hframes => exact not_explains_reply_of_frames hframes
  | ended hstage =>
    rw [OpenCall.result?, hstage] at hlive
    cases hlive

theorem Fails.mono {failure : CallFailure} (h : Fails arguments ids events messages failure) (event : ProgramEvent) :
    Fails arguments ids (events ++ [event]) messages failure := by
  cases h with
  | unconnected h => exact .unconnected (List.mem_append_left _ h)
  | tooLong h => exact .tooLong h
  | deadline h => exact .deadline (List.mem_append_left _ h)
  | broken h => exact .broken (List.mem_append_left _ h)
  | failed hinvocation h => exact .failed hinvocation h

theorem Program.start_of_refused {e : InvalidArgument} (h : arguments.validate = .error e) :
    start arguments ids = { phase := .exited 2, complaints := (refuse e).complaints } := by rw [start, h]

theorem Program.start_of_accepted (h : arguments.validate = .ok ()) :
    start arguments ids = { phase := .connecting, log := [startEvent arguments ids] } := by rw [start, h]

theorem Program.apply_of_exited {status : Nat} (h : program.phase = .exited status) (event : ProgramEvent) :
    program.apply arguments ids late event = program := by
  unfold apply
  rw [h]

theorem Program.message?_of_not_calling (h : program.phase ≠ .calling) (event : ProgramEvent) : program.message? event = none := by
  cases event with
  | step => exact if_neg h
  | _ => rfl

theorem Program.message?_of_ne_step (h : event ≠ .step) : program.message? event = none := by
  cases event with
  | step => exact absurd rfl h
  | _ => rfl

/-- A program that has exited stays as it is. -/
theorem Account.exited {status : Nat} (h : Account arguments ids events program messages) (hphase : program.phase = .exited status) :
    Account arguments ids (events ++ [event]) (program.apply arguments ids late event) (messages ++ (program.message? event).toList) := by
  rw [Program.apply_of_exited hphase, Program.message?_of_not_calling (by rw [hphase]; intro h; cases h), Option.toList_none, List.append_nil]
  cases h with
  | refused hrefused hprogram hmessages => exact .refused hrefused hprogram hmessages
  | connecting haccepted hprogram hmessages => exact .connecting haccepted hprogram hmessages
  | calling haccepted hcalling =>
    rw [hphase] at hcalling
    cases hcalling
  | failed haccepted hphase houtput hcomplaints hfails hnone => exact .failed haccepted hphase houtput hcomplaints (hfails.mono event) hnone
  | succeeded haccepted hphase hinvocation hexplains houtput => exact .succeeded haccepted hphase hinvocation hexplains houtput

/-- The call fails while nothing is printed. -/
theorem account_fail (haccepted : arguments.validate = .ok ()) (houtput : program.output = []) (hcomplaints : program.complaints = [])
    {failure : CallFailure} (hfails : Fails arguments ids events messages failure) (hnone : NoReply arguments ids messages) :
    Account arguments ids events (program.fail arguments ids late failure) messages := by
  refine .failed haccepted rfl houtput ?_ hfails hnone
  rw [Program.fail, hcomplaints]
  rfl

/-- Before it calls, a program can connect, or fail to. -/
theorem account_connecting (haccepted : arguments.validate = .ok ()) (event : ProgramEvent) :
    Account arguments ids (events ++ [event]) ((Program.start arguments ids).apply arguments ids late event) [] := by
  have hevent : event ∈ events ++ [event] := List.mem_append_right _ List.mem_cons_self
  have hsame : Account arguments ids (events ++ [event]) (Program.start arguments ids) [] := .connecting haccepted rfl rfl
  rw [Program.start_of_accepted haccepted] at hsame ⊢
  cases event with
  | refused reason => exact account_fail haccepted rfl rfl (.unconnected hevent) noReply_nil
  | deadline => exact account_fail haccepted rfl rfl (.deadline hevent) noReply_nil
  | connected order =>
    show Account arguments ids _ (Program.connect arguments ids late _ order) []
    unfold Program.connect
    cases hinvocation : arguments.invocation ids with
    | error e => exact account_fail haccepted rfl rfl (.tooLong hinvocation) noReply_nil
    | ok invocation =>
      refine .calling haccepted rfl hinvocation rfl rfl ?_ rfl rfl rfl
      exact .live (List.forall_mem_nil _) (congrArg _ invocation.kept_nil) (.opening rfl rfl)
  | _ => exact hsame

/-- What a call makes of its next message is what the program comes to. -/
theorem account_step (haccepted : arguments.validate = .ok ()) (hphase : program.phase = .calling) {invocation : Invocation} {call : OpenCall}
    (hinvocation : arguments.invocation ids = .ok invocation) (hcall : program.client.call = some call) (hsame : call.invocation = invocation)
    (hfollows : call.Follows messages) (houtput : program.output = []) (hcomplaints : program.complaints = []) :
    Account arguments ids events (program.step arguments ids late) (messages ++ (call.message? program.client.wire).toList) := by
  have hnext := hfollows.step program.client.wire
  have hinvocation' := (call.same_step program.client.wire).2.trans hsame
  have hclient : program.client.step =
      { program.client with wire := (call.step program.client.wire).2, call := some (call.step program.client.wire).1 } := by
    simp only [Client.step, hcall]
  have hresult : program.client.step.result? = (call.step program.client.wire).1.result? := by rw [hclient]; rfl
  unfold Program.step
  dsimp only
  rw [hresult]
  cases hreturned : (call.step program.client.wire).1.result? with
  | none => exact .calling haccepted hphase hinvocation (congrArg Client.call hclient) hinvocation' hnext hreturned houtput hcomplaints
  | some result =>
    have hexplains := hnext.explains hreturned
    rw [hinvocation'] at hexplains
    cases result with
    | ok reply =>
      refine .succeeded haccepted rfl hinvocation hexplains ?_
      dsimp only [Program.succeed]
      rw [houtput, List.nil_append]
    | error failure =>
      have hfails : Fails arguments ids events (messages ++ (call.message? program.client.wire).toList) (.failed failure) :=
        .failed hinvocation hexplains
      refine .failed haccepted rfl houtput ?_ hfails fun _ reply hother => ?_
      · dsimp only [Program.fail]
        rw [hcomplaints, List.nil_append]
      obtain rfl := Except.ok.inj (hinvocation.symm.trans hother)
      exact hexplains.not_reply

theorem Account.apply (h : Account arguments ids events program messages) (event : ProgramEvent) :
    Account arguments ids (events ++ [event]) (program.apply arguments ids late event) (messages ++ (program.message? event).toList) := by
  have hevent : event ∈ events ++ [event] := List.mem_append_right _ List.mem_cons_self
  cases h with
  | refused hrefused hprogram hmessages =>
    have hphase : program.phase = .exited 2 := by rw [hprogram, Program.start_of_refused hrefused]
    exact (Account.refused hrefused hprogram hmessages).exited hphase
  | failed haccepted hphase houtput hcomplaints hfails hnone => exact (Account.failed haccepted hphase houtput hcomplaints hfails hnone).exited hphase
  | succeeded haccepted hphase hinvocation hexplains houtput =>
    exact (Account.succeeded haccepted hphase hinvocation hexplains houtput).exited hphase
  | connecting haccepted hprogram hmessages =>
    have hphase : program.phase ≠ .calling := by
      rw [hprogram, Program.start_of_accepted haccepted]
      intro h
      cases h
    rw [Program.message?_of_not_calling hphase, hmessages, hprogram]
    exact account_connecting haccepted event
  | calling haccepted hphase hinvocation hcall hsame hfollows hlive houtput hcomplaints =>
    have hnone : NoReply arguments ids messages := noReply_of_live hfollows hlive
    unfold Program.apply
    rw [hphase]
    by_cases hstep : event = .step
    · subst hstep
      have hmessage : program.message? .step = _ := (if_pos hphase).trans (congrArg (Option.bind · _) hcall)
      rw [hmessage]
      exact account_step haccepted hphase hinvocation hcall hsame hfollows houtput hcomplaints
    · rw [Program.message?_of_ne_step hstep, Option.toList_none, List.append_nil]
      cases event with
      | step => exact absurd rfl hstep
      | deadline => exact account_fail haccepted houtput hcomplaints (.deadline hevent) hnone
      | broken reason => exact account_fail haccepted houtput hcomplaints (.broken hevent) hnone
      | _ => exact .calling haccepted hphase hinvocation hcall hsame hfollows hlive houtput hcomplaints

theorem account_start : Account arguments ids [] (Program.start arguments ids) [] := by
  cases haccepted : arguments.validate with
  | error e => exact .refused haccepted rfl rfl
  | ok accepted => exact .connecting haccepted rfl rfl

theorem account_history (arguments : Arguments) (ids : RunIds) (late : Bool) (events : List ProgramEvent) :
    Account arguments ids events (history arguments ids late events).1 (history arguments ids late events).2 := by
  induction events using List.reverseRecOn with
  | nil => exact account_start
  | append_singleton events event ih =>
    rw [history_append]
    exact ih.apply event

theorem history_fst (arguments : Arguments) (ids : RunIds) (late : Bool) (events : List ProgramEvent) :
    (history arguments ids late events).1 = events.foldl (Program.apply arguments ids late) (.start arguments ids) := by
  induction events using List.reverseRecOn with
  | nil => rfl
  | append_singleton events event ih =>
    rw [history_append, List.foldl_append, ← ih]
    rfl

theorem Program.exited_apply_deadline (program : Program) : ∃ status, (program.apply arguments ids late .deadline).phase = .exited status := by
  cases hphase : program.phase with
  | connecting =>
    refine ⟨1, ?_⟩
    unfold apply
    rw [hphase]
    rfl
  | calling =>
    refine ⟨1, ?_⟩
    unfold apply
    rw [hphase]
    rfl
  | exited status => exact ⟨status, by rw [apply_of_exited hphase, hphase]⟩

/-- The deadline is the end of the program at the latest. -/
theorem exited_of_deadline (h : .deadline ∈ events) : ∃ status, (history arguments ids late events).1.phase = .exited status := by
  rw [history_fst]
  induction events using List.reverseRecOn with
  | nil => cases h
  | append_singleton events event ih =>
    rw [List.foldl_append]
    rcases List.mem_append.mp h with hearlier | hlast
    · obtain ⟨status, hphase⟩ := ih hearlier
      exact ⟨status, by rw [List.foldl_cons, List.foldl_nil, Program.apply_of_exited hphase, hphase]⟩
    · rw [← List.mem_singleton.mp hlast]
      exact Program.exited_apply_deadline _

/-! ## A daemon's side that sends all at once -/

/-- The program with the result of its call. -/
def Program.finish (arguments : Arguments) (ids : RunIds) (late : Bool) (program : Program) : Except CallFailure Reply → Program
  | .ok reply => program.succeed arguments ids late reply
  | .error failure => program.fail arguments ids late failure

theorem foldl_apply_of_exited {status : Nat} (h : program.phase = .exited status) (events : List ProgramEvent) :
    events.foldl (Program.apply arguments ids late) program = program := by
  induction events with
  | nil => rfl
  | cons event events ih => rw [List.foldl_cons, Program.apply_of_exited h, ih]

theorem steps_of_returned {client : Client} {result : Except Failure Reply} (h : client.result? = some result) (count : Nat) :
    steps count client = client := by
  obtain ⟨call, hcall, hresult⟩ := Option.bind_eq_some_iff.mp h
  have hended : ∃ result, call.stage = .ended result := by
    unfold OpenCall.result? at hresult
    split at hresult
    · exact ⟨_, ‹_›⟩
    · cases hresult
  obtain ⟨result, hstage⟩ := hended
  have hstep : client.step = client := by
    simp only [Client.step, hcall, OpenCall.step, hstage]
    rw [← hcall]
  induction count with
  | zero => rfl
  | succ count ih => rw [steps, hstep, ih]

/-- As many steps as there are before the deadline, and the deadline. -/
theorem foldl_steps (program : Program) (hphase : program.phase = .calling) (hlive : program.client.result? = none) (patience : Nat) :
    (List.replicate patience ProgramEvent.step ++ [ProgramEvent.deadline]).foldl (Program.apply arguments ids late) program =
      { program with client := steps patience program.client }.finish arguments ids late
        (resultOf arguments (steps patience program.client).result?) := by
  induction patience generalizing program with
  | zero =>
    show program.apply arguments ids late .deadline = _
    unfold Program.apply
    rw [hphase, steps, hlive]
    rfl
  | succ patience ih =>
    have hstep : program.apply arguments ids late .step = program.step arguments ids late := by
      unfold Program.apply
      rw [hphase]
    rw [List.replicate_succ, List.cons_append, List.foldl_cons, hstep, steps, Program.step]
    dsimp only
    cases hreturned : program.client.step.result? with
    | none => exact ih _ hphase hreturned
    | some result =>
      rw [steps_of_returned hreturned, hreturned]
      cases result with
      | ok reply => exact foldl_apply_of_exited (show Program.phase _ = .exited 0 from rfl) _
      | error failure => exact foldl_apply_of_exited (show Program.phase _ = .exited 1 from rfl) _

theorem execution?_finish (program : Program) (houtput : program.output = []) (hcomplaints : program.complaints = []) (hlog : program.log = [startEvent arguments ids])
    (result : Except CallFailure Reply) :
    (program.finish arguments ids late result).execution? = some (conclude arguments ids result late program.sent) := by
  cases result with
  | ok reply => simp [Program.finish, Program.succeed, Program.execution?, conclude, houtput, hcomplaints, hlog, Program.sent]
  | error failure => simp [Program.finish, Program.fail, Program.execution?, conclude, houtput, hcomplaints, hlog, Program.sent]

/-- Running the program at once is one of its courses. -/
theorem execution?_history (arguments : Arguments) (ids : RunIds) (late : Bool) (side : DaemonSide) :
    (history arguments ids late side.events).1.execution? = some (execute arguments ids side late) := by
  rw [history_fst]
  unfold execute
  cases haccepted : arguments.validate with
  | error e =>
    rw [Program.start_of_refused haccepted, foldl_apply_of_exited (show Program.phase _ = .exited 2 from rfl)]
    rfl
  | ok accepted =>
    rw [Program.start_of_accepted haccepted]
    cases side with
    | unreachable reason => exact execution?_finish { phase := .connecting, log := [startEvent arguments ids] } rfl rfl rfl (.error _)
    | connected sent ended patience order =>
      rw [DaemonSide.events, List.append_assoc, List.cons_append, List.foldl_cons]
      show (Program.execution? (List.foldl _ (Program.connect arguments ids late _ order) _)) = _
      unfold Program.connect call
      cases hinvocation : arguments.invocation ids with
      | error e =>
        rw [foldl_apply_of_exited (show Program.phase _ = .exited 1 from rfl)]
        exact execution?_finish { phase := .connecting, connected := true, log := [startEvent arguments ids] } rfl rfl rfl (.error _)
      | ok invocation =>
        let client : Client := { wire := { inbox := sent, inputEnded := ended } }
        let ready : Program :=
          { phase := .calling, connected := true, client := client.begin invocation (Arguments.correlation ids) order, log := [startEvent arguments ids] }
        have hready : (ProgramEvent.deliver sent :: if ended then [.endInput] else []).foldl (Program.apply arguments ids late)
            { ready with client := ({} : Client).begin invocation (Arguments.correlation ids) order } = ready := by
          cases ended <;> rfl
        dsimp only
        rw [List.foldl_append]
        refine (congrArg (fun program => Program.execution? (List.foldl _ program _)) hready).trans ?_
        rw [foldl_steps ready rfl rfl]
        exact execution?_finish _ rfl rfl rfl _

/-! ## All or nothing -/

theorem Account.output_of_open (h : Account arguments ids events program messages) (hopen : ∀ status, program.phase ≠ .exited status) :
    program.output = [] := by
  cases h with
  | refused hrefused hprogram => exact absurd (by rw [hprogram, Program.start_of_refused hrefused]) (hopen 2)
  | connecting haccepted hprogram => rw [hprogram, Program.start_of_accepted haccepted]
  | calling _ _ _ _ _ _ _ houtput => exact houtput
  | failed _ hphase => exact absurd hphase (hopen 1)
  | succeeded _ hphase => exact absurd hphase (hopen 0)

/-- What a program that has exited has gone through. -/
theorem Account.exited_cases {status : Nat} (h : Account arguments ids events program messages) (hphase : program.phase = .exited status) :
    (status = 2 ∧ (∃ e, arguments.validate = .error e) ∧ program = .start arguments ids ∧ messages = []) ∨
    (status = 1 ∧ arguments.validate = .ok () ∧ program.output = [] ∧ NoReply arguments ids messages ∧
      ∃ failure, Fails arguments ids events messages failure ∧ program.complaints = [s!"Call failed: {failure.fullMessage}"]) ∨
    (status = 0 ∧ arguments.validate = .ok () ∧ Prints arguments messages program.output ∧
      ∃ invocation reply, arguments.invocation ids = .ok invocation ∧ Explains invocation messages (.ok reply)) := by
  cases h with
  | refused hrefused hprogram hmessages =>
    rw [hprogram, Program.start_of_refused hrefused] at hphase
    exact .inl ⟨(Phase.exited.inj hphase).symm, ⟨_, hrefused⟩, hprogram, hmessages⟩
  | connecting haccepted hprogram =>
    rw [hprogram, Program.start_of_accepted haccepted] at hphase
    cases hphase
  | calling _ hcalling =>
    rw [hcalling] at hphase
    cases hphase
  | failed haccepted hfailed houtput hcomplaints hfails hnone =>
    rw [hfailed] at hphase
    exact .inr (.inl ⟨(Phase.exited.inj hphase).symm, haccepted, houtput, hnone, _, hfails, hcomplaints⟩)
  | succeeded haccepted hsucceeded hinvocation hexplains houtput =>
    rw [hsucceeded] at hphase
    exact .inr (.inr ⟨(Phase.exited.inj hphase).symm, haccepted, houtput ▸ prints_valueLines hinvocation hexplains, _, _, hinvocation, hexplains⟩)

theorem Account.refused_iff (h : Account arguments ids events program messages) :
    program.phase = .exited 2 ↔ ∃ e, arguments.validate = .error e := by
  constructor
  · intro hphase
    rcases h.exited_cases hphase with ⟨-, hrefused, -⟩ | ⟨hstatus, -⟩ | ⟨hstatus, -⟩
    · exact hrefused
    · cases hstatus
    · cases hstatus
  · rintro ⟨e, hrefused⟩
    cases h with
    | refused _ hprogram => rw [hprogram, Program.start_of_refused hrefused]
    | connecting haccepted | calling haccepted | failed haccepted | succeeded haccepted =>
      rw [haccepted] at hrefused
      cases hrefused

theorem Account.succeeded_iff (h : Account arguments ids events program messages) :
    program.phase = .exited 0 ↔ arguments.validate = .ok () ∧
      ∃ invocation reply, arguments.invocation ids = .ok invocation ∧ Explains invocation messages (.ok reply) := by
  constructor
  · intro hphase
    rcases h.exited_cases hphase with ⟨hstatus, -⟩ | ⟨hstatus, -⟩ | ⟨-, haccepted, -, hreply⟩
    · cases hstatus
    · cases hstatus
    · exact ⟨haccepted, hreply⟩
  · rintro ⟨haccepted, invocation, reply, hinvocation, hexplains⟩
    cases h with
    | refused hrefused =>
      rw [haccepted] at hrefused
      cases hrefused
    | connecting _ _ hmessages => exact absurd (hmessages ▸ hexplains) (noReply_nil _ _ hinvocation)
    | calling _ _ _ _ _ hfollows hlive => exact absurd hexplains (noReply_of_live hfollows hlive _ _ hinvocation)
    | failed _ _ _ _ _ hnone => exact absurd hexplains (hnone _ _ hinvocation)
    | succeeded _ hphase => exact hphase

end

/-- Whatever the daemon's side does and whenever the deadline passes, the program prints nothing before its call returns, and it exits with one of three statuses, at the deadline at the latest. The status is 2 just where the arguments are refused, and then there is no connection, and nothing is sent or printed. With status 1 the call has failed, and nothing is printed, whatever items have come. The status is 0 just where the messages of the call make a reply, whatever that says, and then one entry is printed for it, or one for each of its items, numbered in the order in which they came. A daemon that sends all at once is one of these. -/
theorem program_prints_all_or_nothing (arguments : Arguments) (ids : RunIds) (late : Bool) :
    (∀ events,
      let program := (history arguments ids late events).1
      let messages := (history arguments ids late events).2
      (∀ status, program.phase = .exited status → status = 0 ∨ status = 1 ∨ status = 2) ∧
      ((∀ status, program.phase ≠ .exited status) → program.output = []) ∧
      (.deadline ∈ events → ∃ status, program.phase = .exited status) ∧
      (program.phase = .exited 2 ↔ ∃ e, arguments.validate = .error e) ∧
      (program.phase = .exited 2 → program.connected = false ∧ program.sent = [] ∧ program.output = []) ∧
      (program.phase = .exited 1 → program.output = [] ∧
        ∃ failure, Fails arguments ids events messages failure ∧ program.complaints = [s!"Call failed: {failure.fullMessage}"]) ∧
      (program.phase = .exited 0 ↔ arguments.validate = .ok () ∧
        ∃ invocation reply, arguments.invocation ids = .ok invocation ∧ Explains invocation messages (.ok reply)) ∧
      (program.phase = .exited 0 → Prints arguments messages program.output)) ∧
    ∀ side, (history arguments ids late side.events).1.execution? = some (execute arguments ids side late) := by
  refine ⟨fun events => ?_, execution?_history arguments ids late⟩
  intro program messages
  have haccount : Account arguments ids events program messages := account_history arguments ids late events
  refine ⟨?_, haccount.output_of_open, exited_of_deadline, haccount.refused_iff, ?_, ?_, haccount.succeeded_iff, ?_⟩
  · intro status hphase
    rcases haccount.exited_cases hphase with ⟨hstatus, -⟩ | ⟨hstatus, -⟩ | ⟨hstatus, -⟩
    · exact .inr (.inr hstatus)
    · exact .inr (.inl hstatus)
    · exact .inl hstatus
  · intro hphase
    rcases haccount.exited_cases hphase with ⟨-, ⟨e, hrefused⟩, hstart, -⟩ | ⟨hstatus, -⟩ | ⟨hstatus, -⟩
    · rw [hstart, Program.start_of_refused hrefused]
      exact ⟨rfl, rfl, rfl⟩
    · cases hstatus
    · cases hstatus
  · intro hphase
    rcases haccount.exited_cases hphase with ⟨hstatus, -⟩ | ⟨-, -, houtput, -, hfailure⟩ | ⟨hstatus, -⟩
    · cases hstatus
    · exact ⟨houtput, hfailure⟩
    · cases hstatus
  · intro hphase
    rcases haccount.exited_cases hphase with ⟨hstatus, -⟩ | ⟨hstatus, -⟩ | ⟨-, -, hprints, -⟩
    · cases hstatus
    · cases hstatus
    · exact hprints

/-- The deadline passes after two of three items. A unary call gets an item that failed. -/
theorem program_prints_all_or_nothing_late :
    let ids : RunIds := ⟨"request", "trace", fun _ => "item"⟩
    let item := Utf8.encode "\x7b\"type\":\"item\",\"data\":\x7b\x7d\x7d\n".toList
    let response := Utf8.encode "\x7b\"jsonrpc\":\"2.0\",\"result\":\x7b\"error_message\":\"injected\"\x7d\x7d\n".toList
    let late := history { mode := .bidi } ids true [.connected .listed, .step, .deliver (item ++ item), .step, .step, .step, .step, .deadline]
    let failed := history { mode := .unary } ids false [.connected .reversed, .step, .deliver response, .step]
    late.2.length = 2 ∧ late.1.phase = .exited 1 ∧ late.1.output = [] ∧ failed.1.phase = .exited 0 ∧
      failed.1.output = ["do-work unary: ok=false error=injected"] ∧ Prints { mode := .unary } failed.2 failed.1.output := by
  intro ids item response late failed
  have hlate : late.2.length = 2 ∧ late.1.phase = .exited 1 := by decide +kernel
  have hfailed : failed.1.phase = .exited 0 ∧ failed.1.output = ["do-work unary: ok=false error=injected"] := by decide +kernel
  obtain ⟨hcourses, -⟩ := program_prints_all_or_nothing { mode := .bidi } ids true
  obtain ⟨-, -, -, -, -, hnothing, -⟩ := hcourses [.connected .listed, .step, .deliver (item ++ item), .step, .step, .step, .step, .deadline]
  obtain ⟨hcourses', -⟩ := program_prints_all_or_nothing { mode := .unary } ids false
  obtain ⟨-, -, -, -, -, -, -, hprints⟩ := hcourses' [.connected .reversed, .step, .deliver response, .step]
  exact ⟨hlate.1, hlate.2, (hnothing hlate.2).1, hfailed.1, hfailed.2, hprints hfailed.1⟩

end LoadGenerator.CommandLine
