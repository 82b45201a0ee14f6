import LoadGenerator.Proofs.Client.Course

/-!
# How far a client's call has come

Whatever the daemon answers, a call that has not returned has written the front of the lines that its invocation asks for, and one that waits for an answer to each request is at most one request ahead of the items that it has read. An item leaves the call open, and a response ends it.
-/

namespace LoadGenerator.Client

open Message Connection

/-! ## Stages -/

/-- How many lines more than it has read a call with an answer to each request has written at most. -/
def Stage.turns : Stage → Nat
  | .opening => 0
  | .sending _ => 1
  | _ => 2

/-- The call waits for the daemon. -/
def Stage.IsReading : Stage → Prop
  | .awaiting _ | .collecting | .finishing => True
  | _ => False

namespace OpenCall

/-- All lines that the invocation asks for. -/
def plan (call : OpenCall) : List (List Char) := call.request.line :: call.invocation.streamLines call.id

/-- Those of them that are still to be written. -/
def unsent (call : OpenCall) : List (List Char) :=
  match call.stage with
  | .opening => call.plan
  | .sending left | .awaiting left => requestLines (some call.id) left
  | _ => []

/-- The call has not returned; it has written these lines and read so many. -/
structure Underway (call : OpenCall) (sent : List (List Char)) (read : Nat) : Prop where
  live : call.result? = none
  plan : sent ++ call.unsent = call.plan
  turns : ∀ requests, call.invocation = .exchange requests → sent.length ≤ read + call.stage.turns

section

variable {call : OpenCall} {sent : List (List Char)} {read : Nat}

theorem underway_start (id : RequestId) (invocation : Invocation) (correlation : Correlation) (order : MapOrder) :
    Underway { id, invocation, correlation, order } [] 0 := ⟨rfl, rfl, fun _ _ => Nat.zero_le _⟩

theorem isFullLine_plan (call : OpenCall) : ∀ line ∈ call.plan, IsFullLine line := by
  refine List.forall_mem_cons.mpr ⟨isFullLine_lineOf Request.record call.request, ?_⟩
  have hlines (requests : List WorkRequest) : ∀ line ∈ requestLines (some call.id) requests, IsFullLine line := by
    intro line hline
    rw [requestLines, streamLines, List.mem_append, List.mem_map, List.mem_singleton] at hline
    rcases hline with ⟨item, -, rfl⟩ | rfl <;> exact isFullLine_frame _
  cases call.invocation with
  | tally requests => exact hlines requests
  | exchange requests => exact hlines requests
  | _ => exact List.forall_mem_nil _

theorem Underway.isFullLine (h : call.Underway sent read) : ∀ line ∈ sent, IsFullLine line := fun line hline =>
  call.isFullLine_plan line (h.plan ▸ List.mem_append_left _ hline)

/-- A call that has written all of its lines reads. -/
theorem Underway.isReading (h : call.Underway sent read) (hunsent : call.unsent = []) :
    call.stage.IsReading ∧ ∀ left, call.stage ≠ .awaiting left := by
  have hlive := h.live
  unfold unsent at hunsent
  cases hstage : call.stage with
  | collecting => exact ⟨trivial, nofun⟩
  | finishing => exact ⟨trivial, nofun⟩
  | opening =>
    rw [hstage] at hunsent
    cases hunsent
  | sending left | awaiting left =>
    rw [hstage] at hunsent
    have hlength := congrArg List.length hunsent
    rw [length_requestLines] at hlength
    cases hlength
  | ended result =>
    rw [result?, hstage] at hlive
    cases hlive

/-! ## Writing -/

theorem Underway.afterRequest (h : call.Underway sent read) (hstage : call.stage = .opening) (bytesOut : Nat) :
    Underway { call with stage := afterRequest call.invocation, bytesOut } (sent ++ [call.request.line]) read := by
  have hplan := h.plan
  rw [unsent, hstage] at hplan
  obtain rfl : sent = [] := List.append_left_eq_self.mp hplan
  obtain ⟨id, invocation, correlation, order, stage, items, bytesOut', bytesIn⟩ := call
  cases invocation with
  | exchange requests => exact ⟨rfl, rfl, fun _ _ => Nat.le_add_left 1 read⟩
  | _ => exact ⟨rfl, rfl, nofun⟩

theorem Underway.afterItem {left : List WorkRequest} {request : WorkRequest} (h : call.Underway sent read)
    (hstage : call.stage = .sending (request :: left)) (bytesOut : Nat) :
    Underway { call with stage := afterItem call.invocation left, bytesOut } (sent ++ [call.itemLine request]) read := by
  have hplan := h.plan
  have hturns := h.turns
  simp only [unsent, hstage, requestLines_cons] at hplan
  rw [hstage] at hturns
  have hnext : sent ++ [call.itemLine request] ++ requestLines (some call.id) left = call.plan := by
    rw [List.append_assoc]
    exact hplan
  obtain ⟨id, invocation, correlation, order, stage, items, bytesOut', bytesIn⟩ := call
  cases invocation with
  | exchange requests =>
    have hcount := hturns requests rfl
    refine ⟨rfl, hnext, fun _ _ => ?_⟩
    rw [List.length_append]
    exact Nat.succ_le_succ hcount
  | _ => exact ⟨rfl, hnext, nofun⟩

theorem Underway.afterStream (h : call.Underway sent read) (hstage : call.stage = .sending []) (bytesOut : Nat) :
    Underway { call with stage := .finishing, bytesOut } (sent ++ [(Frame.finish (some call.id)).line]) read := by
  have hplan := h.plan
  have hturns := h.turns
  simp only [unsent, hstage, requestLines_nil] at hplan
  rw [hstage] at hturns
  refine ⟨rfl, (List.append_nil _).trans hplan, fun requests hrequests => ?_⟩
  have hcount := hturns requests hrequests
  rw [List.length_append]
  exact Nat.succ_le_succ hcount

theorem step_of_isReading (hreading : call.stage.IsReading) (wire : Wire) : call.step wire = call.read wire := by
  cases hstage : call.stage with
  | awaiting left | collecting | finishing => simp only [OpenCall.step, hstage]
  | _ =>
    rw [hstage] at hreading
    cases hreading

/-- A call that has not returned reads, or writes the next of its lines. -/
theorem Underway.step_cases (h : call.Underway sent read) (wire : Wire) :
    (call.stage.IsReading ∧ call.step wire = call.read wire) ∨
      ∃ line next, call.step wire = call.write wire line next ∧
        ∀ bytesOut, Underway { call with stage := next, bytesOut } (sent ++ [line]) read := by
  have hlive := h.live
  cases hstage : call.stage with
  | awaiting left | collecting | finishing => exact .inl ⟨trivial, step_of_isReading (by rw [hstage]; trivial) wire⟩
  | opening => exact .inr ⟨_, _, by simp only [OpenCall.step, hstage], h.afterRequest hstage⟩
  | sending left =>
    cases left with
    | nil => exact .inr ⟨_, _, by simp only [OpenCall.step, hstage], h.afterStream hstage⟩
    | cons request left => exact .inr ⟨_, _, by simp only [OpenCall.step, hstage], h.afterItem hstage⟩
  | ended result =>
    rw [result?, hstage] at hlive
    cases hlive

/-! ## Reading -/

/-- Nothing happens while no line has arrived. -/
theorem read_of_nil {wire : Wire} {missing : List UInt8} (hopen : wire.IsOpen missing []) : call.read wire = (call, wire) := by
  rw [OpenCall.read, Wire.Expects.nextLine_of_nil hopen.expects hopen.inputOpen]
  rfl

/-- The next line is taken, unless some of its bytes have not arrived. -/
theorem read_of_line {wire : Wire} {missing : List UInt8} {line rest : List Char} (hopen : wire.IsOpen missing (line ++ rest))
    (hline : IsFullLine line) :
    call.read wire = (call, wire) ∨
      ∃ inbox, call.read wire = (({ call with bytesIn := call.bytesIn + Utf8.size line } : OpenCall).takeLine line, { wire with inbox }) ∧
        ({ wire with inbox } : Wire).IsOpen missing rest := by
  rcases Wire.Expects.nextLine_of_line hopen.expects hopen.inputOpen hline with ⟨hnext, -⟩ | ⟨inbox, hnext, hexpects, -⟩
  · rw [OpenCall.read, hnext]
    exact .inl rfl
  · rw [OpenCall.read, hnext]
    exact .inr ⟨inbox, rfl, hexpects, hopen.inputOpen, hopen.room⟩

/-- An item is kept or dropped, and the call goes on. -/
theorem takeLine_itemLine (call : OpenCall) (hreading : call.stage.IsReading) (id : Option RequestId) (item : WorkResponse) :
    ∃ items, call.takeLine (Connection.itemLine id item) = { call with stage := afterTaking call.stage, items } := by
  cases hstage : call.stage with
  | awaiting left => exact ⟨_, by rw [takeLine_item call (.inl ⟨left, hstage⟩), hstage]⟩
  | collecting => exact ⟨_, by rw [takeLine_item call (.inr hstage), hstage]⟩
  | finishing =>
    refine ⟨call.items, ?_⟩
    rw [takeLine, Connection.itemLine, incomingOf_item]
    dsimp only [Frame.item]
    simp only [takeItem, hstage, afterTaking]
    rw [← hstage]
  | _ =>
    rw [hstage] at hreading
    cases hreading

theorem Underway.afterTaking (h : call.Underway sent read) (hreading : call.stage.IsReading) (items : List WorkResponse) (bytesIn : Nat) :
    Underway { call with stage := afterTaking call.stage, items, bytesIn } sent (read + 1) := by
  have hplan := h.plan
  have hturns := h.turns
  cases hstage : call.stage with
  | awaiting left =>
    rw [unsent, hstage] at hplan
    rw [hstage] at hturns
    refine ⟨rfl, hplan, fun requests hrequests => ?_⟩
    have hcount := hturns requests hrequests
    simp only [Stage.turns, OpenCall.afterTaking] at hcount ⊢
    omega
  | collecting | finishing =>
    rw [unsent, hstage] at hplan
    rw [hstage] at hturns
    refine ⟨rfl, hplan, fun requests hrequests => ?_⟩
    exact (hturns requests hrequests).trans (Nat.add_le_add_right (Nat.le_succ read) _)
  | _ =>
    rw [hstage] at hreading
    cases hreading

end

end OpenCall

/-! ## Responses -/

/-- The line of a response ends any call. Only where a call was logged can it be with a reply, which has the bytes that the client's call has counted. -/
structure EndsCalls (line : List Char) (logged : Prop) : Prop where
  full : IsFullLine line
  ends : ∀ call : OpenCall, ∃ result, call.takeLine line = { call with stage := .ended result } ∧
    ∀ reply, result = .ok reply → logged ∧ reply.bytesOut = call.bytesOut ∧ reply.bytesIn = call.bytesIn

theorem OpenCall.takeLine_response (call : OpenCall) {line : List Char} {response : Response} (hline : incomingOf line = .ok (.response response)) :
    ∃ result, call.takeLine line = { call with stage := .ended result } ∧
      ∀ reply, result = .ok reply → response.error = none ∧ reply.bytesOut = call.bytesOut ∧ reply.bytesIn = call.bytesIn := by
  rw [takeLine, hline]
  dsimp only [takeResponse]
  cases response.error with
  | some error => exact ⟨_, rfl, fun _ hreply => by cases hreply⟩
  | none =>
    cases call.invocation.valueOf call.items (response.result.getD .null) with
    | error e => exact ⟨_, rfl, fun _ hreply => by cases hreply⟩
    | ok value =>
      refine ⟨_, rfl, fun reply hreply => ?_⟩
      obtain rfl := Except.ok.inj hreply
      exact ⟨rfl, rfl, rfl⟩

theorem endsCalls_response (daemon : Connection.OpenCall) (outcome : Except Service.Status Service.Reply) :
    EndsCalls (daemon.response outcome).line True where
  full := isFullLine_lineOf Response.record _
  ends call := by
    obtain ⟨result, htake, hreply⟩ := call.takeLine_response (incomingOf_response daemon outcome)
    exact ⟨result, htake, fun reply hresult => ⟨trivial, (hreply reply hresult).2⟩⟩

theorem endsCalls_plainFailure (id : Option RequestId) (code : Int32) (message : String) :
    EndsCalls (Response.plainFailure id code message).line False where
  full := isFullLine_lineOf Response.record _
  ends call := by
    have hfits : (Response.plainFailure id code message).Fits 125 := by
      refine ⟨nofun, fun error herror data hdata => ?_⟩
      obtain rfl := Option.some.inj herror
      cases hdata
    obtain ⟨result, htake, hreply⟩ := call.takeLine_response (incomingOf_fits hfits)
    refine ⟨result, htake, fun reply hresult => ?_⟩
    cases (hreply reply hresult).1

end LoadGenerator.Client
