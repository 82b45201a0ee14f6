import LoadGenerator.Proofs.Client.Incoming
import LoadGenerator.Proofs.Connection.Course

/-!
# The course of a call on the client's side

Given what the daemon answers, what a client does until its call returns is settled as well: which lines it writes, which lines it takes, and what it returns. Every step goes along this course, or waits for a line that has not arrived.
-/

namespace LoadGenerator.Client

open Message Connection

/-! ## Answers -/

/-- What the daemon answers to a call: the responses in its items, and the line of its own response. -/
structure Answer where
  items : List WorkResponse
  last : List Char

namespace Answer

/-- The lines of some of the items, and the last line. -/
def lines (answer : Answer) (id : RequestId) (items : List WorkResponse) : List (List Char) := items.map (itemLine (some id)) ++ [answer.last]

theorem length_lines (answer : Answer) (id : RequestId) (items : List WorkResponse) : (answer.lines id items).length = items.length + 1 := by
  rw [lines, List.length_append, List.length_map, List.length_singleton]

/-- The answer has as many items as the invocation allows. -/
def Counts (answer : Answer) : Invocation → Prop
  | .exchange requests => answer.items.length = requests.length
  | .repeated _ => True
  | _ => answer.items = []

/-- The answer brings a call of the invocation to an end, with a result that is allowed. -/
structure Ends (answer : Answer) (invocation : Invocation) (allowed : Except Failure Reply → Prop) : Prop where
  counts : answer.Counts invocation
  full : IsFullLine answer.last
  ends : ∀ call : OpenCall, call.invocation = invocation → call.items = answer.items →
    ∃ result, call.takeLine answer.last = { call with stage := .ended result } ∧ allowed result

end Answer

/-! ## Courses -/

namespace Invocation

/-- The requests in the stream of a call. -/
def streamed : Invocation → List WorkRequest
  | tally requests | exchange requests => requests
  | _ => []

/-- The lines of the stream. -/
def streamLines (id : RequestId) : Invocation → List (List Char)
  | tally requests | exchange requests => requestLines (some id) requests
  | _ => []

end Invocation

namespace OpenCall

/-- The lines that a call is still to write and to take. -/
inductive Course (answer : Answer) (allowed : Except Failure Reply → Prop) (call : OpenCall) : List (List Char) → List (List Char) → Prop where
  | opening (hstage : call.stage = .opening) (hitems : call.items = [])
      (hrates : ∀ request ∈ call.invocation.streamed, HasFiniteRate request.config) :
      Course answer allowed call (call.request.line :: call.invocation.streamLines call.id) (answer.lines call.id answer.items)
  | sending {left : List WorkRequest} {items : List WorkResponse} (hstage : call.stage = .sending left) (hitems : answer.items = call.items ++ items)
      (hcounts : (∃ requests, call.invocation = .tally requests) ∧ items = [] ∨
        (∃ requests, call.invocation = .exchange requests) ∧ items.length = left.length)
      (hrates : ∀ request ∈ left, HasFiniteRate request.config) :
      Course answer allowed call (requestLines (some call.id) left) (answer.lines call.id items)
  | awaiting {left : List WorkRequest} {items : List WorkResponse} (hstage : call.stage = .awaiting left) (hitems : answer.items = call.items ++ items)
      (hinvocation : ∃ requests, call.invocation = .exchange requests) (hcounts : items.length = left.length + 1)
      (hrates : ∀ request ∈ left, HasFiniteRate request.config) :
      Course answer allowed call (requestLines (some call.id) left) (answer.lines call.id items)
  | collecting {items : List WorkResponse} (hstage : call.stage = .collecting) (hitems : answer.items = call.items ++ items) :
      Course answer allowed call [] (answer.lines call.id items)
  | finishing (hstage : call.stage = .finishing) (hitems : answer.items = call.items) :
      Course answer allowed call [] [answer.last]
  | ended {result : Except Failure Reply} (hstage : call.stage = .ended result) (hallowed : allowed result) : Course answer allowed call [] []

/-- A step that goes along the course: lines that had been sent are taken, lines are written, and fewer are left. The daemon is still to write the lines ahead. -/
def GoesOn (answer : Answer) (allowed : Except Failure Reply → Prop) (call : OpenCall) (wire : Wire) (missing : List UInt8)
    (pending ahead unsent : List (List Char)) (result : OpenCall × Wire) : Prop :=
  ∃ taken pending' written unsent', pending = taken ++ pending' ∧ unsent = written ++ unsent' ∧
    result.1.Course answer allowed unsent' (pending' ++ ahead) ∧ result.2.IsOpen missing pending'.flatten ∧
    result.2.outbox = wire.outbox ++ Utf8.encode written.flatten ∧
    result.1.invocation = call.invocation ∧
    unsent'.length + (pending' ++ ahead).length < unsent.length + (pending ++ ahead).length

/-! ## Steps -/

section

variable {answer : Answer} {allowed : Except Failure Reply → Prop} {call : OpenCall} {wire : Wire} {missing : List UInt8}
  {pending ahead : List (List Char)}

theorem write_of_room (hroom : wire.room = none) (line : List Char) (next : Stage) :
    call.write wire line next =
      ({ call with stage := next, bytesOut := call.bytesOut + Utf8.size line }, { wire with outbox := wire.outbox ++ Utf8.encode line }) := by
  rw [write, Connection.write_of_room hroom]

/-- Writing a line goes along the course where the lines after it are those of the next stage. -/
theorem goesOn_write (hopen : wire.IsOpen missing pending.flatten) {line : List Char} {next : Stage} {unsent : List (List Char)}
    (hstep : call.step wire = call.write wire line next)
    (hnext : ({ call with stage := next, bytesOut := call.bytesOut + Utf8.size line } : OpenCall).Course answer allowed unsent (pending ++ ahead)) :
    GoesOn answer allowed call wire missing pending ahead (line :: unsent) (call.step wire) := by
  rw [hstep, write_of_room hopen.room]
  refine ⟨[], pending, [line], unsent, rfl, rfl, hnext, hopen.same rfl rfl rfl, by simp, rfl, ?_⟩
  rw [List.length_cons]
  omega

/-- So does taking a line. Until the line has arrived nothing changes, and the call waits for more lines than it has to write. -/
theorem goesOn_read (hopen : wire.IsOpen missing pending.flatten) (hstep : call.step wire = call.read wire) {line : List Char}
    {unseen unsent : List (List Char)} (hneeds : pending ++ ahead = line :: unseen) (hline : IsFullLine line)
    (hnext : ∀ bytesIn, (({ call with bytesIn } : OpenCall).takeLine line).Course answer allowed unsent unseen ∧
      (({ call with bytesIn } : OpenCall).takeLine line).invocation = call.invocation)
    (hlonger : unsent.length ≤ unseen.length) (hunsent : ∀ other ∈ unsent, ¬ ∃ request, Opens other request) :
    (call.step wire = (call, wire) ∧
        (missing = [] → pending = [] ∧ unsent.length < ahead.length ∧ ∀ other ∈ unsent, ¬ ∃ request, Opens other request)) ∨
      GoesOn answer allowed call wire missing pending ahead unsent (call.step wire) := by
  rw [hstep]
  cases pending with
  | nil =>
    obtain rfl : ahead = line :: unseen := hneeds
    refine .inl ⟨?_, fun _ => ⟨rfl, Nat.lt_succ_of_le hlonger, hunsent⟩⟩
    rw [read, Wire.Expects.nextLine_of_nil hopen.expects hopen.inputOpen]
    rfl
  | cons first pending =>
    obtain ⟨rfl, hrest⟩ := List.cons.inj hneeds
    rcases Wire.Expects.nextLine_of_line hopen.expects hopen.inputOpen hline with ⟨hread, hmissing⟩ | ⟨inbox, hread, hexpects, -⟩
    · refine .inl ⟨?_, fun h => absurd h hmissing⟩
      rw [read, hread]
      rfl
    · right
      rw [read, hread]
      obtain ⟨hcourse, hinvocation⟩ := hnext (call.bytesIn + Utf8.size first)
      rw [← hrest] at hcourse
      refine ⟨[first], pending, [], unsent, rfl, rfl, hcourse, ⟨hexpects, hopen.inputOpen, hopen.room⟩, by simp, hinvocation, ?_⟩
      simp only [List.cons_append, List.length_cons]
      omega

theorem takeLine_item (call : OpenCall) (hstage : (∃ left, call.stage = .awaiting left) ∨ call.stage = .collecting) (id : Option RequestId) (item : WorkResponse) :
    call.takeLine (Connection.itemLine id item) = { call with stage := afterTaking call.stage, items := call.items ++ [item] } := by
  rw [takeLine, Connection.itemLine, incomingOf_item]
  dsimp only [Frame.item]
  rcases hstage with ⟨left, hstage⟩ | hstage
  all_goals
    simp only [takeItem, hstage, WorkResponse.ofJson_toJson]

theorem course_afterRequest (hcounts : answer.Counts call.invocation) (hitems : call.items = [])
    (hrates : ∀ request ∈ call.invocation.streamed, HasFiniteRate request.config) (bytesOut : Nat) :
    ({ call with stage := afterRequest call.invocation, bytesOut } : OpenCall).Course answer allowed (call.invocation.streamLines call.id)
      (answer.lines call.id answer.items) := by
  have hall : answer.items = call.items ++ answer.items := by rw [hitems, List.nil_append]
  have hnone (h : answer.items = []) : answer.items = call.items := h.trans hitems.symm
  cases hinvocation : call.invocation with
  | tally requests =>
    rw [hinvocation] at hcounts hrates
    exact .sending rfl hall (.inl ⟨⟨requests, rfl⟩, hcounts⟩) hrates
  | exchange requests =>
    rw [hinvocation] at hcounts hrates
    exact .sending rfl hall (.inr ⟨⟨requests, rfl⟩, hcounts⟩) hrates
  | repeated request => exact .collecting rfl hall
  | _ =>
    rw [hinvocation] at hcounts
    rw [show answer.items = [] from hcounts]
    exact .finishing rfl (hnone hcounts)

theorem course_afterItem {left : List WorkRequest} {items : List WorkResponse} (hitems : answer.items = call.items ++ items)
    (hcounts : (∃ requests, call.invocation = .tally requests) ∧ items = [] ∨
      (∃ requests, call.invocation = .exchange requests) ∧ items.length = left.length + 1)
    (hrates : ∀ request ∈ left, HasFiniteRate request.config) (bytesOut : Nat) :
    ({ call with stage := afterItem call.invocation left, bytesOut } : OpenCall).Course answer allowed (requestLines (some call.id) left)
      (answer.lines call.id items) := by
  rcases hcounts with ⟨⟨requests, htally⟩, hnone⟩ | ⟨⟨requests, hexchange⟩, hcount⟩
  · rw [htally]
    exact .sending rfl hitems (.inl ⟨⟨requests, rfl⟩, hnone⟩) hrates
  · rw [hexchange]
    exact .awaiting rfl hitems ⟨requests, rfl⟩ hcount hrates

theorem course_takeLast (hends : answer.Ends call.invocation allowed) (hitems : answer.items = call.items) (bytesIn : Nat) :
    (({ call with bytesIn } : OpenCall).takeLine answer.last).Course answer allowed [] [] ∧
      (({ call with bytesIn } : OpenCall).takeLine answer.last).invocation = call.invocation := by
  obtain ⟨result, htake, hallowed⟩ := hends.ends { call with bytesIn } rfl hitems.symm
  rw [htake]
  exact ⟨.ended rfl hallowed, rfl⟩

theorem not_opens_requestLines (id : Option RequestId) {left : List WorkRequest} (hrates : ∀ request ∈ left, HasFiniteRate request.config) :
    ∀ line ∈ requestLines id left, ¬ ∃ request, Opens line request := by
  rintro line hline ⟨request, hopens⟩
  have hwritable : ∀ item ∈ left.map WorkRequest.codec.toJson, item.IsWritable :=
    List.forall_mem_map.mpr fun request hrequest => WorkRequest.isWritable_toJson (hrates request hrequest)
  obtain ⟨e, hparse⟩ := (isLeftOver_streamLines id hwritable line hline).unreadable
  rw [hopens.parsed] at hparse
  cases hparse

theorem goesOn_sending (hopen : wire.IsOpen missing pending.flatten) {left : List WorkRequest} {items : List WorkResponse}
    (hstage : call.stage = .sending left) (hitems : answer.items = call.items ++ items)
    (hcounts : (∃ requests, call.invocation = .tally requests) ∧ items = [] ∨
      (∃ requests, call.invocation = .exchange requests) ∧ items.length = left.length)
    (hrates : ∀ request ∈ left, HasFiniteRate request.config) (hneeds : pending ++ ahead = answer.lines call.id items) :
    GoesOn answer allowed call wire missing pending ahead (requestLines (some call.id) left) (call.step wire) := by
  cases left with
  | nil =>
    have hnone : items = [] := by
      rcases hcounts with ⟨-, hnone⟩ | ⟨-, hcount⟩
      · exact hnone
      · exact List.length_eq_zero_iff.mp hcount
    rw [hnone, List.append_nil] at hitems
    have hstep : call.step wire = call.write wire (Frame.finish (some call.id)).line .finishing := by simp only [OpenCall.step, hstage]
    refine goesOn_write hopen hstep ?_
    rw [hneeds, hnone]
    exact .finishing rfl hitems
  | cons request left =>
    have hstep : call.step wire = call.write wire (call.itemLine request) (afterItem call.invocation left) := by simp only [OpenCall.step, hstage]
    refine goesOn_write hopen hstep ?_
    rw [hneeds]
    exact course_afterItem hitems hcounts (List.forall_mem_cons.mp hrates).2 _

/-- A step of a call on its course goes on, or it changes nothing. In that case, where nothing is on its way, the call waits for more lines than it has to write, and none of those is a request. -/
theorem Course.step {unsent : List (List Char)} (h : call.Course answer allowed unsent (pending ++ ahead))
    (hends : answer.Ends call.invocation allowed) (hopen : wire.IsOpen missing pending.flatten) (hlive : call.result? = none) :
    (call.step wire = (call, wire) ∧
        (missing = [] → pending = [] ∧ unsent.length < ahead.length ∧ ∀ line ∈ unsent, ¬ ∃ request, Opens line request)) ∨
      GoesOn answer allowed call wire missing pending ahead unsent (call.step wire) := by
  generalize hneeds : pending ++ ahead = unseen at h
  cases h with
  | opening hstage hitems hrates =>
    have hstep : call.step wire = call.write wire call.request.line (afterRequest call.invocation) := by simp only [OpenCall.step, hstage]
    refine .inr (goesOn_write hopen hstep ?_)
    rw [hneeds]
    exact course_afterRequest hends.counts hitems hrates _
  | sending hstage hitems hcounts hrates => exact .inr (goesOn_sending hopen hstage hitems hcounts hrates hneeds)
  | @awaiting left items hstage hitems hinvocation hcounts hrates =>
    obtain ⟨item, items, rfl⟩ := List.exists_cons_of_length_eq_add_one hcounts
    have hcount : items.length = left.length := Nat.succ.inj hcounts
    have hstep : call.step wire = call.read wire := by simp only [OpenCall.step, hstage]
    refine goesOn_read hopen hstep hneeds (isFullLine_frame _) (fun bytesIn => ?_) ?_ (not_opens_requestLines _ hrates)
    · rw [takeLine_item { call with bytesIn } (.inl ⟨left, hstage⟩), hstage]
      refine ⟨.sending rfl ?_ (.inr ⟨hinvocation, hcount⟩) hrates, rfl⟩
      rw [hitems, List.append_assoc, List.singleton_append]
    · rw [length_requestLines, ← hcount]
      exact (answer.length_lines call.id items).ge
  | @collecting items hstage hitems =>
    have hstep : call.step wire = call.read wire := by simp only [OpenCall.step, hstage]
    cases items with
    | nil =>
      rw [List.append_nil] at hitems
      exact goesOn_read hopen hstep hneeds hends.full (course_takeLast hends hitems) (Nat.zero_le _) nofun
    | cons item items =>
      refine goesOn_read hopen hstep hneeds (isFullLine_frame _) (fun bytesIn => ?_) (Nat.zero_le _) nofun
      rw [takeLine_item { call with bytesIn } (.inr hstage), hstage]
      refine ⟨.collecting rfl ?_, rfl⟩
      rw [hitems, List.append_assoc, List.singleton_append]
  | finishing hstage hitems =>
    have hstep : call.step wire = call.read wire := by simp only [OpenCall.step, hstage]
    exact goesOn_read hopen hstep hneeds hends.full (course_takeLast hends hitems) (Nat.zero_le _) nofun
  | ended hstage hallowed =>
    rw [OpenCall.result?, hstage] at hlive
    cases hlive

end

end OpenCall

end LoadGenerator.Client
