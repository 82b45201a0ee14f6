import LoadGenerator.Proofs.Service.Items

/-!
# What is to come of a call

Where nothing disturbs a call, what it will send, how it will end and which draws it will leave are settled by where it stands, by the draws that are there and by the requests that it has yet to receive. Each step of the call uses up a part of this and leaves the rest. The books of the service have no say in it.
-/

namespace LoadGenerator.Service

open Message

/-! ## Runs without the books -/

section

variable (limits : Load.Limits) (shared : Shared)

theorem runItem_of_draws (request : WorkRequest) :
    (runItem limits shared request).1 = (runItem limits { draws := shared.draws } request).1 ∧
      (runItem limits shared request).2.draws = (runItem limits { draws := shared.draws } request).2.draws := by
  unfold runItem
  dsimp only
  generalize runConfig limits shared.draws request.config = result
  obtain ⟨failure, draws⟩ := result
  cases failure <;> exact ⟨rfl, rfl⟩

theorem runItems_of_draws (requests : List WorkRequest) :
    (runItems limits shared requests).1 = (runItems limits { draws := shared.draws } requests).1 ∧
      (runItems limits shared requests).2.draws = (runItems limits { draws := shared.draws } requests).2.draws := by
  induction requests generalizing shared with
  | nil => exact ⟨rfl, rfl⟩
  | cons request rest ih =>
    obtain ⟨hresponse, hdraws⟩ := runItem_of_draws limits shared request
    obtain ⟨hleft, hleft'⟩ := ih (runItem limits shared request).2
    obtain ⟨hright, hright'⟩ := ih (runItem limits { draws := shared.draws } request).2
    rw [hdraws] at hleft hleft'
    rw [runItems_cons, runItems_cons, hresponse]
    exact ⟨by rw [hleft, hright], hleft'.trans hright'.symm⟩

end

/-! ## Prospects -/

/-- What a call will send, how it will end and the draws that it will leave. -/
structure Prospect where
  responses : List WorkResponse := []
  outcome : Except Status Reply
  draws : Load.Draws

/-- The prospect of a call that has yet to send a response. -/
def Prospect.sending (response : WorkResponse) (prospect : Prospect) : Prospect :=
  { prospect with responses := response :: prospect.responses }

/-- The prospect at the head of a loop, given the requests that are still to be received. -/
def Shape.prospect (limits : Load.Limits) (draws : Load.Draws) (requests : List WorkRequest) : Shape → Prospect
  | .repeated item left =>
    let (responses, after) := runItems limits { draws } (List.replicate left item)
    { responses, outcome := .ok .nothing, draws := after.draws }
  | .tally summary =>
    let (responses, after) := runItems limits { draws } requests
    { outcome := .ok (.summary (tallyItems summary requests responses)), draws := after.draws }
  | .unary | .exchange =>
    let (responses, after) := runItems limits { draws } requests
    { responses, outcome := .ok .nothing, draws := after.draws }

/-- The prospect of a call, given the requests that are still to be received. -/
def Call.prospect (limits : Load.Limits) (draws : Load.Draws) (requests : List WorkRequest) (call : Call) : Prospect :=
  match call.stage with
  | .ended outcome => { outcome, draws }
  | .head => call.shape.prospect limits draws requests
  | .sending response => (call.shape.prospect limits draws requests).sending response
  | .running request =>
    let (response, after) := runItem limits { draws } request
    match call.shape with
    | .unary => { outcome := .ok (.work response), draws := after.draws }
    | .tally summary => (Shape.tally (tallyItem summary request response)).prospect limits after.draws requests
    | shape => (shape.prospect limits after.draws requests).sending response

section

variable (limits : Load.Limits) (draws : Load.Draws) (requests : List WorkRequest)

/-- A call that takes its requests from the peer. -/
def Shape.IsFed (shape : Shape) : Prop := (∃ summary, shape = .tally summary) ∨ shape = .exchange

theorem Shape.isFed_tally (summary : WorkSummary) : (Shape.tally summary).IsFed := .inl ⟨summary, rfl⟩

theorem Shape.isFed_exchange : Shape.exchange.IsFed := .inr rfl

theorem Shape.not_isFed_unary : ¬ Shape.unary.IsFed := by
  rintro (⟨_, h⟩ | h) <;> cases h

theorem Shape.not_isFed_repeated (item : WorkRequest) (left : Nat) : ¬ (Shape.repeated item left).IsFed := by
  rintro (⟨_, h⟩ | h) <;> cases h

/-- What the call makes of a request does not depend on when it receives it. -/
theorem Shape.IsFed.prospect_received {shape : Shape} (h : shape.IsFed) (request : WorkRequest) :
    Call.prospect limits draws requests ⟨shape, .running request⟩ = shape.prospect limits draws (request :: requests) := by
  obtain ⟨hresponses, hdraws⟩ := runItems_of_draws limits (runItem limits { draws } request).2 requests
  rcases h with ⟨summary, rfl⟩ | rfl
  · simp only [Call.prospect, Shape.prospect, runItems_cons, tallyItems_cons, hresponses, hdraws]
  · simp only [Call.prospect, Shape.prospect, Prospect.sending, runItems_cons, hresponses, hdraws]

theorem Shape.IsFed.prospect_ended {shape : Shape} (h : shape.IsFed) :
    Call.prospect limits draws requests (.finished shape (.ok (Call.streamReply shape))) = shape.prospect limits draws [] := by
  rcases h with ⟨summary, rfl⟩ | rfl <;> rfl

theorem Call.step_running {σ : Type} (peer : Peer σ) (shared : Shared) (s : σ) (shape : Shape) (request : WorkRequest) :
    (Call.step peer limits ⟨shape, .running request⟩ shared s).2 =
      (afterRun request (runItem limits shared request).1 shape, (runItem limits shared request).2, s) := by
  cases shape <;> rfl

theorem Call.isFed_afterRun (request : WorkRequest) (response : WorkResponse) (shape : Shape) :
    (afterRun request response shape).shape.IsFed ↔ shape.IsFed := by
  cases shape with
  | tally summary => exact iff_of_true (Shape.isFed_tally _) (Shape.isFed_tally summary)
  | _ => rfl

/-- Running a request changes nothing of what is to come. -/
theorem Call.prospect_afterRun (shared : Shared) (shape : Shape) (request : WorkRequest) :
    (afterRun request (runItem limits shared request).1 shape).prospect limits (runItem limits shared request).2.draws requests =
      Call.prospect limits shared.draws requests ⟨shape, .running request⟩ := by
  obtain ⟨hresponse, hdraws⟩ := runItem_of_draws limits shared request
  rw [hresponse, hdraws]
  cases shape <;> rfl

theorem Call.prospect_repeated (shared : Shared) (item : WorkRequest) (left : Nat) :
    Call.prospect limits (runItem limits shared item).2.draws requests ⟨.repeated item left, .sending (runItem limits shared item).1⟩ =
      (Shape.repeated item (left + 1)).prospect limits shared.draws requests := by
  obtain ⟨hresponse, hdraws⟩ := runItem_of_draws limits shared item
  obtain ⟨hresponses, hleft⟩ := runItems_of_draws limits (runItem limits { draws := shared.draws } item).2 (List.replicate left item)
  rw [hresponse, hdraws]
  simp only [Call.prospect, Shape.prospect, Prospect.sending, List.replicate_succ, runItems_cons, hresponses, hleft]

theorem Shape.length_prospect_exchange : (Shape.exchange.prospect limits draws requests).responses.length = requests.length :=
  length_runItems limits { draws } requests

end

end LoadGenerator.Service
