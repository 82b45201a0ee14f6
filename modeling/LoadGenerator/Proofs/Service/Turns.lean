import LoadGenerator.Proofs.Service.Alone
import LoadGenerator.Proofs.Service.Prospects

/-!
# Turns of a call

A loop of a call handles its requests one at a time. A turn is all that it does with one of them: it receives the request, unless it repeats its own, it runs it, and it sends the response, unless it only tallies. A call over a stream whose token is not cancelled takes whole turns, and has at most begun one more.
-/

namespace LoadGenerator.Service

open Message

/-- The request that a step received. -/
def Act.received? : Act → Option WorkRequest
  | .received request => some request
  | _ => none

/-- What a call of this shape does with a request and the response of its run. -/
def Shape.turn (shape : Shape) (request : WorkRequest) (response : WorkResponse) : List Act :=
  match shape with
  | .exchange => [.received request, .ran response, .sent response]
  | .repeated _ _ => [.ran response, .sent response]
  | _ => [.received request, .ran response]

/-- What a call of this shape does with requests, one after another. -/
def Shape.turns (limits : Load.Limits) (shared : Shared) (shape : Shape) (requests : List WorkRequest) : List Act :=
  (List.zipWith shape.turn requests (runItems limits shared requests).1).flatten

/-- How many runs have been counted. -/
def Metrics.runCount (metrics : Metrics) : Int := Tally.total (fun _ => true) metrics.runs

/-- The shape of a call over a stream that started with this one and has run these requests. -/
def Shape.after (limits : Load.Limits) (shared : Shared) (shape : Shape) (requests : List WorkRequest) : Shape :=
  match shape with
  | .tally summary => .tally (tallyItems summary requests (runItems limits shared requests).1)
  | shape => shape

section

variable (limits : Load.Limits) (shared : Shared) (requests : List WorkRequest) (request : WorkRequest)

theorem runItems_concat :
    runItems limits shared (requests ++ [request]) =
      ((runItems limits shared requests).1 ++ [(runItem limits (runItems limits shared requests).2 request).1],
        (runItem limits (runItems limits shared requests).2 request).2) :=
  runItems_append limits shared requests [request]

theorem tallyItems_concat (summary : WorkSummary) (responses : List WorkResponse) (response : WorkResponse)
    (hlength : requests.length = responses.length) :
    tallyItems summary (requests ++ [request]) (responses ++ [response]) =
      tallyItem (tallyItems summary requests responses) request response := by
  rw [tallyItems, List.zip_append hlength, List.foldl_append]
  rfl

omit requests request in
theorem runCount_runItems (requests : List WorkRequest) :
    (runItems limits shared requests).2.metrics.runCount = shared.metrics.runCount + requests.length := by
  induction requests generalizing shared with
  | nil => simp
  | cons request rest ih =>
    obtain ⟨outcome, -, hmetrics, -⟩ := runItem_books limits shared request
    rw [runItems_cons, ih, hmetrics, Metrics.runCount, Metrics.recordRun, Tally.total_add, if_pos rfl, List.length_cons,
      Metrics.runCount]
    omega

namespace Shape

variable {shape : Shape}

theorem turns_concat (shape : Shape) :
    shape.turns limits shared (requests ++ [request]) =
      shape.turns limits shared requests ++ shape.turn request (runItem limits (runItems limits shared requests).2 request).1 := by
  rw [turns, runItems_concat, List.zipWith_append (length_runItems limits shared requests).symm, List.flatten_append]
  simp [turns]

theorem IsFed.after (hshape : shape.IsFed) : (shape.after limits shared requests).IsFed := by
  rcases hshape with ⟨summary, rfl⟩ | rfl
  · exact isFed_tally _
  · exact isFed_exchange

theorem received_turns (hshape : shape.IsFed) : (shape.turns limits shared requests).filterMap Act.received? = requests := by
  induction requests using List.reverseRecOn with
  | nil => rfl
  | append_singleton requests request ih =>
    rw [turns_concat, List.filterMap_append, ih]
    rcases hshape with ⟨summary, rfl⟩ | rfl <;> rfl

theorem ran_turns (shape : Shape) : (shape.turns limits shared requests).filterMap Act.ran? = (runItems limits shared requests).1 := by
  induction requests using List.reverseRecOn with
  | nil => rfl
  | append_singleton requests request ih =>
    rw [turns_concat, List.filterMap_append, ih, runItems_concat]
    cases shape <;> rfl

theorem length_turns_le (shape : Shape) : (shape.turns limits shared requests).length ≤ 3 * requests.length := by
  induction requests using List.reverseRecOn with
  | nil => rfl
  | append_singleton requests request ih =>
    have hturn : (shape.turn request (runItem limits (runItems limits shared requests).2 request).1).length ≤ 3 := by
      cases shape <;> simp [turn]
    rw [turns_concat, List.length_append, List.length_append, List.length_singleton]
    omega

end Shape

end

/-! ## Within a turn -/

/-- Where a call over a stream stands that started with this shape: it has taken its turn with some requests, and with one more perhaps a part of it. -/
inductive InTurn (limits : Load.Limits) (shared : Shared) (shape : Shape) : List Act → Call → Shared → Prop where
  | head (done : List WorkRequest) :
      InTurn limits shared shape (shape.turns limits shared done) ⟨shape.after limits shared done, .head⟩ (runItems limits shared done).2
  | running (done : List WorkRequest) (request : WorkRequest) :
      InTurn limits shared shape (shape.turns limits shared done ++ [.received request])
        ⟨shape.after limits shared done, .running request⟩ (runItems limits shared done).2
  | sending (done : List WorkRequest) (request : WorkRequest) (response : WorkResponse) (after : Shared) (hshape : shape = .exchange)
      (hran : runItem limits (runItems limits shared done).2 request = (response, after)) :
      InTurn limits shared shape (shape.turns limits shared done ++ [.received request, .ran response]) ⟨.exchange, .sending response⟩ after
  | streamEnded (done : List WorkRequest) :
      InTurn limits shared shape (shape.turns limits shared done ++ [.streamEnded])
        (.finished (shape.after limits shared done) (.ok (Call.streamReply (shape.after limits shared done)))) (runItems limits shared done).2
  | streamFailed (done : List WorkRequest) (status : Status) :
      InTurn limits shared shape (shape.turns limits shared done ++ [.streamFailed status])
        (.finished (shape.after limits shared done) (.error status)) (runItems limits shared done).2
  | sendFailed (done : List WorkRequest) (request : WorkRequest) (response : WorkResponse) (status : Status) (after : Shared)
      (hshape : shape = .exchange) (hran : runItem limits (runItems limits shared done).2 request = (response, after)) :
      InTurn limits shared shape (shape.turns limits shared done ++ [.received request, .ran response, .sendFailed status])
        (.finished .exchange (.error status)) after

section

variable {σ : Type} {peer : Peer σ} {limits : Load.Limits} {shared after after' : Shared} {shape : Shape} {acts : List Act} {call next : Call}
  {act : Act} {s s' : σ}

theorem InTurn.start (limits : Load.Limits) (shared : Shared) (hshape : shape = .tally {} ∨ shape = .exchange) :
    InTurn limits shared shape [] ⟨shape, .head⟩ shared := by
  rcases hshape with rfl | rfl <;> exact .head []

/-- The turn with another request is over. -/
theorem InTurn.complete (done : List WorkRequest) {request : WorkRequest} {response : WorkResponse}
    (hran : runItem limits (runItems limits shared done).2 request = (response, after)) :
    InTurn limits shared shape (shape.turns limits shared done ++ shape.turn request response)
      ⟨shape.after limits shared (done ++ [request]), .head⟩ after := by
  have hturn : InTurn limits shared shape _ _ _ := .head (done ++ [request])
  rwa [Shape.turns_concat, runItems_concat, hran] at hturn

theorem InTurn.step_head (hshape : shape.IsFed) (done : List WorkRequest) (hlive : (peer.cancelled s).1 = false)
    (hstep : Call.step peer limits ⟨shape.after limits shared done, .head⟩ (runItems limits shared done).2 s = (some act, next, after', s')) :
    InTurn limits shared shape (shape.turns limits shared done ++ [act]) next after' := by
  have hloop : ∀ item left, shape.after limits shared done ≠ .repeated item left := by
    intro item left hrepeated
    exact Shape.not_isFed_repeated item left (hrepeated ▸ hshape.after limits shared done)
  rw [Call.step_reads hloop] at hstep
  rcases hcancelled : peer.cancelled s with ⟨_ | _, s₁⟩
  · rw [hcancelled] at hstep
    rcases hreceive : peer.receive s₁ with ⟨_ | status | _ | request, s₂⟩ <;> simp only [hreceive] at hstep <;> cases hstep
    · exact .streamFailed done status
    · exact .streamEnded done
    · exact .running done request
  · rw [hcancelled] at hlive
    cases hlive

/-- A step of a call over a stream goes on with the turn, or begins the next one. -/
theorem InTurn.step (h : InTurn limits shared shape acts call after) (hshape : shape.IsFed) (hlive : (peer.cancelled s).1 = false)
    (hstep : call.step peer limits after s = (some act, next, after', s')) : InTurn limits shared shape (acts ++ [act]) next after' := by
  cases h with
  | head done => exact step_head hshape done hlive hstep
  | running done request =>
    rcases hshape with ⟨summary, rfl⟩ | rfl <;> cases hstep <;> rw [List.append_assoc]
    · have hturn : InTurn limits shared (.tally summary) _ _ _ :=
        complete done (Eq.refl (runItem limits (runItems limits shared done).2 request))
      rwa [Shape.after, runItems_concat, tallyItems_concat _ _ _ _ _ (length_runItems limits shared done).symm] at hturn
    · exact .sending done request _ _ rfl rfl
  | sending done request response after hexchange hran =>
    subst hexchange
    simp only [Call.step] at hstep
    rcases hsend : peer.send s response with ⟨status | _, s₁⟩ <;> simp only [hsend] at hstep <;> cases hstep <;> rw [List.append_assoc]
    · exact .sendFailed done request response status _ rfl hran
    · exact complete done hran
  | streamEnded => cases hstep
  | streamFailed => cases hstep
  | sendFailed => cases hstep

end

end LoadGenerator.Service
