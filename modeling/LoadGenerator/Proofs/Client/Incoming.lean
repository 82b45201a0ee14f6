import LoadGenerator.Proofs.Message.Lines
import LoadGenerator.Proofs.Message.Metadata
import LoadGenerator.Proofs.Message.Work

/-!
# What a client makes of a line

A client tells a frame from a response by the members of its value, and then takes it for what a reader of frames or of responses takes it for. The messages that a daemon writes have no fractions in them, so they come in as they were sent, except that a result of null counts as none and metadata comes in the order of its keys.
-/

namespace LoadGenerator

open Message JsonReader

/-! ## Telling frames from responses -/

theorem Message.Frame.isFrame_reread (frame : Frame) : isFrame (codec.encode frame).reread = true := by
  obtain ⟨kind, id, data⟩ := frame
  cases data <;> rfl

theorem Message.Frame.isFrame_toJson (frame : Frame) : isFrame (codec.toJson frame) = true := by
  obtain ⟨kind, id, data⟩ := frame
  cases data <;> rfl

theorem Message.Response.isFrame_reread (response : Response) : Frame.isFrame (codec.encode response).reread = false := by
  obtain ⟨version, id, result, error, metadata⟩ := response
  cases id <;> cases result <;> cases error <;> cases metadata <;> rfl

theorem Message.Response.isFrame_toJson (response : Response) : Frame.isFrame (codec.toJson response) = false := by
  obtain ⟨version, id, result, error, metadata⟩ := response
  cases id <;> cases result <;> cases error <;> cases metadata <;> rfl

namespace Client

theorem incomingOf_frame {frame : Frame} (hwritable : frame.data.IsWritable) (hdepth : frame.data.depth < depthLimit) :
    incomingOf frame.line = .ok (.frame { frame with data := frame.data.reread }) := by
  have hreturns := Frame.returns hwritable (show frame.data.depth ≤ 126 from Nat.le_of_lt_succ hdepth)
  change (Json.parse (String.ofList (lineOf Frame.codec frame)) >>= _) = _
  rw [parse_value_lineOf hreturns]
  change (if Frame.isFrame (Frame.codec.encode frame).reread then Incoming.frame <$> Frame.codec.ofJson (Frame.codec.encode frame).reread else _) = _
  rw [Frame.isFrame_reread, if_pos rfl, hreturns.ofJson]
  rfl

theorem incomingOf_fits {response : Response} (h : response.Fits 125) : incomingOf response.line = .ok (.response response.received) := by
  have hreturns := Response.returns h
  change (Json.parse (String.ofList (lineOf Response.codec response)) >>= _) = _
  rw [parse_value_lineOf hreturns]
  change (if Frame.isFrame (Response.codec.encode response).reread then _ else
    Incoming.response <$> Response.codec.ofJson (Response.codec.encode response).reread) = _
  rw [Response.isFrame_reread, if_neg Bool.false_ne_true, hreturns.ofJson]
  rfl

end Client

/-! ## The messages of a daemon -/

theorem Service.Reply.isIntegral_toJson (reply : Service.Reply) : reply.toJson.IsIntegral := by
  cases reply with
  | health health =>
    obtain ⟨status, version⟩ := health
    cases version <;> trivial
  | pong reply => exact ⟨trivial, trivial⟩
  | work response => exact ⟨trivial, trivial, trivial, trivial⟩
  | summary summary =>
    have hint32 (n : Int32) := JsonNumber.isIntegral_ofInt32 n
    exact ⟨hint32 _, trivial, hint32 _, hint32 _, trivial⟩
  | nothing => trivial

theorem Service.Reply.depth_toJson (reply : Service.Reply) : reply.toJson.depth ≤ 1 := by
  cases reply with
  | health health =>
    obtain ⟨status, version⟩ := health
    cases version <;> exact Nat.le_refl 1
  | nothing => exact Nat.zero_le 1
  | _ => exact Nat.le_refl 1

theorem Service.Reply.reread_toJson (reply : Service.Reply) : reply.toJson.reread = reply.toJson := by
  have hcanonical : reply.toJson.IsCanonical := by
    cases reply with
    | nothing => trivial
    | _ => exact Json.isCanonical_canonical _
  rw [Json.reread_of_isIntegral reply.isIntegral_toJson, Json.canonical_of_isCanonical hcanonical]

theorem Connection.OpenCall.fits_response (call : OpenCall) (outcome : Except Service.Status Service.Reply) : (call.response outcome).Fits 125 := by
  cases outcome with
  | ok reply =>
    refine ⟨fun result hresult => ?_, fun error herror => ?_⟩
    · obtain rfl := Option.some.inj hresult
      exact ⟨Json.isWritable_of_isIntegral reply.isIntegral_toJson, reply.depth_toJson.trans (by decide)⟩
    · cases herror
  | error status =>
    refine ⟨fun result hresult => ?_, fun error herror data hdata => ?_⟩
    · cases hresult
    · obtain rfl := Option.some.inj herror
      obtain rfl := Option.some.inj hdata
      exact ⟨⟨trivial, trivial⟩, show 1 ≤ 125 by decide⟩

theorem Connection.OpenCall.received_response (call : OpenCall) (outcome : Except Service.Status Service.Reply) :
    (call.response outcome).received =
      { call.response outcome with result := (call.response outcome).result.filter (!·.isNull), metadata := call.metadata } := by
  have hmetadata := call.order.sortMembers_arrange call.increasing_metadata
  cases outcome with
  | ok reply =>
    have hresult : ((some reply.toJson).filter (!·.isNull)).map Json.reread = (some reply.toJson).filter (!·.isNull) := by
      rw [Option.filter_some]
      split_ifs
      · rw [Option.map_some, reply.reread_toJson]
      · rfl
    simp only [Response.received, response, Response.success, hmetadata, hresult]
    rfl
  | error status =>
    simp only [Response.received, response, Response.failure, hmetadata]
    rfl

namespace Client

theorem incomingOf_item (id : Option RequestId) (response : WorkResponse) :
    incomingOf (Frame.item id (WorkResponse.codec.toJson response)).line = .ok (.frame (.item id (WorkResponse.codec.toJson response))) := by
  have hwritable := Json.isWritable_of_isIntegral (Service.Reply.work response).isIntegral_toJson
  have hframe : (Frame.item id (WorkResponse.codec.toJson response)).data.depth < depthLimit := show 1 < 127 by decide
  rw [incomingOf_frame hwritable hframe]
  have hdata : (WorkResponse.codec.toJson response).reread = WorkResponse.codec.toJson response := (Service.Reply.work response).reread_toJson
  rw [show (Frame.item id (WorkResponse.codec.toJson response)).data.reread = WorkResponse.codec.toJson response from hdata]
  rfl

/-- The response of a call comes in as it was sent, except that a result of null counts as none and the order of the metadata is lost. -/
theorem incomingOf_response (call : Connection.OpenCall) (outcome : Except Service.Status Service.Reply) :
    incomingOf (call.response outcome).line =
      .ok (.response { call.response outcome with result := (call.response outcome).result.filter (!·.isNull), metadata := call.metadata }) := by
  rw [incomingOf_fits (call.fits_response outcome), call.received_response]

end Client

end LoadGenerator
