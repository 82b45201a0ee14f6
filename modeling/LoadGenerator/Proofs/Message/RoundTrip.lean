import LoadGenerator.Proofs.Client.Incoming

/-!
# Messages over a wire

Every message is written as one line, and comes back from it whether its line is read straight or as a value first. What comes back says the same as what was written: metadata are in the order of their keys, and a result or data of null are absent. So messages that are written one after another are read one after another.
-/

namespace LoadGenerator

open JsonReader

theorem RecordType.depth_member_lt {α : Type} {record : RecordType α} {a : α} {name : String} {v : Json}
    (h : (name, v) ∈ encodeMembers record.members a) : v.depth < (record.codec.encode a).depth :=
  Nat.lt_succ_of_le (Json.depth_le_membersDepth h)

namespace Message

/-- A line with one newline, at its end, that is read as the second value, straight and as a value of its own. -/
structure RoundTrips {α : Type} (codec : JsonCodec α) (a b : α) : Prop where
  line : IsFullLine (lineOf codec a)
  newline : ∃ front, newline ∉ front ∧ Utf8.encode (lineOf codec a) = front ++ [LoadGenerator.newline]
  parse : codec.parse (String.ofList (lineOf codec a)) = .ok b
  value : ∃ v, Json.parse (String.ofList (lineOf codec a)) = .ok v ∧ codec.ofJson v = .ok b

theorem roundTrips_of_returns {α : Type} {record : RecordType α} {a b : α} (h : record.codec.Returns depthLimit a b) :
    RoundTrips record.codec a b where
  line := isFullLine_lineOf record a
  newline := by
    refine ⟨Utf8.encode (record.codec.encode a).render, ?_, ?_⟩
    · exact fun hmem => Json.newline_notMem_render _ (newline_mem_encode_iff.mp hmem)
    · rw [lineOf, Utf8.encode_append]
      rfl
  parse := parse_lineOf h.reads
  value := ⟨_, parse_value_lineOf h, h.ofJson⟩

/-! ## Requests -/

namespace Request

structure IsSound (request : Request) : Prop where
  params : request.params.IsSettled
  metadata : (request.metadata.map Prod.fst).Nodup
  depth : (codec.encode request).depth ≤ depthLimit

/-- The request with its metadata in the order of their keys. -/
def settled (request : Request) : Request := { request with metadata := Json.sortMembers request.metadata }

variable {request : Request}

theorem IsSound.depth_params (h : request.IsSound) : request.params.depth ≤ 126 := by
  have hmember : ("params", request.params) ∈ RecordType.encodeMembers record.members request := by
    obtain ⟨version, id, method, params, metadata⟩ := request
    cases metadata <;> simp [RecordType.encodeMembers, record, RecordMember.of, JsonCodec.json]
  exact Nat.le_of_lt_succ (lt_of_lt_of_le (RecordType.depth_member_lt hmember) h.depth)

theorem IsSound.returns (h : request.IsSound) : codec.Returns depthLimit request request.settled := by
  have hreceived : request.received = request.settled := by rw [received, settled, h.params.reread]
  exact hreceived ▸ Request.returns h.params.writable h.depth_params

theorem IsSound.settled (h : request.IsSound) : request.settled.IsSound where
  params := h.params
  metadata := ((Json.perm_sortMembers h.metadata).map Prod.fst).nodup_iff.mpr h.metadata
  depth :=
    have hwritable : request.settled.params.IsWritable := h.params.writable
    (Request.returns hwritable h.depth_params).shallow

theorem settled_settled (request : Request) : request.settled.settled = request.settled := by
  rw [settled, settled, Json.sortMembers_of_increasing (Json.increasing_sortMembers _)]

end Request

/-! ## Errors and responses -/

namespace RpcError

structure IsSound (e : RpcError) : Prop where
  data : ∀ data ∈ e.data, data.IsSettled
  depth : (codec.encode e).depth ≤ depthLimit

/-- The error without data of null. -/
def settled (e : RpcError) : RpcError := { e with data := e.data.filter (!·.isNull) }

variable {e : RpcError}

theorem depth_data_lt {data : Json} (h : data ∈ e.data) : data.depth < (codec.encode e).depth := by
  have hmember : ("data", data) ∈ RecordType.encodeMembers record.members e := by
    obtain ⟨code, message, data'⟩ := e
    obtain rfl := Option.mem_def.mp h
    simp [RecordType.encodeMembers, record, RecordMember.of, JsonCodec.json, JsonCodec.option]
  exact RecordType.depth_member_lt hmember

theorem received_eq_settled (h : ∀ data ∈ e.data, data.IsSettled) : e.received = e.settled := by
  rw [received, settled]
  congr 1
  cases hdata : e.data with
  | none => rfl
  | some data =>
    rw [Option.filter_some]
    split_ifs
    · rw [Option.map_some, (h data hdata).reread]
    · rfl

theorem mem_settled {data : Json} (h : data ∈ e.settled.data) : data ∈ e.data := (Option.mem_filter_iff.mp h).1

theorem settled_settled (e : RpcError) : e.settled.settled = e.settled := by
  rw [settled, settled, Option.filter_filter]
  simp

theorem IsSound.returns (h : e.IsSound) : codec.Returns depthLimit e e.settled :=
  received_eq_settled h.data ▸ RpcError.returns (fun data hdata => (h.data data hdata).writable) fun _ hdata =>
    Nat.le_of_lt_succ (lt_of_lt_of_le (depth_data_lt hdata) h.depth)

theorem IsSound.settled (h : e.IsSound) : e.settled.IsSound where
  data data hdata := h.data data (mem_settled hdata)
  depth :=
    have hwritable : ∀ data ∈ e.settled.data, data.IsWritable := fun data hdata => (h.data data (mem_settled hdata)).writable
    have hdepth : ∀ data ∈ e.settled.data, data.depth ≤ 126 := fun _ hdata =>
      Nat.le_of_lt_succ (lt_of_lt_of_le (depth_data_lt (mem_settled hdata)) h.depth)
    (RpcError.returns hwritable hdepth).shallow

end RpcError

namespace Response

structure IsSound (response : Response) : Prop where
  result : ∀ result ∈ response.result, result.IsSettled
  error : ∀ error ∈ response.error, ∀ data ∈ error.data, data.IsSettled
  metadata : (response.metadata.map Prod.fst).Nodup
  depth : (codec.encode response).depth ≤ depthLimit

/-- The response with its metadata in the order of their keys, and without a result or data of null. -/
def settled (response : Response) : Response :=
  { response with
    result := response.result.filter (!·.isNull)
    error := response.error.map RpcError.settled
    metadata := Json.sortMembers response.metadata }

variable {response : Response}

theorem IsSound.fits (h : response.IsSound) : response.Fits 125 where
  result result hresult := by
    have hmember : ("result", result) ∈ RecordType.encodeMembers record.members response := by
      obtain ⟨version, id, result', error, metadata⟩ := response
      obtain rfl := Option.mem_def.mp hresult
      simp [RecordType.encodeMembers, record, RecordMember.of, JsonCodec.json, JsonCodec.option]
    exact ⟨(h.result result hresult).writable, Nat.le_of_lt_succ (lt_of_lt_of_le (RecordType.depth_member_lt hmember) h.depth)⟩
  error error herror data hdata := by
    have hmember : ("error", RpcError.codec.encode error) ∈ RecordType.encodeMembers record.members response := by
      obtain ⟨version, id, result, error', metadata⟩ := response
      obtain rfl := Option.mem_def.mp herror
      simp [RecordType.encodeMembers, record, RecordMember.of, JsonCodec.option]
    have hless := lt_of_lt_of_le (RecordType.depth_member_lt hmember) h.depth
    exact ⟨(h.error error herror data hdata).writable,
      Nat.le_of_lt_succ (lt_of_lt_of_le (RpcError.depth_data_lt hdata) (Nat.le_of_lt_succ hless))⟩

theorem received_eq_settled (h : response.IsSound) : response.received = response.settled := by
  have hresult : (response.result.filter (!·.isNull)).map Json.reread = response.result.filter (!·.isNull) := by
    cases hresult : response.result with
    | none => rfl
    | some result =>
      rw [Option.filter_some]
      split_ifs
      · rw [Option.map_some, (h.result result hresult).reread]
      · rfl
  have herror : response.error.map RpcError.received = response.error.map RpcError.settled := by
    cases herror : response.error with
    | none => rfl
    | some error => exact congrArg some (RpcError.received_eq_settled (h.error error herror))
  rw [received, settled, hresult, herror]

theorem settled_settled (response : Response) : response.settled.settled = response.settled := by
  have herror (error : RpcError) : (RpcError.settled ∘ RpcError.settled) error = RpcError.settled error := error.settled_settled
  simp only [settled, Option.filter_filter, Option.map_map, Bool.and_self, Json.sortMembers_of_increasing (Json.increasing_sortMembers _)]
  rw [show RpcError.settled ∘ RpcError.settled = RpcError.settled from funext herror]

theorem IsSound.returns (h : response.IsSound) : codec.Returns depthLimit response response.settled :=
  received_eq_settled h ▸ Response.returns h.fits

theorem Fits.settled {d : Nat} (h : response.Fits d) : response.settled.Fits d where
  result result hresult := h.result result (Option.mem_filter_iff.mp hresult).1
  error error herror data hdata := by
    obtain ⟨source, hsource, rfl⟩ := Option.mem_map.mp herror
    exact h.error source hsource data (RpcError.mem_settled hdata)

theorem IsSound.settled (h : response.IsSound) : response.settled.IsSound where
  result result hresult := h.result result (Option.mem_filter_iff.mp hresult).1
  error error herror data hdata := by
    obtain ⟨source, hsource, rfl⟩ := Option.mem_map.mp herror
    exact h.error source hsource data (RpcError.mem_settled hdata)
  metadata := ((Json.perm_sortMembers h.metadata).map Prod.fst).nodup_iff.mpr h.metadata
  depth := (Response.returns h.fits.settled).shallow

end Response

/-! ## Frames -/

namespace Frame

structure IsSound (frame : Frame) : Prop where
  data : frame.data.IsSettled
  depth : (codec.encode frame).depth ≤ depthLimit

variable {frame : Frame}

theorem IsSound.depth_data (h : frame.IsSound) : frame.data.depth < depthLimit := by
  obtain ⟨kind, id, data⟩ := frame
  cases data with
  | array items =>
    have hmember : ("data", .array items) ∈ RecordType.encodeMembers record.members ⟨kind, id, .array items⟩ := by
      simp [RecordType.encodeMembers, record, RecordMember.of, JsonCodec.json, Json.isNull]
    exact lt_of_lt_of_le (RecordType.depth_member_lt hmember) h.depth
  | object members =>
    have hmember : ("data", .object members) ∈ RecordType.encodeMembers record.members ⟨kind, id, .object members⟩ := by
      simp [RecordType.encodeMembers, record, RecordMember.of, JsonCodec.json, Json.isNull]
    exact lt_of_lt_of_le (RecordType.depth_member_lt hmember) h.depth
  | _ => exact Nat.zero_lt_succ 126

theorem IsSound.returns (h : frame.IsSound) : codec.Returns depthLimit frame frame := by
  have hreturns := Frame.returns h.data.writable (Nat.le_of_lt_succ h.depth_data)
  rwa [h.data.reread] at hreturns

end Frame

end Message

/-! ## One message after another -/

open Message

namespace Client

namespace Incoming

def IsSound : Incoming → Prop
  | .frame f => f.IsSound
  | .response r => r.IsSound

def line : Incoming → List Char
  | .frame f => f.line
  | .response r => r.line

/-- The message as it comes in. -/
def settled : Incoming → Incoming
  | .frame f => .frame f
  | .response r => .response r.settled

theorem isFullLine_line (message : Incoming) : IsFullLine message.line := by
  cases message with
  | frame frame => exact isFullLine_lineOf Frame.record frame
  | response response => exact isFullLine_lineOf Response.record response

theorem IsSound.incomingOf {message : Incoming} (h : message.IsSound) : incomingOf message.line = .ok message.settled := by
  cases message with
  | frame frame =>
    have hframe : frame.IsSound := h
    rw [line, incomingOf_frame hframe.data.writable hframe.depth_data, hframe.data.reread]
    rfl
  | response response =>
    have hresponse : response.IsSound := h
    rw [line, incomingOf_fits hresponse.fits, Response.received_eq_settled hresponse]
    rfl

end Incoming

/-- Reads messages from a wire, at most so many, up to a line that is not all there or that is no text. -/
def readMessages : Nat → Wire → List (Except JsonError Incoming) × Wire
  | 0, wire => ([], wire)
  | count + 1, wire =>
    match wire.nextLine with
    | (.line text, _, wire) =>
      let (messages, wire) := readMessages count wire
      (incomingOf text :: messages, wire)
    | (_, _, wire) => ([], wire)

theorem readMessages_lines (messages : List Incoming) (h : ∀ message ∈ messages, message.IsSound) (rest : List Char) :
    readMessages messages.length { inbox := Utf8.encode (messages.flatMap Incoming.line ++ rest) } =
      (messages.map fun message => .ok message.settled, { inbox := Utf8.encode rest }) := by
  induction messages with
  | nil => rfl
  | cons message messages ih =>
    have hexpects : Wire.Expects { inbox := Utf8.encode (message.line ++ (messages.flatMap Incoming.line ++ rest)) } []
        (message.line ++ (messages.flatMap Incoming.line ++ rest)) :=
      ⟨List.append_nil _, fun _ => rfl⟩
    obtain ⟨-, hmissing⟩ | ⟨inbox, hnext, hrest, -⟩ := hexpects.nextLine_of_line rfl message.isFullLine_line
    · exact absurd rfl hmissing
    · have hinbox : inbox = Utf8.encode (messages.flatMap Incoming.line ++ rest) := (List.append_nil inbox).symm.trans hrest.bytes
      have hmessage := h message (List.mem_cons_self ..)
      rw [List.flatMap_cons, List.append_assoc, List.length_cons, readMessages, hnext]
      dsimp only
      rw [hinbox, ih fun other hother => h other (List.mem_cons_of_mem _ hother), hmessage.incomingOf]
      rfl

end Client

/-! ## All messages -/

namespace Message

theorem WorkConfig.received_of_isFaithful {config : WorkConfig} (h : config.errorRate.IsFaithful) : config.received = config := by
  rw [received, h.2]

theorem received_config {config : Option WorkConfig} (h : ∀ c ∈ config, c.errorRate.IsFaithful) : config.map WorkConfig.received = config := by
  cases config with
  | none => rfl
  | some config => exact congrArg some (WorkConfig.received_of_isFaithful (h config rfl))

/-- Every message comes back from its line, and what comes back comes back from its own; and frames and responses that are written one after another are read one after another. -/
theorem messages_round_trip :
    (∀ request : Request, request.IsSound → RoundTrips Request.codec request request.settled ∧
      RoundTrips Request.codec request.settled request.settled ∧ request.settled.metadata.Perm request.metadata) ∧
    (∀ response : Response, response.IsSound → RoundTrips Response.codec response response.settled ∧
      RoundTrips Response.codec response.settled response.settled ∧ response.settled.metadata.Perm response.metadata) ∧
    (∀ e : RpcError, e.IsSound → RoundTrips RpcError.codec e e.settled ∧ RoundTrips RpcError.codec e.settled e.settled) ∧
    (∀ frame : Frame, frame.IsSound → RoundTrips Frame.codec frame frame) ∧
    (∀ config : WorkConfig, config.errorRate.IsFaithful → RoundTrips WorkConfig.codec config config) ∧
    (∀ request : WorkRequest, (∀ config ∈ request.config, config.errorRate.IsFaithful) → RoundTrips WorkRequest.codec request request) ∧
    (∀ request : RepeatRequest, (∀ config ∈ request.config, config.errorRate.IsFaithful) → RoundTrips RepeatRequest.codec request request) ∧
    (∀ response : WorkResponse, RoundTrips WorkResponse.codec response response) ∧
    (∀ summary : WorkSummary, RoundTrips WorkSummary.codec summary summary) ∧
    (∀ reply : PingReply, RoundTrips PingReply.codec reply reply) ∧
    (∀ health : Health, RoundTrips Health.codec health health) ∧
    (∀ messages : List Client.Incoming, (∀ message ∈ messages, message.IsSound) → ∀ rest,
      Client.readMessages messages.length { inbox := Utf8.encode (messages.flatMap Client.Incoming.line ++ rest) } =
        (messages.map fun message => .ok message.settled, { inbox := Utf8.encode rest })) ∧
    (∀ frame : Frame, Frame.isFrame (Frame.codec.toJson frame) = true ∧
      (frame.IsSound → ∀ v, Json.parse (String.ofList frame.line) = .ok v → Frame.isFrame v = true)) ∧
    (∀ response : Response, Frame.isFrame (Response.codec.toJson response) = false ∧
      (response.IsSound → ∀ v, Json.parse (String.ofList response.line) = .ok v → Frame.isFrame v = false)) := by
  refine ⟨fun request h => ⟨?_, ?_, ?_⟩, fun response h => ⟨?_, ?_, ?_⟩, fun e h => ⟨?_, ?_⟩, fun frame h => ?_, fun config h => ?_,
    fun request h => ?_, fun request h => ?_, fun response => ?_, fun summary => ?_, fun reply => ?_, fun health => ?_,
    fun messages h rest => ?_, fun frame => ⟨?_, fun h v hv => ?_⟩, fun response => ⟨?_, fun h v hv => ?_⟩⟩
  · exact roundTrips_of_returns h.returns
  · have hagain := h.settled.returns
    rw [request.settled_settled] at hagain
    exact roundTrips_of_returns hagain
  · exact Json.perm_sortMembers h.metadata
  · exact roundTrips_of_returns h.returns
  · have hagain := h.settled.returns
    rw [response.settled_settled] at hagain
    exact roundTrips_of_returns hagain
  · exact Json.perm_sortMembers h.metadata
  · exact roundTrips_of_returns h.returns
  · have hagain := h.settled.returns
    rw [e.settled_settled] at hagain
    exact roundTrips_of_returns hagain
  · exact roundTrips_of_returns h.returns
  · have hreturns := WorkConfig.returns h.1 126
    rw [WorkConfig.received_of_isFaithful h] at hreturns
    exact roundTrips_of_returns hreturns
  · have hreturns := WorkRequest.returns (fun config hconfig => (h config hconfig).1) 125
    rw [WorkRequest.received, received_config h] at hreturns
    exact roundTrips_of_returns hreturns
  · have hreturns := RepeatRequest.returns (fun config hconfig => (h config hconfig).1) 125
    rw [RepeatRequest.received, received_config h] at hreturns
    exact roundTrips_of_returns hreturns
  · exact roundTrips_of_returns (response.returns 126)
  · exact roundTrips_of_returns (summary.returns 126)
  · exact roundTrips_of_returns (reply.returns 126)
  · exact roundTrips_of_returns (health.returns 126)
  · exact Client.readMessages_lines messages h rest
  · exact frame.isFrame_toJson
  · have hparse := parse_value_lineOf h.returns
    obtain rfl := Except.ok.inj (hparse.symm.trans hv)
    exact frame.isFrame_reread
  · exact response.isFrame_toJson
  · have hparse := parse_value_lineOf h.returns
    obtain rfl := Except.ok.inj (hparse.symm.trans hv)
    exact response.isFrame_reread

/-- A response with a result and data of null, and metadata out of order. -/
def oddResponse : Response where
  version := protocolVersion
  id := some (.text "a\nb")
  result := some .null
  error := some { code := -1, message := "é", data := some .null }
  metadata := [("z", "1"), ("a", "2")]

theorem oddResponse_isSound : oddResponse.IsSound where
  result result hresult := by
    obtain rfl := Option.some.inj hresult
    exact ⟨trivial, trivial⟩
  error error herror data hdata := by
    obtain rfl := Option.some.inj herror
    obtain rfl := Option.some.inj hdata
    exact ⟨trivial, trivial⟩
  metadata := by decide
  depth := show 2 ≤ 127 by decide

/-- A frame with a tenth in its data. -/
def fractionFrame : Frame := .item (some (.number 1)) (.object [("rate", .number (.real ⟨false, 0x3fb999999999999a, by decide⟩))])

theorem fractionFrame_isSound : fractionFrame.IsSound where
  data := ⟨⟨List.pairwise_singleton _ _, trivial, trivial⟩, ⟨rfl, by decide +kernel⟩, trivial⟩
  depth := show 2 ≤ 127 by decide

theorem messages_round_trip_null_result :
    (∀ message ∈ [Client.Incoming.response oddResponse, .frame fractionFrame], message.IsSound) ∧
    RoundTrips Response.codec oddResponse
      { oddResponse with result := none, error := some { code := -1, message := "é" }, metadata := [("a", "2"), ("z", "1")] } ∧
    Client.readMessages 2 { inbox := Utf8.encode (oddResponse.line ++ fractionFrame.line) } =
      ([.ok (.response oddResponse.settled), .ok (.frame fractionFrame)], {}) := by
  have hsound : ∀ message ∈ [Client.Incoming.response oddResponse, .frame fractionFrame], message.IsSound := by
    simp only [List.forall_mem_cons]
    exact ⟨oddResponse_isSound, fractionFrame_isSound, List.forall_mem_nil _⟩
  obtain ⟨-, hresponse, -, -, -, -, -, -, -, -, -, hread, -⟩ := messages_round_trip
  have hlines := hread [.response oddResponse, .frame fractionFrame] hsound []
  rw [List.flatMap_cons, List.flatMap_cons, List.flatMap_nil, List.append_nil, List.append_nil] at hlines
  exact ⟨hsound, (hresponse oddResponse oddResponse_isSound).1, hlines⟩

end Message

end LoadGenerator
