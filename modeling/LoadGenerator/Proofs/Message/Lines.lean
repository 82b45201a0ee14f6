import LoadGenerator.Message.Frame
import LoadGenerator.Proofs.Connection.Lines
import LoadGenerator.Proofs.Json.Returns
import LoadGenerator.Proofs.Json.SingleLine

/-!
# Reading back the lines of messages

The line of a request and the line of a frame are read as what they were written for, as far as the values inside them are. A frame says nothing of the protocol version, so its line is never read as a request.
-/

namespace LoadGenerator.Message

open JsonReader RecordType

/-! ## Ids and kinds -/

private theorem reads_value {v : Json} {id : RequestId} (hwritable : v.IsWritable) (hdepth : v.depth = 0) (hid : RequestId.ofJson? v.reread = some id)
    (d : Nat) : Reads (RequestId.codec.read d) v.render id := by
  intro rest hrest
  rw [RequestId.codec]
  dsimp only
  rw [bind_of_ok (value_rendered hwritable (hdepth ▸ Nat.zero_le d) rest hrest), hid]
  rfl

theorem returns_id (id : Option RequestId) (d : Nat) : RequestId.codec.option.Returns d id id := by
  cases id with
  | none => exact JsonCodec.returns_none _ d
  | some id =>
    have hreturns : RequestId.codec.Returns d id id := by
      cases id with
      | number n =>
        have hid : RequestId.ofJson? (Json.number (.natural n)).reread = some (.number n) := by
          rw [Json.reread, reread_natural]
          rfl
        have hdecode : RequestId.codec.decode (Json.number (.natural n)).reread = .ok (.number n) := by
          change RequestId.ofJson _ = _
          rw [RequestId.ofJson, hid]
        exact ⟨trivial, Nat.zero_le d, reads_value (v := .number (.natural n)) trivial rfl hid d, hdecode⟩
      | text s => exact ⟨trivial, Nat.zero_le d, reads_value (v := .string s) trivial rfl rfl d, rfl⟩
    exact JsonCodec.returns_some hreturns (by cases id <;> simp [RequestId.codec])

theorem returns_kind (kind : FrameKind) (d : Nat) : FrameKind.codec.Returns d kind kind where
  writable := trivial
  shallow := Nat.zero_le d
  reads := by
    intro rest _
    cases kind <;> rfl
  decodes := by cases kind <;> rfl

theorem parse_lineOf {α : Type} {codec : JsonCodec α} {a b : α} (h : Reads (codec.read depthLimit) (codec.encode a).render b) :
    codec.parse (String.ofList (lineOf codec a)) = .ok b := by
  rw [JsonCodec.parse, String.toList_ofList, lineOf, run_line h]

theorem parse_value_lineOf {α : Type} {codec : JsonCodec α} {a b : α} (h : codec.Returns depthLimit a b) :
    Json.parse (String.ofList (lineOf codec a)) = .ok (codec.encode a).reread := by
  rw [Json.parse, String.toList_ofList, lineOf, run_line (value_rendered h.writable h.shallow)]

theorem isFullLine_lineOf {α : Type} (record : RecordType α) (a : α) : IsFullLine (lineOf record.codec a) where
  newline := ⟨_, Json.newline_notMem_render _, rfl⟩
  visible := rfl

/-! ## Requests -/

namespace Request

/-- What the line of a request is read as: the request, with its metadata in the order of their keys. -/
def received (request : Request) : Request :=
  { request with params := request.params.reread, metadata := Json.sortMembers request.metadata }

theorem returns {request : Request} (hwritable : request.params.IsWritable) {d : Nat} (hdepth : request.params.depth ≤ d + 1) :
    codec.Returns (d + 2) request request.received := by
  have homitted : request.metadata.isEmpty = true →
      Presence.defaulted ≠ .required ∧ { record.blank with metadata := Json.sortMembers request.metadata } = record.blank := by
    intro hempty
    rw [List.isEmpty_iff.mp hempty]
    exact ⟨by decide, rfl⟩
  exact RecordType.returns
    (.cons (.always (JsonCodec.returns_string _ _)) <| .cons (.always (returns_id _ _)) <| .cons (.always (JsonCodec.returns_string _ _)) <|
      .cons (.always (JsonCodec.returns_json hwritable hdepth)) <| .cons (.of_returns (JsonCodec.returns_texts _ d) homitted) .nil)
    (by decide) (by simp) rfl

theorem parse_line {request : Request} (hwritable : request.params.IsWritable) (hdepth : request.params.depth < depthLimit) :
    codec.parse (String.ofList request.line) = .ok request.received :=
  parse_lineOf (returns hwritable (show request.params.depth ≤ 125 + 1 from Nat.le_of_lt_succ hdepth)).reads

end Request

/-! ## Responses -/

/-- What an error is read as: data of null count as none. -/
def RpcError.received (e : RpcError) : RpcError := { e with data := (e.data.filter (!·.isNull)).map Json.reread }

theorem RpcError.returns {e : RpcError} {d : Nat} (hwritable : ∀ data ∈ e.data, data.IsWritable) (hdepth : ∀ data ∈ e.data, data.depth ≤ d) :
    codec.Returns (d + 1) e e.received := by
  have homitted : e.data.isNone = true → Presence.defaulted ≠ .required ∧
      { record.blank with data := (e.data.filter (!·.isNull)).map Json.reread } = record.blank := by
    intro hnone
    rw [Option.isNone_iff_eq_none.mp hnone]
    exact ⟨by decide, rfl⟩
  exact RecordType.returns
    (.cons (.always (JsonCodec.returns_int32 _ _)) <| .cons (.always (JsonCodec.returns_string _ _)) <|
      .cons (.of_returns (JsonCodec.returns_json_option hwritable hdepth) homitted) .nil)
    (by decide) (by simp) rfl

namespace Response

/-- What a response is read as: a result of null counts as none. -/
def received (response : Response) : Response :=
  { response with
    result := (response.result.filter (!·.isNull)).map Json.reread
    error := response.error.map RpcError.received
    metadata := Json.sortMembers response.metadata }

/-- All values in the response have texts and are nested at most as deep as a reader allows that reads this deep. -/
structure Fits (response : Response) (depth : Nat) : Prop where
  result : ∀ result ∈ response.result, result.IsWritable ∧ result.depth ≤ depth + 1
  error : ∀ error ∈ response.error, ∀ data ∈ error.data, data.IsWritable ∧ data.depth ≤ depth

theorem returns {response : Response} {d : Nat} (h : response.Fits d) : codec.Returns (d + 2) response response.received := by
  have herror : RpcError.codec.option.Returns (d + 1) response.error (response.error.map RpcError.received) := by
    cases herror : response.error with
    | none => exact JsonCodec.returns_none _ _
    | some error =>
      have hdata := h.error error herror
      exact JsonCodec.returns_some (RpcError.returns (fun data hmem => (hdata data hmem).1) fun data hmem => (hdata data hmem).2) nofun
  have hresult : JsonCodec.json.option.Returns (d + 1) response.result ((response.result.filter (!·.isNull)).map Json.reread) :=
    JsonCodec.returns_json_option (fun result hmem => (h.result result hmem).1) fun result hmem => (h.result result hmem).2
  refine RecordType.returns
    (.cons (.always (JsonCodec.returns_string _ _)) <| .cons (.of_returns (returns_id _ _) fun hnone => ?_) <|
      .cons (.of_returns hresult fun hnone => ?_) <| .cons (.of_returns herror fun hnone => ?_) <|
      .cons (.of_returns (JsonCodec.returns_texts _ d) fun hempty => ?_) .nil)
    (by decide) (by simp) rfl
  · rw [Option.isNone_iff_eq_none.mp hnone]
    exact ⟨by decide, rfl⟩
  · rw [Option.isNone_iff_eq_none.mp hnone]
    exact ⟨by decide, rfl⟩
  · rw [Option.isNone_iff_eq_none.mp hnone]
    exact ⟨by decide, rfl⟩
  · rw [List.isEmpty_iff.mp hempty]
    exact ⟨by decide, rfl⟩

end Response

/-! ## Frames -/

namespace Frame

/-- The members of a frame as they are written, with what they are read as. -/
private def entries (frame : Frame) : List (Entry Frame) :=
  [⟨"type", FrameKind.codec.encode frame.kind, fun f => { f with kind := frame.kind }⟩,
    ⟨"id", RequestId.codec.option.encode frame.id, fun f => { f with id := frame.id }⟩] ++
    if frame.data.isNull then [] else [⟨"data", frame.data, fun f => { f with data := frame.data.reread }⟩]

private theorem encode_eq (frame : Frame) : codec.encode frame = entriesObject frame.entries := by
  obtain ⟨kind, id, data⟩ := frame
  cases data <;> rfl

private theorem keys_nodup (frame : Frame) : (frame.entries.map Entry.key).Nodup := by
  rw [entries]
  split_ifs
  · exact (by decide : ["type", "id"].Nodup)
  · exact (by decide : ["type", "id", "data"].Nodup)

private theorem entries_suit {frame : Frame} (hwritable : frame.data.IsWritable) {d : Nat} (hdepth : frame.data.depth ≤ d) :
    ∀ entry ∈ frame.entries, entry.Suits record d := by
  intro entry hentry
  rw [entries, List.mem_append] at hentry
  rcases hentry with hentry | hentry
  · simp only [List.mem_cons, List.not_mem_nil, or_false] at hentry
    rcases hentry with rfl | rfl
    · exact fun a => RecordMember.reads_of (returns_kind frame.kind _).reads a
    · exact fun a => RecordMember.reads_of (returns_id frame.id _).reads a
  · split_ifs at hentry
    · cases hentry
    · obtain rfl := List.mem_singleton.mp hentry
      exact fun a => RecordMember.reads_of (JsonCodec.reads_json hwritable hdepth) a

theorem returns {frame : Frame} (hwritable : frame.data.IsWritable) {d : Nat} (hdepth : frame.data.depth ≤ d) :
    codec.Returns (d + 1) frame { frame with data := frame.data.reread } := by
  have homitted : frame.data.isNull = true → Presence.defaulted ≠ .required ∧ { record.blank with data := frame.data.reread } = record.blank := by
    intro hnull
    rw [Json.eq_null_of_isNull hnull]
    exact ⟨by decide, rfl⟩
  exact RecordType.returns
    (.cons (.always (returns_kind _ _)) <| .cons (.always (returns_id _ _)) <|
      .cons (.of_returns (JsonCodec.returns_json hwritable hdepth) homitted) .nil)
    (by decide) (by simp) rfl

theorem parse_line {frame : Frame} (hwritable : frame.data.IsWritable) (hdepth : frame.data.depth < depthLimit) :
    codec.parse (String.ofList frame.line) = .ok { frame with data := frame.data.reread } :=
  parse_lineOf (returns hwritable (show frame.data.depth ≤ 126 from Nat.le_of_lt_succ hdepth)).reads

/-- A frame is refused where its data are nested too deep. -/
theorem parse_line_too_deep {frame : Frame} (hwritable : frame.data.IsWritable) (hdepth : depthLimit ≤ frame.data.depth) :
    ∃ e, codec.parse (String.ofList frame.line) = .error e := by
  have hentries : frame.entries = { frame with data := .null }.entries ++ [⟨"data", frame.data, fun f => { f with data := frame.data.reread }⟩] := by
    obtain ⟨kind, id, data⟩ := frame
    cases data with
    | null => cases hdepth
    | _ => rfl
  have hfront := entries_suit (show ({ frame with data := .null } : Frame).data.IsWritable from trivial) (Nat.zero_le 126)
  have hnodup := keys_nodup frame
  rw [JsonCodec.parse, String.toList_ofList, line, lineOf, encode_eq]
  rw [hentries] at hnodup ⊢
  refine run_line_of_error (read_refused hfront (List.cons_ne_nil _ _) hnodup ?_ rfl ?_ _)
  · exact (by decide : "data" ∉ ["id", "type"])
  · exact fun a => RecordMember.refuses_of (value_too_deep hwritable hdepth) a

/-- What is known of a frame as a request: its id only. -/
private def asRequest (frame : Frame) : List (Entry Request) :=
  [⟨"type", FrameKind.codec.encode frame.kind, fun r => r⟩,
    ⟨"id", RequestId.codec.option.encode frame.id, fun r => { r with id := frame.id }⟩] ++
    if frame.data.isNull then [] else [⟨"data", frame.data, fun r => r⟩]

private theorem encode_eq_asRequest (frame : Frame) : codec.encode frame = entriesObject frame.asRequest := by
  obtain ⟨kind, id, data⟩ := frame
  cases data <;> rfl

/-- The line of a frame is no request, since it lacks the protocol version. -/
theorem parse_line_request {frame : Frame} (hwritable : frame.data.IsWritable) :
    ∃ e, Request.codec.parse (String.ofList frame.line) = .error e := by
  have hnodup : (frame.asRequest.map Entry.key).Nodup := by
    rw [asRequest]
    split_ifs
    · exact (by decide : ["type", "id"].Nodup)
    · exact (by decide : ["type", "id", "data"].Nodup)
  have hsuit : ∀ entry ∈ frame.asRequest, entry.Suits Request.record 126 := by
    intro entry hentry
    rw [asRequest, List.mem_append] at hentry
    rcases hentry with hentry | hentry
    · simp only [List.mem_cons, List.not_mem_nil, or_false] at hentry
      rcases hentry with rfl | rfl
      · exact ⟨trivial, rfl⟩
      · exact fun a => RecordMember.reads_of (returns_id frame.id _).reads a
    · split_ifs at hentry
      · cases hentry
      · obtain rfl := List.mem_singleton.mp hentry
        exact ⟨hwritable, rfl⟩
  have hmissing : Request.record.missing? (Request.record.seenAfter [] frame.asRequest) = some "jsonrpc" := by
    obtain ⟨kind, id, data⟩ := frame
    cases data <;> rfl
  rw [JsonCodec.parse, String.toList_ofList, line, lineOf]
  rw [encode_eq_asRequest]
  exact run_line_of_error ⟨_, read_incomplete hsuit hnodup hmissing ['\n']⟩

end Frame

end LoadGenerator.Message
