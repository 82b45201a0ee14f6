import LoadGenerator.Client.Basic
import Mathlib.Tactic

/-!
# Which messages make a result

A client reads one stream of messages, whatever calls it makes. A message belongs to the call that is open when it is read: the frames before the response of a call give its items, the response gives its value or its error, and nothing else has a part in what the call returns. The ids on the messages have none either.
-/

namespace LoadGenerator.Client

open Message

/-! ## Messages -/

namespace Incoming

/-- The id that the message carries. -/
def id? : Incoming → Option RequestId
  | .frame f => f.id
  | .response r => r.id

/-- The same message under another id. -/
def retag (id : Option RequestId) : Incoming → Incoming
  | .frame f => .frame { f with id }
  | .response r => .response { r with id }

/-- The data of an item. -/
def item? : Incoming → Option Json
  | .frame f => match f.kind with
    | .item => some f.data
    | .finish => none
  | .response _ => none

def IsFrame (message : Incoming) : Prop := ∃ frame, message = .frame frame

@[simp] theorem item?_retag (id : Option RequestId) (message : Incoming) : (message.retag id).item? = message.item? := by
  cases message <;> rfl

/-- Two messages that differ in their ids at most. -/
def Alike (message other : Incoming) : Prop := message.retag none = other.retag none

theorem Alike.item?_eq {message other : Incoming} (h : message.Alike other) : message.item? = other.item? := by
  rw [← item?_retag none, h, item?_retag]

theorem Alike.isFrame {message other : Incoming} (h : message.Alike other) (hframe : other.IsFrame) : message.IsFrame := by
  obtain ⟨f, rfl⟩ := hframe
  cases message with
  | frame f => exact ⟨f, rfl⟩
  | response r => cases h

theorem Alike.response {message : Incoming} {r : Response} (h : message.Alike (.response r)) :
    ∃ id, message = .response { r with id } := by
  cases message with
  | frame f => cases h
  | response r' =>
    obtain ⟨version, id, result, error, metadata⟩ := r'
    cases h
    exact ⟨id, rfl⟩

end Incoming

/-- The data in the items among the messages, in order. -/
def itemData (messages : List Incoming) : List Json := messages.filterMap Incoming.item?

theorem itemData_append (front back : List Incoming) : itemData (front ++ back) = itemData front ++ itemData back :=
  List.filterMap_append

theorem itemData_alike {messages others : List Incoming} (h : List.Forall₂ Incoming.Alike messages others) :
    itemData messages = itemData others := by
  induction h with
  | nil => rfl
  | cons halike _ ih =>
    rw [itemData, itemData] at ih
    rw [itemData, itemData, List.filterMap_cons, List.filterMap_cons, halike.item?_eq, ih]

theorem isFrame_alike {messages others : List Incoming} (h : List.Forall₂ Incoming.Alike messages others)
    (hframes : ∀ message ∈ others, message.IsFrame) : ∀ message ∈ messages, message.IsFrame := by
  induction h with
  | nil => exact nofun
  | cons halike _ ih =>
    obtain ⟨hframe, hframes⟩ := List.forall_mem_cons.mp hframes
    exact List.forall_mem_cons.mpr ⟨halike.isFrame hframe, ih hframes⟩

theorem alike_concat {messages earlier : List Incoming} {last : Incoming} (h : List.Forall₂ Incoming.Alike messages (earlier ++ [last])) :
    ∃ earlier' last', messages = earlier' ++ [last'] ∧ List.Forall₂ Incoming.Alike earlier' earlier ∧ last'.Alike last := by
  obtain ⟨last', rest, hlast, hrest, hdrop⟩ := List.forall₂_cons_right_iff.mp (List.forall₂_drop_append _ _ _ h)
  obtain rfl := List.forall₂_nil_right_iff.mp hrest
  refine ⟨messages.take earlier.length, last', ?_, List.forall₂_take_append _ _ _ h, hlast⟩
  rw [← hdrop, List.take_append_drop]

/-- What a call keeps of the items that it takes; after as many as it has requests, an exchange drops them. -/
def Invocation.kept : Invocation → List Json → List Json
  | .repeated _, data => data
  | .exchange requests, data => data.take requests.length
  | _, _ => []

@[simp] theorem Invocation.kept_nil (invocation : Invocation) : invocation.kept [] = [] := by
  cases invocation with
  | exchange requests => exact List.take_nil
  | _ => rfl

/-! ## Values -/

section

variable {α : Type} {result : Except JsonError α} {f : α → Value}

theorem map_eq_ok_iff {value : Value} : f <$> result = .ok value ↔ ∃ a, result = .ok a ∧ value = f a := by
  cases result with
  | error e => exact iff_of_false (fun h => by cases h) fun ⟨_, h, _⟩ => by cases h
  | ok a => simp [eq_comm]

theorem map_eq_error_iff {e : JsonError} : f <$> result = .error e ↔ result = .error e := by
  cases result <;> simp

end

namespace Invocation

/-- The value of a call that has kept these items, where the response has this result. The calls that are answered by items make no use of it. -/
inductive Gives (items : List WorkResponse) (result : Json) : Invocation → Value → Prop where
  | health {health : Health} (h : Health.codec.ofJson result = .ok health) : Gives items result .health (.health health)
  | ping {reply : PingReply} (h : PingReply.codec.ofJson result = .ok reply) : Gives items result .ping (.pong reply)
  | work {request : WorkRequest} {response : WorkResponse} (h : WorkResponse.codec.ofJson result = .ok response) :
      Gives items result (.work request) (.work response)
  | tally {requests : List WorkRequest} {summary : WorkSummary} (h : WorkSummary.codec.ofJson result = .ok summary) :
      Gives items result (.tally requests) (.summary summary)
  | repeated (request : RepeatRequest) : Gives items result (.repeated request) (.responses items)
  | exchange (requests : List WorkRequest) : Gives items result (.exchange requests) (.responses items)
  | raw (method : String) (params : Json) : Gives items result (.raw method params) (.raw result)

/-- The result is not of the kind that the call is answered by. -/
inductive Baffles (result : Json) (e : JsonError) : Invocation → Prop where
  | health (h : Health.codec.ofJson result = .error e) : Baffles result e .health
  | ping (h : PingReply.codec.ofJson result = .error e) : Baffles result e .ping
  | work {request : WorkRequest} (h : WorkResponse.codec.ofJson result = .error e) : Baffles result e (.work request)
  | tally {requests : List WorkRequest} (h : WorkSummary.codec.ofJson result = .error e) : Baffles result e (.tally requests)

variable {invocation : Invocation} {items : List WorkResponse} {result : Json}

theorem valueOf_eq_ok_iff {value : Value} : invocation.valueOf items result = .ok value ↔ invocation.Gives items result value := by
  constructor
  · intro h
    cases invocation with
    | health =>
      obtain ⟨health, hhealth, rfl⟩ := map_eq_ok_iff.mp h
      exact .health hhealth
    | ping =>
      obtain ⟨reply, hreply, rfl⟩ := map_eq_ok_iff.mp h
      exact .ping hreply
    | work request =>
      obtain ⟨response, hresponse, rfl⟩ := map_eq_ok_iff.mp h
      exact .work hresponse
    | tally requests =>
      obtain ⟨summary, hsummary, rfl⟩ := map_eq_ok_iff.mp h
      exact .tally hsummary
    | repeated request => exact Except.ok.inj h ▸ .repeated request
    | exchange requests => exact Except.ok.inj h ▸ .exchange requests
    | raw method params => exact Except.ok.inj h ▸ .raw method params
  · intro h
    cases h with
    | health h | ping h | work h | tally h => exact map_eq_ok_iff.mpr ⟨_, h, rfl⟩
    | repeated | exchange | raw => rfl

theorem valueOf_eq_error_iff {e : JsonError} : invocation.valueOf items result = .error e ↔ invocation.Baffles result e := by
  constructor
  · intro h
    cases invocation with
    | health => exact .health (map_eq_error_iff.mp h)
    | ping => exact .ping (map_eq_error_iff.mp h)
    | work request => exact .work (map_eq_error_iff.mp h)
    | tally requests => exact .tally (map_eq_error_iff.mp h)
    | repeated | exchange | raw => cases h
  · intro h
    cases h with
    | health h | ping h | work h | tally h => exact map_eq_error_iff.mpr h

theorem Gives.unique {value other : Value} (h : invocation.Gives items result value) (h' : invocation.Gives items result other) : value = other :=
  Except.ok.inj ((valueOf_eq_ok_iff.mpr h).symm.trans (valueOf_eq_ok_iff.mpr h'))

theorem Gives.not_baffles {value : Value} {e : JsonError} (h : invocation.Gives items result value) : ¬ invocation.Baffles result e := by
  intro h'
  have hvalue := (valueOf_eq_ok_iff.mpr h).symm.trans (valueOf_eq_error_iff.mpr h')
  cases hvalue

theorem Baffles.unique {e e' : JsonError} (h : invocation.Baffles result e) (h' : invocation.Baffles result e') : e = e' := by
  cases h <;> cases h' <;> simp_all

end Invocation

/-! ## Results -/

/-- What a call returns once it has taken these messages. -/
inductive Explains (invocation : Invocation) (messages : List Incoming) : Except Failure Reply → Prop where
  /-- The last message is a response, and the items before it are those in the frames. -/
  | value {earlier : List Incoming} {response : Response} {items : List WorkResponse} {reply : Reply}
      (hmessages : messages = earlier ++ [.response response]) (hframes : ∀ message ∈ earlier, message.IsFrame) (herror : response.error = none)
      (hitems : (invocation.kept (itemData earlier)).map WorkResponse.codec.ofJson = items.map .ok)
      (hvalue : invocation.Gives items (response.result.getD .null) reply.value) (hmetadata : reply.metadata = response.metadata) :
      Explains invocation messages (.ok reply)
  /-- The last message is a response with an error. -/
  | refused {earlier : List Incoming} {response : Response} {error : RpcError} (hmessages : messages = earlier ++ [.response response])
      (hframes : ∀ message ∈ earlier, message.IsFrame) (herror : response.error = some error) :
      Explains invocation messages (.error (.rpc error))
  /-- The last message is a response whose result is not the value of such a call. -/
  | valueless {earlier : List Incoming} {response : Response} {items : List WorkResponse} {e : JsonError}
      (hmessages : messages = earlier ++ [.response response]) (hframes : ∀ message ∈ earlier, message.IsFrame) (herror : response.error = none)
      (hitems : (invocation.kept (itemData earlier)).map WorkResponse.codec.ofJson = items.map .ok)
      (hvalue : invocation.Baffles (response.result.getD .null) e) :
      Explains invocation messages (.error (.malformed e))
  /-- The last message is an item that the call would keep, and is none. -/
  | garbled {earlier : List Incoming} {message : Incoming} {data : Json} {e : JsonError} (hmessages : messages = earlier ++ [message])
      (hframes : ∀ message ∈ messages, message.IsFrame) (hitem : message.item? = some data) (he : WorkResponse.codec.ofJson data = .error e) :
      Explains invocation messages (.error (.malformed e))
  /-- The stream broke, or what came after the messages is none. -/
  | broken {failure : Failure} (hframes : ∀ message ∈ messages, message.IsFrame) (hfailure : ∀ error, failure ≠ .rpc error) :
      Explains invocation messages (.error failure)

/-- The ids on the messages have no part in a result. -/
theorem Explains.retag {invocation : Invocation} {messages : List Incoming} {result : Except Failure Reply}
    (h : Explains invocation messages result) {others : List Incoming} (halike : List.Forall₂ Incoming.Alike others messages) :
    Explains invocation others result := by
  cases h with
  | value hmessages hframes herror hitems hvalue hmetadata =>
    subst hmessages
    obtain ⟨earlier', last', rfl, hearlier, hlast⟩ := alike_concat halike
    obtain ⟨id, rfl⟩ := hlast.response
    exact .value rfl (isFrame_alike hearlier hframes) herror (by rwa [itemData_alike hearlier]) hvalue hmetadata
  | refused hmessages hframes herror =>
    subst hmessages
    obtain ⟨earlier', last', rfl, hearlier, hlast⟩ := alike_concat halike
    obtain ⟨id, rfl⟩ := hlast.response
    exact .refused rfl (isFrame_alike hearlier hframes) herror
  | valueless hmessages hframes herror hitems hvalue =>
    subst hmessages
    obtain ⟨earlier', last', rfl, hearlier, hlast⟩ := alike_concat halike
    obtain ⟨id, rfl⟩ := hlast.response
    exact .valueless rfl (isFrame_alike hearlier hframes) herror (by rwa [itemData_alike hearlier]) hvalue
  | garbled hmessages hframes hitem he =>
    subst hmessages
    have hframes' := isFrame_alike halike hframes
    obtain ⟨earlier', last', rfl, hearlier, hlast⟩ := alike_concat halike
    exact .garbled rfl hframes' (hlast.item?_eq.trans hitem) he
  | broken hframes hfailure => exact .broken (isFrame_alike halike hframes) hfailure

/-- Two replies after the same messages differ in their counts of bytes at most. -/
theorem Explains.value_eq {invocation : Invocation} {messages : List Incoming} {reply other : Reply}
    (h : Explains invocation messages (.ok reply)) (h' : Explains invocation messages (.ok other)) :
    reply.value = other.value ∧ reply.metadata = other.metadata := by
  obtain ⟨hmessages, -, -, hitems, hvalue, hmetadata⟩ := h
  obtain ⟨hmessages', -, -, hitems', hvalue', hmetadata'⟩ := h'
  obtain ⟨rfl, hresponse⟩ := List.append_inj' (hmessages.symm.trans hmessages') rfl
  obtain rfl := Incoming.response.inj (List.singleton_inj.mp hresponse)
  obtain rfl := List.map_injective_iff.mpr (fun _ _ => Except.ok.inj) (hitems.symm.trans hitems')
  exact ⟨hvalue.unique hvalue', hmetadata.trans hmetadata'.symm⟩

/-! ## Calls -/

namespace OpenCall

/-- Takes a message. -/
def takeMessage (call : OpenCall) : Incoming → OpenCall
  | .frame frame => match frame.kind with
    | .item => call.takeItem frame.data
    | .finish => call
  | .response response => call.takeResponse response

theorem takeLine_eq (call : OpenCall) (text : List Char) :
    call.takeLine text = match incomingOf text with
      | .error e => call.failed (.malformed e)
      | .ok message => call.takeMessage message := by
  unfold takeLine
  rcases incomingOf text with e | frame | response <;> rfl

/-- The message that the call takes in its next step, if it reads and there is one. -/
def message? (call : OpenCall) (wire : Wire) : Option Incoming :=
  match call.stage, wire.nextLine.1 with
  | .awaiting _, .line text | .collecting, .line text | .finishing, .line text => (incomingOf text).toOption
  | _, _ => none

/-- Where a call stands that has taken these items and goes on to read. -/
inductive Reads (call : OpenCall) (data : List Json) : Prop where
  | awaiting {left requests : List WorkRequest} (hstage : call.stage = .awaiting left) (hinvocation : call.invocation = .exchange requests)
      (hcount : data.length + left.length + 1 = requests.length)
  | collecting {request : RepeatRequest} (hstage : call.stage = .collecting) (hinvocation : call.invocation = .repeated request)
  | finishing (hstage : call.stage = .finishing) (hdropped : ∀ more, call.invocation.kept (data ++ more) = call.invocation.kept data)

/-- Where a call stands that has taken these items and has not returned. -/
inductive Stands (call : OpenCall) (data : List Json) : Prop where
  | opening (hstage : call.stage = .opening) (hdata : data = [])
  | sending {left : List WorkRequest} (hstage : call.stage = .sending left)
      (hinvocation : (∃ requests, call.invocation = .tally requests) ∨
        ∃ requests, call.invocation = .exchange requests ∧ data.length + left.length = requests.length)
  | reading (h : call.Reads data)

/-- A call and the messages that it has taken. -/
inductive Follows (call : OpenCall) (messages : List Incoming) : Prop where
  /-- Only frames have come, and the call has kept what it keeps of them. -/
  | live (hframes : ∀ message ∈ messages, message.IsFrame)
      (hitems : (call.invocation.kept (itemData messages)).map WorkResponse.codec.ofJson = call.items.map .ok)
      (hstands : call.Stands (itemData messages))
  | ended {result : Except Failure Reply} (hstage : call.stage = .ended result) (hexplains : Explains call.invocation messages result)

section

variable {call : OpenCall} {messages : List Incoming} {wire : Wire}

theorem Stands.result?_eq_none {data : List Json} (h : call.Stands data) : call.result? = none := by
  cases h with
  | opening hstage => rw [result?, hstage]
  | sending hstage => rw [result?, hstage]
  | reading h => cases h with
    | awaiting hstage => rw [result?, hstage]
    | collecting hstage => rw [result?, hstage]
    | finishing hstage => rw [result?, hstage]

theorem Follows.explains (h : call.Follows messages) {result : Except Failure Reply} (hresult : call.result? = some result) :
    Explains call.invocation messages result := by
  cases h with
  | live hframes hitems hstands =>
    rw [hstands.result?_eq_none] at hresult
    cases hresult
  | ended hstage hexplains =>
    rw [result?, hstage] at hresult
    obtain rfl := Option.some.inj hresult
    exact hexplains

theorem follows_takeResponse (call : OpenCall) (hframes : ∀ message ∈ messages, message.IsFrame)
    (hitems : (call.invocation.kept (itemData messages)).map WorkResponse.codec.ofJson = call.items.map .ok) (response : Response) :
    (call.takeResponse response).Follows (messages ++ [.response response]) := by
  unfold takeResponse
  cases herror : response.error with
  | some error => exact .ended rfl (.refused rfl hframes herror)
  | none =>
    cases hvalue : call.invocation.valueOf call.items (response.result.getD .null) with
    | error e => exact .ended rfl (.valueless rfl hframes herror hitems (Invocation.valueOf_eq_error_iff.mp hvalue))
    | ok value => exact .ended rfl (.value rfl hframes herror hitems (Invocation.valueOf_eq_ok_iff.mp hvalue) rfl)

/-- An item is kept where the call waits for one. -/
theorem takeItem_of_kept (hstage : (∃ left, call.stage = .awaiting left) ∨ call.stage = .collecting) (data : Json) :
    call.takeItem data = match WorkResponse.codec.ofJson data with
      | .ok item => { call with stage := afterTaking call.stage, items := call.items ++ [item] }
      | .error e => call.failed (.malformed e) := by
  cases hread : WorkResponse.codec.ofJson data
  all_goals
    rcases hstage with ⟨left, hstage⟩ | hstage
    all_goals simp only [takeItem, hstage, hread]

theorem follows_keepItem (hframes : ∀ message ∈ messages, message.IsFrame)
    (hitems : (call.invocation.kept (itemData messages)).map WorkResponse.codec.ofJson = call.items.map .ok) {f : Frame} (hkind : f.kind = .item)
    (hstage : (∃ left, call.stage = .awaiting left) ∨ call.stage = .collecting)
    (hkept : call.invocation.kept (itemData messages ++ [f.data]) = call.invocation.kept (itemData messages) ++ [f.data])
    (hstands : ∀ items, ({ call with stage := afterTaking call.stage, items } : OpenCall).Stands (itemData messages ++ [f.data])) :
    (call.takeItem f.data).Follows (messages ++ [.frame f]) := by
  have hframes' : ∀ message ∈ messages ++ [.frame f], message.IsFrame := by
    intro message hmessage
    rcases List.mem_append.mp hmessage with hmem | hlast
    · exact hframes message hmem
    · exact ⟨f, List.mem_singleton.mp hlast⟩
  have hdata : itemData (messages ++ [.frame f]) = itemData messages ++ [f.data] := by
    rw [itemData_append]
    simp [itemData, Incoming.item?, hkind]
  rw [takeItem_of_kept hstage]
  cases hitem : WorkResponse.codec.ofJson f.data with
  | error e => exact .ended rfl (.garbled rfl hframes' (by simp [Incoming.item?, hkind]) hitem)
  | ok item =>
    refine .live hframes' ?_ (by rw [hdata]; exact hstands _)
    dsimp only
    rw [hdata, hkept, List.map_append, hitems, List.map_append, List.map_singleton, List.map_singleton, hitem]

/-- A frame that the call has no use for. -/
theorem follows_drop (hframes : ∀ message ∈ messages, message.IsFrame)
    (hitems : (call.invocation.kept (itemData messages)).map WorkResponse.codec.ofJson = call.items.map .ok) (f : Frame)
    (hkept : call.invocation.kept (itemData (messages ++ [.frame f])) = call.invocation.kept (itemData messages))
    (hstands : call.Stands (itemData (messages ++ [.frame f]))) : call.Follows (messages ++ [.frame f]) := by
  refine .live ?_ (by rw [hkept, hitems]) hstands
  intro message hmessage
  rcases List.mem_append.mp hmessage with hmem | hlast
  · exact hframes message hmem
  · exact ⟨f, List.mem_singleton.mp hlast⟩

theorem Reads.follows_takeFrame (h : call.Reads (itemData messages)) (hframes : ∀ message ∈ messages, message.IsFrame)
    (hitems : (call.invocation.kept (itemData messages)).map WorkResponse.codec.ofJson = call.items.map .ok) (f : Frame) :
    (call.takeMessage (.frame f)).Follows (messages ++ [.frame f]) := by
  cases hkind : f.kind with
  | finish =>
    have htake : call.takeMessage (.frame f) = call := by rw [takeMessage, hkind]
    have hdata : itemData (messages ++ [.frame f]) = itemData messages := by
      rw [itemData_append]
      simp [itemData, Incoming.item?, hkind]
    rw [htake]
    exact follows_drop hframes hitems f (by rw [hdata]) (by rw [hdata]; exact .reading h)
  | item =>
    have htake : call.takeMessage (.frame f) = call.takeItem f.data := by rw [takeMessage, hkind]
    have hdata : itemData (messages ++ [.frame f]) = itemData messages ++ [f.data] := by
      rw [itemData_append]
      simp [itemData, Incoming.item?, hkind]
    rw [htake]
    cases h with
    | @awaiting left requests hstage hinvocation hcount =>
      refine follows_keepItem hframes hitems hkind (.inl ⟨left, hstage⟩) ?_ ?_
      · rw [hinvocation, Invocation.kept, List.take_of_length_le, Invocation.kept, List.take_of_length_le]
        · omega
        · rw [List.length_append, List.length_singleton]
          omega
      · intro items
        refine .sending (show _ = Stage.sending left by rw [hstage]; rfl) (.inr ⟨requests, hinvocation, ?_⟩)
        rw [List.length_append, List.length_singleton]
        omega
    | collecting hstage hinvocation =>
      refine follows_keepItem hframes hitems hkind (.inr hstage) (by rw [hinvocation]; rfl) ?_
      exact fun items => .reading (.collecting (by rw [hstage]; rfl) hinvocation)
    | finishing hstage hdropped =>
      have hsame : call.takeItem f.data = call := by simp only [takeItem, hstage]
      rw [hsame]
      refine follows_drop hframes hitems f (by rw [hdata, hdropped]) (.reading (.finishing hstage ?_))
      intro more
      rw [hdata, List.append_assoc, hdropped, hdropped]

/-- The counts of bytes are not part of where a call stands. -/
theorem Reads.count {data : List Json} (h : call.Reads data) (bytesIn : Nat) : ({ call with bytesIn } : OpenCall).Reads data := by
  cases h with
  | awaiting hstage hinvocation hcount => exact .awaiting hstage hinvocation hcount
  | collecting hstage hinvocation => exact .collecting hstage hinvocation
  | finishing hstage hdropped => exact .finishing hstage hdropped

theorem Reads.step_eq {data : List Json} (h : call.Reads data) (wire : Wire) : call.step wire = call.read wire := by
  cases h with
  | awaiting hstage => rw [step, hstage]
  | collecting hstage => rw [step, hstage]
  | finishing hstage => rw [step, hstage]

theorem Reads.message?_eq {data : List Json} (h : call.Reads data) (wire : Wire) :
    call.message? wire = match wire.nextLine.1 with
      | .line text => (incomingOf text).toOption
      | _ => none := by
  unfold message?
  cases h with
  | awaiting hstage => rw [hstage]; cases wire.nextLine.1 <;> rfl
  | collecting hstage => rw [hstage]; cases wire.nextLine.1 <;> rfl
  | finishing hstage => rw [hstage]; cases wire.nextLine.1 <;> rfl

theorem Reads.follows_step (h : call.Reads (itemData messages)) (hframes : ∀ message ∈ messages, message.IsFrame)
    (hitems : (call.invocation.kept (itemData messages)).map WorkResponse.codec.ofJson = call.items.map .ok) (wire : Wire) :
    (call.step wire).1.Follows (messages ++ (call.message? wire).toList) := by
  rw [h.step_eq, h.message?_eq, read]
  rcases wire.nextLine with ⟨read, size, wire'⟩
  cases read with
  | waiting =>
    rw [Option.toList_none, List.append_nil]
    exact .live hframes hitems (.reading (h.count _))
  | ended =>
    rw [Option.toList_none, List.append_nil]
    exact .ended rfl (.broken hframes nofun)
  | malformed fault =>
    rw [Option.toList_none, List.append_nil]
    exact .ended rfl (.broken hframes nofun)
  | line text =>
    dsimp only
    rw [takeLine_eq]
    rcases incomingOf text with e | f | response
    · rw [Except.toOption, Option.toList_none, List.append_nil]
      exact .ended rfl (.broken hframes nofun)
    · exact (h.count (call.bytesIn + size)).follows_takeFrame hframes hitems f
    · exact follows_takeResponse { call with bytesIn := call.bytesIn + size } hframes hitems response

/-- A call that writes takes no message; it goes on where the next stage is right for the items that it has taken. -/
theorem follows_write (hframes : ∀ message ∈ messages, message.IsFrame)
    (hitems : (call.invocation.kept (itemData messages)).map WorkResponse.codec.ofJson = call.items.map .ok) {line : List Char} {next : Stage}
    (hstands : ∀ bytesOut, ({ call with stage := next, bytesOut } : OpenCall).Stands (itemData messages)) :
    (call.write wire line next).1.Follows messages := by
  unfold write
  rcases wire.write (Utf8.encode line) with ⟨_ | _, wire'⟩
  · exact .ended rfl (.broken hframes nofun)
  · exact .live hframes hitems (hstands _)

theorem stands_afterRequest (hdata : itemData messages = []) (bytesOut : Nat) :
    ({ call with stage := afterRequest call.invocation, bytesOut } : OpenCall).Stands (itemData messages) := by
  cases call.invocation with
  | tally requests => exact .sending rfl (.inl ⟨requests, rfl⟩)
  | exchange requests => exact .sending rfl (.inr ⟨requests, rfl, by rw [hdata, List.length_nil, Nat.zero_add]⟩)
  | repeated request => exact .reading (.collecting rfl rfl)
  | _ => exact .reading (.finishing rfl fun more => rfl)

theorem Follows.step (h : call.Follows messages) (wire : Wire) :
    (call.step wire).1.Follows (messages ++ (call.message? wire).toList) := by
  cases h with
  | ended hstage hexplains =>
    have hsame : call.step wire = (call, wire) := by rw [OpenCall.step, hstage]
    have hnone : call.message? wire = none := by rw [message?, hstage]
    rw [hsame, hnone, Option.toList_none, List.append_nil]
    exact .ended hstage hexplains
  | live hframes hitems hstands =>
    cases hstands with
    | reading hreads => exact hreads.follows_step hframes hitems wire
    | opening hstage hdata =>
      have hwrite : call.step wire = call.write wire call.request.line (afterRequest call.invocation) := by rw [OpenCall.step, hstage]
      have hnone : call.message? wire = none := by rw [message?, hstage]
      rw [hwrite, hnone, Option.toList_none, List.append_nil]
      exact follows_write hframes hitems (stands_afterRequest hdata)
    | @sending left hstage hinvocation =>
      have hnone : call.message? wire = none := by rw [message?, hstage]
      rw [hnone, Option.toList_none, List.append_nil]
      cases left with
      | nil =>
        have hwrite : call.step wire = call.write wire (Frame.finish (some call.id)).line .finishing := by rw [OpenCall.step, hstage]
        rw [hwrite]
        refine follows_write hframes hitems fun bytesOut => .reading (.finishing rfl ?_)
        intro more
        dsimp only
        rcases hinvocation with ⟨requests, hinvocation⟩ | ⟨requests, hinvocation, hcount⟩
        · rw [hinvocation]
          rfl
        · rw [hinvocation, Invocation.kept, Invocation.kept, List.take_append_of_le_length]
          exact hcount.ge
      | cons request left =>
        have hwrite : call.step wire = call.write wire (call.itemLine request) (afterItem call.invocation left) := by rw [OpenCall.step, hstage]
        rw [hwrite]
        refine follows_write hframes hitems fun bytesOut => ?_
        rcases hinvocation with ⟨requests, hinvocation⟩ | ⟨requests, hinvocation, hcount⟩
        · exact .sending (by rw [hinvocation]; rfl) (.inl ⟨requests, hinvocation⟩)
        · refine .reading (.awaiting (by rw [hinvocation]; rfl) hinvocation ?_)
          rw [List.length_cons] at hcount
          omega

end

/-! ### What a step leaves as it is -/

/-- Two states of one call. -/
def Same (call other : OpenCall) : Prop := call.id = other.id ∧ call.invocation = other.invocation

theorem same_takeItem (call : OpenCall) (data : Json) : (call.takeItem data).Same call := by
  unfold takeItem
  split
  · split <;> exact ⟨rfl, rfl⟩
  · split <;> exact ⟨rfl, rfl⟩
  · exact ⟨rfl, rfl⟩

theorem same_takeResponse (call : OpenCall) (response : Response) : (call.takeResponse response).Same call := by
  unfold takeResponse
  split
  · exact ⟨rfl, rfl⟩
  · split <;> exact ⟨rfl, rfl⟩

theorem same_takeLine (call : OpenCall) (text : List Char) : (call.takeLine text).Same call := by
  unfold takeLine
  split
  · exact ⟨rfl, rfl⟩
  · split
    · exact same_takeItem call _
    · exact ⟨rfl, rfl⟩
  · exact same_takeResponse call _

theorem same_write (call : OpenCall) (wire : Wire) (line : List Char) (next : Stage) : (call.write wire line next).1.Same call := by
  unfold write
  rcases wire.write (Utf8.encode line) with ⟨_ | _, wire'⟩ <;> exact ⟨rfl, rfl⟩

theorem same_read (call : OpenCall) (wire : Wire) : (call.read wire).1.Same call := by
  unfold read
  rcases wire.nextLine with ⟨_ | _ | text | fault, size, wire'⟩
  · exact ⟨rfl, rfl⟩
  · exact ⟨rfl, rfl⟩
  · exact same_takeLine { call with bytesIn := call.bytesIn + size } text
  · exact ⟨rfl, rfl⟩

theorem same_step (call : OpenCall) (wire : Wire) : (call.step wire).1.Same call := by
  unfold step
  cases call.stage with
  | opening => exact same_write call wire _ _
  | sending left => cases left <;> exact same_write call wire _ _
  | awaiting left => exact same_read call wire
  | collecting => exact same_read call wire
  | finishing => exact same_read call wire
  | ended result => exact ⟨rfl, rfl⟩

end OpenCall

end LoadGenerator.Client

namespace LoadGenerator

open Client Message

/-! ## The calls of a client -/

/-- What can happen to a client. -/
inductive ClientEvent where
  /-- A caller makes the next call, whose request is to write its metadata in this order; a call that has not returned is given up. -/
  | begin (invocation : Invocation) (correlation : Correlation) (order : MapOrder)
  | step
  /-- Bytes arrive. -/
  | deliver (bytes : List UInt8)
  /-- The daemon ends its side. -/
  | endInput

namespace Client

def apply (client : Client) : ClientEvent → Client
  | .begin invocation correlation order => client.begin invocation correlation order
  | .step => client.step
  | .deliver bytes => { client with wire := client.wire.deliver bytes }
  | .endInput => { client with wire := client.wire.endInput }

/-- A call of a client, with the messages that it has taken and what it has returned. -/
structure CallRecord where
  id : UInt64
  invocation : Invocation
  messages : List Incoming := []
  result? : Option (Except Failure Reply) := none

/-- The records of the calls, the latest first, after one more event. -/
def record (client : Client) (records : List CallRecord) : ClientEvent → List CallRecord
  | .begin invocation _ _ => { id := client.nextId, invocation } :: records
  | .step =>
    match client.call, records with
    | some call, last :: earlier =>
      { last with messages := last.messages ++ (call.message? client.wire).toList, result? := client.step.result? } :: earlier
    | _, _ => records
  | .deliver _ | .endInput => records

/-- The client after these events, and the records of its calls. -/
def history (client : Client) (events : List ClientEvent) : Client × List CallRecord :=
  events.foldl (fun (client, records) event => (client.apply event, client.record records event)) (client, [])

/-- The records are those of the calls of this client. -/
structure Recorded (client : Client) (records : List CallRecord) : Prop where
  nextId : client.nextId = UInt64.ofNat (records.length + 1)
  ids : records.map (·.id) = (List.range records.length).reverse.map fun place => UInt64.ofNat (place + 1)
  open? : ∀ call, client.call = some call → ∃ last earlier, records = last :: earlier ∧ call.Follows last.messages ∧
    call.id = .number last.id ∧ call.invocation = last.invocation ∧ call.result? = last.result?
  results : ∀ record ∈ records, ∀ result, record.result? = some result → Explains record.invocation record.messages result

theorem recorded_start (wire : Wire) : Recorded { wire } [] := by
  refine ⟨by simp, rfl, ?_, ?_⟩
  · intro call hcall
    cases hcall
  · intro record hrecord
    cases hrecord

theorem Recorded.begin {client : Client} {records : List CallRecord} (h : Recorded client records) (invocation : Invocation)
    (correlation : Correlation) (order : MapOrder) : Recorded (client.begin invocation correlation order) ({ id := client.nextId, invocation } :: records) where
  nextId := by
    rw [List.length_cons, UInt64.ofNat_add (records.length + 1), ← h.nextId]
    rfl
  ids := by
    rw [List.map_cons, h.ids, h.nextId, List.length_cons, List.range_succ, List.reverse_append]
    rfl
  open? := by
    intro call hcall
    obtain rfl := Option.some.inj hcall
    refine ⟨_, records, rfl, .live nofun ?_ (.opening rfl rfl), rfl, rfl, rfl⟩
    exact congrArg _ (Invocation.kept_nil invocation)
  results := by
    intro record hrecord
    rcases List.mem_cons.mp hrecord with rfl | hearlier
    · exact nofun
    · exact h.results record hearlier

theorem Recorded.step {client : Client} {records : List CallRecord} (h : Recorded client records) :
    Recorded client.step (client.record records .step) := by
  cases hcall : client.call with
  | none =>
    have hstep : client.step = client := by simp only [Client.step, hcall]
    have hrecord : client.record records .step = records := by simp only [record, hcall]
    rwa [hstep, hrecord]
  | some call =>
    obtain ⟨last, earlier, rfl, hfollows, hid, hinvocation, hresult⟩ := h.open? call hcall
    have hstep : client.step = { client with wire := (call.step client.wire).2, call := some (call.step client.wire).1 } := by
      simp only [Client.step, hcall]
    have hrecord : client.record (last :: earlier) .step =
        { last with
          messages := last.messages ++ (call.message? client.wire).toList
          result? := (call.step client.wire).1.result? } :: earlier := by
      simp only [record, hcall, hstep]
      rfl
    obtain ⟨hid', hinvocation'⟩ := call.same_step client.wire
    have hnext := hfollows.step client.wire
    rw [hstep, hrecord]
    refine ⟨h.nextId, h.ids, ?_, ?_⟩
    · intro next hcall'
      obtain rfl := Option.some.inj hcall'
      exact ⟨_, earlier, rfl, hnext, hid'.trans hid, hinvocation'.trans hinvocation, rfl⟩
    · intro record hmem result hresult'
      rcases List.mem_cons.mp hmem with rfl | hearlier
      · have hexplains := hnext.explains hresult'
        rwa [hinvocation', hinvocation] at hexplains
      · exact h.results record (List.mem_cons_of_mem last hearlier) result hresult'

theorem Recorded.apply {client : Client} {records : List CallRecord} (h : Recorded client records) (event : ClientEvent) :
    Recorded (client.apply event) (client.record records event) := by
  cases event with
  | begin invocation correlation order => exact h.begin invocation correlation order
  | step => exact h.step
  | deliver bytes => exact ⟨h.nextId, h.ids, h.open?, h.results⟩
  | endInput => exact ⟨h.nextId, h.ids, h.open?, h.results⟩

theorem recorded_history (wire : Wire) (events : List ClientEvent) :
    Recorded (history { wire } events).1 (history { wire } events).2 := by
  induction events using List.reverseRecOn with
  | nil => exact recorded_start wire
  | append_singleton events event ih =>
    unfold history at ih ⊢
    rw [List.foldl_append]
    exact ih.apply event

/-- A call returns what the messages make of it that are read while it is open, whatever ids they carry.

In every history of a client, with calls that return, fail early or are given up while lines are on their way, and with whatever bytes the daemon's side sends in whatever portions, the calls have the ids one, two, three and so on. A call that returns a value has read frames and then a response without an error; its items are those in the frames, in order, up to the number that it waits for, and its value is the result of that response. An error of the daemon is that of the last response that the call has read. Under other ids the same messages make the same result, so that a result is of the call's own messages just where no others come. -/
theorem messages_make_results (wire : Wire) (events : List ClientEvent) :
    let records := (history { wire } events).2
    records.map (·.id) = (List.range records.length).reverse.map (fun place => UInt64.ofNat (place + 1)) ∧
      ∀ record ∈ records, ∀ result, record.result? = some result →
        Explains record.invocation record.messages result ∧
          ∀ others, List.Forall₂ Incoming.Alike others record.messages →
            Explains record.invocation others result ∧
              ∀ reply other, result = .ok reply → Explains record.invocation others (.ok other) →
                other.value = reply.value ∧ other.metadata = reply.metadata := by
  intro records
  have hrecorded := recorded_history wire events
  refine ⟨hrecorded.ids, ?_⟩
  intro record hrecord result hresult
  have hexplains := hrecorded.results record hrecord result hresult
  refine ⟨hexplains, ?_⟩
  intro others halike
  refine ⟨hexplains.retag halike, ?_⟩
  rintro reply other rfl hother
  exact hother.value_eq (hexplains.retag halike)

/-- A call is given up before its response arrives, and the next call returns that response for its own. -/
theorem messages_make_results_late_response :
    let response := "\x7b\"jsonrpc\":\"2.0\",\"id\":1\x7d\n"
    let ping : ClientEvent := .begin (.raw "burner.Ping" .null) {} .listed
    let events : List ClientEvent := [ping, .step, ping, .step, .deliver (Utf8.encode response.toList), .step]
    ∃ record ∈ (history {} events).2, record.id = 2 ∧ record.messages.map Incoming.id? = [some (.number 1)] ∧
      ∃ reply, record.result? = some (.ok reply) ∧ Explains record.invocation record.messages (.ok reply) := by
  intro response ping events
  have hrun : (history {} events).2.map (fun record => (record.id, record.messages.map Incoming.id?, record.result?.elim false Except.isOk)) =
      [(2, [some (.number 1)], true), (1, [], false)] := by
    decide +kernel
  obtain ⟨record, hmem, hrecord⟩ := List.mem_map.mp (hrun ▸ List.mem_cons_self)
  obtain ⟨hid, hids, hok⟩ : record.id = 2 ∧ record.messages.map Incoming.id? = [some (.number 1)] ∧
      record.result?.elim false Except.isOk = true := by simpa using hrecord
  obtain ⟨-, hresults⟩ := messages_make_results {} events
  refine ⟨record, hmem, hid, hids, ?_⟩
  rcases hresult : record.result? with _ | failure | reply
  · rw [hresult] at hok
    cases hok
  · rw [hresult] at hok
    cases hok
  · exact ⟨reply, rfl, (hresults record hmem _ hresult).1⟩

end Client

end LoadGenerator
