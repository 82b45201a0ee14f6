import LoadGenerator.Proofs.Connection.OpenCall
import LoadGenerator.Proofs.Message.Metadata
import LoadGenerator.Proofs.Service.Counts

/-!
# The account of a connection

A connection turns the lines of a text into passages. Each begins with a line that is read between calls: nothing is written for a blank line, one response for a line that opens no call, and for a call its item frames and then its response. The account of a connection says which passages are behind it and what has been read and written since, and a step keeps it.
-/

namespace LoadGenerator.Message

/-- The members of a response are those that it has. -/
theorem Response.get?_result (response : Response) : (Response.codec.encode response).get? "result" = response.result := by
  obtain ⟨version, id, result, error, metadata⟩ := response
  cases id <;> cases result <;> cases error <;> cases metadata <;> rfl

theorem Response.get?_error (response : Response) :
    (Response.codec.encode response).get? "error" = response.error.map RpcError.codec.encode := by
  obtain ⟨version, id, result, error, metadata⟩ := response
  cases id <;> cases result <;> cases error <;> cases metadata <;> rfl

/-- The response ends the call of the request: it has the id of the request, either a result or an error, and the ids under which the caller or the connection knows the call. -/
structure Response.Closes (ids : Nat → String) (request : Request) (response : Response) : Prop where
  id : response.id = request.id
  version : response.version = protocolVersion
  outcome : ((Response.codec.encode response).get? "result").isSome = !((Response.codec.encode response).get? "error").isSome
  requestId : ∃ id, response.metadata.lookup Metadata.requestIdKey = some id ∧
    (Metadata.value? request.metadata Metadata.requestIdKey = some id ∨
      Metadata.value? request.metadata Metadata.requestIdKey = none ∧ ∃ k, id = ids k)
  traceId : response.metadata.lookup Metadata.traceIdKey = Metadata.value? request.metadata Metadata.traceIdKey

end LoadGenerator.Message

namespace LoadGenerator

open Message Service

namespace Connection

/-! ## Passages -/

/-- One line that was read between calls, with all that it brought about. -/
structure Passage where
  line : List Char
  /-- The lines that its call read. -/
  stream : List (List Char) := []
  frames : List Frame := []
  response : Option Response := none

/-- The lines that were read. -/
def Passage.lines (passage : Passage) : List (List Char) := passage.line :: passage.stream

/-- The text that was written. -/
def Passage.written (passage : Passage) : List Char :=
  passage.frames.flatMap Frame.line ++ (passage.response.map Response.line).getD []

/-- The line opens a call. -/
structure Opens (line : List Char) (request : Request) : Prop where
  visible : isBlankLine line = false
  parsed : Request.codec.parse (String.ofList line) = .ok request
  version : request.version = protocolVersion

/-- What one line brings about. -/
inductive Passage.IsProper (ids : Nat → String) : Passage → Prop where
  | blank (line : List Char) (hline : isBlankLine line = true) : IsProper ids { line }
  | unreadable (line : List Char) (e : JsonError) (hline : isBlankLine line = false)
      (hparse : Request.codec.parse (String.ofList line) = .error e) :
      IsProper ids { line, response := some (.plainFailure none parseErrorCode e.message) }
  | version (line : List Char) (request : Request) (message : String) (hline : isBlankLine line = false)
      (hparse : Request.codec.parse (String.ofList line) = .ok request) (hversion : request.version ≠ protocolVersion) :
      IsProper ids { line, response := some (.plainFailure request.id invalidRequestCode message) }
  | call (line : List Char) (stream : List (List Char)) (request : Request) (frames : List Frame) (response : Response)
      (hopens : Opens line request)
      (hstream : stream ≠ [] → request.method = tallyMethod ∨ request.method = exchangeMethod)
      (hframes : ∀ frame ∈ frames, frame.kind = .item ∧ frame.id = request.id)
      (hmethod : frames ≠ [] → request.method = repeatMethod ∨ request.method = exchangeMethod)
      (hresponse : response.Closes ids request) :
      IsProper ids { line, stream, frames, response := some response }

section

variable {ids : Nat → String} {passages : List Passage} {line : List Char} {lines : List (List Char)}

/-- The first line that was read begins the first passage. -/
theorem exists_first_passage (h : line :: lines = passages.flatMap Passage.lines) :
    ∃ passage rest, passages = passage :: rest ∧ passage.line = line ∧ lines = passage.stream ++ rest.flatMap Passage.lines := by
  cases passages with
  | nil => cases h
  | cons passage rest =>
    obtain ⟨hline, hlines⟩ := List.cons.inj h
    exact ⟨passage, rest, rfl, hline.symm, hlines⟩

variable (hproper : ∀ passage ∈ passages, passage.IsProper ids) (h : line :: lines = passages.flatMap Passage.lines)

include hproper h

theorem passages_of_blank (hline : isBlankLine line = true) :
    ∃ rest, passages = { line } :: rest ∧ (∀ passage ∈ rest, passage.IsProper ids) ∧ lines = rest.flatMap Passage.lines := by
  obtain ⟨passage, rest, rfl, rfl, hlines⟩ := exists_first_passage h
  obtain ⟨hpassage, hrest⟩ := List.forall_mem_cons.mp hproper
  cases hpassage with
  | blank => exact ⟨rest, rfl, hrest, hlines⟩
  | unreadable _ _ hvisible | version _ _ _ hvisible => simp [hvisible] at hline
  | call _ _ _ _ _ hopens => simp [hopens.visible] at hline

theorem passages_of_unreadable (hline : isBlankLine line = false) {e : JsonError} (hparse : Request.codec.parse (String.ofList line) = .error e) :
    ∃ rest, passages = { line, response := some (.plainFailure none parseErrorCode e.message) } :: rest ∧
      (∀ passage ∈ rest, passage.IsProper ids) ∧ lines = rest.flatMap Passage.lines := by
  obtain ⟨passage, rest, rfl, rfl, hlines⟩ := exists_first_passage h
  obtain ⟨hpassage, hrest⟩ := List.forall_mem_cons.mp hproper
  cases hpassage with
  | blank _ hblank => simp [hblank] at hline
  | unreadable _ e' _ hparse' =>
    obtain rfl : e' = e := by simpa [hparse'] using hparse
    exact ⟨rest, rfl, hrest, hlines⟩
  | version _ _ _ _ hparse' => simp [hparse'] at hparse
  | call _ _ _ _ _ hopens => simp [hopens.parsed] at hparse

/-- A call that reads no stream is over with its own line. -/
theorem passages_of_opens {request : Request} (hopens : Opens line request) (hmethod : request.method ≠ tallyMethod ∧ request.method ≠ exchangeMethod) :
    ∃ frames response rest, passages = { line, frames, response := some response } :: rest ∧ response.Closes ids request ∧
      (∀ passage ∈ rest, passage.IsProper ids) ∧ lines = rest.flatMap Passage.lines := by
  obtain ⟨passage, rest, rfl, rfl, hlines⟩ := exists_first_passage h
  obtain ⟨hpassage, hrest⟩ := List.forall_mem_cons.mp hproper
  have hparsed := hopens.parsed
  cases hpassage with
  | blank _ hblank => simp [hopens.visible] at hblank
  | unreadable _ _ _ hparse => simp [hparse] at hparsed
  | version _ other _ _ hparse hversion =>
    obtain rfl : other = request := by simpa [hparse] using hparsed
    exact absurd hopens.version hversion
  | call _ stream other frames response hopens' hstream _ _ hcloses =>
    obtain rfl : other = request := by simpa [hopens'.parsed] using hparsed
    obtain rfl : stream = [] := by
      by_contra hsome
      exact (hstream hsome).elim hmethod.1 hmethod.2
    exact ⟨frames, response, rest, rfl, hcloses, hrest, hlines⟩

end

/-! ## Where a connection stands -/

/-- An open call knows the ids of its request and suits its method. -/
structure OpenCall.Fits (ids : Nat → String) (request : Request) (call : OpenCall) : Prop where
  id : call.stream.id = request.id
  requestId : Metadata.value? request.metadata Metadata.requestIdKey = some call.requestId ∨
    Metadata.value? request.metadata Metadata.requestIdKey = none ∧ ∃ k, call.requestId = ids k
  traceId : call.traceId = (Metadata.value? request.metadata Metadata.traceIdKey).getD ""
  suits : call.call.Suits request.method

/-- The lines that were read since the last passage, and the frames that were written. -/
inductive Standing (ids : Nat → String) : Phase → List (List Char) → List Frame → Prop where
  | idle : Standing ids .idle [] []
  | closed : Standing ids (.closed none) [] []
  | serving (call : OpenCall) (line : List Char) (stream : List (List Char)) (request : Request) (frames : List Frame)
      (hopens : Opens line request) (hfits : call.Fits ids request)
      (hstream : stream ≠ [] → request.method = tallyMethod ∨ request.method = exchangeMethod)
      (hframes : ∀ frame ∈ frames, frame.kind = .item ∧ frame.id = request.id)
      (hmethod : frames ≠ [] → request.method = repeatMethod ∨ request.method = exchangeMethod) :
      Standing ids (.serving call) (line :: stream) frames

/-- All that a connection has read of a text and written for it. -/
structure Account (ids : Nat → String) (conn : Connection) (missing : List UInt8) (text : List Char)
    (passages : List Passage) (taken : List (List Char)) (frames : List Frame) (rest : List Char) : Prop where
  proper : ∀ passage ∈ passages, passage.IsProper ids
  standing : Standing ids conn.phase taken frames
  lines_eq : textLines text = passages.flatMap Passage.lines ++ (taken ++ textLines rest)
  outbox_eq : conn.wire.outbox = Utf8.encode (passages.flatMap Passage.written ++ frames.flatMap Frame.line)
  expects : conn.wire.Expects missing rest
  room : conn.wire.room = none
  ids_eq : conn.ids = ids
  cancelled : conn.shutdown = true → ∀ call, conn.phase = .serving call → call.stream.cancelled = true
  closed : conn.isClosed = true → rest = [] ∨ conn.shutdown = true

/-- What a connection has done with a text is accounted for. -/
def Accounted (ids : Nat → String) (conn : Connection) (missing : List UInt8) (text : List Char) : Prop :=
  ∃ passages taken frames rest, Account ids conn missing text passages taken frames rest

theorem account_start (ids : Nat → String) (orders : Nat → MapOrder) (text : List Char) :
    Account ids { ids, orders } (Utf8.encode text) text [] [] [] text where
  proper := List.forall_mem_nil _
  standing := .idle
  lines_eq := rfl
  outbox_eq := rfl
  expects := ⟨rfl, fun hended => by cases hended⟩
  room := rfl
  ids_eq := rfl
  cancelled := fun hshutdown => by cases hshutdown
  closed := fun hclosed => by cases hclosed

theorem accounted_start (ids : Nat → String) (orders : Nat → MapOrder) (text : List Char) : Accounted ids { ids, orders } (Utf8.encode text) text :=
  ⟨[], [], [], text, account_start ids orders text⟩

/-! ## What is added to an account -/

/-- The labels of an open call, and the bytes that it has counted so far. -/
structure Meter where
  labels : CallLabels
  bytesIn : Nat
  bytesOut : Nat

def OpenCall.meter (call : OpenCall) : Meter := ⟨call.labels, call.stream.bytesIn, call.stream.bytesOut⟩

def meter? (conn : Connection) : Option Meter :=
  match conn.phase with
  | .serving call => some call.meter
  | _ => none

theorem meter?_of_serving {conn : Connection} {call : OpenCall} (hphase : conn.phase = .serving call) :
    conn.meter? = some call.meter := by
  rw [meter?, hphase]

theorem meter?_of_idle {conn : Connection} (hphase : conn.phase = .idle) : conn.meter? = none := by
  rw [meter?, hphase]

/-- What an event adds to the passages, to what is read and written of the present one, and to the log, with what the open call counts of it. -/
inductive Grows (conn : Connection) (log : List CallEvent) (passages : List Passage) (taken : List (List Char)) (frames : List Frame)
    (next : Connection) : List CallEvent → List Passage → List (List Char) → List Frame → Prop where
  | still (hmeter : next.meter? = conn.meter?) : Grows conn log passages taken frames next log passages taken frames
  /-- A line that opens no call is passed over or rejected. -/
  | aside {passage : Passage} (hopens : ∀ request, ¬ Opens passage.line request) (hstream : passage.stream = [])
      (htaken : taken = []) (hframes : frames = []) (hmeter : next.meter? = none) :
      Grows conn log passages taken frames next log (passages ++ [passage]) [] []
  | opened {line : List Char} {request : Request} (hopens : Opens line request) (htaken : taken = []) (hframes : frames = [])
      (hmeter : next.meter? = some ⟨⟨callMode request.method request.params, request.method⟩, Utf8.size line, 0⟩) :
      Grows conn log passages taken frames next log passages [line] []
  | goesOn {meter : Meter} (taken' : List (List Char)) (frames' : List Frame) (hbefore : conn.meter? = some meter)
      (hmeter : next.meter? = some ⟨meter.labels, meter.bytesIn + Utf8.size taken'.flatten,
        meter.bytesOut + Utf8.size (frames'.flatMap Frame.line)⟩) :
      Grows conn log passages taken frames next log passages (taken ++ taken') (frames ++ frames')
  | ended {meter : Meter} {line : List Char} {stream : List (List Char)} {request : Request} {response : Response} {event : CallEvent}
      (htaken : taken = line :: stream) (hopens : Opens line request) (hbefore : conn.meter? = some meter)
      (hevent : (event.labels, event.bytesIn, event.bytesOut) =
        (meter.labels, meter.bytesIn, meter.bytesOut + Utf8.size response.line))
      (hmeter : next.meter? = none) :
      Grows conn log passages taken frames next (log ++ [event])
        (passages ++ [{ line, stream, frames, response := some response }]) [] []

/-- The account goes on after an event, by what the event has added to it. -/
def Continues (ids : Nat → String) (missing : List UInt8) (text : List Char) (conn : Connection) (log : List CallEvent)
    (passages : List Passage) (taken : List (List Char)) (frames : List Frame) (result : Connection × Shared) : Prop :=
  ∃ passages' taken' frames' rest', Account ids result.1 missing text passages' taken' frames' rest' ∧
    Grows conn log passages taken frames result.1 result.2.log passages' taken' frames'

theorem Continues.accounted {ids : Nat → String} {missing : List UInt8} {text : List Char} {conn : Connection} {log : List CallEvent}
    {passages : List Passage} {taken : List (List Char)} {frames : List Frame} {result : Connection × Shared}
    (h : Continues ids missing text conn log passages taken frames result) : Accounted ids result.1 missing text := by
  obtain ⟨passages', taken', frames', rest', haccount, -⟩ := h
  exact ⟨passages', taken', frames', rest', haccount⟩

/-! ## Steps towards the end -/

/-- A bound on the steps until the connection is closed or reads another line. -/
def weight (conn : Connection) : Nat :=
  match conn.phase with
  | .closed _ => 0
  | .idle => 1
  | .serving call => call.call.weight + 2

theorem weight_of_idle {conn : Connection} (hphase : conn.phase = .idle) : conn.weight = 1 := by
  rw [weight, hphase]

theorem weight_of_serving {conn : Connection} {call : OpenCall} (hphase : conn.phase = .serving call) :
    conn.weight = call.call.weight + 2 := by
  rw [weight, hphase]

theorem isClosed_iff_weight_eq_zero {conn : Connection} : conn.isClosed = true ↔ conn.weight = 0 := by
  unfold isClosed weight
  cases conn.phase <;> simp

/-- A step after which the flags are as before, and that is nearer to the end if the connection is to end. -/
structure Advances (conn next : Connection) : Prop where
  shutdown_eq : next.shutdown = conn.shutdown
  inputEnded_eq : next.wire.inputEnded = conn.wire.inputEnded
  nearer : conn.wire.inputEnded = true ∨ conn.shutdown = true →
    next.wire.inbox.length ≤ conn.wire.inbox.length ∧ next.weight < conn.weight ∨
      next.wire.inbox.length < conn.wire.inbox.length ∧ conn.shutdown = false ∧ next.weight < 4294967302

section

variable {ids : Nat → String} {conn : Connection} {missing : List UInt8} {text rest : List Char} {passages : List Passage}
  {taken : List (List Char)} {frames : List Frame} (settings : Settings) (shared : Shared)

theorem isClosed_of_idle (hphase : conn.phase = .idle) : conn.isClosed = false := by
  rw [isClosed, hphase]

theorem Account.addPassage (h : Account ids conn missing text passages taken frames rest) {passage : Passage}
    (hproper : passage.IsProper ids) {next : Connection} (hphase : next.phase = .idle) {rest' : List Char}
    (htaken : taken ++ textLines rest = passage.lines ++ textLines rest')
    (houtbox : next.wire.outbox = Utf8.encode (passages.flatMap Passage.written ++ passage.written))
    (hexpects : next.wire.Expects missing rest') (hroom : next.wire.room = none) (hids : next.ids = ids) :
    Account ids next missing text (passages ++ [passage]) [] [] rest' where
  proper other hother := by
    rcases List.mem_append.mp hother with hmem | hmem
    · exact h.proper other hmem
    · rwa [List.mem_singleton.mp hmem]
  standing := by
    rw [hphase]
    exact .idle
  lines_eq := by simp [h.lines_eq, htaken]
  outbox_eq := by simp [houtbox]
  expects := hexpects
  room := hroom
  ids_eq := hids
  cancelled _ call hcall := by
    rw [hphase] at hcall
    cases hcall
  closed hclosed := by
    rw [isClosed_of_idle hphase] at hclosed
    cases hclosed

/-! ## Between calls -/

theorem reject_of_room (hroom : conn.wire.room = none) (response : Response) :
    conn.reject response =
      { conn with wire := { conn.wire with outbox := conn.wire.outbox ++ Utf8.encode response.line }, phase := .idle } := by
  simp only [reject, write_of_room hroom, afterWrite, if_true]

theorem OpenCall.fits_ofRequest (ids : Nat → String) (request : Request) (k : Nat) (order : MapOrder) (size : Nat) :
    (OpenCall.ofRequest settings request (ids k) order size).Fits ids request where
  id := rfl
  requestId := by
    cases hgiven : Metadata.value? request.metadata Metadata.requestIdKey with
    | some given => exact .inl (by simp [OpenCall.ofRequest, hgiven])
    | none => exact .inr ⟨rfl, k, by simp [OpenCall.ofRequest, hgiven]⟩
  traceId := rfl
  suits := (openCall_suits settings request.method request.params).1

/-- The connection as it stands between calls with a line just read. -/
structure HasRead (conn next : Connection) (missing : List UInt8) (rest : List Char) : Prop where
  phase : next.phase = .idle
  live : next.shutdown = false
  expects : next.wire.Expects missing rest
  outbox_eq : next.wire.outbox = conn.wire.outbox
  room : next.wire.room = none
  ids_eq : next.ids = conn.ids

/-- A line that is read between calls becomes a passage or opens a call. -/
theorem Account.takeLine {front rest' : List Char} (h : Account ids conn missing text passages [] [] rest)
    (hlines : textLines rest = front :: textLines rest') {next : Connection} (hread : conn.HasRead next missing rest') :
    Continues ids missing text conn shared.log passages [] [] (takeLine settings next shared front) := by
  have houtbox := h.outbox_eq
  rw [List.flatMap_nil, List.append_nil, ← hread.outbox_eq] at houtbox
  have hids : next.ids = ids := hread.ids_eq.trans h.ids_eq
  unfold Connection.takeLine
  by_cases hblank : isBlankLine front = true
  · rw [if_pos hblank]
    have hopens : ∀ request, ¬ Opens front request := fun request hopens => by simp [hopens.visible] at hblank
    exact ⟨_, _, _, _, h.addPassage (.blank front hblank) hread.phase hlines (by simp [houtbox, Passage.written])
      hread.expects hread.room hids, .aside hopens rfl rfl rfl (meter?_of_idle hread.phase)⟩
  · rw [if_neg hblank]
    rw [Bool.not_eq_true] at hblank
    cases hparse : Request.codec.parse (String.ofList front) with
    | error e =>
      dsimp only
      rw [reject_of_room hread.room]
      have hopens : ∀ request, ¬ Opens front request := fun request hopens => by simp [hopens.parsed] at hparse
      exact ⟨_, _, _, _, h.addPassage (.unreadable front e hblank hparse) rfl hlines
        (by simp [houtbox, Passage.written, unreadableResponse])
        ⟨hread.expects.bytes, hread.expects.complete⟩ hread.room hids, .aside hopens rfl rfl rfl (meter?_of_idle rfl)⟩
    | ok request =>
      dsimp only
      by_cases hversion : request.version = protocolVersion
      · rw [if_neg (not_not_intro hversion)]
        have hfits := OpenCall.fits_ofRequest settings ids request next.idsUsed (next.orders next.callsOpened) (Utf8.size front)
        rw [← hids] at hfits
        have hopens : Opens front request := ⟨hblank, hparse, hversion⟩
        refine ⟨passages, [front], [], rest', ⟨h.proper, ?_, by simp [h.lines_eq, hlines], ?_, hread.expects, hread.room,
          hids, ?_, nofun⟩, .opened hopens rfl rfl rfl⟩
        · rw [← hids]
          exact .serving _ front [] request [] hopens hfits (by simp) (by simp) (by simp)
        · simpa [Connection.openCall] using houtbox
        · intro hshutdown
          rw [show (Connection.openCall settings next shared request (Utf8.size front)).1.shutdown = next.shutdown from rfl,
            hread.live] at hshutdown
          cases hshutdown
      · rw [if_pos hversion, reject_of_room hread.room]
        have hproper : Passage.IsProper ids { line := front, response := some (versionResponse request) } :=
          .version front request _ hblank hparse hversion
        have hopens : ∀ other, ¬ Opens front other := fun other hopens => by
          obtain rfl := Except.ok.inj (hparse.symm.trans hopens.parsed)
          exact hversion hopens.version
        exact ⟨_, _, _, _, h.addPassage hproper rfl hlines (by simp [houtbox, Passage.written])
          ⟨hread.expects.bytes, hread.expects.complete⟩ hread.room hids, .aside hopens rfl rfl rfl (meter?_of_idle rfl)⟩

/-- Whatever the line is, the rest of the inbox stays and the connection is between calls or at the start of one. -/
theorem takeLine_frame (next : Connection) (hroom : next.wire.room = none) (hphase : next.phase = .idle) (front : List Char) :
    (takeLine settings next shared front).1.wire.inbox = next.wire.inbox ∧
      (takeLine settings next shared front).1.wire.inputEnded = next.wire.inputEnded ∧
      (takeLine settings next shared front).1.shutdown = next.shutdown ∧
      (takeLine settings next shared front).1.weight < 4294967302 := by
  have hidle : ∀ other : Connection, other.phase = .idle → other.weight < 4294967302 := by
    intro other hother
    rw [weight_of_idle hother]
    norm_num
  unfold Connection.takeLine
  split_ifs with hblank
  · exact ⟨rfl, rfl, rfl, hidle next hphase⟩
  · cases Request.codec.parse (String.ofList front) with
    | error e =>
      dsimp only
      rw [reject_of_room hroom]
      exact ⟨rfl, rfl, rfl, hidle _ rfl⟩
    | ok request =>
      dsimp only
      split_ifs
      · rw [reject_of_room hroom]
        exact ⟨rfl, rfl, rfl, hidle _ rfl⟩
      · have hweight := (openCall_suits settings request.method request.params).2
        refine ⟨rfl, rfl, rfl, ?_⟩
        simp only [Connection.openCall, weight, OpenCall.ofRequest]
        omega

theorem Account.close (h : Account ids conn missing text passages [] [] rest) (hphase : conn.phase = .idle)
    (hend : rest = [] ∨ conn.shutdown = true) :
    Continues ids missing text conn shared.log passages [] [] ({ conn with phase := .closed none }, shared) := by
  refine ⟨passages, [], [], rest, ⟨h.proper, .closed, h.lines_eq, h.outbox_eq, h.expects, h.room, h.ids_eq, ?_, fun _ => hend⟩,
    .still (meter?_of_idle hphase).symm⟩
  intro _ call hcall
  cases hcall

theorem Account.stepIdle (h : Account ids conn missing text passages [] [] rest) (hphase : conn.phase = .idle) :
    Continues ids missing text conn shared.log passages [] [] (conn.stepIdle settings shared) ∧
      conn.Advances (conn.stepIdle settings shared).1 := by
  have hclose : conn.Advances { conn with phase := .closed none } := by
    refine ⟨rfl, rfl, fun _ => .inl ⟨le_rfl, ?_⟩⟩
    rw [weight_of_idle hphase]
    exact Nat.one_pos
  unfold Connection.stepIdle
  by_cases hshutdown : conn.shutdown = true
  · rw [if_pos hshutdown]
    exact ⟨h.close shared hphase (.inr hshutdown), hclose⟩
  · rw [if_neg hshutdown]
    rw [Bool.not_eq_true] at hshutdown
    have hread := h.expects.readsLine
    generalize conn.wire.readLine = reading at hread
    cases hread with
    | waiting hopen hpart =>
      refine ⟨⟨_, _, _, _, h, .still rfl⟩, rfl, rfl, ?_⟩
      rw [hopen, hshutdown]
      rintro (hfalse | hfalse) <;> cases hfalse
    | ended hended htext =>
      exact ⟨h.close shared hphase (.inl htext), hclose⟩
    | line front rest' inbox htext hfront hline hinbox hexpects =>
      have hlines := Wire.textLines_of_line hfront hline
      rw [← htext] at hlines
      have hshorter : inbox.length < conn.wire.inbox.length := by
        have hpositive := List.length_pos_iff.mpr fun hnil => hfront (Utf8.encode_eq_nil_iff.mp hnil)
        rw [hinbox, List.length_append]
        omega
      dsimp only
      obtain ⟨hinbox', hended', hshutdown', hweight'⟩ := takeLine_frame settings shared
        { conn with wire := { conn.wire with inbox } } h.room hphase front
      refine ⟨h.takeLine settings shared hlines ⟨hphase, hshutdown, hexpects, rfl, h.room, rfl⟩, hshutdown', hended',
        fun _ => .inr ⟨?_, hshutdown, hweight'⟩⟩
      rwa [hinbox']

/-! ## While a call is open -/

theorem OpenCall.Fits.lookup_response {request : Request} {call : OpenCall} (h : call.Fits ids request) (outcome : Except Status Reply) :
    (call.response outcome).metadata.lookup Metadata.requestIdKey = some call.requestId ∧
      (call.response outcome).metadata.lookup Metadata.traceIdKey = Metadata.value? request.metadata Metadata.traceIdKey := by
  have htrace := h.traceId
  rw [call.lookup_response, call.lookup_response]
  unfold OpenCall.metadata
  cases hgiven : Metadata.value? request.metadata Metadata.traceIdKey with
  | none =>
    rw [hgiven, Option.getD_none] at htrace
    rw [htrace]
    exact ⟨rfl, rfl⟩
  | some given =>
    have hvisible : given.isEmpty = false := by
      have hfilter := Option.filter_eq_some_iff.mp hgiven
      simpa using hfilter.2
    rw [hgiven, Option.getD_some] at htrace
    rw [htrace, if_neg (by simp [hvisible])]
    exact ⟨rfl, rfl⟩

theorem OpenCall.Fits.closes {request : Request} {call : OpenCall} (h : call.Fits ids request)
    (outcome : Except Status Reply) : (call.response outcome).Closes ids request := by
  obtain ⟨hrequestId, htraceId⟩ := h.lookup_response outcome
  refine ⟨?_, ?_, ?_, ⟨call.requestId, hrequestId, h.requestId⟩, htraceId⟩
  · rw [← h.id]
    cases outcome <;> rfl
  · cases outcome <;> rfl
  · rw [Response.get?_result, Response.get?_error]
    cases outcome <;> rfl

/-- The lines that a step takes and the frames that it writes are those of the call. -/
theorem CallEffect.standing {call : OpenCall} {line : List Char} {stream taken' : List (List Char)} {request : Request}
    {wire' : Wire} {next : Call} {stream' : CallStream} {before after : List Char} {frames' : List Frame} {inbox : List UInt8}
    (heffect : CallEffect request.method call.call conn.wire call.stream missing before next wire' stream' taken' after frames' inbox)
    (hopens : Opens line request) (hfits : call.Fits ids request)
    (hstream : stream ≠ [] → request.method = tallyMethod ∨ request.method = exchangeMethod)
    (hframes : ∀ frame ∈ frames, frame.kind = .item ∧ frame.id = request.id)
    (hmethod : frames ≠ [] → request.method = repeatMethod ∨ request.method = exchangeMethod) :
    Standing ids (.serving { call with call := next, stream := stream' }) (line :: (stream ++ taken')) (frames ++ frames') := by
  refine .serving _ line _ request _ hopens ⟨heffect.id_eq.trans hfits.id, hfits.requestId, hfits.traceId, heffect.suits⟩ ?_ ?_ ?_
  · intro hnonempty
    rcases not_and_or.mp (List.append_eq_nil_iff.not.mp hnonempty) with hold | hnew
    · exact hstream hold
    · exact heffect.taken_method hnew
  · intro frame hframe
    rcases List.mem_append.mp hframe with hold | hnew
    · exact hframes frame hold
    · obtain ⟨response, rfl⟩ := heffect.frames_item frame hnew
      exact ⟨rfl, hfits.id⟩
  · intro hnonempty
    rcases not_and_or.mp (List.append_eq_nil_iff.not.mp hnonempty) with hold | hnew
    · exact hmethod hold
    · exact heffect.frames_method hnew

theorem Account.stepCall (h : Account ids conn missing text passages taken frames rest) {call : OpenCall}
    (hphase : conn.phase = .serving call) :
    Continues ids missing text conn shared.log passages taken frames (conn.stepCall settings shared call) ∧
      conn.Advances (conn.stepCall settings shared call).1 := by
  have ⟨hproper, hstanding, hlines, houtbox, hexpects, hroom, hids, hcancelled, _⟩ := h
  rw [hphase] at hstanding
  have hweight := weight_of_serving hphase
  cases hstanding with
  | serving _ line stream request _ hopens hfits hstream hframes hmethod =>
    unfold Connection.stepCall
    cases houtcome : call.call.outcome? with
    | some outcome =>
      have hpassage : Passage.IsProper ids { line, stream, frames, response := some (call.response outcome) } :=
        .call line stream request frames _ hopens hstream hframes hmethod (hfits.closes outcome)
      dsimp only [Connection.closeCall]
      rw [writeLine_of_room hroom]
      refine ⟨⟨_, _, _, _, h.addPassage hpassage rfl rfl ?_ ⟨hexpects.bytes, hexpects.complete⟩ hroom hids,
        .ended rfl hopens (meter?_of_serving hphase) rfl (meter?_of_idle rfl)⟩, rfl, rfl, fun _ => .inl ⟨le_rfl, ?_⟩⟩
      · simp [houtbox, Passage.written]
      · rw [hweight]
        simp [weight, afterWrite]
    | none =>
      obtain ⟨taken', rest', frames', inbox, heffect⟩ :=
        CallEffect.step settings.limits shared hfits.suits houtcome hexpects hroom
      generalize hstep : call.call.step peer settings.limits shared (conn.wire, call.stream) = result at heffect
      have hlog : result.2.2.1.log = shared.log := by rw [← hstep, Call.log_step]
      obtain ⟨act, next, shared', wire', stream'⟩ := result
      dsimp only at heffect hlog ⊢
      obtain rfl := heffect.wire_eq
      have hmeter : OpenCall.meter { call with call := next, stream := stream' } =
          ⟨call.meter.labels, call.meter.bytesIn + Utf8.size taken'.flatten, call.meter.bytesOut + Utf8.size (frames'.flatMap Frame.line)⟩ := by
        rw [OpenCall.meter, heffect.bytesIn_eq, heffect.bytesOut_eq]
        rfl
      refine ⟨⟨passages, line :: (stream ++ taken'), frames ++ frames', rest', ⟨hproper,
        heffect.standing hopens hfits hstream hframes hmethod, ?lines, ?outbox,
        ⟨heffect.expects.bytes, heffect.expects.complete⟩, hroom, hids, ?cancelled, nofun⟩, ?grows⟩, rfl, rfl, ?nearer⟩
      case lines => rw [hlines, heffect.lines_eq, ← List.append_assoc (line :: stream), List.cons_append]
      case outbox => simp [houtbox]
      case grows =>
        rw [hlog]
        exact .goesOn taken' frames' (meter?_of_serving hphase) (congrArg some hmeter)
      case cancelled =>
        intro hshutdown other hother
        obtain rfl := Phase.serving.inj hother
        rw [heffect.cancelled_eq]
        exact hcancelled hshutdown call hphase
      case nearer =>
        intro hend
        have hcalled : conn.wire.inputEnded = true ∨ call.stream.cancelled = true :=
          hend.imp_right fun hshutdown => hcancelled hshutdown call hphase
        rw [hweight, weight_of_serving rfl]
        rcases heffect.progress hcalled with ⟨hinbox, hless⟩ | ⟨hinbox, hlive, hless⟩
        · exact .inl ⟨hinbox, Nat.add_lt_add_right hless 2⟩
        · refine .inr ⟨hinbox, ?_, Nat.add_lt_add_right hless 2⟩
          by_contra hshutdown
          rw [hcancelled (by simpa using hshutdown) call hphase] at hlive
          cases hlive

/-! ## Steps and looks -/

theorem Account.step (h : Account ids conn missing text passages taken frames rest) :
    Continues ids missing text conn shared.log passages taken frames (conn.step settings shared) ∧
      (conn.isClosed = false → conn.Advances (conn.step settings shared).1) := by
  unfold Connection.step
  cases hphase : conn.phase with
  | idle =>
    have hstanding := h.standing
    rw [hphase] at hstanding
    cases hstanding
    have hstep := h.stepIdle settings shared hphase
    exact ⟨hstep.1, fun _ => hstep.2⟩
  | serving call =>
    have hstep := h.stepCall settings shared hphase
    exact ⟨hstep.1, fun _ => hstep.2⟩
  | closed failure =>
    refine ⟨⟨_, _, _, _, h, .still rfl⟩, ?_⟩
    simp [isClosed, hphase]

theorem Accounted.step (h : Accounted ids conn missing text) :
    Accounted ids (conn.step settings shared).1 missing text ∧
      (conn.isClosed = false → conn.Advances (conn.step settings shared).1) := by
  obtain ⟨passages, taken, frames, rest, h⟩ := h
  exact (h.step settings shared).imp_left Continues.accounted

/-- An open call may change in all but its ids and its own state. -/
theorem Standing.replace {call other : OpenCall} (h : Standing ids (.serving call) taken frames)
    (hid : other.stream.id = call.stream.id) (hrequestId : other.requestId = call.requestId)
    (htraceId : other.traceId = call.traceId) (hcall : other.call = call.call) :
    Standing ids (.serving other) taken frames := by
  cases h with
  | serving _ line stream request _ hopens hfits hstream hframes hmethod =>
    have hother : other.Fits ids request := by
      refine ⟨hid.trans hfits.id, ?_, htraceId.trans hfits.traceId, ?_⟩
      · rw [hrequestId]
        exact hfits.requestId
      · rw [hcall]
        exact hfits.suits
    exact .serving other line stream request frames hopens hother hstream hframes hmethod

theorem Account.cancelCall (h : Account ids conn missing text passages taken frames rest) {shutdown : Bool}
    (hshutdown : conn.shutdown = true → shutdown = true) :
    Account ids { conn with shutdown }.cancelCall missing text passages taken frames rest := by
  have ⟨hproper, hstanding, hlines, houtbox, hexpects, hroom, hids, hcancelled, hclosed⟩ := h
  unfold Connection.cancelCall
  cases hphase : conn.phase with
  | idle =>
    rw [hphase] at hstanding
    refine ⟨hproper, hstanding, hlines, houtbox, hexpects, hroom, hids, ?_, nofun⟩
    intro _ other hother
    cases hother
  | closed failure =>
    rw [hphase] at hstanding
    refine ⟨hproper, hstanding, hlines, houtbox, hexpects, hroom, hids, ?_, ?_⟩
    · intro _ other hother
      cases hother
    · exact fun _ => (hclosed (by rw [isClosed, hphase])).imp_right hshutdown
  | serving call =>
    rw [hphase] at hstanding
    refine ⟨hproper, hstanding.replace rfl rfl rfl rfl, hlines, houtbox, hexpects, hroom, hids, ?_, nofun⟩
    intro _ other hother
    obtain rfl := Phase.serving.inj hother
    rfl

/-- What looking out for the peer can do: nothing, to stop looking, or to cancel the call of a peer that has hung up. -/
inductive Watched (conn : Connection) : Connection → Prop where
  | still : Watched conn conn
  | stops (call : OpenCall) (hphase : conn.phase = .serving call) :
      Watched conn { conn with phase := .serving { call with watching := false } }
  | hears (call : OpenCall) (hphase : conn.phase = .serving call) (hwatching : call.watching = true) (hdrained : conn.wire.drained = true) :
      Watched conn { conn with phase := .serving { call with watching := false } }.cancelCall

theorem watched (conn : Connection) : Watched conn conn.watch := by
  unfold Connection.watch
  cases hphase : conn.phase with
  | serving call =>
    dsimp only
    split_ifs with hblind hdrained
    · exact .still
    · exact .hears call hphase (by simpa using hblind) hdrained
    · exact .still
    · exact .stops call hphase
  | _ => exact .still

/-- A peer that has not hung up is not heard to. -/
theorem watch_of_open (hinput : conn.wire.inputEnded = false) :
    conn.watch = conn ∨ ∃ call, conn.phase = .serving call ∧ conn.watch = { conn with phase := .serving { call with watching := false } } := by
  have hwatched := conn.watched
  generalize conn.watch = next at hwatched
  cases hwatched with
  | still => exact .inl rfl
  | stops call hphase => exact .inr ⟨call, hphase, rfl⟩
  | hears call hphase hwatching hdrained =>
    rw [Wire.drained, hinput] at hdrained
    cases hdrained

theorem Account.stopWatching (h : Account ids conn missing text passages taken frames rest) {call : OpenCall} (hphase : conn.phase = .serving call) :
    Account ids { conn with phase := .serving { call with watching := false } } missing text passages taken frames rest := by
  have ⟨hproper, hstanding, hlines, houtbox, hexpects, hroom, hids, hcancelled, hclosed⟩ := h
  rw [hphase] at hstanding
  refine ⟨hproper, hstanding.replace rfl rfl rfl rfl, hlines, houtbox, hexpects, hroom, hids, ?_, nofun⟩
  intro hshutdown other hother
  obtain rfl := Phase.serving.inj hother
  exact hcancelled hshutdown call hphase

theorem Account.watch (h : Account ids conn missing text passages taken frames rest) :
    Account ids conn.watch missing text passages taken frames rest := by
  have hwatched := conn.watched
  generalize conn.watch = next at hwatched
  cases hwatched with
  | still => exact h
  | stops call hphase => exact h.stopWatching hphase
  | hears call hphase => exact (h.stopWatching hphase).cancelCall id

end

end Connection

end LoadGenerator
