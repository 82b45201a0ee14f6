import LoadGenerator.Connection.Stream
import LoadGenerator.Proofs.Connection.Lines

/-!
# Segments of the input

The stream of a call is a segment of the lines that follow its request. It goes up to the first line that is not blank and not an item of the call: its end frame, or a line that the stream cannot have. Every text has exactly one segment for an id, and looking for the next line of the wire goes along it.
-/

namespace LoadGenerator.Connection

open Message Service

/-! ## Segments -/

/-- What a line that is not blank is to the call with this id: an item with a request, the end of the stream, or one of three faults. -/
inductive IsTo (id : Option RequestId) (line : List Char) : Except StreamFault (Option WorkRequest) → Prop where
  | item (frame : Frame) (request : WorkRequest) (hframe : Frame.codec.parse (String.ofList line) = .ok frame) (hid : frame.id = id)
      (hkind : frame.kind = .item) (hdata : WorkRequest.codec.ofJson frame.data = .ok request) : IsTo id line (.ok (some request))
  | finish (frame : Frame) (hframe : Frame.codec.parse (String.ofList line) = .ok frame) (hid : frame.id = id)
      (hkind : frame.kind = .finish) : IsTo id line (.ok none)
  | unreadable (e : JsonError) (hframe : Frame.codec.parse (String.ofList line) = .error e) : IsTo id line (.error (.malformed e))
  /-- Whatever its kind is. -/
  | stranger (frame : Frame) (hframe : Frame.codec.parse (String.ofList line) = .ok frame) (hid : frame.id ≠ id) :
      IsTo id line (.error (.unexpected
        s!"frame for call {RequestId.description frame.id} while call {RequestId.description id} is open"))
  | misfit (frame : Frame) (e : JsonError) (hframe : Frame.codec.parse (String.ofList line) = .ok frame) (hid : frame.id = id)
      (hkind : frame.kind = .item) (hdata : WorkRequest.codec.ofJson frame.data = .error e) : IsTo id line (.error (.malformed e))

theorem isTo_requestOf (id : Option RequestId) (line : List Char) : IsTo id line (requestOf id line) := by
  unfold requestOf
  cases hframe : Frame.codec.parse (String.ofList line) with
  | error e => exact .unreadable e hframe
  | ok frame =>
    dsimp only
    split_ifs with hother
    · exact .stranger frame hframe hother
    · have hid : frame.id = id := not_not.mp hother
      cases hkind : frame.kind with
      | finish => exact .finish frame hframe hid hkind
      | item =>
        cases hdata : WorkRequest.codec.ofJson frame.data with
        | error e => exact .misfit frame e hframe hid hkind hdata
        | ok request => exact .item frame request hframe hid hkind hdata

theorem IsTo.requestOf_eq {id : Option RequestId} {line : List Char} {result : Except StreamFault (Option WorkRequest)}
    (h : IsTo id line result) : requestOf id line = result := by
  unfold requestOf
  cases h with
  | item frame request hframe hid hkind hdata => simp only [hframe, hid, hkind, hdata, ne_eq, not_true_eq_false, if_false]
  | finish frame hframe hid hkind => simp only [hframe, hid, hkind, ne_eq, not_true_eq_false, if_false]
  | unreadable e hframe => simp only [hframe]
  | stranger frame hframe hid => simp only [hframe, if_pos hid]
  | misfit frame e hframe hid hkind hdata => simp only [hframe, hid, hkind, hdata, ne_eq, not_true_eq_false, if_false]

/-- The part of some lines that is the stream of the call with this id: its requests, how it ends, and the lines behind it. -/
inductive Segment (id : Option RequestId) : List (List Char) → List WorkRequest → Except StreamFault Unit → List (List Char) → Prop where
  | endOfInput : Segment id [] [] (.ok ()) []
  | blank (line : List Char) {lines : List (List Char)} {requests : List WorkRequest} {ending : Except StreamFault Unit}
      {rest : List (List Char)} (hline : isBlankLine line = true) (h : Segment id lines requests ending rest) :
      Segment id (line :: lines) requests ending rest
  | item (line : List Char) (request : WorkRequest) {lines : List (List Char)} {requests : List WorkRequest}
      {ending : Except StreamFault Unit} {rest : List (List Char)} (hline : isBlankLine line = false)
      (hitem : IsTo id line (.ok (some request))) (h : Segment id lines requests ending rest) :
      Segment id (line :: lines) (request :: requests) ending rest
  | finish (line : List Char) (rest : List (List Char)) (hline : isBlankLine line = false) (hfinish : IsTo id line (.ok none)) :
      Segment id (line :: rest) [] (.ok ()) rest
  | fault (line : List Char) (fault : StreamFault) (rest : List (List Char)) (hline : isBlankLine line = false)
      (hfault : IsTo id line (.error fault)) : Segment id (line :: rest) [] (.error fault) rest

theorem exists_segment (id : Option RequestId) (lines : List (List Char)) : ∃ requests ending rest, Segment id lines requests ending rest := by
  induction lines with
  | nil => exact ⟨[], .ok (), [], .endOfInput⟩
  | cons line lines ih =>
    obtain ⟨requests, ending, rest, h⟩ := ih
    cases hline : isBlankLine line with
    | true => exact ⟨requests, ending, rest, .blank line hline h⟩
    | false =>
      have hto := isTo_requestOf id line
      generalize requestOf id line = result at hto
      match result with
      | .ok (some request) => exact ⟨request :: requests, ending, rest, .item line request hline hto h⟩
      | .ok none => exact ⟨[], .ok (), lines, .finish line lines hline hto⟩
      | .error fault => exact ⟨[], .error fault, lines, .fault line fault lines hline hto⟩

section

variable {id : Option RequestId} {lines rest rest' : List (List Char)} {requests requests' : List WorkRequest}
  {ending ending' : Except StreamFault Unit}

theorem IsTo.unique {line : List Char} {result result' : Except StreamFault (Option WorkRequest)} (h : IsTo id line result)
    (h' : IsTo id line result') : result = result' := h.requestOf_eq.symm.trans h'.requestOf_eq

theorem Segment.unique (h : Segment id lines requests ending rest) (h' : Segment id lines requests' ending' rest') :
    requests = requests' ∧ ending = ending' ∧ rest = rest' := by
  induction h generalizing requests' with
  | endOfInput =>
    cases h'
    exact ⟨rfl, rfl, rfl⟩
  | blank line hline _ ih =>
    cases h' with
    | blank _ _ h' => exact ih h'
    | item _ _ hother => exact absurd (hline.symm.trans hother) (by decide)
    | finish _ _ hother => exact absurd (hline.symm.trans hother) (by decide)
    | fault _ _ _ hother => exact absurd (hline.symm.trans hother) (by decide)
  | item line request hline hitem _ ih =>
    cases h' with
    | blank _ hother _ => exact absurd (hline.symm.trans hother) (by decide)
    | item _ request' _ hitem' h' =>
      obtain ⟨rfl, rfl, rfl⟩ := ih h'
      obtain rfl := Option.some.inj (Except.ok.inj (hitem.unique hitem'))
      exact ⟨rfl, rfl, rfl⟩
    | finish _ _ _ hto => cases hitem.unique hto
    | fault _ _ _ _ hto => cases hitem.unique hto
  | finish line rest hline hfinish =>
    cases h' with
    | blank _ hother _ => exact absurd (hline.symm.trans hother) (by decide)
    | item _ _ _ hto _ => cases hfinish.unique hto
    | finish => exact ⟨rfl, rfl, rfl⟩
    | fault _ _ _ _ hto => cases hfinish.unique hto
  | fault line fault rest hline hfault =>
    cases h' with
    | blank _ hother _ => exact absurd (hline.symm.trans hother) (by decide)
    | item _ _ _ hto _ => cases hfault.unique hto
    | finish _ _ _ hto => cases hfault.unique hto
    | fault _ _ _ _ hto =>
      obtain rfl := Except.error.inj (hfault.unique hto)
      exact ⟨rfl, rfl, rfl⟩

/-- A stream that ends by a fault of its lines fails the call for what it was given. -/
theorem Segment.code_of_fault {fault : StreamFault} (h : Segment id lines requests (.error fault) rest) :
    fault.toStatus.code = .invalidArgument := by
  generalize hending : (Except.error fault : Except StreamFault Unit) = ending at h
  induction h with
  | endOfInput => cases hending
  | finish => cases hending
  | blank _ _ _ ih => exact ih hending
  | item _ _ _ _ _ ih => exact ih hending
  | fault _ other _ _ hfault =>
    obtain rfl := Except.error.inj hending
    cases hfault <;> rfl

end

/-! ## The next line of a segment -/

/-- What looking for the next line that is not blank can do where the segment in front of the text is known. -/
inductive Meets (id : Option RequestId) (wire : Wire) (missing : List UInt8) (text : List Char) (requests : List WorkRequest)
    (ending : Except StreamFault Unit) (rest : List (List Char)) : LineRead × Nat × Wire → Prop where
  | waiting (unread : List Char) (inbox : List UInt8) (size : Nat) (hexpects : Wire.Expects { wire with inbox } missing unread)
      (hsize : size + Utf8.size unread = Utf8.size text) (hshorter : inbox = wire.inbox ∨ inbox.length < wire.inbox.length)
      (hopen : wire.inputEnded = false) (hpart : newline ∉ inbox) (hsegment : Segment id (textLines unread) requests ending rest) :
      Meets id wire missing text requests ending rest (.waiting, size, { wire with inbox })
  | ended (hended : wire.inputEnded = true) (hrequests : requests = []) (hending : ending = .ok ()) (hrest : rest = []) :
      Meets id wire missing text requests ending rest (.ended, Utf8.size text, { wire with inbox := [] })
  | item (front : List Char) (unread : List Char) (inbox : List UInt8) (size : Nat) (request : WorkRequest) (later : List WorkRequest)
      (hexpects : Wire.Expects { wire with inbox } missing unread) (hsize : size + Utf8.size unread = Utf8.size text)
      (hshorter : inbox.length < wire.inbox.length) (hrequests : requests = request :: later)
      (hto : requestOf id front = .ok (some request)) (hsegment : Segment id (textLines unread) later ending rest) :
      Meets id wire missing text requests ending rest (.line front, size, { wire with inbox })
  | last (front : List Char) (unread : List Char) (inbox : List UInt8) (size : Nat) (hexpects : Wire.Expects { wire with inbox } missing unread)
      (hsize : size + Utf8.size unread = Utf8.size text) (hshorter : inbox.length < wire.inbox.length) (hrequests : requests = [])
      (hto : requestOf id front = ending.map fun _ => none) (hrest : textLines unread = rest) :
      Meets id wire missing text requests ending rest (.line front, size, { wire with inbox })

section

variable {id : Option RequestId} {wire : Wire} {missing : List UInt8} {text : List Char} {requests : List WorkRequest}
  {ending : Except StreamFault Unit} {rest : List (List Char)}

/-- A blank line in front is passed over and counted. -/
theorem Meets.passBlank {blank unread : List Char} {inbox : List UInt8} (hblank : Utf8.size blank + Utf8.size unread = Utf8.size text)
    (hfirst : inbox.length < wire.inbox.length) {read : LineRead} {size : Nat} {last : Wire}
    (h : Meets id { wire with inbox } missing unread requests ending rest (read, size, last)) :
    Meets id wire missing text requests ending rest (read, Utf8.size blank + size, last) := by
  cases h with
  | waiting unread' inbox' _ hexpects hsize hshorter hopen hpart hsegment =>
    refine .waiting unread' inbox' _ hexpects (by omega) (.inr ?_) hopen hpart hsegment
    rcases hshorter with rfl | hshorter
    · exact hfirst
    · exact hshorter.trans hfirst
  | ended hended hrequests hending hrest =>
    rw [hblank]
    exact .ended hended hrequests hending hrest
  | item front unread' inbox' _ request later hexpects hsize hshorter hrequests hto hsegment =>
    exact .item front unread' inbox' _ request later hexpects (by omega) (hshorter.trans hfirst) hrequests hto hsegment
  | last front unread' inbox' _ hexpects hsize hshorter hrequests hto hrest =>
    exact .last front unread' inbox' _ hexpects (by omega) (hshorter.trans hfirst) hrequests hto hrest

theorem Segment.meetsWithin (h : Segment id (textLines text) requests ending rest) (hexpects : wire.Expects missing text) (fuel : Nat)
    (hfuel : wire.inbox.length < fuel) : Meets id wire missing text requests ending rest (wire.nextLineWithin fuel) := by
  induction fuel generalizing wire text with
  | zero => omega
  | succ fuel ih =>
    have hread := hexpects.readsLine
    rw [Wire.nextLineWithin]
    generalize wire.readLine = reading at hread
    cases hread with
    | waiting hopen hpart => exact .waiting text wire.inbox 0 hexpects (Nat.zero_add _) (.inl rfl) hopen hpart h
    | ended hended htext =>
      subst htext
      rw [← hexpects.eq_of_nil]
      cases h
      exact .ended hended rfl rfl rfl
    | line front unread inbox htext hfront hline hinbox hexpects' =>
      have hshorter := Wire.length_lt_of_front hfront hinbox
      have hsize : Utf8.size front + Utf8.size unread = Utf8.size text := by rw [htext, Utf8.size_append]
      rw [htext, Wire.textLines_of_line hfront hline] at h
      dsimp only
      cases h with
      | blank _ hblank h =>
        rw [if_pos hblank]
        exact .passBlank hsize hshorter (ih h hexpects' (by dsimp only; omega))
      | item _ request hvisible hto h =>
        rw [if_neg (by simp [hvisible])]
        exact .item front unread inbox _ request _ hexpects' hsize hshorter rfl hto.requestOf_eq h
      | finish _ _ hvisible hto =>
        rw [if_neg (by simp [hvisible])]
        exact .last front unread inbox _ hexpects' hsize hshorter rfl hto.requestOf_eq rfl
      | fault _ fault _ hvisible hto =>
        rw [if_neg (by simp [hvisible])]
        exact .last front unread inbox _ hexpects' hsize hshorter rfl hto.requestOf_eq rfl

theorem Segment.meets (h : Segment id (textLines text) requests ending rest) (hexpects : wire.Expects missing text) :
    Meets id wire missing text requests ending rest wire.nextLine := h.meetsWithin hexpects _ (Nat.lt_succ_self _)

end

end LoadGenerator.Connection
