import LoadGenerator.Proofs.Client.Messages

/-!
# Where a stream ends a call

A call passes over the lines that leave it open: blank ones, ends of streams, and items, which it keeps or drops. The first other line ends it, or the end of the stream does. So there is one place in each stream where a call on it ends, and one way in which it does.
-/

namespace LoadGenerator.Client

open Message

/-! ## Messages that leave a call open, and those that end it -/

/-- The call keeps an item that comes after so many others. -/
def Invocation.Keeps : Invocation → Nat → Prop
  | .repeated _, _ => True
  | .exchange requests, count => count < requests.length
  | _, _ => False

/-- How a call ends, apart from its counts of bytes. -/
inductive Ending where
  | reply (value : Value) (metadata : Metadata)
  | failed (failure : Failure)

def Ending.result (bytesOut bytesIn : Nat) : Ending → Except Failure Reply
  | reply value metadata => .ok { value, metadata, bytesOut, bytesIn }
  | failed failure => .error failure

namespace Invocation

/-- The message leaves the call open; the items are those that the call has kept before it and after it. -/
inductive Passes (invocation : Invocation) (items : List WorkResponse) : Incoming → List WorkResponse → Prop where
  | finish {frame : Frame} (hkind : frame.kind = .finish) : Passes invocation items (.frame frame) items
  | kept {frame : Frame} {item : WorkResponse} (hkind : frame.kind = .item) (hkeeps : invocation.Keeps items.length)
      (hitem : WorkResponse.codec.ofJson frame.data = .ok item) : Passes invocation items (.frame frame) (items ++ [item])
  | dropped {frame : Frame} (hkind : frame.kind = .item) (hdrops : ¬ invocation.Keeps items.length) : Passes invocation items (.frame frame) items

/-- The message ends the call, which has kept these items. -/
inductive Stops (invocation : Invocation) (items : List WorkResponse) : Incoming → Ending → Prop where
  | reply {response : Response} {value : Value} (herror : response.error = none)
      (hvalue : invocation.Gives items (response.result.getD .null) value) :
      Stops invocation items (.response response) (.reply value response.metadata)
  | refused {response : Response} {error : RpcError} (herror : response.error = some error) :
      Stops invocation items (.response response) (.failed (.rpc error))
  | valueless {response : Response} {e : JsonError} (herror : response.error = none)
      (hvalue : invocation.Baffles (response.result.getD .null) e) :
      Stops invocation items (.response response) (.failed (.malformed e))
  /-- An item that the call would keep is none. -/
  | garbled {frame : Frame} {e : JsonError} (hkind : frame.kind = .item) (hkeeps : invocation.Keeps items.length)
      (hitem : WorkResponse.codec.ofJson frame.data = .error e) : Stops invocation items (.frame frame) (.failed (.malformed e))

section

variable {invocation : Invocation} {items : List WorkResponse} {message : Incoming}

theorem Passes.unique {next other : List WorkResponse} (h : invocation.Passes items message next) (h' : invocation.Passes items message other) :
    next = other := by
  cases h <;> cases h' <;> simp_all

theorem Passes.not_stops {next : List WorkResponse} {ending : Ending} (h : invocation.Passes items message next) :
    ¬ invocation.Stops items message ending := by
  intro h'
  cases h <;> cases h' <;> simp_all

theorem Stops.unique {ending other : Ending} (h : invocation.Stops items message ending) (h' : invocation.Stops items message other) :
    ending = other := by
  cases h with
  | reply herror hvalue =>
    cases h' with
    | reply _ hvalue' => rw [hvalue.unique hvalue']
    | refused herror' => simp [herror] at herror'
    | valueless _ hvalue' => exact absurd hvalue' hvalue.not_baffles
  | valueless herror hvalue =>
    cases h' with
    | reply _ hvalue' => exact absurd hvalue hvalue'.not_baffles
    | refused herror' => simp [herror] at herror'
    | valueless _ hvalue' => rw [hvalue.unique hvalue']
  | refused | garbled => cases h' <;> simp_all

end

/-! ## Streams -/

/-- The call passes over the lines. -/
inductive PassesAll (invocation : Invocation) : List WorkResponse → List (List Char) → List WorkResponse → Prop where
  | nil (items : List WorkResponse) : PassesAll invocation items [] items
  | blank {items last : List WorkResponse} {line : List Char} {lines : List (List Char)} (hblank : isBlankLine line = true)
      (h : PassesAll invocation items lines last) : PassesAll invocation items (line :: lines) last
  | message {items next last : List WorkResponse} {line : List Char} {lines : List (List Char)} {message : Incoming}
      (hvisible : isBlankLine line = false) (hmessage : incomingOf line = .ok message) (hpasses : invocation.Passes items message next)
      (h : PassesAll invocation next lines last) : PassesAll invocation items (line :: lines) last

/-- The line ends the call. -/
inductive StopsAt (invocation : Invocation) (items : List WorkResponse) (line : List Char) : Ending → Prop where
  | message {message : Incoming} {ending : Ending} (hvisible : isBlankLine line = false) (hmessage : incomingOf line = .ok message)
      (hstops : invocation.Stops items message ending) : StopsAt invocation items line ending
  /-- The line is no message. -/
  | unreadable {e : JsonError} (hvisible : isBlankLine line = false) (herror : incomingOf line = .error e) :
      StopsAt invocation items line (.failed (.malformed e))

/-- A call that has kept these items reads so many of the lines of a stream and ends so. -/
inductive EndsOn (invocation : Invocation) (items : List WorkResponse) (lines : List (List Char)) : List (List Char) → Ending → Prop where
  | line {front rest : List (List Char)} {line : List Char} {last : List WorkResponse} {ending : Ending} (hlines : lines = front ++ line :: rest)
      (hpasses : invocation.PassesAll items front last) (hstops : invocation.StopsAt last line ending) :
      EndsOn invocation items lines (front ++ [line]) ending
  /-- The stream ends before the call does. -/
  | closed {last : List WorkResponse} (hpasses : invocation.PassesAll items lines last) : EndsOn invocation items lines lines (.failed .closed)

section

variable {invocation : Invocation} {items next last : List WorkResponse} {line : List Char} {lines front back : List (List Char)}

theorem PassesAll.append (h : invocation.PassesAll items front next) (hback : invocation.PassesAll next back last) :
    invocation.PassesAll items (front ++ back) last := by
  induction h with
  | nil => exact hback
  | blank hblank _ ih => exact .blank hblank (ih hback)
  | message hvisible hmessage hpasses _ ih => exact .message hvisible hmessage hpasses (ih hback)

theorem passesAll_blanks (invocation : Invocation) (items : List WorkResponse) (hblanks : ∀ blank ∈ lines, isBlankLine blank = true) :
    invocation.PassesAll items lines items := by
  induction lines with
  | nil => exact .nil items
  | cons line lines ih =>
    obtain ⟨hblank, hblanks⟩ := List.forall_mem_cons.mp hblanks
    exact .blank hblank (ih hblanks)

theorem StopsAt.visible {ending : Ending} (h : invocation.StopsAt items line ending) : isBlankLine line = false := by
  cases h with
  | message hvisible => exact hvisible
  | unreadable hvisible => exact hvisible

theorem StopsAt.not_passesAll {ending : Ending} (h : invocation.StopsAt items line ending) : ¬ invocation.PassesAll items (line :: lines) last := by
  intro hpasses
  cases hpasses with
  | blank hblank =>
    rw [h.visible] at hblank
    cases hblank
  | message hvisible hmessage hpasses =>
    cases h with
    | message _ hmessage' hstops =>
      obtain rfl := Except.ok.inj (hmessage.symm.trans hmessage')
      exact hpasses.not_stops hstops
    | unreadable _ herror =>
      rw [hmessage] at herror
      cases herror

theorem StopsAt.unique {ending other : Ending} (h : invocation.StopsAt items line ending) (h' : invocation.StopsAt items line other) :
    ending = other := by
  cases h with
  | message _ hmessage hstops =>
    cases h' with
    | message _ hmessage' hstops' =>
      obtain rfl := Except.ok.inj (hmessage.symm.trans hmessage')
      exact hstops.unique hstops'
    | unreadable _ herror =>
      rw [hmessage] at herror
      cases herror
  | unreadable _ herror =>
    cases h' with
    | message _ hmessage =>
      rw [herror] at hmessage
      cases hmessage
    | unreadable _ herror' =>
      obtain rfl := Except.error.inj (herror.symm.trans herror')
      rfl

/-- A call that passes over some lines does so to one state, and goes on from there. -/
theorem PassesAll.rest (h : invocation.PassesAll items front next) (hall : invocation.PassesAll items (front ++ back) last) :
    invocation.PassesAll next back last := by
  induction h with
  | nil => exact hall
  | blank hblank _ ih =>
    cases hall with
    | blank _ hall => exact ih hall
    | message hvisible =>
      rw [hblank] at hvisible
      cases hvisible
  | message hvisible hmessage hpasses _ ih =>
    cases hall with
    | blank hblank =>
      rw [hvisible] at hblank
      cases hblank
    | message _ hmessage' hpasses' hall =>
      obtain rfl := Except.ok.inj (hmessage.symm.trans hmessage')
      obtain rfl := hpasses.unique hpasses'
      exact ih hall

theorem PassesAll.unique (h : invocation.PassesAll items lines next) (h' : invocation.PassesAll items lines last) : next = last := by
  have hall : invocation.PassesAll items (lines ++ []) last := by rwa [List.append_nil]
  cases h.rest hall
  rfl

/-- No call passes the line that ends it. -/
theorem StopsAt.front_eq {front' rest rest' : List (List Char)} {line' : List Char} {next' : List WorkResponse} {ending ending' : Ending}
    (hstops : invocation.StopsAt next line ending) (hpasses : invocation.PassesAll items front next)
    (hstops' : invocation.StopsAt next' line' ending') (hpasses' : invocation.PassesAll items front' next')
    (hlines : front ++ line :: rest = front' ++ line' :: rest') : front = front' ∧ line = line' ∧ ending = ending' := by
  rcases List.append_eq_append_iff.mp hlines with ⟨between, rfl, hback⟩ | ⟨between, rfl, hback⟩
  · cases between with
    | nil =>
      obtain ⟨rfl, -⟩ := List.cons.inj hback
      rw [List.append_nil] at hpasses' ⊢
      obtain rfl := hpasses.unique hpasses'
      exact ⟨rfl, rfl, hstops.unique hstops'⟩
    | cons first between =>
      obtain ⟨rfl, -⟩ := List.cons.inj hback
      exact absurd (hpasses.rest hpasses') hstops.not_passesAll
  · cases between with
    | nil =>
      obtain ⟨rfl, -⟩ := List.cons.inj hback
      rw [List.append_nil] at hpasses ⊢
      obtain rfl := hpasses.unique hpasses'
      exact ⟨rfl, rfl, hstops.unique hstops'⟩
    | cons first between =>
      obtain ⟨rfl, -⟩ := List.cons.inj hback
      exact absurd (hpasses'.rest hpasses) hstops'.not_passesAll

theorem EndsOn.unique {read read' : List (List Char)} {ending ending' : Ending} (h : invocation.EndsOn items lines read ending)
    (h' : invocation.EndsOn items lines read' ending') : read' = read ∧ ending' = ending := by
  cases h with
  | line hlines hpasses hstops =>
    cases h' with
    | line hlines' hpasses' hstops' =>
      obtain ⟨rfl, rfl, rfl⟩ := hstops.front_eq hpasses hstops' hpasses' (hlines.symm.trans hlines')
      exact ⟨rfl, rfl⟩
    | closed hall =>
      rw [hlines] at hall
      exact absurd (hpasses.rest hall) hstops.not_passesAll
  | closed hall =>
    cases h' with
    | line hlines hpasses hstops =>
      rw [hlines] at hall
      exact absurd (hpasses.rest hall) hstops.not_passesAll
    | closed => exact ⟨rfl, rfl⟩

theorem PassesAll.endsOn {read : List (List Char)} {ending : Ending} (h : invocation.PassesAll items front next)
    (hends : invocation.EndsOn next back read ending) : invocation.EndsOn items (front ++ back) (front ++ read) ending := by
  cases hends with
  | line hlines hpasses hstops =>
    rw [hlines, ← List.append_assoc, ← List.append_assoc]
    exact .line rfl (h.append hpasses) hstops
  | closed hpasses => exact .closed (h.append hpasses)

theorem passes_or_stops (invocation : Invocation) (items : List WorkResponse) (message : Incoming) :
    (∃ next, invocation.Passes items message next) ∨ ∃ ending, invocation.Stops items message ending := by
  cases message with
  | frame frame =>
    cases hkind : frame.kind with
    | finish => exact .inl ⟨_, .finish hkind⟩
    | item =>
      by_cases hkeeps : invocation.Keeps items.length
      · cases hitem : WorkResponse.codec.ofJson frame.data with
        | ok item => exact .inl ⟨_, .kept hkind hkeeps hitem⟩
        | error e => exact .inr ⟨_, .garbled hkind hkeeps hitem⟩
      · exact .inl ⟨_, .dropped hkind hkeeps⟩
  | response response =>
    cases herror : response.error with
    | some error => exact .inr ⟨_, .refused herror⟩
    | none =>
      cases hvalue : invocation.valueOf items (response.result.getD .null) with
      | ok value => exact .inr ⟨_, .reply herror (valueOf_eq_ok_iff.mp hvalue)⟩
      | error e => exact .inr ⟨_, .valueless herror (valueOf_eq_error_iff.mp hvalue)⟩

/-- On each stream a call ends in some way. -/
theorem exists_endsOn (invocation : Invocation) (items : List WorkResponse) (lines : List (List Char)) :
    ∃ read ending, invocation.EndsOn items lines read ending := by
  induction lines generalizing items with
  | nil => exact ⟨_, _, .closed (.nil items)⟩
  | cons line lines ih =>
    have hpast {next : List WorkResponse} (h : invocation.PassesAll items [line] next) : ∃ read ending, invocation.EndsOn items (line :: lines) read ending := by
      obtain ⟨read, ending, hends⟩ := ih next
      exact ⟨_, _, h.endsOn hends⟩
    have hstop {ending : Ending} (h : invocation.StopsAt items line ending) : ∃ read ending, invocation.EndsOn items (line :: lines) read ending :=
      ⟨_, _, .line (List.nil_append _).symm (.nil items) h⟩
    cases hblank : isBlankLine line with
    | true => exact hpast (.blank hblank (.nil items))
    | false =>
      cases hmessage : incomingOf line with
      | error e => exact hstop (.unreadable hblank hmessage)
      | ok message =>
        rcases passes_or_stops invocation items message with ⟨next, hpasses⟩ | ⟨ending, hstops⟩
        · exact hpast (.message hblank hmessage hpasses (.nil next))
        · exact hstop (.message hblank hmessage hstops)

end

end Invocation

end LoadGenerator.Client
