import LoadGenerator.Connection.Wire
import LoadGenerator.Proofs.Text.Utf8

/-!
# Lines of a wire

Reading takes a line off the front of the inbox, and when nothing is missing that line is the front of the text that the other side sends. The text is known in full before all of its bytes have arrived, so a wire is described by the text still to be read and by the bytes that are not there yet.
-/

namespace LoadGenerator

/-! ## Cutting lines -/

theorem cutLine_of_mem {front : List UInt8} (hfront : newline ∉ front) (rest : List UInt8) :
    cutLine (front ++ newline :: rest) = some (front ++ [newline], rest) := by
  induction front with
  | nil => simp [cutLine]
  | cons b front ih =>
    have hb : b ≠ newline := fun h => hfront (by simp [h])
    have hrest := ih fun h => hfront (List.mem_cons_of_mem b h)
    simp [cutLine, hb, hrest]

theorem cutLine_eq_none_iff {bytes : List UInt8} : cutLine bytes = none ↔ newline ∉ bytes := by
  constructor
  · intro hnone hmem
    obtain ⟨front, rest, rfl, hfront⟩ := List.eq_append_cons_of_mem hmem
    rw [cutLine_of_mem hfront] at hnone
    cases hnone
  · intro h
    induction bytes with
    | nil => rfl
    | cons b rest ih =>
      have hb : b ≠ newline := fun he => h (by simp [he])
      simp [cutLine, hb, ih fun hmem => h (List.mem_cons_of_mem b hmem)]

theorem cutLine_eq_some_iff {bytes line rest : List UInt8} :
    cutLine bytes = some (line, rest) ↔
      ∃ front, newline ∉ front ∧ line = front ++ [newline] ∧ bytes = front ++ newline :: rest := by
  constructor
  · intro h
    have hmem : newline ∈ bytes := by
      by_contra hnone
      rw [cutLine_eq_none_iff.mpr hnone] at h
      cases h
    obtain ⟨front, rest', rfl, hfront⟩ := List.eq_append_cons_of_mem hmem
    rw [cutLine_of_mem hfront] at h
    simp only [Option.some.injEq, Prod.mk.injEq] at h
    exact ⟨front, hfront, h.1.symm, by rw [h.2]⟩
  · rintro ⟨front, hfront, rfl, rfl⟩
    exact cutLine_of_mem hfront rest

/-- Bytes that arrive later do not change the first line. -/
theorem cutLine_append {bytes line rest : List UInt8} (h : cutLine bytes = some (line, rest)) (more : List UInt8) :
    cutLine (bytes ++ more) = some (line, rest ++ more) := by
  obtain ⟨front, hfront, rfl, rfl⟩ := cutLine_eq_some_iff.mp h
  rw [List.append_assoc, List.cons_append]
  exact cutLine_of_mem hfront (rest ++ more)

theorem newline_mem_encode_iff {text : List Char} : newline ∈ Utf8.encode text ↔ '\n' ∈ text := by
  constructor
  · intro h
    obtain ⟨c, hc, hcode⟩ := Utf8.mem_encode_ascii (by decide) h
    have hline : c = '\n' := Char.toNat_inj.mp hcode
    rwa [hline] at hc
  · intro h
    exact List.mem_flatMap.mpr ⟨'\n', h, by decide⟩

theorem cutLine_encode {front : List Char} (hfront : '\n' ∉ front) (rest : List Char) :
    cutLine (Utf8.encode (front ++ '\n' :: rest)) = some (Utf8.encode (front ++ ['\n']), Utf8.encode rest) := by
  have hbytes : newline ∉ Utf8.encode front := fun h => hfront (newline_mem_encode_iff.mp h)
  rw [Utf8.encode_append, Utf8.encode_append, show Utf8.encode ('\n' :: rest) = newline :: Utf8.encode rest from rfl,
    cutLine_of_mem hbytes]
  rfl

/-! ## Lines of a text -/

/-- The lines of a text, each with the newline that ends it. -/
def textLines : List Char → List (List Char)
  | [] => []
  | c :: rest =>
    if c = '\n' then [c] :: textLines rest
    else
      match textLines rest with
      | [] => [[c]]
      | line :: lines => (c :: line) :: lines

theorem textLines_line {body : List Char} (hbody : '\n' ∉ body) (rest : List Char) :
    textLines (body ++ '\n' :: rest) = (body ++ ['\n']) :: textLines rest := by
  induction body with
  | nil => simp [textLines]
  | cons c body ih =>
    have hc : c ≠ '\n' := fun h => hbody (by simp [h])
    have hrest := ih fun h => hbody (List.mem_cons_of_mem c h)
    simp [textLines, hc, hrest]

theorem textLines_last {body : List Char} (hbody : '\n' ∉ body) (hnonempty : body ≠ []) : textLines body = [body] := by
  induction body with
  | nil => exact absurd rfl hnonempty
  | cons c body ih =>
    have hc : c ≠ '\n' := fun h => hbody (by simp [h])
    rcases body with - | ⟨d, body⟩
    · simp [textLines, hc]
    · have hrest := ih (fun h => hbody (List.mem_cons_of_mem c h)) (by simp)
      rw [textLines, if_neg hc, hrest]

theorem flatten_textLines (text : List Char) : (textLines text).flatten = text := by
  induction text with
  | nil => rfl
  | cons c rest ih =>
    rw [textLines]
    split_ifs
    · rw [List.flatten_cons, ih]
      rfl
    · cases hlines : textLines rest with
      | nil =>
        rw [hlines] at ih
        rw [← ih]
        rfl
      | cons line lines =>
        rw [hlines] at ih
        rw [← ih]
        rfl

/-- A line with its newline, and not a blank one. -/
structure IsFullLine (line : List Char) : Prop where
  newline : ∃ body, '\n' ∉ body ∧ line = body ++ ['\n']
  visible : isBlankLine line = false

theorem textLines_flatten {lines : List (List Char)} (hlines : ∀ line ∈ lines, IsFullLine line) : textLines lines.flatten = lines := by
  induction lines with
  | nil => rfl
  | cons line lines ih =>
    obtain ⟨⟨⟨body, hbody, rfl⟩, -⟩, hrest⟩ := List.forall_mem_cons.mp hlines
    rw [List.flatten_cons, List.append_assoc, List.singleton_append, textLines_line hbody, ih hrest]

namespace Wire

/-! ## Reading lines of a text -/

/-- The text is what remains to be read: its bytes are in the inbox or have not arrived, and none are missing after the other side has ended. -/
structure Expects (wire : Wire) (missing : List UInt8) (text : List Char) : Prop where
  bytes : wire.inbox ++ missing = Utf8.encode text
  complete : wire.inputEnded = true → missing = []

/-- What reading a line from a known text can do. -/
inductive ReadsLine (wire : Wire) (missing : List UInt8) (text : List Char) : LineRead × Wire → Prop where
  /-- The other side has not ended and the line is not all there. -/
  | waiting (hopen : wire.inputEnded = false) (hpart : newline ∉ wire.inbox) : ReadsLine wire missing text (.waiting, wire)
  | ended (hended : wire.inputEnded = true) (htext : text = []) : ReadsLine wire missing text (.ended, wire)
  /-- The line is the front of the text, up to its first newline or all of it. -/
  | line (front : List Char) (rest : List Char) (inbox : List UInt8) (htext : text = front ++ rest) (hfront : front ≠ [])
      (hline : (∃ body, '\n' ∉ body ∧ front = body ++ ['\n']) ∨ wire.inputEnded = true ∧ rest = [] ∧ '\n' ∉ front)
      (hinbox : wire.inbox = Utf8.encode front ++ inbox) (hexpects : Expects { wire with inbox } missing rest) :
      ReadsLine wire missing text (.line front, { wire with inbox })

theorem Expects.readsLine {wire : Wire} {missing : List UInt8} {text : List Char} (h : wire.Expects missing text) :
    ReadsLine wire missing text wire.readLine := by
  obtain ⟨hbytes, hcomplete⟩ := h
  unfold readLine
  cases hcut : cutLine wire.inbox with
  | some cut =>
    obtain ⟨line, rest⟩ := cut
    have hwhole := cutLine_append hcut missing
    rw [hbytes] at hwhole
    have hmem : '\n' ∈ text := by
      by_contra hnone
      rw [cutLine_eq_none_iff.mpr fun hmem => hnone (newline_mem_encode_iff.mp hmem)] at hwhole
      cases hwhole
    obtain ⟨front, after, rfl, hfront⟩ := List.eq_append_cons_of_mem hmem
    rw [cutLine_encode hfront, Option.some.injEq, Prod.mk.injEq] at hwhole
    obtain ⟨hline, hrest⟩ := hwhole
    obtain ⟨part, -, hpart, hinbox⟩ := cutLine_eq_some_iff.mp hcut
    dsimp only
    rw [← hline, LineRead.ofBytes, Utf8.decode_encode]
    refine .line (front ++ ['\n']) after rest (by simp) (by simp) (.inl ⟨front, hfront, rfl⟩) ?_ ⟨hrest.symm, hcomplete⟩
    rw [hline, hpart, hinbox]
    simp
  | none =>
    have hpart := cutLine_eq_none_iff.mp hcut
    dsimp only
    by_cases hended : wire.inputEnded = true
    · obtain rfl := hcomplete hended
      rw [List.append_nil] at hbytes
      have htext : wire.inbox.isEmpty = true ↔ text = [] := by
        rw [List.isEmpty_iff, hbytes, Utf8.encode_eq_nil_iff]
      rw [if_neg (by simp [hended])]
      by_cases hempty : text = []
      · rw [if_pos (htext.mpr hempty)]
        exact .ended hended hempty
      · rw [if_neg fun h => hempty (htext.mp h), hbytes, LineRead.ofBytes, Utf8.decode_encode]
        refine .line text [] [] (List.append_nil text).symm hempty (.inr ⟨hended, rfl, ?_⟩) (by simp [hbytes]) ⟨rfl, fun _ => rfl⟩
        rw [hbytes, newline_mem_encode_iff] at hpart
        exact hpart
    · rw [if_pos (by simpa using hended)]
      exact .waiting (by simpa using hended) hpart

theorem textLines_of_line {wire : Wire} {front rest : List Char} (hfront : front ≠ [])
    (hline : (∃ body, '\n' ∉ body ∧ front = body ++ ['\n']) ∨ wire.inputEnded = true ∧ rest = [] ∧ '\n' ∉ front) :
    textLines (front ++ rest) = front :: textLines rest := by
  rcases hline with ⟨body, hbody, rfl⟩ | ⟨-, rfl, hlast⟩
  · rw [List.append_assoc]
    exact textLines_line hbody rest
  · rw [List.append_nil, textLines_last hlast hfront]
    rfl

/-- The bytes behind a line are fewer. -/
theorem length_lt_of_front {front : List Char} {bytes inbox : List UInt8} (hfront : front ≠ []) (hbytes : bytes = Utf8.encode front ++ inbox) :
    inbox.length < bytes.length := by
  have hsize := Utf8.length_le_size front
  have hpositive := List.length_pos_iff.mpr hfront
  rw [hbytes, List.length_append]
  simp only [Utf8.size] at hsize
  omega

theorem Expects.size_eq {wire : Wire} {missing : List UInt8} {text : List Char} (h : wire.Expects missing text) :
    Utf8.size text = wire.inbox.length + missing.length := by
  rw [Utf8.size, ← h.bytes, List.length_append]

/-- Where nothing is expected any more, nothing has arrived. -/
theorem Expects.eq_of_nil {wire : Wire} {missing : List UInt8} (h : wire.Expects missing []) : { wire with inbox := [] } = wire := by
  have hinbox : wire.inbox = [] := (List.append_eq_nil_iff.mp h.bytes).1
  rw [← hinbox]

/-! ## Past blank lines -/

/-- What looking for the next line that is not blank can do with a known text. -/
inductive ReadsNext (wire : Wire) (missing : List UInt8) (text : List Char) : LineRead × Nat × Wire → Prop where
  | waiting (blanks : List (List Char)) (rest : List Char) (inbox : List UInt8)
      (hlines : textLines text = blanks ++ textLines rest) (hopen : wire.inputEnded = false) (hpart : newline ∉ inbox)
      (hexpects : Expects { wire with inbox } missing rest) (hblanks : ∀ blank ∈ blanks, isBlankLine blank = true) :
      ReadsNext wire missing text (.waiting, Utf8.size blanks.flatten, { wire with inbox })
  | ended (blanks : List (List Char)) (hlines : textLines text = blanks) (hended : wire.inputEnded = true)
      (hblanks : ∀ blank ∈ blanks, isBlankLine blank = true) :
      ReadsNext wire missing text (.ended, Utf8.size blanks.flatten, { wire with inbox := [] })
  | line (blanks : List (List Char)) (front rest : List Char) (inbox : List UInt8)
      (hlines : textLines text = blanks ++ front :: textLines rest) (hfront : isBlankLine front = false)
      (hshorter : inbox.length < wire.inbox.length) (hexpects : Expects { wire with inbox } missing rest)
      (hblanks : ∀ blank ∈ blanks, isBlankLine blank = true) :
      ReadsNext wire missing text (.line front, Utf8.size (blanks.flatten ++ front), { wire with inbox })

/-- A blank line in front is passed over and counted. -/
theorem ReadsNext.passBlank {wire : Wire} {missing : List UInt8} {blank text rest : List Char} {inbox : List UInt8}
    (hlines : textLines text = blank :: textLines rest) (hblank : isBlankLine blank = true) (hshorter : inbox.length < wire.inbox.length)
    {read : LineRead} {size : Nat} {last : Wire} (h : ReadsNext { wire with inbox } missing rest (read, size, last)) :
    ReadsNext wire missing text (read, Utf8.size blank + size, last) := by
  cases h with
  | waiting blanks rest' inbox' hrest hopen hpart hexpects hblanks =>
    rw [← Utf8.size_append, ← List.flatten_cons]
    exact .waiting (blank :: blanks) rest' inbox' (by rw [hlines, hrest, List.cons_append]) hopen hpart hexpects
      (List.forall_mem_cons.mpr ⟨hblank, hblanks⟩)
  | ended blanks hrest hended hblanks =>
    rw [← Utf8.size_append, ← List.flatten_cons]
    exact .ended (blank :: blanks) (by rw [hlines, hrest]) hended (List.forall_mem_cons.mpr ⟨hblank, hblanks⟩)
  | line blanks front rest' inbox' hrest hfront hless hexpects hblanks =>
    rw [← Utf8.size_append, ← List.append_assoc, ← List.flatten_cons]
    exact .line (blank :: blanks) front rest' inbox' (by rw [hlines, hrest, List.cons_append]) hfront
      (hless.trans hshorter) hexpects (List.forall_mem_cons.mpr ⟨hblank, hblanks⟩)

theorem Expects.readsNextWithin {wire : Wire} {missing : List UInt8} {text : List Char} (h : wire.Expects missing text)
    (fuel : Nat) (hfuel : wire.inbox.length < fuel) : ReadsNext wire missing text (wire.nextLineWithin fuel) := by
  induction fuel generalizing wire text with
  | zero => omega
  | succ fuel ih =>
    have hread := h.readsLine
    rw [nextLineWithin]
    generalize wire.readLine = reading at hread
    cases hread with
    | waiting hopen hpart => exact .waiting [] text wire.inbox rfl hopen hpart h (List.forall_mem_nil _)
    | ended hended htext =>
      subst htext
      rw [← h.eq_of_nil]
      exact .ended [] rfl hended (List.forall_mem_nil _)
    | line front rest inbox htext hfront hline hinbox hexpects =>
      have hshorter := length_lt_of_front hfront hinbox
      have hlines := textLines_of_line hfront hline
      rw [← htext] at hlines
      dsimp only
      by_cases hblank : isBlankLine front = true
      · rw [if_pos hblank]
        exact .passBlank hlines hblank hshorter (ih hexpects (by dsimp only; omega))
      · rw [if_neg hblank]
        exact .line [] front rest inbox hlines (by simpa using hblank) hshorter hexpects (List.forall_mem_nil _)

theorem Expects.readsNext {wire : Wire} {missing : List UInt8} {text : List Char} (h : wire.Expects missing text) :
    ReadsNext wire missing text wire.nextLine := h.readsNextWithin _ (Nat.lt_succ_self _)

/-! ## Where the next line is known -/

section

variable {wire : Wire} {missing : List UInt8} {line rest : List Char}

/-- A line that is expected is read, or some of its bytes have not arrived. -/
theorem Expects.readLine_of_line (h : wire.Expects missing (line ++ rest)) (hopen : wire.inputEnded = false) (hline : IsFullLine line) :
    (wire.readLine = (.waiting, wire) ∧ missing ≠ []) ∨
      ∃ inbox, wire.readLine = (.line line, { wire with inbox }) ∧ Expects { wire with inbox } missing rest ∧
        inbox.length < wire.inbox.length := by
  obtain ⟨⟨body, hbody, rfl⟩, -⟩ := hline
  have hread := h.readsLine
  generalize wire.readLine = reading at hread
  cases hread with
  | waiting _ hpart =>
    refine .inl ⟨rfl, fun hmissing => hpart ?_⟩
    have hbytes := h.bytes
    rw [hmissing, List.append_nil] at hbytes
    rw [hbytes, newline_mem_encode_iff]
    simp
  | ended hended =>
    rw [hopen] at hended
    cases hended
  | line front rest' inbox htext hfront hline hinbox hexpects =>
    obtain ⟨body', hbody', rfl⟩ : ∃ body, '\n' ∉ body ∧ front = body ++ ['\n'] := by
      rcases hline with hline | ⟨hended, -⟩
      · exact hline
      · rw [hopen] at hended
        cases hended
    obtain ⟨rfl, rfl⟩ : body = body' ∧ rest = rest' := by
      rw [List.append_assoc, List.append_assoc, List.singleton_append, List.singleton_append] at htext
      have hlines := congrArg textLines htext
      rw [textLines_line hbody, textLines_line hbody'] at hlines
      have hbodies := List.append_cancel_right (List.cons.inj hlines).1
      rw [hbodies] at htext
      exact ⟨hbodies, (List.cons.inj (List.append_cancel_left htext)).2⟩
    refine .inr ⟨inbox, rfl, hexpects, ?_⟩
    have hsize := Utf8.length_le_size (body ++ ['\n'])
    rw [hinbox, List.length_append]
    simp only [Utf8.size, List.length_append, List.length_singleton] at hsize
    omega

theorem Expects.readLine_of_nil (h : wire.Expects missing []) (hopen : wire.inputEnded = false) :
    wire.readLine = (.waiting, wire) := by
  have hinbox := (List.append_eq_nil_iff.mp h.bytes).1
  simp only [readLine, hinbox, cutLine, hopen]
  rfl

/-- The same past blank lines, of which there are none. -/
theorem Expects.nextLine_of_line (h : wire.Expects missing (line ++ rest)) (hopen : wire.inputEnded = false) (hline : IsFullLine line) :
    (wire.nextLine = (.waiting, 0, wire) ∧ missing ≠ []) ∨
      ∃ inbox, wire.nextLine = (.line line, Utf8.size line, { wire with inbox }) ∧ Expects { wire with inbox } missing rest ∧
        inbox.length < wire.inbox.length := by
  rw [nextLine, nextLineWithin]
  rcases h.readLine_of_line hopen hline with ⟨hread, hmissing⟩ | ⟨inbox, hread, hexpects, hshorter⟩
  · rw [hread]
    exact .inl ⟨rfl, hmissing⟩
  · rw [hread]
    dsimp only
    rw [if_neg (by simp [hline.visible])]
    exact .inr ⟨inbox, rfl, hexpects, hshorter⟩

theorem Expects.nextLine_of_nil (h : wire.Expects missing []) (hopen : wire.inputEnded = false) :
    wire.nextLine = (.waiting, 0, wire) := by
  rw [nextLine, nextLineWithin, h.readLine_of_nil hopen]

/-- What the other side writes is expected after all that was written before. -/
theorem Expects.append (h : wire.Expects missing rest) (hopen : wire.inputEnded = false) (text : List Char) :
    wire.Expects (missing ++ Utf8.encode text) (rest ++ text) where
  bytes := by rw [Utf8.encode_append, ← h.bytes, List.append_assoc]
  complete hended := by
    rw [hopen] at hended
    cases hended

end

/-! ## Wires that stay open -/

/-- The other side goes on sending the text, and every write succeeds. -/
structure IsOpen (wire : Wire) (missing : List UInt8) (text : List Char) : Prop where
  expects : wire.Expects missing text
  inputOpen : wire.inputEnded = false
  room : wire.room = none

section

variable {wire : Wire} {missing : List UInt8} {text : List Char}

theorem IsOpen.same (h : wire.IsOpen missing text) {next : Wire} (hinbox : next.inbox = wire.inbox)
    (hended : next.inputEnded = wire.inputEnded) (hroom : next.room = wire.room) : next.IsOpen missing text where
  expects := ⟨by rw [hinbox, h.expects.bytes], fun h' => h.expects.complete (hended ▸ h')⟩
  inputOpen := hended.trans h.inputOpen
  room := hroom.trans h.room

theorem IsOpen.append (h : wire.IsOpen missing text) (more : List Char) : wire.IsOpen (missing ++ Utf8.encode more) (text ++ more) where
  expects := h.expects.append h.inputOpen more
  inputOpen := h.inputOpen
  room := h.room

theorem IsOpen.deliver {bytes : List UInt8} (h : wire.IsOpen (bytes ++ missing) text) : (wire.deliver bytes).IsOpen missing text where
  expects := ⟨by rw [← h.expects.bytes]; exact List.append_assoc _ _ _, fun hended => by
    rw [show (wire.deliver bytes).inputEnded = wire.inputEnded from rfl, h.inputOpen] at hended
    cases hended⟩
  inputOpen := h.inputOpen
  room := h.room

/-- Where nothing is expected, nothing has arrived and nothing is missing. -/
theorem IsOpen.eq_nil (h : wire.IsOpen missing []) : wire.inbox = [] ∧ missing = [] := List.append_eq_nil_iff.mp h.expects.bytes

end

end Wire

end LoadGenerator
