import LoadGenerator.Json.Skip
import LoadGenerator.Proofs.Json.Values

/-!
# Passing over values

What is read as a number is passed over to the same place, and so is a whole value: passing over it takes at most two steps for each of its characters, one for the brackets of every list and object and one for what is between them.
-/

namespace LoadGenerator.JsonReader

open Text

/-! ## Numbers -/

theorem dropWhile_digitsBelow (limit n : Nat) (s : List Char) :
    (digitsBelow limit n s).2.dropWhile isDigit = s.dropWhile isDigit := by
  induction s generalizing n with
  | nil => rfl
  | cons c s ih =>
    rw [digitsBelow]
    split_ifs with h
    · rw [ih, List.dropWhile_cons_of_pos (Bool.and_eq_true_iff.mp h).1]
    · rfl

theorem dropWhile_of_startsWithDigit {s : List Char} (h : startsWithDigit s = false) : s.dropWhile isDigit = s := by
  cases s with
  | nil => rfl
  | cons c s => exact List.dropWhile_cons_of_neg (by rw [show isDigit c = false from h]; decide)

theorem skipDigits_apply (s : List Char) : skipDigits s = .ok (⟨⟩, s.dropWhile isDigit) := rfl

theorem skipSomeDigits_apply {s : List Char} (h : startsWithDigit s = true) : skipSomeDigits s = .ok (⟨⟩, s.dropWhile isDigit) := by
  rw [skipSomeDigits, get_bind, if_pos h, skipDigits_apply]

variable {negative : Bool} {significand : Nat} {power : ℤ} {s rest : List Char} {n : JsonNumber}

theorem rest_of_scaledNumber (h : scaledNumber negative significand power s = .ok (n, rest)) : rest = s := by
  cases hscale : scale (Binary64.ofNat significand) power with
  | none =>
    rw [scaledNumber, hscale] at h
    cases h
  | some x =>
    rw [scaledNumber, hscale] at h
    exact (Prod.mk.inj (Except.ok.inj h)).2.symm

/-- The text after a sign, if it begins with one. -/
private def unsigned : List Char → List Char
  | '+' :: rest => rest
  | '-' :: rest => rest
  | rest => rest

private theorem unsigned_of_ne {c : Char} (hplus : c ≠ '+') (hminus : c ≠ '-') (s : List Char) : unsigned (c :: s) = c :: s := by
  simp [unsigned, hplus, hminus]

/-- What is read as an exponent is a digit and those after it, with a sign before them or not. -/
private theorem skipSomeDigits_of_exponent (h : exponent negative significand power s = .ok (n, rest)) :
    skipSomeDigits (unsigned s) = .ok (⟨⟩, rest) := by
  obtain ⟨below, s', hsign, h⟩ := exists_of_bind_ok h
  obtain rfl : unsigned s = s' := by
    have hs' := (Prod.mk.inj (Except.ok.inj hsign)).2
    rw [← hs']
    cases s with
    | nil => rfl
    | cons c s =>
      by_cases hplus : c = '+'
      · rw [hplus]
        rfl
      · by_cases hminus : c = '-'
        · rw [hminus]
          rfl
        · rw [unsigned_of_ne hplus hminus]
          simp [hplus, hminus]
  rw [get_bind] at h
  generalize unsigned s = digits at h
  cases digits with
  | nil => cases h
  | cons c digits =>
    dsimp only at h
    by_cases hc : isDigit c = true
    · rw [if_pos hc, set_bind] at h
      rw [skipSomeDigits_apply (show startsWithDigit (c :: digits) = true from hc), ← dropWhile_digitsBelow 0x80000000 0]
      by_cases hmore : startsWithDigit (digitsBelow 0x80000000 0 (c :: digits)).2 = true
      · rw [if_pos hmore] at h
        split_ifs at h with hlarge
        · cases h
        · cases h
          rfl
      · rw [if_neg hmore] at h
        rw [rest_of_scaledNumber h, dropWhile_of_startsWithDigit (by simpa using hmore)]
    · rw [if_neg hc] at h
      cases h

private theorem skipExponent_cons {e : Char} (he : e = 'e' ∨ e = 'E') (s : List Char) :
    skipExponent (e :: s) = skipSomeDigits (unsigned s) := by
  cases s with
  | nil => rcases he with rfl | rfl <;> rfl
  | cons c s =>
    by_cases hplus : c = '+'
    · rw [hplus]
      rcases he with rfl | rfl <;> rfl
    · by_cases hminus : c = '-'
      · rw [hminus]
        rcases he with rfl | rfl <;> rfl
      · rw [unsigned_of_ne hplus hminus]
        rcases he with rfl | rfl <;> simp [skipExponent, get_bind, set_bind, hplus, hminus]

private theorem skipExponent_of_ne (h : ∀ c ∈ s.head?, c ≠ 'e' ∧ c ≠ 'E') : skipExponent s = .ok (⟨⟩, s) := by
  cases s with
  | nil => rfl
  | cons c s =>
    obtain ⟨hlower, hupper⟩ := h c rfl
    simp [skipExponent, get_bind, hlower, hupper, pure_apply]

/-- An exponent that is read is passed over, and so is the end of a number. -/
private theorem skipExponent_of_exponentOrEnd (h : exponentOrEnd negative significand power s = .ok (n, rest)) :
    skipExponent s = .ok (⟨⟩, rest) := by
  cases s with
  | nil =>
    rw [rest_of_scaledNumber h]
    rfl
  | cons c s =>
    by_cases hc : c = 'e' ∨ c = 'E'
    · rw [skipExponent_cons hc]
      rcases hc with rfl | rfl
      · exact skipSomeDigits_of_exponent h
      · exact skipSomeDigits_of_exponent h
    · obtain ⟨hlower, hupper⟩ := not_or.mp hc
      have hscaled : scaledNumber negative significand power (c :: s) = .ok (n, rest) := by
        simpa [exponentOrEnd, get_bind, hlower, hupper] using h
      rw [rest_of_scaledNumber hscaled]
      exact skipExponent_of_ne fun d hd => by
        obtain rfl : c = d := Option.some.inj hd
        exact ⟨hlower, hupper⟩

private theorem skipFraction_of_fraction (h : fraction negative significand power s = .ok (n, rest)) :
    (do skipSomeDigits; skipExponent : JsonReader Unit) s = .ok (⟨⟩, rest) := by
  have hdrop := dropWhile_digitsBelow UInt64.size significand s
  simp only [fraction, get_bind, set_bind] at h
  generalize hread : digitsBelow UInt64.size significand s = read at h hdrop
  have hdigit : startsWithDigit s = true := by
    by_contra hs
    have hnone : digitsBelow UInt64.size significand s = (significand, s) := by
      cases s with
      | nil => rfl
      | cons c s =>
        rw [digitsBelow, if_neg (by simp [show isDigit c = false by simpa [startsWithDigit] using hs])]
    obtain rfl := hnone.symm.trans hread
    rw [if_neg hs, if_pos (Nat.sub_self _)] at h
    split_ifs at h <;> cases h
  rw [bind_of_ok (skipSomeDigits_apply hdigit), ← hdrop]
  split_ifs at h with hmore hcount hempty
  · exact skipExponent_of_exponentOrEnd h
  · cases h
  · cases h
  · rw [dropWhile_of_startsWithDigit (by simpa using hmore)]
    exact skipExponent_of_exponentOrEnd h

/-- What follows the integer digits of a number. -/
private def skipTail : JsonReader Unit := do
  match ← get with
  | '.' :: rest => do
    set rest
    skipSomeDigits
    skipExponent
  | _ => skipExponent

private theorem skipTail_of_afterInteger (h : afterInteger negative significand s = .ok (n, rest)) : skipTail s = .ok (⟨⟩, rest) := by
  cases s with
  | nil =>
    cases h
    rfl
  | cons c s =>
    by_cases hpoint : c = '.'
    · subst hpoint
      exact skipFraction_of_fraction h
    · have htail : skipTail (c :: s) = skipExponent (c :: s) := by simp [skipTail, get_bind, hpoint]
      rw [htail]
      by_cases hc : c = 'e' ∨ c = 'E'
      · rw [skipExponent_cons hc]
        rcases hc with rfl | rfl
        · exact skipSomeDigits_of_exponent h
        · exact skipSomeDigits_of_exponent h
      · obtain ⟨hlower, hupper⟩ := not_or.mp hc
        simp [afterInteger, get_bind, hpoint, hlower, hupper, pure_apply] at h
        rw [← h.2]
        exact skipExponent_of_ne fun d hd => by
          obtain rfl : c = d := Option.some.inj hd
          exact ⟨hlower, hupper⟩

private theorem skipTail_of_longInteger (h : longInteger negative significand s = .ok (n, rest)) :
    skipTail (s.dropWhile isDigit) = .ok (⟨⟩, rest) := by
  simp only [longInteger, splitDigits, List.span_eq_takeWhile_dropWhile, get_bind, set_bind] at h
  generalize hlength : (s.takeWhile isDigit).length = length at h
  generalize s.dropWhile isDigit = tail at h
  cases tail with
  | nil => exact skipExponent_of_exponentOrEnd h
  | cons c tail =>
    by_cases hpoint : c = '.'
    · subst hpoint
      exact skipFraction_of_fraction h
    · have htail : skipTail (c :: tail) = skipExponent (c :: tail) := by simp [skipTail, get_bind, hpoint]
      rw [htail]
      have hscaled : exponentOrEnd negative significand length (c :: tail) = .ok (n, rest) := by simpa [hpoint] using h
      exact skipExponent_of_exponentOrEnd hscaled

private theorem skipUnsigned_zero (hs : startsWithDigit s = false) : skipUnsigned ('0' :: s) = skipTail s := by
  simp only [skipUnsigned, get_bind, set_bind, hs, Bool.false_eq_true, if_false]
  rfl

private theorem skipUnsigned_cons {c : Char} (hzero : c ≠ '0') (hc : isDigit c = true) (s : List Char) :
    skipUnsigned (c :: s) = skipTail ((c :: s).dropWhile isDigit) := by
  have hskip : skipUnsigned (c :: s) = (skipSomeDigits >>= fun _ => skipTail) (c :: s) := by
    simp only [skipUnsigned, get_bind, List.cons.injEq, hzero, false_and, imp_false, not_false_eq_true, implies_true]
    rfl
  rw [hskip, bind_of_ok (skipSomeDigits_apply (show startsWithDigit (c :: s) = true from hc))]

theorem skipUnsigned_of_unsignedNumber (h : unsignedNumber negative s = .ok (n, rest)) : skipUnsigned s = .ok (⟨⟩, rest) := by
  cases s with
  | nil => cases h
  | cons c s =>
    by_cases hzero : c = '0'
    · subst hzero
      simp only [unsignedNumber, get_bind, set_bind] at h
      split_ifs at h with hs
      · cases h
      · rw [skipUnsigned_zero (by simpa using hs)]
        exact skipTail_of_afterInteger h
    · by_cases hc : isDigit c = true
      · have hdrop := dropWhile_digitsBelow UInt64.size 0 (c :: s)
        rw [skipUnsigned_cons hzero hc, ← hdrop]
        simp [unsignedNumber, get_bind, hc, set_bind] at h
        split_ifs at h with hmore
        · exact skipTail_of_longInteger h
        · rw [dropWhile_of_startsWithDigit (by simpa using hmore)]
          exact skipTail_of_afterInteger h
      · simp [unsignedNumber, get_bind, hc, failNext] at h

/-! ## Strings -/

private theorem skipChars_escapeChar (c : Char) (fuel : Nat) (rest : List Char) :
    skipChars (fuel + 1) (Json.escapeChar c ++ rest) = skipChars fuel rest := by
  have hletter : ∀ letter, (escapeLetter? letter).isSome = true →
      skipChars (fuel + 1) ('\\' :: letter :: rest) = skipChars fuel rest := by
    intro letter h
    simp only [skipChars, get_bind, set_bind, show ('\\' : Char) ≠ '"' by decide, h, if_true, if_false]
  unfold Json.escapeChar
  split_ifs with h₁ h₂ h₃ h₄ h₅ h₆ h₇ hcontrol
  · exact hletter '"' rfl
  · exact hletter '\\' rfl
  · exact hletter 'b' rfl
  · exact hletter 'f' rfl
  · exact hletter 'n' rfl
  · exact hletter 'r' rfl
  · exact hletter 't' rfl
  · simp only [List.cons_append, List.nil_append, skipChars, get_bind, set_bind, show ('\\' : Char) ≠ '"' by decide,
      show (escapeLetter? 'u').isSome = false from rfl, Bool.false_eq_true, if_true, if_false]
    rw [bind_of_ok (hexQuad_control hcontrol rest)]
  · simp only [List.cons_append, List.nil_append, skipChars, get_bind, h₁, h₂, hcontrol, if_false, set_bind]

private theorem skipChars_rendered (text : List Char) {fuel : Nat} (hfuel : text.length < fuel) (rest : List Char) :
    skipChars fuel (text.flatMap Json.escapeChar ++ '"' :: rest) = .ok (⟨⟩, rest) := by
  induction text generalizing fuel with
  | nil =>
    obtain ⟨fuel, rfl⟩ := Nat.exists_eq_add_one.mpr (Nat.zero_lt_of_lt hfuel)
    simp only [List.flatMap_nil, List.nil_append, skipChars, get_bind, if_true]
    rfl
  | cons c text ih =>
    obtain ⟨fuel, rfl⟩ := Nat.exists_eq_add_one.mpr (Nat.zero_lt_of_lt hfuel)
    rw [List.flatMap_cons, List.append_assoc, skipChars_escapeChar, ih (by simpa using hfuel)]

theorem skipString_rendered (s : String) (rest : List Char) : skipString (Json.renderString s ++ rest) = .ok (⟨⟩, rest) := by
  have hlength := length_le_escaped s.toList
  have hchars := skipChars_rendered s.toList
    (show s.toList.length < (s.toList.flatMap Json.escapeChar ++ '"' :: rest).length + 1 by rw [List.length_append]; omega) rest
  simp only [Json.renderString, List.cons_append, List.append_assoc, List.nil_append]
  exact hchars

theorem skipKey_object (key : String) (rest : List Char) : skipKey .object (Json.renderString key ++ ':' :: rest) = .ok (⟨⟩, rest) := by
  have hstring := skipString_rendered key (':' :: rest)
  rw [Json.renderString, List.cons_append, List.cons_append] at hstring ⊢
  rw [skipKey, bind_of_ok (skipBlanks_cons rfl _)]
  simp only [get_bind, if_true]
  rw [bind_of_ok hstring, colon_cons]

/-! ## Values -/

/-- The text is passed over as a value, in at most two steps for each of its characters. -/
def SkipsOver (text : List Char) : Prop :=
  ∃ k ≤ 2 * text.length, ∀ fuel open_ rest, Stops rest →
    skipFrom (fuel + k) open_ .value (text ++ rest) = skipFrom fuel open_ .next rest

/-- How the text of an enclosure ends. -/
private def Enclosure.closing : Enclosure → Char
  | .list => ']'
  | .object => '\x7d'

private theorem skipFrom_closing (fuel : Nat) (enclosure : Enclosure) (outer : List Enclosure) (rest : List Char) :
    skipFrom (fuel + 1) (enclosure :: outer) .next (enclosure.closing :: rest) = skipFrom fuel outer .next rest ∧
      skipFrom (fuel + 1) (enclosure :: outer) .first (enclosure.closing :: rest) = skipFrom fuel outer .next rest := by
  cases enclosure <;> exact ⟨rfl, rfl⟩

private theorem skipFrom_comma (fuel : Nat) (enclosure : Enclosure) (outer : List Enclosure) {s rest : List Char}
    (hkey : skipKey enclosure s = .ok (⟨⟩, rest)) :
    skipFrom (fuel + 1) (enclosure :: outer) .next (',' :: s) = skipFrom fuel (enclosure :: outer) .value rest := by
  rw [skipFrom, bind_of_ok (skipBlanks_cons rfl _)]
  simp only [get_bind, set_bind, if_true]
  rw [bind_of_ok hkey]

private theorem skipFrom_first (fuel : Nat) (enclosure : Enclosure) (outer : List Enclosure) {c : Char} {s rest : List Char}
    (hblank : isJsonBlank c = false) (hcloses : enclosure.closes c = false) (hkey : skipKey enclosure (c :: s) = .ok (⟨⟩, rest)) :
    skipFrom (fuel + 1) (enclosure :: outer) .first (c :: s) = skipFrom fuel (enclosure :: outer) .value rest := by
  rw [skipFrom, bind_of_ok (skipBlanks_cons hblank _)]
  simp only [get_bind, hcloses, Bool.false_eq_true, if_false]
  rw [bind_of_ok hkey]

section

variable {β : Type} {items : List β} {lead text : β → List Char} {enclosure : Enclosure}

/-- What may stand between the commas of an enclosure: a key where there are keys, and a value. -/
private structure Element (enclosure : Enclosure) (lead text : List Char) : Prop where
  key : ∀ rest, skipKey enclosure (lead ++ rest) = .ok (⟨⟩, rest)
  value : SkipsOver text
  start : ∃ c cs, lead ++ text = c :: cs ∧ isJsonBlank c = false ∧ enclosure.closes c = false

private theorem stops_closing (enclosure : Enclosure) (rest : List Char) : Stops (enclosure.closing :: rest) := by
  cases enclosure
  · exact stops_bracket rest
  · exact stops_brace rest

private theorem skipFrom_rest (h : ∀ item ∈ items, Element enclosure (lead item) (text item)) :
    ∃ k ≤ 2 * ((items.map fun item => lead item ++ text item).flatMap fun next => ',' :: next).length + 1,
      ∀ fuel outer rest, skipFrom (fuel + k) (enclosure :: outer) .next
        ((items.map fun item => lead item ++ text item).flatMap (fun next => ',' :: next) ++ enclosure.closing :: rest) =
        skipFrom fuel outer .next rest := by
  induction items with
  | nil => exact ⟨1, by simp, fun fuel outer rest => (skipFrom_closing fuel enclosure outer rest).1⟩
  | cons item items ih =>
    obtain ⟨hkey, ⟨k, hk, hvalue⟩, -⟩ := h item (by simp)
    obtain ⟨m, hm, hrest⟩ := ih fun next hnext => h next (by simp [hnext])
    refine ⟨m + k + 1, ?_, fun fuel outer rest => ?_⟩
    · rw [List.map_cons, List.flatMap_cons, List.length_append, List.length_cons, List.length_append]
      omega
    · have hstops := stops_flatMap_comma (items.map fun item => lead item ++ text item) (stops_closing enclosure rest)
      rw [List.map_cons, List.flatMap_cons, List.append_assoc, List.cons_append, List.append_assoc, ← add_assoc, ← add_assoc,
        skipFrom_comma _ _ _ (hkey _), hvalue _ _ _ hstops, hrest]

private theorem skipFrom_enclosed (h : ∀ item ∈ items, Element enclosure (lead item) (text item)) :
    ∃ k ≤ 2 * (Json.commaSeparated (items.map fun item => lead item ++ text item)).length + 2,
      ∀ fuel outer rest, skipFrom (fuel + k) (enclosure :: outer) .first
        (Json.commaSeparated (items.map fun item => lead item ++ text item) ++ enclosure.closing :: rest) =
        skipFrom fuel outer .next rest := by
  cases items with
  | nil => exact ⟨1, by simp, fun fuel outer rest => (skipFrom_closing fuel enclosure outer rest).2⟩
  | cons item items =>
    obtain ⟨hkey, ⟨k, hk, hvalue⟩, c, cs, hcons, hblank, hcloses⟩ := h item (by simp)
    obtain ⟨m, hm, hrest⟩ := skipFrom_rest fun next hnext => h next (List.mem_cons_of_mem item hnext)
    refine ⟨m + k + 1, ?_, fun fuel outer rest => ?_⟩
    · rw [List.map_cons, Json.commaSeparated, List.length_append, List.length_append]
      omega
    · have hstops := stops_flatMap_comma (items.map fun item => lead item ++ text item) (stops_closing enclosure rest)
      have hkey := hkey (text item ++ ((items.map fun item => lead item ++ text item).flatMap (fun next => ',' :: next) ++
        enclosure.closing :: rest))
      rw [← List.append_assoc, hcons, List.cons_append] at hkey
      rw [List.map_cons, Json.commaSeparated, List.append_assoc, hcons, List.cons_append, ← add_assoc, ← add_assoc,
        skipFrom_first _ _ _ hblank hcloses hkey, hvalue _ _ _ hstops, hrest]

end

private theorem skipsOver_number {n : JsonNumber} (h : n.IsWritable) : SkipsOver n.render := by
  obtain ⟨c, cs, hcons, hc⟩ := render_number h
  refine ⟨1, by rw [hcons, List.length_cons]; omega, fun fuel open_ rest hrest => ?_⟩
  have hread := number_rendered h rest hrest
  have hbounds := startsNumber_iff.mp hc
  have hne (letter : Char) (hletter : startsNumber letter = false) : c ≠ letter := by
    rintro rfl
    rw [hc] at hletter
    cases hletter
  have hblank : isJsonBlank c = false := by
    simp [isJsonBlank, hne ' ' rfl, hne '\n' rfl, hne '\t' rfl, hne '\r' rfl]
  rw [hcons, List.cons_append] at hread ⊢
  rw [skipFrom, bind_of_ok (skipBlanks_cons hblank _)]
  simp only [get_bind, hne 'n' rfl, hne 't' rfl, hne 'f' rfl, if_false]
  by_cases hminus : c = '-'
  · subst hminus
    rw [if_pos rfl, set_bind, bind_of_ok (skipUnsigned_of_unsignedNumber hread)]
  · have hdigit : isDigit c = true := by
      rw [startsNumber, Bool.or_eq_true, beq_iff_eq] at hc
      exact hc.resolve_left hminus
    rw [number_unsigned hminus] at hread
    rw [if_neg hminus, if_pos hdigit, bind_of_ok (skipUnsigned_of_unsignedNumber hread)]

private theorem skipsOver_string (s : String) : SkipsOver (Json.renderString s) := by
  refine ⟨1, by rw [Json.renderString, List.cons_append, List.length_cons]; omega, fun fuel open_ rest _ => ?_⟩
  have hread := skipString_rendered s rest
  rw [Json.renderString, List.cons_append, List.cons_append] at hread ⊢
  rw [skipFrom, bind_of_ok (skipBlanks_cons rfl _)]
  simp only [get_bind, show ('"' : Char) ≠ 'n' by decide, show ('"' : Char) ≠ 't' by decide, show ('"' : Char) ≠ 'f' by decide,
    show ('"' : Char) ≠ '-' by decide, show isDigit '"' = false from rfl, Bool.false_eq_true, if_false, if_true]
  rw [bind_of_ok hread]

/-- A value is passed over, however deep it is. -/
theorem skipsOver_render {v : Json} (hwritable : v.IsWritable) : SkipsOver v.render := by
  induction v using Json.nestedInduction with
  | null => exact ⟨1, by decide, fun _ _ _ _ => rfl⟩
  | bool b =>
    cases b with
    | true => exact ⟨1, by decide, fun _ _ _ _ => rfl⟩
    | false => exact ⟨1, by decide, fun _ _ _ _ => rfl⟩
  | number n => exact skipsOver_number hwritable
  | string s => exact skipsOver_string s
  | array items ih =>
    rw [Json.IsWritable, Json.allWritable_iff] at hwritable
    have hitems : ∀ item ∈ items, Element .list [] item.render := fun item hitem => by
      obtain ⟨c, cs, hcons, hblank, hbracket⟩ := startsValue_render (hwritable item hitem)
      exact ⟨fun _ => rfl, ih item hitem (hwritable item hitem), c, cs, hcons, hblank, beq_false_of_ne hbracket⟩
    obtain ⟨k, hk, hskip⟩ := skipFrom_enclosed hitems
    rw [show (fun item : Json => [] ++ item.render) = Json.render from rfl] at hk hskip
    rw [Json.render, Json.renderItems_eq]
    refine ⟨k + 1, ?_, fun fuel open_ rest _ => ?_⟩
    · rw [List.cons_append, List.length_cons, List.length_append, List.length_singleton]
      omega
    · rw [List.cons_append, List.cons_append, List.append_assoc, List.singleton_append, ← add_assoc, ← hskip]
      rfl
  | object members ih =>
    rw [Json.IsWritable, Json.membersWritable_iff] at hwritable
    have hmembers : ∀ member ∈ members, Element .object (Json.renderString member.1 ++ [':']) member.2.render := fun member hmember =>
      ⟨fun rest => by rw [List.append_assoc, List.singleton_append, skipKey_object], ih member hmember (hwritable member hmember),
        _, _, rfl, rfl, rfl⟩
    obtain ⟨k, hk, hskip⟩ := skipFrom_enclosed hmembers
    have htext : (fun member : String × Json => Json.renderString member.1 ++ [':'] ++ member.2.render) = Json.renderMember := by
      funext member
      rw [Json.renderMember, List.append_assoc, List.singleton_append]
    rw [htext] at hk hskip
    rw [Json.render, Json.renderMembers_eq]
    refine ⟨k + 1, ?_, fun fuel open_ rest _ => ?_⟩
    · rw [List.cons_append, List.length_cons, List.length_append, List.length_singleton]
      omega
    · rw [List.cons_append, List.cons_append, List.append_assoc, List.singleton_append, ← add_assoc, ← hskip]
      rfl

theorem skipValue_rendered {v : Json} (hwritable : v.IsWritable) : Reads skipValue v.render ⟨⟩ := by
  intro rest hrest
  obtain ⟨k, hk, hskip⟩ := skipsOver_render hwritable
  rw [skipValue, get_bind]
  obtain ⟨fuel, hfuel⟩ : ∃ fuel, 2 * (v.render ++ rest).length + 2 = fuel + 1 + k :=
    ⟨2 * (v.render ++ rest).length + 1 - k, by rw [List.length_append]; omega⟩
  rw [hfuel, hskip _ _ _ hrest]
  rfl

end LoadGenerator.JsonReader
