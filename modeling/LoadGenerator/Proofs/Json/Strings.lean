import LoadGenerator.Json.Reader
import LoadGenerator.Proofs.Text.Digits

/-!
# Reading back strings

A reader is followed through a text by what each of its parts returns and leaves. The first result of this kind is about strings: whatever their characters are, reading the text of a string gives the string and leaves what comes after it.
-/

namespace LoadGenerator.JsonReader

open Text

section

variable {α β : Type}

theorem bind_of_ok {reader : JsonReader α} {s s' : List Char} {a : α} (h : reader s = .ok (a, s')) (next : α → JsonReader β) :
    (reader >>= next) s = next a s' := by
  change (reader s >>= fun p => next p.1 p.2) = _
  rw [h]
  rfl

theorem bind_of_error {reader : JsonReader α} {s : List Char} {failure : ReadFailure} (h : reader s = .error failure)
    (next : α → JsonReader β) : (reader >>= next) s = .error failure := by
  change (reader s >>= fun p => next p.1 p.2) = _
  rw [h]
  rfl

theorem exists_of_bind_ok {reader : JsonReader α} {s : List Char} {next : α → JsonReader β} {result : β × List Char}
    (h : (reader >>= next) s = .ok result) : ∃ a s', reader s = .ok (a, s') ∧ next a s' = .ok result := by
  cases hreader : reader s with
  | error failure =>
    rw [bind_of_error hreader] at h
    cases h
  | ok p =>
    rw [bind_of_ok hreader] at h
    exact ⟨p.1, p.2, rfl, h⟩

theorem map_of_ok {reader : JsonReader α} {s s' : List Char} {a : α} (h : reader s = .ok (a, s')) (f : α → β) :
    (f <$> reader) s = .ok (f a, s') := by
  change (reader s >>= fun p => pure (f p.1, p.2)) = _
  rw [h]
  rfl

theorem get_bind (next : List Char → JsonReader α) (s : List Char) : ((get : JsonReader (List Char)) >>= next) s = next s s := rfl

theorem set_bind (next : PUnit → JsonReader α) (s s' : List Char) : ((set s' : JsonReader PUnit) >>= next) s = next ⟨⟩ s' := rfl

theorem modifyGet_bind (f : List Char → β × List Char) (next : β → JsonReader α) (s : List Char) :
    ((modifyGet f : JsonReader β) >>= next) s = next (f s).1 (f s).2 := rfl

theorem pure_apply (a : α) (s : List Char) : (pure a : JsonReader α) s = .ok (a, s) := rfl

end

/-! ## Escapes -/

theorem hexValue_hexDigit {n : Nat} (hn : n < 16) : hexValue? (hexDigit n) = some n := by
  interval_cases n <;> decide

theorem hexQuad_control {c : Char} (hc : c.toNat < 0x20) (rest : List Char) :
    hexQuad ('0' :: '0' :: hexDigit (c.toNat / 16) :: hexDigit (c.toNat % 16) :: rest) = .ok (c.toNat, rest) := by
  simp only [hexQuad, get_bind, hexValue_hexDigit (show c.toNat / 16 < 16 by omega),
    hexValue_hexDigit (show c.toNat % 16 < 16 by omega), show hexValue? '0' = some 0 by decide, set_bind, pure_apply]
  rw [show ((0 * 16 + 0) * 16 + c.toNat / 16) * 16 + c.toNat % 16 = c.toNat by omega]

theorem numberedEscape_control {c : Char} (hc : c.toNat < 0x20) (rest : List Char) :
    numberedEscape ('0' :: '0' :: hexDigit (c.toNat / 16) :: hexDigit (c.toNat % 16) :: rest) = .ok (c, rest) := by
  rw [numberedEscape, bind_of_ok (hexQuad_control hc rest), if_neg (by omega), if_pos (by omega), Char.ofNat_toNat, pure_apply]

theorem stringChars_escapeChar (c : Char) (fuel : Nat) (rest : List Char) :
    stringChars (fuel + 1) (Json.escapeChar c ++ rest) =
      (stringChars fuel >>= fun cs => pure (c :: cs) : JsonReader (List Char)) rest := by
  have hletter : ∀ letter, escapeLetter? letter = some c →
      stringChars (fuel + 1) ('\\' :: letter :: rest) =
        (stringChars fuel >>= fun cs => pure (c :: cs) : JsonReader (List Char)) rest := by
    intro letter h
    have hescape : escape (letter :: rest) = .ok (c, rest) := by
      simp only [escape, get_bind, h, set_bind, pure_apply]
    simp only [stringChars, get_bind, set_bind, show ('\\' : Char) ≠ '"' by decide, if_true, if_false]
    rw [bind_of_ok hescape]
  unfold Json.escapeChar
  split_ifs with h₁ h₂ h₃ h₄ h₅ h₆ h₇ hcontrol
  · exact hletter '"' (by rw [h₁]; rfl)
  · exact hletter '\\' (by rw [h₂]; rfl)
  · exact hletter 'b' (by rw [h₃]; rfl)
  · exact hletter 'f' (by rw [h₄]; rfl)
  · exact hletter 'n' (by rw [h₅]; rfl)
  · exact hletter 'r' (by rw [h₆]; rfl)
  · exact hletter 't' (by rw [h₇]; rfl)
  · have hescape : escape ('u' :: '0' :: '0' :: hexDigit (c.toNat / 16) :: hexDigit (c.toNat % 16) :: rest) = .ok (c, rest) := by
      simp only [escape, get_bind, show escapeLetter? 'u' = none by decide, if_true, set_bind]
      exact numberedEscape_control hcontrol rest
    simp only [List.cons_append, List.nil_append, stringChars, get_bind, set_bind, show ('\\' : Char) ≠ '"' by decide, if_true,
      if_false]
    rw [bind_of_ok hescape]
  · simp only [List.cons_append, List.nil_append, stringChars, get_bind, h₁, h₂, hcontrol, if_false, set_bind]

theorem stringChars_rendered (text : List Char) {fuel : Nat} (hfuel : text.length < fuel) (rest : List Char) :
    stringChars fuel (text.flatMap Json.escapeChar ++ '"' :: rest) = .ok (text, rest) := by
  induction text generalizing fuel with
  | nil =>
    obtain ⟨fuel, rfl⟩ : ∃ k, fuel = k + 1 := ⟨fuel - 1, by simp at hfuel; omega⟩
    simp only [List.flatMap_nil, List.nil_append, stringChars, get_bind, if_true, set_bind, pure_apply]
  | cons c text ih =>
    obtain ⟨fuel, rfl⟩ : ∃ k, fuel = k + 1 := ⟨fuel - 1, by simp at hfuel; omega⟩
    rw [List.flatMap_cons, List.append_assoc, stringChars_escapeChar,
      bind_of_ok (ih (by simpa using hfuel)), pure_apply]

theorem length_le_escaped (text : List Char) : text.length ≤ (text.flatMap Json.escapeChar).length := by
  induction text with
  | nil => simp
  | cons c text ih =>
    have hc : 1 ≤ (Json.escapeChar c).length := by
      unfold Json.escapeChar
      split_ifs <;> simp
    rw [List.flatMap_cons, List.length_append, List.length_cons]
    omega

theorem string_rendered (s : String) (rest : List Char) : string (Json.renderString s ++ rest) = .ok (s, rest) := by
  have hchars : stringChars ((s.toList.flatMap Json.escapeChar ++ '"' :: rest).length + 1)
      (s.toList.flatMap Json.escapeChar ++ '"' :: rest) = .ok (s.toList, rest) := by
    refine stringChars_rendered _ ?_ rest
    have hlength := length_le_escaped s.toList
    rw [List.length_append]
    omega
  have hadvance : advance (Json.renderString s ++ rest) = .ok (⟨⟩, s.toList.flatMap Json.escapeChar ++ '"' :: rest) := by
    simp only [Json.renderString, List.cons_append, List.append_assoc, List.nil_append]
    rfl
  rw [string, bind_of_ok hadvance, get_bind, bind_of_ok hchars, pure_apply, String.ofList_toList]

end LoadGenerator.JsonReader
