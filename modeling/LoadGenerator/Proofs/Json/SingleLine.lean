import LoadGenerator.Proofs.Json.Values

/-!
# Values on one line

The text of a value has no newline in it, since strings escape theirs and no number has one, and it begins with a character that can be seen. A message and its newline are therefore one line, and not a blank one.
-/

namespace LoadGenerator

open Text

theorem newline_notMem_decimal (n : Nat) : '\n' ∉ decimal n := fun h => by cases isDigit_of_mem_decimal h

theorem newline_notMem_render (style : DecimalStyle) (x : Binary64) : '\n' ∉ x.render style := by
  have hdigits := newline_notMem_decimal (x.shortest style.tie).digits
  have hpositional (exponent : ℤ) : '\n' ∉ Binary64.positional style (decimal (x.shortest style.tie).digits) exponent := by
    unfold Binary64.positional
    dsimp only
    split_ifs
    · simp [hdigits]
    · simp [hdigits]
    · simp [mt List.mem_of_mem_take hdigits, mt List.mem_of_mem_drop hdigits]
    · simp [hdigits]
  have hscientific (leading : ℤ) : '\n' ∉ Binary64.scientific style (decimal (x.shortest style.tie).digits) leading := by
    have hleading : '\n' ∉ (decimal (x.shortest style.tie).digits).take 1 := mt List.mem_of_mem_take hdigits
    have hfraction : '\n' ∉ (decimal (x.shortest style.tie).digits).drop 1 := mt List.mem_of_mem_drop hdigits
    have hsign : '\n' ∉ (if leading < 0 then ['-'] else if style.plusSign then ['+'] else []) := by
      split_ifs <;> simp
    have hexponent := newline_notMem_decimal leading.natAbs
    unfold Binary64.scientific
    generalize (decimal (x.shortest style.tie).digits).drop 1 = fraction at hfraction ⊢
    cases fraction with
    | nil => simp [hleading, hsign, hexponent]
    | cons digit fraction =>
      rw [List.mem_cons, not_or] at hfraction
      simp [hleading, hsign, hexponent, hfraction]
  unfold Binary64.render
  dsimp only
  split_ifs <;> simp [hpositional, hscientific]

namespace Json

theorem newline_notMem_number (n : JsonNumber) : '\n' ∉ n.render := by
  cases n with
  | natural n => exact newline_notMem_decimal _
  | negative n =>
    rw [JsonNumber.render, List.mem_cons, not_or]
    exact ⟨by decide, newline_notMem_decimal _⟩
  | real x => exact newline_notMem_render jsonStyle x

theorem newline_notMem_escapeChar (c : Char) : '\n' ∉ escapeChar c := by
  have hhex : ∀ n, n < 16 → hexDigit n ≠ '\n' := by decide
  unfold escapeChar
  split_ifs with h₁ h₂ h₃ h₄ hline h₆ h₇ hcontrol
  iterate 7 decide
  · simp [(hhex (c.toNat / 16) (by omega)).symm, (hhex (c.toNat % 16) (by omega)).symm]
  · rw [List.mem_singleton]
    exact fun h => hline h.symm

theorem newline_notMem_renderString (s : String) : '\n' ∉ renderString s := by
  simp only [renderString, List.cons_append, List.mem_cons, List.mem_append, List.mem_flatMap, List.not_mem_nil, or_false, not_or,
    not_exists, not_and]
  exact ⟨by decide, fun c _ => newline_notMem_escapeChar c, by decide⟩

theorem newline_notMem_commaSeparated {texts : List (List Char)} (h : ∀ text ∈ texts, '\n' ∉ text) : '\n' ∉ commaSeparated texts := by
  cases texts with
  | nil => exact List.not_mem_nil
  | cons text texts =>
    simp only [commaSeparated, List.mem_append, List.mem_flatMap, List.mem_cons, not_or, not_exists, not_and]
    exact ⟨h text (by simp), fun next hnext => ⟨by decide, h next (by simp [hnext])⟩⟩

theorem newline_notMem_render (v : Json) : '\n' ∉ v.render := by
  induction v using nestedInduction with
  | null => decide
  | bool b => cases b <;> decide
  | number n => exact newline_notMem_number n
  | string s => exact newline_notMem_renderString s
  | array items ih =>
    rw [render, renderItems_eq]
    have hitems : ∀ text ∈ items.map render, '\n' ∉ text := List.forall_mem_map.mpr ih
    simp [newline_notMem_commaSeparated hitems]
  | object members ih =>
    rw [render, renderMembers_eq]
    have hmembers : ∀ text ∈ members.map renderMember, '\n' ∉ text := by
      refine List.forall_mem_map.mpr fun member hmember => ?_
      rw [renderMember, List.mem_append, List.mem_cons, not_or, not_or]
      exact ⟨newline_notMem_renderString _, by decide, ih member hmember⟩
    simp [newline_notMem_commaSeparated hmembers]

end Json

end LoadGenerator
