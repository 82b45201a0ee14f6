import LoadGenerator.Text.Utf8
import Mathlib.Tactic

/-!
# Encoded text reads back

Every character is encoded in bytes that decode to it and to nothing longer, so a text comes back from its bytes. Only a newline has a byte that ends a line.
-/

namespace LoadGenerator.Utf8

@[simp] theorem encode_nil : encode [] = [] := rfl

@[simp] theorem encode_cons (c : Char) (text : List Char) : encode (c :: text) = encodeChar c ++ encode text := rfl

@[simp] theorem encode_append (front back : List Char) : encode (front ++ back) = encode front ++ encode back :=
  List.flatMap_append

@[simp] theorem size_append (front back : List Char) : size (front ++ back) = size front + size back := by
  simp only [size, encode_append, List.length_append]

theorem encodeChar_ne_nil (c : Char) : encodeChar c ≠ [] := by
  unfold encodeChar
  dsimp only
  split_ifs <;> simp

theorem encode_eq_nil_iff {text : List Char} : encode text = [] ↔ text = [] := by
  cases text with
  | nil => simp
  | cons c rest => simp [encodeChar_ne_nil c]

private theorem toNat_bounds (c : Char) : c.toNat < 0xd800 ∨ 0xdfff < c.toNat ∧ c.toNat < 0x110000 := c.valid

private theorem toNat_ofNat_lt {n : Nat} (h : n < 256) : (UInt8.ofNat n).toNat = n := UInt8.toNat_ofNat_of_lt' h

/-! ### Sequences of two, three and four bytes -/

private theorem isContinuation_of_bounds {b : UInt8} (h : 0x80 ≤ b.toNat) (h' : b.toNat ≤ 0xbf) : isContinuation b = true := by
  simp only [isContinuation, UInt8.le_iff_toNat_le, decide_eq_true_eq]
  exact ⟨h, h'⟩

private theorem decodeChar_two {lead b : UInt8} (rest : List UInt8) (hlead : 0xc2 ≤ lead.toNat) (hlead' : lead.toNat < 0xe0)
    (hb : 0x80 ≤ b.toNat) (hb' : b.toNat ≤ 0xbf) :
    decodeChar (lead :: b :: rest) = .ok (Char.ofNat ((lead.toNat - 0xc0) * 64 + b.toNat % 64), rest) := by
  have h₁ : ¬ lead < 0x80 := fun h => absurd (UInt8.lt_iff_toNat_lt.mp h) (by change ¬ lead.toNat < 0x80; omega)
  have h₂ : ¬ lead < 0xc2 := fun h => absurd (UInt8.lt_iff_toNat_lt.mp h) (by change ¬ lead.toNat < 0xc2; omega)
  have h₃ : lead < 0xe0 := UInt8.lt_iff_toNat_lt.mpr hlead'
  rw [decodeChar.eq_def]
  dsimp only
  rw [if_neg h₁, if_neg h₂, if_pos h₃, if_pos (isContinuation_of_bounds hb hb'), payload]

private theorem decodeChar_three {lead b c : UInt8} (rest : List UInt8) (hlead : 0xe0 ≤ lead.toNat)
    (hlead' : lead.toNat < 0xf0) (hb : isSecond lead b = true) (hc : 0x80 ≤ c.toNat) (hc' : c.toNat ≤ 0xbf) :
    decodeChar (lead :: b :: c :: rest) =
      .ok (Char.ofNat ((lead.toNat - 0xe0) * 4096 + b.toNat % 64 * 64 + c.toNat % 64), rest) := by
  have h₁ : ¬ lead < 0x80 := fun h => absurd (UInt8.lt_iff_toNat_lt.mp h) (by change ¬ lead.toNat < 0x80; omega)
  have h₂ : ¬ lead < 0xc2 := fun h => absurd (UInt8.lt_iff_toNat_lt.mp h) (by change ¬ lead.toNat < 0xc2; omega)
  have h₃ : ¬ lead < 0xe0 := fun h => absurd (UInt8.lt_iff_toNat_lt.mp h) (by change ¬ lead.toNat < 0xe0; omega)
  have h₄ : lead < 0xf0 := UInt8.lt_iff_toNat_lt.mpr hlead'
  rw [decodeChar.eq_def]
  dsimp only
  rw [if_neg h₁, if_neg h₂, if_neg h₃, if_pos h₄, if_pos hb, if_pos (isContinuation_of_bounds hc hc'), payload, payload]

private theorem decodeChar_four {lead b c d : UInt8} (rest : List UInt8) (hlead : 0xf0 ≤ lead.toNat)
    (hlead' : lead.toNat < 0xf5) (hb : isSecond lead b = true) (hc : 0x80 ≤ c.toNat) (hc' : c.toNat ≤ 0xbf)
    (hd : 0x80 ≤ d.toNat) (hd' : d.toNat ≤ 0xbf) :
    decodeChar (lead :: b :: c :: d :: rest) =
      .ok (Char.ofNat ((lead.toNat - 0xf0) * 262144 + b.toNat % 64 * 4096 + c.toNat % 64 * 64 + d.toNat % 64), rest) := by
  have h₁ : ¬ lead < 0x80 := fun h => absurd (UInt8.lt_iff_toNat_lt.mp h) (by change ¬ lead.toNat < 0x80; omega)
  have h₂ : ¬ lead < 0xc2 := fun h => absurd (UInt8.lt_iff_toNat_lt.mp h) (by change ¬ lead.toNat < 0xc2; omega)
  have h₃ : ¬ lead < 0xe0 := fun h => absurd (UInt8.lt_iff_toNat_lt.mp h) (by change ¬ lead.toNat < 0xe0; omega)
  have h₄ : ¬ lead < 0xf0 := fun h => absurd (UInt8.lt_iff_toNat_lt.mp h) (by change ¬ lead.toNat < 0xf0; omega)
  have h₅ : lead < 0xf5 := UInt8.lt_iff_toNat_lt.mpr hlead'
  rw [decodeChar.eq_def]
  dsimp only
  rw [if_neg h₁, if_neg h₂, if_neg h₃, if_neg h₄, if_pos h₅, if_pos hb, if_pos (isContinuation_of_bounds hc hc'),
    if_pos (isContinuation_of_bounds hd hd'), payload, payload, payload]

/-- A second byte that is no overlong form, no surrogate and no code point past the last plane. -/
private theorem isSecond_of_bounds {lead b : UInt8} (hb : 0x80 ≤ b.toNat) (hb' : b.toNat ≤ 0xbf)
    (hoverlong₃ : lead.toNat = 0xe0 → 0xa0 ≤ b.toNat) (hsurrogate : lead.toNat = 0xed → b.toNat ≤ 0x9f)
    (hoverlong₄ : lead.toNat = 0xf0 → 0x90 ≤ b.toNat) (hlast : lead.toNat = 0xf4 → b.toNat ≤ 0x8f) :
    isSecond lead b = true := by
  simp only [isSecond, UInt8.le_iff_toNat_le, decide_eq_true_eq, secondRange]
  split_ifs with h₁ h₂ h₃ h₄
  · exact ⟨hoverlong₃ (congrArg UInt8.toNat h₁), hb'⟩
  · exact ⟨hb, hsurrogate (congrArg UInt8.toNat h₂)⟩
  · exact ⟨hoverlong₄ (congrArg UInt8.toNat h₃), hb'⟩
  · exact ⟨hb, hlast (congrArg UInt8.toNat h₄)⟩
  · exact ⟨hb, hb'⟩

/-! ### Whole texts -/

/-- The first character of encoded text is decoded, and just its bytes are taken. -/
theorem decodeChar_encodeChar (c : Char) (rest : List UInt8) : decodeChar (encodeChar c ++ rest) = .ok (c, rest) := by
  have hc := toNat_bounds c
  have hback : Char.ofNat c.toNat = c := Char.ofNat_toNat c
  unfold encodeChar
  dsimp only
  generalize c.toNat = n at *
  split_ifs with h₁ h₂ h₃
  · have hlead : (UInt8.ofNat n).toNat = n := toNat_ofNat_lt (by omega)
    simp [decodeChar, UInt8.lt_iff_toNat_lt, hlead, h₁, hback]
  · have hlead : (UInt8.ofNat (0xc0 + n / 64)).toNat = 0xc0 + n / 64 := toNat_ofNat_lt (by omega)
    have hb : (UInt8.ofNat (0x80 + n % 64)).toNat = 0x80 + n % 64 := toNat_ofNat_lt (by omega)
    simp only [List.cons_append, List.nil_append]
    rw [decodeChar_two rest (by omega) (by omega) (by omega) (by omega), hlead, hb,
      show (0xc0 + n / 64 - 0xc0) * 64 + (0x80 + n % 64) % 64 = n by omega, hback]
  · have hlead : (UInt8.ofNat (0xe0 + n / 4096)).toNat = 0xe0 + n / 4096 := toNat_ofNat_lt (by omega)
    have hb : (UInt8.ofNat (0x80 + n / 64 % 64)).toNat = 0x80 + n / 64 % 64 := toNat_ofNat_lt (by omega)
    have hd : (UInt8.ofNat (0x80 + n % 64)).toNat = 0x80 + n % 64 := toNat_ofNat_lt (by omega)
    simp only [List.cons_append, List.nil_append]
    rw [decodeChar_three rest (by omega) (by omega)
      (isSecond_of_bounds (by omega) (by omega) (by omega) (by omega) (by omega) (by omega)) (by omega) (by omega),
      hlead, hb, hd,
      show (0xe0 + n / 4096 - 0xe0) * 4096 + (0x80 + n / 64 % 64) % 64 * 64 + (0x80 + n % 64) % 64 = n by omega, hback]
  · have hlead : (UInt8.ofNat (0xf0 + n / 262144)).toNat = 0xf0 + n / 262144 := toNat_ofNat_lt (by omega)
    have hb : (UInt8.ofNat (0x80 + n / 4096 % 64)).toNat = 0x80 + n / 4096 % 64 := toNat_ofNat_lt (by omega)
    have hc : (UInt8.ofNat (0x80 + n / 64 % 64)).toNat = 0x80 + n / 64 % 64 := toNat_ofNat_lt (by omega)
    have hd : (UInt8.ofNat (0x80 + n % 64)).toNat = 0x80 + n % 64 := toNat_ofNat_lt (by omega)
    simp only [List.cons_append, List.nil_append]
    rw [decodeChar_four rest (by omega) (by omega)
      (isSecond_of_bounds (by omega) (by omega) (by omega) (by omega) (by omega) (by omega)) (by omega) (by omega)
      (by omega) (by omega), hlead, hb, hc, hd,
      show (0xf0 + n / 262144 - 0xf0) * 262144 + (0x80 + n / 4096 % 64) % 64 * 4096 + (0x80 + n / 64 % 64) % 64 * 64 +
        (0x80 + n % 64) % 64 = n by omega, hback]

theorem decodeFrom_encode (text : List Char) (fuel before : Nat) (hfuel : text.length ≤ fuel) :
    decodeFrom fuel before (encode text) = .ok text := by
  induction text generalizing fuel before with
  | nil => cases fuel <;> rfl
  | cons c rest ih =>
    obtain ⟨fuel, rfl⟩ : ∃ f, fuel = f + 1 := ⟨fuel - 1, by simp only [List.length_cons] at hfuel; omega⟩
    have hne : encodeChar c ++ encode rest ≠ [] := by simp [encodeChar_ne_nil c]
    have hih := ih fuel (before + c.utf8Size) (by simpa using hfuel)
    have hchar := decodeChar_encodeChar c (encode rest)
    rw [encode_cons]
    generalize encodeChar c ++ encode rest = bytes at *
    cases bytes with
    | nil => exact absurd rfl hne
    | cons b bytes =>
      simp only [decodeFrom, hchar, hih]
      rfl

theorem length_le_size (text : List Char) : text.length ≤ size text := by
  induction text with
  | nil => rfl
  | cons c rest ih =>
    have hpositive : 0 < (encodeChar c).length := List.length_pos_iff.mpr (encodeChar_ne_nil c)
    simp only [size, encode_cons, List.length_append, List.length_cons] at ih ⊢
    omega

@[simp] theorem decode_encode (text : List Char) : decode (encode text) = .ok text :=
  decodeFrom_encode text _ 0 (length_le_size text)

/-! ### Bytes that end a line -/

theorem mem_encodeChar_ascii {c : Char} {b : UInt8} (hb : b.toNat < 0x80) (h : b ∈ encodeChar c) : c.toNat = b.toNat := by
  have hc := toNat_bounds c
  unfold encodeChar at h
  dsimp only at h
  generalize c.toNat = n at *
  split_ifs at h with h₁ h₂ h₃ <;> simp only [List.mem_cons, List.not_mem_nil, or_false] at h
  · rw [h, toNat_ofNat_lt (by omega)]
  · rcases h with rfl | rfl <;> rw [toNat_ofNat_lt (by omega)] at hb <;> omega
  · rcases h with rfl | rfl | rfl <;> rw [toNat_ofNat_lt (by omega)] at hb <;> omega
  · rcases h with rfl | rfl | rfl | rfl <;> rw [toNat_ofNat_lt (by omega)] at hb <;> omega

theorem mem_encode_ascii {text : List Char} {b : UInt8} (hb : b.toNat < 0x80) (h : b ∈ encode text) :
    ∃ c ∈ text, c.toNat = b.toNat := by
  obtain ⟨c, hc, hmem⟩ := List.mem_flatMap.mp h
  exact ⟨c, hc, mem_encodeChar_ascii hb hmem⟩

end LoadGenerator.Utf8
