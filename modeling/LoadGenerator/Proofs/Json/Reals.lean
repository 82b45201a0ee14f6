import LoadGenerator.Proofs.Json.Numbers

/-!
# Reading back numbers with a fraction or an exponent

The text of a finite number in either notation is read to its end and gives a number.
-/

namespace LoadGenerator.JsonReader

open Text

/-! ## The two forms -/

theorem unsignedNumber_point {whole frac tail : List Char} {w : Nat} {shift : ℤ} (hwhole : IsWhole whole w)
    (hfrac : ∀ c ∈ frac, isDigit c = true) (hnonempty : frac ≠ []) (htail : Tail tail shift)
    (hlow : -2147483648 + frac.length ≤ shift) (hhigh : shift ≤ 2147483647) (negative : Bool) :
    ∃ k ≤ frac.length, (numberFrom w frac < UInt64.size → k = frac.length) ∧ ∀ rest, Stops rest →
      unsignedNumber negative (whole ++ '.' :: (frac ++ (tail ++ rest))) =
        scaledNumber negative (numberFrom w (frac.take k)) (-k + shift) rest := by
  obtain ⟨k, hk, hall, hread⟩ := fraction_spec negative w hfrac hnonempty
  refine ⟨k, hk, hall, fun rest hrest => ?_⟩
  rw [unsignedNumber_whole hwhole negative (show startsWithDigit ('.' :: _) = false from rfl)]
  change fraction negative w 0 _ = _
  rw [hread _ (htail.startsWithDigit hrest), exponentOrEnd_tail htail hrest negative _ (by omega) (by omega)]

theorem unsignedNumber_exponent {whole tail rest : List Char} {w : Nat} {shift : ℤ} (hwhole : IsWhole whole w)
    (htail : Tail tail shift) (hnonempty : tail ≠ []) (hrest : Stops rest) (negative : Bool) :
    unsignedNumber negative (whole ++ (tail ++ rest)) = scaledNumber negative w shift rest := by
  rw [unsignedNumber_whole hwhole negative (htail.startsWithDigit hrest)]
  cases htail with
  | none => exact absurd rfl hnonempty
  | above sign k hsign hk =>
    have hread := exponent_above hk hrest hsign negative w 0
    rw [zero_add, saturate_of_mem (by omega) (by omega)] at hread
    rw [← hread, List.append_assoc, List.cons_append]
    rfl
  | below k hk =>
    have hread := exponent_below hk hrest negative w 0
    rw [zero_sub, saturate_of_mem (by omega) (by omega)] at hread
    rw [← hread]
    rfl

/-! ## Notations -/

theorem pow_le_of_decimal {n : Nat} (hn : n ≠ 0) : 10 ^ ((decimal n).length - 1) ≤ n := by
  obtain ⟨c, ds, hds⟩ := List.exists_cons_of_ne_nil (decimal_ne_nil n)
  have hc : isDigit c = true := isDigit_of_mem_decimal (n := n) (by rw [hds]; simp)
  have hhead : c ≠ '0' := by
    rintro rfl
    exact head_decimal_ne_zero hn (by rw [hds]; rfl)
  have hvalue : 1 ≤ digitValue c := by
    rw [isDigit_iff] at hc
    have hcode : c.toNat ≠ 48 := fun h => hhead (Char.toNat_inj.mp h)
    unfold digitValue
    omega
  have hnumber := numberFrom_decimal n
  rw [hds] at hnumber ⊢
  calc 10 ^ ((c :: ds).length - 1) = 1 * 10 ^ ds.length := by simp
    _ ≤ digitValue c * 10 ^ ds.length := Nat.mul_le_mul_right _ hvalue
    _ ≤ numberFrom (digitValue c) ds := mul_pow_le_numberFrom _ _
    _ = n := by
      rw [← hnumber]
      simp [numberFrom]

theorem lt_pow_decimal (n : Nat) : n < 10 ^ (decimal n).length := by
  have h := numberFrom_lt 0 (decimal n) fun _ => isDigit_of_mem_decimal
  rwa [numberFrom_decimal, zero_add, one_mul] at h

/-- A text after a sign that is read as some number. -/
def ReadsReal (negative : Bool) (body : List Char) : Prop :=
  ∃ x, ∀ rest, Stops rest → unsignedNumber negative (body ++ rest) = .ok (.real x, rest)

/-- A number with a point and no exponent is always small enough. -/
theorem readsReal_point {whole frac : List Char} {w : Nat} (hwhole : IsWhole whole w) (hfrac : ∀ c ∈ frac, isDigit c = true)
    (hnonempty : frac ≠ []) (hlength : frac.length ≤ 2147483648) (negative : Bool) : ReadsReal negative (whole ++ '.' :: frac) := by
  obtain ⟨k, -, -, hread⟩ := unsignedNumber_point hwhole hfrac hnonempty .none (by omega) (by omega) negative
  have hscale : (scale (Binary64.ofNat (numberFrom w (frac.take k))) (-k + 0)).isSome = true := by
    rcases Nat.eq_zero_or_pos k with rfl | hk
    · refine isSome_scale_of_le le_rfl ?_
      rw [List.take_zero, show (-((0 : Nat) : ℤ) + 0) = 0 by rfl, zpow_zero, mul_one]
      refine le_trans ?_ two_zpow_le_roomyDigits
      have hsmall : (w : ℚ) ≤ 2 ^ (64 : ℤ) := by
        have hcast : (w : ℚ) < (UInt64.size : Nat) := Nat.cast_lt.mpr hwhole.small
        rw [show (64 : ℤ) = (64 : Nat) by rfl, zpow_natCast]
        norm_num [UInt64.size] at hcast ⊢
        exact hcast.le
      exact hsmall.trans (zpow_le_zpow_right₀ (by norm_num) (by norm_num))
    · exact isSome_scale_of_neg (by omega) _
  obtain ⟨x, hx⟩ := scaledNumber_of_isSome hscale negative
  refine ⟨x, fun rest hrest => ?_⟩
  rw [List.append_assoc, List.cons_append, ← hx rest, ← hread rest hrest, List.nil_append]

theorem isWhole_padded {digits zeros : Nat}
    (hleading : digits = 0 ∧ zeros = 0 ∨ digits ≠ 0 ∧ (decimal digits).length + zeros ≤ 16) :
    IsWhole (decimal digits ++ List.replicate zeros '0') (digits * 10 ^ zeros) := by
  refine ⟨by simp [decimal_ne_nil], ?_, ?_, ?_, ?_⟩
  · intro c hc
    rcases List.mem_append.mp hc with hdigit | hzero
    · exact isDigit_of_mem_decimal hdigit
    · rw [List.eq_of_mem_replicate hzero]
      rfl
  · rcases hleading with ⟨rfl, rfl⟩ | ⟨hnonzero, -⟩
    · exact .inr (by rw [decimal_of_lt (by decide)]; rfl)
    · rw [List.head?_append_of_ne_nil _ (decimal_ne_nil _)]
      exact .inl (head_decimal_ne_zero hnonzero)
  · rw [numberFrom_append, numberFrom_decimal, numberFrom_replicate_zero]
  · rcases hleading with ⟨rfl, -⟩ | ⟨-, hsmall⟩
    · rw [Nat.zero_mul]
      decide
    · calc digits * 10 ^ zeros ≤ 10 ^ (decimal digits).length * 10 ^ zeros := Nat.mul_le_mul_right _ (lt_pow_decimal digits).le
        _ = 10 ^ ((decimal digits).length + zeros) := (pow_add _ _ _).symm
        _ ≤ 10 ^ 16 := Nat.pow_le_pow_right (by decide) hsmall
        _ < UInt64.size := by decide

theorem isWhole_take {digits kept : Nat} (hnonzero : digits ≠ 0) (hkept : 0 < kept) (hsmall : kept ≤ 16) :
    IsWhole ((decimal digits).take kept) (numberFrom 0 ((decimal digits).take kept)) := by
  have hdigits : ∀ c ∈ (decimal digits).take kept, isDigit c = true := fun c hc => isDigit_of_mem_decimal (List.mem_of_mem_take hc)
  have hnonempty : (decimal digits).take kept ≠ [] := by
    rw [Ne, List.take_eq_nil_iff]
    exact fun h => h.elim (Nat.ne_of_gt hkept) (decimal_ne_nil digits)
  refine ⟨hnonempty, hdigits, ?_, rfl, ?_⟩
  · have hhead := head_decimal_ne_zero hnonzero
    rw [← List.take_append_drop kept (decimal digits), List.head?_append_of_ne_nil _ hnonempty] at hhead
    exact .inl hhead
  · calc numberFrom 0 ((decimal digits).take kept) < (0 + 1) * 10 ^ ((decimal digits).take kept).length := numberFrom_lt 0 _ hdigits
      _ ≤ 10 ^ 16 := by
        rw [zero_add, one_mul, List.length_take]
        exact Nat.pow_le_pow_right (by decide) ((Nat.min_le_left _ _).trans hsmall)
      _ < UInt64.size := by decide

theorem readsReal_positional {digits : Nat} {place : ℤ} (hplace : -400 ≤ place) (hlength : (decimal digits).length ≤ 1000)
    (hleading : digits = 0 ∧ place = 0 ∨ digits ≠ 0 ∧ place + (decimal digits).length - 1 < 16) (negative : Bool) :
    ReadsReal negative (Binary64.positional jsonStyle (decimal digits) place) := by
  have hds : ∀ c ∈ decimal digits, isDigit c = true := fun _ => isDigit_of_mem_decimal
  unfold Binary64.positional
  dsimp only
  split_ifs with hnonneg hfraction hplaces
  · obtain ⟨zeros, rfl⟩ := Int.eq_ofNat_of_zero_le hnonneg
    have hwhole : IsWhole (decimal digits ++ List.replicate zeros '0') (digits * 10 ^ zeros) := isWhole_padded (by omega)
    exact readsReal_point hwhole (List.forall_mem_singleton.mpr rfl) (by simp) (by simp) negative
  · exact absurd rfl hfraction
  · obtain ⟨hnonzero, hsmall⟩ := hleading.resolve_left (by omega)
    have hkept : 0 < (decimal digits).length - place.natAbs := by omega
    have hwhole := isWhole_take hnonzero hkept (by omega)
    refine readsReal_point hwhole (fun c hc => hds c (List.mem_of_mem_drop hc)) ?_ ?_ negative
    · rw [Ne, List.drop_eq_nil_iff]
      omega
    · rw [List.length_drop]
      omega
  · have hwhole : IsWhole ['0'] 0 := ⟨by simp, List.forall_mem_singleton.mpr rfl, .inr rfl, rfl, by decide⟩
    change ReadsReal negative (['0'] ++ '.' :: (List.replicate (place.natAbs - (decimal digits).length) '0' ++ decimal digits))
    refine readsReal_point hwhole ?_ (by simp [decimal_ne_nil]) ?_ negative
    · intro c hc
      rcases List.mem_append.mp hc with hzero | hdigit
      · rw [List.eq_of_mem_replicate hzero]
        rfl
      · exact hds c hdigit
    · rw [List.length_append, List.length_replicate]
      omega

theorem tail_scientific (leading : ℤ) (hlow : -2147483648 < leading) (hhigh : leading < 2147483648) :
    Tail ('e' :: (if leading < 0 then ['-'] else if jsonStyle.plusSign then ['+'] else []) ++ decimal leading.natAbs) leading := by
  split_ifs with hneg hplus
  · have h := Tail.below leading.natAbs (by omega)
    rwa [show -(leading.natAbs : ℤ) = leading by omega] at h
  · have h := Tail.above ['+'] leading.natAbs (.inr rfl) (by omega)
    rwa [show (leading.natAbs : ℤ) = leading by omega] at h
  · exact absurd rfl hplus

theorem readsReal_scientific {digits : Nat} {place : ℤ} (hdigits : digits ≠ 0) (hplace : -400 ≤ place)
    (hlength : (decimal digits).length ≤ 1000) (hleading : place + (decimal digits).length ≤ 1000)
    (hsize : (digits * 10 ^ place : ℚ) ≤ Binary64.largestDigits)
    (hgrid : (digits * 10 ^ place : ℚ) ≤ 2 ^ (1023 : ℤ) ∨ 292 ≤ place) (negative : Bool) :
    ReadsReal negative (Binary64.scientific jsonStyle (decimal digits) (place + (decimal digits).length - 1)) := by
  have hds : ∀ c ∈ decimal digits, isDigit c = true := fun _ => isDigit_of_mem_decimal
  have hhead := head_decimal_ne_zero hdigits
  have hnumber := numberFrom_decimal digits
  obtain ⟨c, ds, hcons⟩ := List.exists_cons_of_ne_nil (decimal_ne_nil digits)
  rw [hcons] at hds hhead hnumber hlength hleading ⊢
  have hc := hds c (by simp)
  have hwhole : IsWhole [c] (digitValue c) := by
    refine ⟨by simp, by simpa using hc, .inl hhead, by simp [numberFrom], ?_⟩
    exact (digitValue_lt hc).trans (by decide)
  have hstart : numberFrom (digitValue c) ds = digits := by
    rw [← hnumber]
    simp [numberFrom]
  rw [List.length_cons] at hlength hleading ⊢
  have htail := tail_scientific (place + (ds.length + 1 : Nat) - 1) (by omega) (by omega)
  have hread : ∃ n power, (scale (Binary64.ofNat n) power).isSome = true ∧ ∀ rest, Stops rest →
      unsignedNumber negative
        (Binary64.scientific jsonStyle (c :: ds) (place + (ds.length + 1 : Nat) - 1) ++ rest) =
          scaledNumber negative n power rest := by
    cases ds with
    | nil =>
      refine ⟨digits, place, ?_, fun rest hrest => ?_⟩
      · exact isSome_scale_of_digits 0 hsize hgrid (Nat.mul_one digits).le (by simp) fun _ => ⟨rfl, rfl⟩
      · have hexponent := unsignedNumber_exponent hwhole htail (by simp) hrest negative
        rw [show digitValue c = digits from hstart] at hexponent
        simpa [Binary64.scientific] using hexponent
    | cons d ds =>
      have hfrac : ∀ e ∈ d :: ds, isDigit e = true := fun e he => hds e (List.mem_cons_of_mem c he)
      obtain ⟨k, hk, hall, hread⟩ := unsignedNumber_point hwhole hfrac (by simp) htail (by omega) (by omega) negative
      refine ⟨numberFrom (digitValue c) ((d :: ds).take k), -k + (place + ((d :: ds).length + 1 : Nat) - 1), ?_,
        fun rest hrest => ?_⟩
      rotate_left
      · rw [← hread rest hrest]
        simp [Binary64.scientific]
      · refine isSome_scale_of_digits ((d :: ds).length - k) hsize hgrid ?_ (by push_cast; omega) fun hsmall => ?_
        · have hgrow := mul_pow_le_numberFrom (numberFrom (digitValue c) ((d :: ds).take k)) ((d :: ds).drop k)
          rwa [← numberFrom_append, List.take_append_drop, hstart, List.length_drop] at hgrow
        · obtain rfl := hall (by rwa [hstart])
          rw [Nat.sub_self, List.take_length, hstart]
          exact ⟨rfl, rfl⟩
  obtain ⟨n, power, hscale, hread⟩ := hread
  obtain ⟨x, hx⟩ := scaledNumber_of_isSome hscale negative
  exact ⟨x, fun rest hrest => (hread rest hrest).trans (hx rest)⟩

/-! ## All numbers -/

theorem largestDigits_lt : Binary64.largestDigits < 10 ^ (309 : ℤ) := by
  rw [Binary64.largestDigits, show (309 : ℤ) = 17 + 292 by rfl, zpow_add₀ (by norm_num)]
  exact mul_lt_mul_of_pos_right (by norm_num) (by positivity)

theorem leading_lt {digits : Nat} {place : ℤ} (hdigits : digits ≠ 0)
    (hsize : (digits * 10 ^ place : ℚ) ≤ Binary64.largestDigits) : place + (decimal digits).length ≤ 309 := by
  have hpositive := List.length_pos_iff.mpr (decimal_ne_nil digits)
  have hcast : ((10 ^ ((decimal digits).length - 1) : Nat) : ℚ) ≤ digits := Nat.cast_le.mpr (pow_le_of_decimal hdigits)
  push_cast at hcast
  have hpower : (10 : ℚ) ^ (((decimal digits).length - 1 : Nat) + place : ℤ) < 10 ^ (309 : ℤ) := by
    calc (10 : ℚ) ^ (((decimal digits).length - 1 : Nat) + place : ℤ)
        = 10 ^ ((decimal digits).length - 1) * 10 ^ place := by rw [zpow_add₀ (by norm_num), zpow_natCast]
      _ ≤ digits * 10 ^ place := mul_le_mul_of_nonneg_right hcast (by positivity)
      _ ≤ Binary64.largestDigits := hsize
      _ < 10 ^ (309 : ℤ) := largestDigits_lt
  have hexponents := (zpow_lt_zpow_iff_right₀ (by norm_num : (1 : ℚ) < 10)).mp hpower
  omega

theorem readsReal_rendered {x : Binary64} (hfinite : x.isFinite = true) (negative : Bool) :
    ReadsReal negative
      (if x.isZero || jsonStyle.positional ((x.shortest .even).exponent + (decimal (x.shortest .even).digits).length - 1)
        then Binary64.positional jsonStyle (decimal (x.shortest .even).digits) (x.shortest .even).exponent
        else Binary64.scientific jsonStyle (decimal (x.shortest .even).digits)
          ((x.shortest .even).exponent + (decimal (x.shortest .even).digits).length - 1)) := by
  cases hzero : x.isZero with
  | true =>
    have hshortest : x.shortest .even = ⟨0, 0⟩ := by rw [Binary64.shortest, if_pos hzero]
    rw [hshortest, Bool.true_or, if_pos rfl]
    refine readsReal_positional (by decide) ?_ (.inl ⟨rfl, rfl⟩) negative
    rw [decimal_of_lt (by decide)]
    decide
  | false =>
    obtain ⟨digits, place, hshortest, hdigits, hplace, hsize, hgrid⟩ := Binary64.shortest_spec .even hfinite hzero
    have hleading := leading_lt hdigits.ne' hsize
    rw [hshortest, Bool.false_or]
    by_cases hpositional : jsonStyle.positional (place + (decimal digits).length - 1) = true
    · rw [if_pos hpositional]
      exact readsReal_positional hplace (by omega) (.inr ⟨hdigits.ne', (of_decide_eq_true hpositional).2⟩) negative
    · rw [if_neg hpositional]
      exact readsReal_scientific hdigits.ne' hplace (by omega) (by omega) hsize hgrid negative

/-- A number that is read after no sign is read at once. -/
theorem number_of_unsignedNumber {s rest : List Char} {n : JsonNumber} (h : unsignedNumber false s = .ok (n, rest)) :
    number s = .ok (n, rest) := by
  cases s with
  | nil => exact h
  | cons c s =>
    by_cases hc : c = '-'
    · subst hc
      cases h
    · rw [number_unsigned hc, h]

/-- The text of a finite number is read as some number, whatever follows it. -/
theorem exists_number_real {x : Binary64} (hfinite : x.isFinite = true) :
    ∃ y, ∀ rest, Stops rest → number ((JsonNumber.real x).render ++ rest) = .ok (.real y, rest) := by
  have hnan : x.isNan = false := by
    have hsmall := of_decide_eq_true hfinite
    exact decide_eq_false (by omega)
  obtain ⟨y, hy⟩ := readsReal_rendered hfinite x.negative
  refine ⟨y, fun rest hrest => ?_⟩
  rw [JsonNumber.render, Binary64.render, hnan, if_neg Bool.false_ne_true, if_pos hfinite]
  cases hnegative : x.negative with
  | true =>
    rw [hnegative] at hy
    exact hy rest hrest
  | false =>
    rw [hnegative] at hy
    exact number_of_unsignedNumber (hy rest hrest)

theorem number_natural (n : UInt64) {rest : List Char} (hrest : Stops rest) :
    number ((JsonNumber.natural n).render ++ rest) = .ok (.natural n, rest) := by
  refine number_of_unsignedNumber ?_
  rw [JsonNumber.render, unsignedNumber_integer n.toNat_lt false hrest, integerNumber, if_neg Bool.false_ne_true]
  simp

theorem number_minus (n : Fin 0x8000000000000000) {rest : List Char} (hrest : Stops rest) :
    number ((JsonNumber.negative n).render ++ rest) = .ok (.negative n, rest) := by
  have hn := n.isLt
  have hsmall : n.val + 1 < UInt64.size := lt_of_le_of_lt hn (by decide)
  rw [JsonNumber.render, List.cons_append, number_negative, unsignedNumber_integer hsmall true hrest, integerNumber, if_pos rfl,
    dif_pos ⟨Nat.succ_pos _, hn⟩]
  rfl

end LoadGenerator.JsonReader
