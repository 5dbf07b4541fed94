/-
  Finite numbers are what their documents say.

  A finite number is a sign and a multiple of the least positive number, and
  only the two zeros have the same multiple without being one number.  The
  document of a number keeps the sign and the multiple.

  * `Binary64.magnitude`: the multiple;
  * `Binary64.eq_of_magnitude`: numbers with the same sign and multiple;
  * `Binary64.magnitude_of_integer?`: the multiple of an integer;
  * `Binary64.render_eq_iff`: finite numbers with the same document are equal.
-/
import Mathlib.Algebra.Group.Nat.Defs
import ValueGraph.Rendering

namespace ValueGraph.Binary64

variable {x y : Binary64} {i : Int}

/-! ## Multiples of the least positive number -/

/-- How often a finite number counts the least positive one, `2 ^ -1074`. -/
def magnitude (x : Binary64) : Nat := x.significand * 2 ^ (x.exponent + 1074).toNat

theorem fraction_lt (x : Binary64) : x.fraction < 2 ^ 52 := Nat.mod_lt _ (by decide)

theorem magnitude_subnormal (h : x.exponentField = 0) : x.magnitude = x.fraction := by
  simp [magnitude, significand, exponent, h]

theorem magnitude_normal (h : x.exponentField ≠ 0) :
    x.magnitude = (2 ^ 52 + x.fraction) * 2 ^ (x.exponentField - 1) := by
  have hexp : (x.exponent + 1074).toNat = x.exponentField - 1 := by
    rw [exponent, if_neg h]
    omega
  have hlead : 0x10000000000000 = 2 ^ 52 := by decide
  rw [magnitude, hexp, significand, if_neg h, hlead]

/-- The multiple of a number with a leading one lies between two powers of two
    that its exponent tells. -/
theorem magnitude_bounds (h : x.exponentField ≠ 0) :
    2 ^ (51 + x.exponentField) ≤ x.magnitude ∧ x.magnitude < 2 ^ (52 + x.exponentField) := by
  have hpos : 0 < 2 ^ (x.exponentField - 1) := Nat.pow_pos (by decide)
  have hlow : 2 ^ (51 + x.exponentField) = 2 ^ 52 * 2 ^ (x.exponentField - 1) := by
    rw [← Nat.pow_add]
    congr 1
    omega
  have hhigh : 2 ^ (52 + x.exponentField) = 2 ^ 53 * 2 ^ (x.exponentField - 1) := by
    rw [← Nat.pow_add]
    congr 1
    omega
  rw [magnitude_normal h, hlow, hhigh]
  have hf := x.fraction_lt
  exact ⟨Nat.mul_le_mul_right _ (by omega), Nat.mul_lt_mul_of_pos_right (by omega) hpos⟩

/-- A larger exponent makes a larger multiple. -/
theorem magnitude_lt (h : x.exponentField < y.exponentField) : x.magnitude < y.magnitude := by
  have hy := (magnitude_bounds (x := y) (by omega)).1
  refine Nat.lt_of_lt_of_le ?_ hy
  by_cases hx : x.exponentField = 0
  · rw [magnitude_subnormal hx]
    calc x.fraction < 2 ^ 52 := x.fraction_lt
      _ ≤ 2 ^ (51 + y.exponentField) := Nat.pow_le_pow_right (by decide) (by omega)
  · calc x.magnitude < 2 ^ (52 + x.exponentField) := (magnitude_bounds hx).2
      _ ≤ 2 ^ (51 + y.exponentField) := Nat.pow_le_pow_right (by decide) (by omega)

/-- The multiple determines exponent and fraction. -/
theorem fields_eq_of_magnitude (h : x.magnitude = y.magnitude) :
    x.exponentField = y.exponentField ∧ x.fraction = y.fraction := by
  have hfield : x.exponentField = y.exponentField := by
    rcases Nat.lt_trichotomy x.exponentField y.exponentField with hlt | heq | hlt
    · exact absurd h (Nat.ne_of_lt (magnitude_lt hlt))
    · exact heq
    · exact absurd h (Nat.ne_of_gt (magnitude_lt hlt))
  refine ⟨hfield, ?_⟩
  by_cases hx : x.exponentField = 0
  · rwa [magnitude_subnormal hx, magnitude_subnormal (hfield ▸ hx)] at h
  · rw [magnitude_normal hx, magnitude_normal (hfield ▸ hx), hfield] at h
    have := Nat.mul_right_cancel (Nat.pow_pos (by decide)) h
    omega

theorem toNat_bits (x : Binary64) : x.bits.toNat =
    (if x.negative then 2 ^ 63 else 0) + x.exponentField * 2 ^ 52 + x.fraction := by
  have hlt := x.bits.toNat_lt
  rw [negative, exponentField, fraction]
  by_cases h : x.bits.toNat / 0x8000000000000000 = 1
  · simp only [h, beq_self_eq_true, if_true]
    omega
  · simp only [beq_false_of_ne h, Bool.false_eq_true, if_false]
    omega

/-- A sign and a multiple make one number. -/
theorem eq_of_magnitude (hs : x.negative = y.negative) (hm : x.magnitude = y.magnitude) :
    x = y := by
  obtain ⟨he, hf⟩ := fields_eq_of_magnitude hm
  have hbits : x.bits = y.bits := by
    rw [← UInt64.toNat_inj, toNat_bits, toNat_bits, hs, he, hf]
  cases x
  cases y
  cases hbits
  rfl

theorem isZero_of_magnitude (h : x.magnitude = 0) : x.isZero = true := by
  by_cases hx : x.exponentField = 0
  · rw [magnitude_subnormal hx] at h
    simp [isZero, hx, h]
  · have hlow := (magnitude_bounds hx).1
    rw [h] at hlow
    exact absurd hlow (Nat.not_le.2 (Nat.pow_pos (by decide)))

/-! ## Integers -/

theorem exponent_ge (x : Binary64) : -1074 ≤ x.exponent := by
  rw [exponent]
  split <;> omega

/-- How often the number one counts the least positive number. -/
def scale : Nat := 2 ^ 1074

theorem numerator_mul (x : Binary64) : x.numerator * scale = x.magnitude * x.denominator := by
  have hge := x.exponent_ge
  rw [numerator, denominator, magnitude, scale]
  by_cases h : 0 ≤ x.exponent
  · have hexp : (x.exponent + 1074).toNat = x.exponent.toNat + 1074 := by omega
    rw [if_pos h, if_pos h, hexp, Nat.pow_add, Nat.mul_one, Nat.mul_assoc]
    rfl
  · rw [if_neg h, if_neg h, Nat.pow_eq, Nat.mul_assoc, ← Nat.pow_add]
    congr 2
    omega

theorem denominator_pos (x : Binary64) : 0 < x.denominator := by
  rw [denominator]
  split
  · exact Nat.one_pos
  · exact Nat.pow_pos (by decide)

/-- **The multiple of an integer** is its size in units of the least positive
    number. -/
theorem magnitude_of_integer? (h : x.integer? = some i) : x.magnitude = i.natAbs * scale := by
  rw [integer?] at h
  split at h
  next hcond =>
    simp only [Bool.and_eq_true, beq_iff_eq, decide_eq_true_eq] at hcond
    obtain ⟨⟨-, hmod⟩, -⟩ := hcond
    have habs : i.natAbs = x.numerator / x.denominator := by
      obtain rfl := Option.some.inj h
      split <;> simp [← Int.natCast_ediv]
    have hnum : x.numerator = i.natAbs * x.denominator := by
      rw [habs, Nat.div_mul_cancel (Nat.dvd_of_mod_eq_zero hmod)]
    have hmul := x.numerator_mul
    rw [hnum, Nat.mul_right_comm] at hmul
    exact (Nat.mul_right_cancel x.denominator_pos hmul).symm
  next => simp at h

theorem negative_of_integer? (h : x.integer? = some i) (hi : i ≠ 0) :
    x.negative = decide (i < 0) := by
  rw [integer?] at h
  split at h
  next =>
    obtain rfl := Option.some.inj h
    have hq : (0 : Int) ≤ x.numerator / x.denominator := by
      exact_mod_cast Nat.zero_le (x.numerator / x.denominator)
    cases hx : x.negative <;> simp only [hx, Bool.false_eq_true, if_false, if_true] at hi ⊢
    · simp [hq]
    · simp
      omega
  next => simp at h

/-! ## Documents of numbers -/

theorem integer?_of_isZero (h : x.isZero = true) : x.integer? = some 0 := by
  simp only [isZero, Bool.and_eq_true, beq_iff_eq] at h
  have hnum : x.numerator = 0 := by
    rw [numerator, significand, if_pos h.1, h.2]
    simp
  simp [integer?, isFinite, h.1, hnum]

theorem isNaN_of_isFinite (h : x.isFinite = true) : x.isNaN = false := by
  simp only [isFinite, bne_iff_ne] at h
  simp [isNaN, h]

/-- Numbers that are the same integer are equal. -/
theorem eq_of_integer? (hx : x.integer? = some i) (hy : y.integer? = some i)
    (hfx : x.isFinite = true) (hfy : y.isFinite = true) : x.eq y = true := by
  have hmag : x.magnitude = y.magnitude := by
    rw [magnitude_of_integer? hx, magnitude_of_integer? hy]
  by_cases hi : i = 0
  · have hzero : ∀ {z : Binary64}, z.integer? = some i → z.isZero = true := fun hz =>
      isZero_of_magnitude (by rw [magnitude_of_integer? hz, hi, Int.natAbs_zero, Nat.zero_mul])
    simp [eq, isNaN_of_isFinite hfx, isNaN_of_isFinite hfy, hzero hx, hzero hy]
  · have hsign : x.negative = y.negative := by
      rw [negative_of_integer? hx hi, negative_of_integer? hy hi]
    rw [eq_of_magnitude hsign hmag]
    exact eq_self (isNaN_of_isFinite hfy)

/-- **The documents of two finite numbers** are the same iff the numbers are
    equal: the two zeros are one integer, and every other number is spelt in
    one way. -/
theorem render_eq_iff (hx : x.isFinite = true) (hy : y.isFinite = true) :
    x.render = y.render ↔ x.eq y = true := by
  constructor
  · intro h
    rw [render, render] at h
    cases hxi : x.integer? with
    | some i =>
      cases hyi : y.integer? with
      | some j =>
        obtain rfl : i = j := by simpa [hxi, hyi] using h
        exact eq_of_integer? hxi hyi hx hy
      | none => simp [hxi, hyi, hy] at h
    | none =>
      cases hyi : y.integer? with
      | some j => simp [hxi, hyi, hx] at h
      | none =>
        obtain rfl : x = y := by simpa [hxi, hyi, hx, hy] using h
        exact eq_self (isNaN_of_isFinite hx)
  · intro h
    simp only [eq, Bool.and_eq_true, Bool.or_eq_true, beq_iff_eq] at h
    rcases h.2 with rfl | ⟨hx0, hy0⟩
    · rfl
    · rw [render, render, integer?_of_isZero hx0, integer?_of_isZero hy0]

/-- A finite number has a document of its own kind. -/
theorem render_of_isFinite (hx : x.isFinite = true) : ∃ n, x.render = .number n := by
  rw [render]
  split
  next i _ => exact ⟨_, rfl⟩
  next => exact ⟨_, if_pos hx⟩

end ValueGraph.Binary64
