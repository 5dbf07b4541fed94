/-
  Integers below `2 ^ 53` in size are 64-bit numbers.

  Such an integer has at most fifty-three binary digits, so shifting it until
  it has just as many gives the significand, and rounding has nothing to do.

  * `Precision.round_of_lt`: the significand and the exponent;
  * `Binary64.integer?_ofInt`: the number of the integer has that value;
  * `Binary64.value_of_render`: a finite number comes back from its document,
    up to the sign of zero, and has then the same document again.
-/
import ValueGraph.Proofs.FiniteNumbers

namespace ValueGraph

/-! ## Rounding what needs no rounding -/

theorem floorLog2_one {m : Nat} (hm : m ≠ 0) : floorLog2 m 1 = m.log2 := by
  have hzero : Nat.log2 1 = 0 := by decide
  have hfits : 2 ^ m.log2 ≤ m := Nat.log2_self_le hm
  simp [floorLog2, hzero, Nat.not_lt.2 hfits]

/-- The shifted digits of an integer have a leading one. -/
theorem shifted_bounds {m : Nat} (hm : m ≠ 0) (hlt : m < 2 ^ 53) :
    2 ^ 52 ≤ m * 2 ^ (52 - m.log2) ∧ m * 2 ^ (52 - m.log2) < 2 ^ 53 := by
  have hlog : m.log2 < 53 := (Nat.log2_lt hm).2 hlt
  have hpos : 0 < 2 ^ (52 - m.log2) := Nat.pow_pos (by decide)
  have hlow : 2 ^ 52 = 2 ^ m.log2 * 2 ^ (52 - m.log2) := by
    rw [← Nat.pow_add]
    congr 1
    omega
  have hhigh : 2 ^ 53 = 2 ^ (m.log2 + 1) * 2 ^ (52 - m.log2) := by
    rw [← Nat.pow_add]
    congr 1
    omega
  rw [hlow, hhigh]
  exact ⟨Nat.mul_le_mul_right _ (Nat.log2_self_le hm),
    Nat.mul_lt_mul_of_pos_right Nat.lt_log2_self hpos⟩

/-- **An integer of at most fifty-three digits** is shifted to fifty-three. -/
theorem Precision.round_of_lt {m : Nat} (hm : m ≠ 0) (hlt : m < 2 ^ 53) :
    double.round m 1 = some (m * 2 ^ (52 - m.log2), (m.log2 : Int) - 52) := by
  have hlog : m.log2 < 53 := (Nat.log2_lt hm).2 hlt
  have hmax : max double.least (floorLog2 m 1 - (double.bits - 1 : Nat)) = (m.log2 : Int) - 52 := by
    rw [floorLog2_one hm]
    simp only [double]
    omega
  have hround : (if 0 ≤ (m.log2 : Int) - 52 then
        roundHalfEven m (1 * Nat.pow 2 ((m.log2 : Int) - 52).toNat)
      else roundHalfEven (m * Nat.pow 2 (-((m.log2 : Int) - 52)).toNat) 1) =
      m * 2 ^ (52 - m.log2) := by
    split
    next hge =>
      -- fifty-three digits already
      have hexp : m.log2 = 52 := by omega
      simpa [hexp] using roundHalfEven_mul m Nat.one_pos
    next hneg =>
      have hshift : (-((m.log2 : Int) - 52)).toNat = 52 - m.log2 := by omega
      rw [hshift]
      simpa using roundHalfEven_mul (m * Nat.pow 2 (52 - m.log2)) Nat.one_pos
  have hne : m * 2 ^ (52 - m.log2) ≠ Nat.pow 2 double.bits :=
    Nat.ne_of_lt (shifted_bounds hm hlt).2
  have hle : (m.log2 : Int) - 52 ≤ double.greatest := by
    simp only [double]
    omega
  simp only [round, hmax, hround, if_neg hne, if_pos hle]

namespace Binary64

variable {x : Binary64} {i : Int} {n : JsonNumber}

theorem fits_shifted {m : Nat} (hm : m ≠ 0) (hlt : m < 2 ^ 53) :
    Fits (m * 2 ^ (52 - m.log2)) ((m.log2 : Int) - 52) := by
  have hlog : m.log2 < 53 := (Nat.log2_lt hm).2 hlt
  have hbounds := shifted_bounds hm hlt
  exact ⟨hbounds.2, by omega, by omega, .inl hbounds.1⟩

/-- A number whose numerator is a multiple of its denominator is an integer. -/
theorem integer?_of_numerator {m : Nat} (hfin : x.isFinite = true)
    (hnum : x.numerator = m * x.denominator) (hlt : m < 2 ^ 53) :
    x.integer? = some (if x.negative then -(m : Int) else m) := by
  have hquot : x.numerator / x.denominator = m := by
    rw [hnum, Nat.mul_div_cancel m x.denominator_pos]
  have hcond : (x.isFinite && x.numerator % x.denominator == 0 &&
      decide (x.numerator / x.denominator < 0x20000000000000)) = true := by
    rw [hfin, hquot, hnum, Nat.mul_mod_left]
    simpa using hlt
  have hvalue : (x.numerator : Int) / (x.denominator : Int) = m := by
    rw [← Int.natCast_ediv, hquot]
  rw [integer?, if_pos hcond, hvalue]

/-- The fraction of an integer that is shifted to fifty-three digits. -/
theorem numerator_compose (s : Bool) {m : Nat} (hm : m ≠ 0) (hlt : m < 2 ^ 53) {x : Binary64}
    (hx : x = compose s (m * 2 ^ (52 - m.log2)) ((m.log2 : Int) - 52)) :
    x.numerator = m * x.denominator := by
  have hlog : m.log2 < 53 := (Nat.log2_lt hm).2 hlt
  have hsig : x.significand = m * 2 ^ (52 - m.log2) := by
    rw [hx, significand_compose s (fits_shifted hm hlt)]
  have hexp : x.exponent = (m.log2 : Int) - 52 := by
    rw [hx, exponent_compose s (fits_shifted hm hlt)]
  rw [numerator, denominator, hsig, hexp]
  by_cases hge : 0 ≤ (m.log2 : Int) - 52
  · have hnone : 52 - m.log2 = 0 := by omega
    have hnone' : ((m.log2 : Int) - 52).toNat = 0 := by omega
    rw [if_pos hge, if_pos hge, hnone, hnone']
    simp
  · have hshift : (-((m.log2 : Int) - 52)).toNat = 52 - m.log2 := by omega
    rw [if_neg hge, if_neg hge, hshift]
    rfl

/-- **The number of an integer** below `2 ^ 53` in size has that value. -/
theorem integer?_ofInt (hi : i.natAbs < 2 ^ 53) :
    (ofInt i).isFinite = true ∧ (ofInt i).integer? = some i := by
  rw [ofInt, ofRatio]
  by_cases h0 : i.natAbs = 0
  · obtain rfl : i = 0 := Int.natAbs_eq_zero.1 h0
    exact ⟨by decide, integer?_of_isZero (by decide)⟩
  · rw [if_neg h0, Precision.round_of_lt h0 hi]
    have hfits := fits_shifted h0 hi
    have hfin := isFinite_compose (decide (i < 0)) hfits
    refine ⟨hfin, (integer?_of_numerator hfin (numerator_compose _ h0 hi rfl) hi).trans ?_⟩
    rw [show (compose _ _ _).negative = _ from negative_ofMagnitude (decide (i < 0)) hfits.lt]
    by_cases hneg : i < 0
    · rw [decide_eq_true hneg, if_pos rfl, Int.ofNat_natAbs_of_nonpos (Int.le_of_lt hneg),
        Int.neg_neg]
    · rw [decide_eq_false hneg, if_neg Bool.false_ne_true, Int.natAbs_of_nonneg (Int.not_lt.1 hneg)]

/-! ## Documents of numbers and back -/

theorem natAbs_lt_of_integer? (h : x.integer? = some i) : i.natAbs < 2 ^ 53 := by
  rw [integer?] at h
  split at h
  next hcond =>
    simp only [Bool.and_eq_true, decide_eq_true_eq] at hcond
    have hq : x.numerator / x.denominator < 2 ^ 53 := hcond.2
    obtain rfl := Option.some.inj h
    split <;> simpa [← Int.natCast_ediv] using hq
  next => simp at h

/-- **A finite number comes back** from its document, up to the sign of zero. -/
theorem value_of_render (hx : x.isFinite = true) (hn : x.render = .number n) :
    n.value.isFinite = true ∧ x.eq n.value = true := by
  rw [render] at hn
  split at hn
  next i hi =>
    cases hn
    obtain ⟨hfin, hval⟩ := integer?_ofInt (natAbs_lt_of_integer? hi)
    exact ⟨hfin, eq_of_integer? hi hval hx hfin⟩
  next =>
    rw [if_pos hx] at hn
    cases hn
    exact ⟨hx, eq_self (isNaN_of_isFinite hx)⟩

/-- What has come back has the same document again. -/
theorem render_value_of_render (hx : x.isFinite = true) (hn : x.render = .number n) :
    n.value.render = .number n := by
  obtain ⟨hfin, heq⟩ := value_of_render hx hn
  rw [← hn]
  exact ((render_eq_iff hx hfin).2 heq).symm

end Binary64

end ValueGraph
