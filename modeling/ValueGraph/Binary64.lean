/-
  Numbers: the 64-bit binary floating-point numbers, held as their bits.

  A number has a sign, an exponent field of 11 bits and a fraction of 52 bits;
  the largest exponent field marks the infinities (fraction zero) and the
  not-a-numbers (any other fraction).  A finite number is
  `± significand · 2 ^ exponent`.

  * `isNaN`, `isFinite`, `isZero`, `significand`, `exponent` read the fields;
  * `eq` is the comparison of the floating-point standard: a not-a-number
    equals nothing, the two zeros are equal, and otherwise equal numbers have
    equal bits;
  * `compose` packs a sign, a significand and an exponent, and `significand`,
    `exponent` read them back (`significand_compose`, `exponent_compose`).
-/

namespace ValueGraph

/-- A number, as its sign bit, eleven exponent bits and fifty-two fraction
    bits. -/
structure Binary64 where
  bits : UInt64
deriving DecidableEq, Inhabited

namespace Binary64

/-! ## Fields -/

/-- The sign bit. -/
def negative (x : Binary64) : Bool := x.bits.toNat / 0x8000000000000000 == 1

/-- The eleven exponent bits. -/
def exponentField (x : Binary64) : Nat := x.bits.toNat / 0x10000000000000 % 0x800

/-- The fifty-two fraction bits. -/
def fraction (x : Binary64) : Nat := x.bits.toNat % 0x10000000000000

/-- Neither infinite nor a not-a-number. -/
def isFinite (x : Binary64) : Bool := x.exponentField != 2047

/-- The largest exponent field with a fraction. -/
def isNaN (x : Binary64) : Bool := x.exponentField == 2047 && x.fraction != 0

/-- Positive or negative zero. -/
def isZero (x : Binary64) : Bool := x.exponentField == 0 && x.fraction == 0

/-- The integer that scales the power of two of a finite number: the fraction,
    with a leading one unless the exponent field is zero. -/
def significand (x : Binary64) : Nat :=
  if x.exponentField = 0 then x.fraction else 0x10000000000000 + x.fraction

/-- The power of two that a finite number's significand counts. -/
def exponent (x : Binary64) : Int :=
  if x.exponentField = 0 then -1074 else (x.exponentField : Int) - 1075

/-! ## Packing -/

/-- The number with the given sign bit and remaining sixty-three bits. -/
def ofMagnitude (negative : Bool) (magnitude : Nat) : Binary64 :=
  ⟨UInt64.ofNat ((if negative then 0x8000000000000000 else 0) + magnitude)⟩

/-- `± m · 2 ^ e`, for a significand below `2 ^ 53` that is at least `2 ^ 52`
    unless `e` is the least exponent.  A significand of just `2 ^ 53` carries
    into the exponent, as it should. -/
def compose (negative : Bool) (m : Nat) (e : Int) : Binary64 :=
  ofMagnitude negative ((e + 1074).toNat * 0x10000000000000 + m)

/-- The number without a fraction and with all exponent bits set. -/
def infinity (negative : Bool) : Binary64 := ofMagnitude negative (0x7ff0000000000000)

/-- The not-a-number that computations give. -/
def nan : Binary64 := ⟨0x7ff8000000000000⟩

/-- Zero with the given sign. -/
def zero (negative : Bool) : Binary64 := ofMagnitude negative 0

/-! ## Comparison -/

/-- Equality of the floating-point standard: not-a-numbers are equal to
    nothing and the two zeros to each other. -/
def eq (x y : Binary64) : Bool :=
  !x.isNaN && !y.isNaN && (x == y || (x.isZero && y.isZero))

theorem eq_comm (x y : Binary64) : x.eq y = y.eq x := by
  simp only [eq, Bool.and_comm, BEq.comm (a := x) (b := y)]

theorem eq_self {x : Binary64} (h : x.isNaN = false) : x.eq x = true := by
  simp [eq, h]

theorem eq_trans {x y z : Binary64} (hxy : x.eq y = true) (hyz : y.eq z = true) :
    x.eq z = true := by
  simp only [eq, Bool.and_eq_true, Bool.or_eq_true, beq_iff_eq] at *
  grind

/-! ## Reading packed numbers back -/

theorem toNat_ofMagnitude (s : Bool) {m : Nat} (h : m < 0x8000000000000000) :
    (ofMagnitude s m).bits.toNat = (if s then 0x8000000000000000 else 0) + m := by
  rw [ofMagnitude, UInt64.toNat_ofNat']
  cases s <;> simp <;> omega

theorem negative_ofMagnitude (s : Bool) {m : Nat} (h : m < 0x8000000000000000) :
    (ofMagnitude s m).negative = s := by
  rw [negative, toNat_ofMagnitude s h]
  cases s
  · simp; omega
  · simp; omega

theorem exponentField_ofMagnitude (s : Bool) {m : Nat} (h : m < 0x8000000000000000) :
    (ofMagnitude s m).exponentField = m / 0x10000000000000 := by
  rw [exponentField, toNat_ofMagnitude s h]
  cases s <;> simp <;> omega

theorem fraction_ofMagnitude (s : Bool) {m : Nat} (h : m < 0x8000000000000000) :
    (ofMagnitude s m).fraction = m % 0x10000000000000 := by
  rw [fraction, toNat_ofMagnitude s h]
  cases s <;> simp <;> omega

/-- A significand and an exponent that a number can have. -/
def Fits (m : Nat) (e : Int) : Prop :=
  m < 0x20000000000000 ∧ -1074 ≤ e ∧ e ≤ 971 ∧ (0x10000000000000 ≤ m ∨ e = -1074)

theorem Fits.magnitude_lt {m : Nat} {e : Int} (h : Fits m e) :
    (e + 1074).toNat * 0x10000000000000 + m < 0x7ff0000000000000 := by
  obtain ⟨hm, hl, hu, _⟩ := h
  omega

theorem Fits.lt {m : Nat} {e : Int} (h : Fits m e) :
    (e + 1074).toNat * 0x10000000000000 + m < 0x8000000000000000 := by
  have := h.magnitude_lt
  omega

theorem significand_compose (s : Bool) {m : Nat} {e : Int} (h : Fits m e) :
    (compose s m e).significand = m := by
  rw [significand, compose, exponentField_ofMagnitude s h.lt, fraction_ofMagnitude s h.lt]
  obtain ⟨hm, hl, hu, hn⟩ := h
  split <;> omega

theorem exponent_compose (s : Bool) {m : Nat} {e : Int} (h : Fits m e) :
    (compose s m e).exponent = e := by
  rw [exponent, compose, exponentField_ofMagnitude s h.lt]
  obtain ⟨hm, hl, hu, hn⟩ := h
  split <;> omega

theorem isFinite_compose (s : Bool) {m : Nat} {e : Int} (h : Fits m e) :
    (compose s m e).isFinite = true := by
  rw [isFinite, compose, exponentField_ofMagnitude s h.lt]
  have := h.magnitude_lt
  simp; omega

end Binary64

end ValueGraph
