/-
  Number literals of JSON texts.

  * `NumberLiteral.scan?` takes a literal off the front of a text;
  * `NumberLiteral.value?` is the number that a literal stands for.  Literals
    without a fraction and an exponent are integers if they fit 64 bits.  All
    others are scaled from a 64-bit significand, which can differ from the
    nearest number in the last bit, and are refused if they are too large.
-/
import ValueGraph.Json

namespace ValueGraph.Json

/-- A literal: its sign and the digits of its parts.  The exponent has a sign
    of its own. -/
structure NumberLiteral where
  negative : Bool
  whole : List Char
  fraction : List Char
  exponent : Option (Bool × List Char)

namespace NumberLiteral

/-! ## Scanning -/

/-- Digits before the point: a zero stands alone. -/
def scanWhole? (cs : List Char) : Option (List Char × List Char) :=
  match spanDigits cs with
  | ([], _) => none
  | ('0' :: _ :: _, _) => none
  | parts => some parts

/-- A point with digits after it, or nothing. -/
def scanFraction? : List Char → Option (List Char × List Char)
  | '.' :: cs =>
    match spanDigits cs with
    | ([], _) => none
    | parts => some parts
  | cs => some ([], cs)

/-- An exponent mark with a sign and digits, or nothing. -/
def scanExponent? : List Char → Option (Option (Bool × List Char) × List Char)
  | c :: cs =>
    if c = 'e' ∨ c = 'E' then
      let (negative, cs) := Decimal.readSign cs
      match spanDigits cs with
      | ([], _) => none
      | (digits, rest) => some (some (negative, digits), rest)
    else some (none, c :: cs)
  | [] => some (none, [])

/-- The literal at the front of a text, and the rest. -/
def scan? (cs : List Char) : Option (NumberLiteral × List Char) := do
  let (negative, cs) := match cs with
    | '-' :: cs => (true, cs)
    | cs => (false, cs)
  let (whole, cs) ← scanWhole? cs
  let (fraction, cs) ← scanFraction? cs
  let (exponent, cs) ← scanExponent? cs
  return (⟨negative, whole, fraction, exponent⟩, cs)

/-! ## Values -/

/-- Appends digits to a significand while it stays below `2 ^ 64`; also counts
    the digits that are left. -/
def absorb (m : Nat) : List Char → Nat × Nat
  | [] => (m, 0)
  | c :: cs =>
    let m' := 10 * m + digitValue c
    if m' < 0x10000000000000000 then absorb m' cs else (m, cs.length + 1)

/-- The nearest number to a power of ten. -/
def powerOfTen (n : Nat) : Binary64 := Binary64.ofRatio false (Nat.pow 10 n) 1

/-- A finite number times `10 ^ e`, in steps of at most `10 ^ 308`; nothing if
    it becomes too large. -/
def scale? (x : Binary64) (e : Int) : Option Binary64 :=
  if e.natAbs ≤ 308 then
    if 0 ≤ e then
      let y := x.mul (powerOfTen e.natAbs)
      if y.isFinite then some y else none
    else some (x.div (powerOfTen e.natAbs))
  else if x.isZero then some x
  else if 0 ≤ e then none
  else scale? (x.div (powerOfTen 308)) (e + 308)
termination_by e.natAbs

/-- The least and the greatest 32-bit integer around `e`. -/
def clamp (e : Int) : Int := max (-0x80000000) (min 0x7fffffff e)

/-- The number that the digits of a literal with this significand and this
    power of ten stand for, before its own exponent counts. -/
def scaled? (l : NumberLiteral) (m : Nat) (e : Int) : Option Binary64 :=
  let x := Binary64.ofRatio false m 1
  match l.exponent with
  | none => scale? x e
  | some (negative, digits) =>
    let n := ofDigits 0 digits
    if n < 0x80000000 then scale? x (clamp (if negative then e - n else e + n))
    else if m ≠ 0 ∧ !negative then none
    else some (Binary64.zero false)

/-- The number that a literal stands for. -/
def value? (l : NumberLiteral) : Option JsonNumber :=
  let (m, dropped) := absorb 0 l.whole
  if l.fraction.isEmpty ∧ l.exponent.isNone ∧ dropped = 0 then
    if !l.negative then some (.integer m)
    else if 0 < m ∧ m ≤ 0x8000000000000000 then some (.integer (-m))
    else some (.float (Binary64.ofRatio true m 1))
  else
    let (m, unread) := absorb m l.fraction
    let e : Int := dropped - (l.fraction.length - unread : Nat)
    (l.scaled? m e).map fun x => .float (if l.negative then x.neg else x)

/-! ## Scanning takes characters off -/

theorem spanDigits_append (cs : List Char) : (spanDigits cs).1 ++ (spanDigits cs).2 = cs :=
  List.takeWhile_append_dropWhile

theorem length_scanWhole? {cs whole rest : List Char} (h : scanWhole? cs = some (whole, rest)) :
    rest.length < cs.length := by
  have hs := congrArg List.length (spanDigits_append cs)
  rw [List.length_append] at hs
  unfold scanWhole? at h
  split at h
  · simp at h
  · simp at h
  next hne _ =>
    obtain ⟨hw, hr⟩ : (spanDigits cs).1 = whole ∧ (spanDigits cs).2 = rest := by
      simpa using Prod.ext_iff.1 (Option.some.inj h)
    have : whole ≠ [] := fun h0 => hne rest (by rw [← hr, ← h0, ← hw])
    have := List.length_pos_iff.2 this
    rw [hw, hr] at hs
    omega

theorem length_scanFraction? {cs fraction rest : List Char}
    (h : scanFraction? cs = some (fraction, rest)) : rest.length ≤ cs.length := by
  unfold scanFraction? at h
  split at h
  next ds =>
    have hs := congrArg List.length (spanDigits_append ds)
    rw [List.length_append] at hs
    split at h
    · simp at h
    next =>
      rw [Option.some.inj h] at hs
      dsimp only at hs
      simp only [List.length_cons]
      omega
  next => simp at h; simp [h.2]

theorem length_readSign (cs : List Char) : (Decimal.readSign cs).2.length ≤ cs.length := by
  unfold Decimal.readSign
  split <;> simp

theorem length_scanExponent? {cs rest : List Char} {e : Option (Bool × List Char)}
    (h : scanExponent? cs = some (e, rest)) : rest.length ≤ cs.length := by
  unfold scanExponent? at h
  split at h
  next c ds =>
    split at h
    · have hs := congrArg List.length (spanDigits_append (Decimal.readSign ds).2)
      have hr := length_readSign ds
      rw [List.length_append] at hs
      dsimp only at h
      split at h
      · simp at h
      next digits r hd =>
        simp only [Option.some.injEq, Prod.mk.injEq] at h
        rw [hd, h.2] at hs
        dsimp only at hs
        simp only [List.length_cons]
        omega
    · simp at h; simp [← h.2]
  next => simp at h; simp [h.2]

theorem length_scan? {cs rest : List Char} {l : NumberLiteral} (h : scan? cs = some (l, rest)) :
    rest.length < cs.length := by
  unfold scan? at h
  simp only [Option.bind_eq_bind, Option.bind_eq_some_iff, Prod.exists, Option.pure_def,
    Option.some.injEq, Prod.mk.injEq] at h
  obtain ⟨whole, cs₁, h₁, fraction, cs₂, h₂, e, cs₃, h₃, -, rfl⟩ := h
  have := length_scanWhole? h₁
  have := length_scanFraction? h₂
  have := length_scanExponent? h₃
  split at * <;> simp only [List.length_cons] at * <;> omega

end NumberLiteral

end ValueGraph.Json
