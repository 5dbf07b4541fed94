/-
  Tokens of JSON texts.

  * `Json.Token` is what a text consists of, apart from the blanks between
    tokens;
  * `Json.Token.scan?` divides a whole text into tokens.
-/
import ValueGraph.Json.Number
import ValueGraph.Text.Numeral

namespace ValueGraph.Json

/-- What a text consists of. -/
inductive Token where
  | openArray | closeArray | openObject | closeObject | comma | colon
  | null
  | bool (b : Bool)
  | number (n : JsonNumber)
  | string (text : String)

namespace Token

/-! ## Quoted texts -/

/-- Four hexadecimal digits at the front: the code unit that they denote, and
    the rest. -/
def scanUnit? : List Char → Option (Nat × List Char)
  | a :: b :: c :: d :: cs => do
    let a ← Numeral.digit? 16 a
    let b ← Numeral.digit? 16 b
    let c ← Numeral.digit? 16 c
    let d ← Numeral.digit? 16 d
    return (((a * 16 + b) * 16 + c) * 16 + d, cs)
  | _ => none

/-- The character that starts with a code unit: the unit itself, or a high and
    a low surrogate together. -/
def pairUnits? (unit : Nat) (cs : List Char) : Option (Char × List Char) :=
  if 0xD800 ≤ unit ∧ unit < 0xDC00 then
    match cs with
    | '\\' :: 'u' :: cs =>
      match scanUnit? cs with
      | some (low, cs) =>
        if 0xDC00 ≤ low ∧ low < 0xE000 then
          some (Char.ofNat (0x10000 + (unit - 0xD800) * 0x400 + (low - 0xDC00)), cs)
        else none
      | none => none
    | _ => none
  else if 0xDC00 ≤ unit ∧ unit < 0xE000 then none
  else some (Char.ofNat unit, cs)

/-- The character that an escape stands for, after its backslash. -/
def scanEscape? : List Char → Option (Char × List Char)
  | '"' :: cs => some ('"', cs)
  | '\\' :: cs => some ('\\', cs)
  | '/' :: cs => some ('/', cs)
  | 'b' :: cs => some ('\x08', cs)
  | 'f' :: cs => some ('\x0c', cs)
  | 'n' :: cs => some ('\n', cs)
  | 'r' :: cs => some ('\r', cs)
  | 't' :: cs => some ('\t', cs)
  | 'u' :: cs =>
    match scanUnit? cs with
    | some (unit, cs) => pairUnits? unit cs
    | none => none
  | _ => none

theorem length_scanUnit? {cs rest : List Char} {unit : Nat} (h : scanUnit? cs = some (unit, rest)) :
    rest.length < cs.length := by
  unfold scanUnit? at h
  split at h
  · simp only [Option.bind_eq_bind, Option.bind_eq_some_iff, Option.pure_def, Option.some.injEq,
      Prod.mk.injEq] at h
    obtain ⟨_, _, _, _, _, _, _, _, _, rfl⟩ := h
    simp only [List.length_cons]; omega
  · simp at h

theorem length_pairUnits? {cs rest : List Char} {unit : Nat} {c : Char}
    (h : pairUnits? unit cs = some (c, rest)) : rest.length ≤ cs.length := by
  unfold pairUnits? at h
  split at h
  · split at h
    · split at h
      next hu =>
        have := length_scanUnit? hu
        split at h
        · simp only [Option.some.injEq, Prod.mk.injEq] at h
          simp only [List.length_cons, ← h.2]; omega
        · simp at h
      next => simp at h
    next => simp at h
  · split at h
    · simp at h
    · simp only [Option.some.injEq, Prod.mk.injEq] at h
      simp [h.2]

theorem length_scanEscape? {cs rest : List Char} {c : Char} (h : scanEscape? cs = some (c, rest)) :
    rest.length < cs.length := by
  unfold scanEscape? at h
  split at h
  case h_9 =>
    split at h
    next hu =>
      have := length_scanUnit? hu
      have := length_pairUnits? h
      simp only [List.length_cons]; omega
    next => simp at h
  all_goals simp_all

/-- The characters up to the closing quote, and the rest.  Control characters
    have to be escaped. -/
def scanText? (cs : List Char) : Option (List Char × List Char) :=
  match cs with
  | [] => none
  | '"' :: cs => some ([], cs)
  | '\\' :: cs =>
    match _h : scanEscape? cs with
    | some (c, rest) => (scanText? rest).map fun (text, rest) => (c :: text, rest)
    | none => none
  | c :: cs =>
    if c.toNat < 32 then none
    else (scanText? cs).map fun (text, rest) => (c :: text, rest)
termination_by cs.length
decreasing_by
  · have := length_scanEscape? _h
    simp only [List.length_cons]; omega
  · simp

theorem length_scanText? {cs text rest : List Char} (h : scanText? cs = some (text, rest)) :
    rest.length < cs.length := by
  fun_induction scanText? cs generalizing text rest with
  | case1 => simp at h
  | case2 => simp at h; simp [← h.2]
  | case3 cs c r hr ih =>
    simp only [Option.map_eq_some_iff, Prod.exists, Prod.mk.injEq] at h
    obtain ⟨t, r', ht, -, rfl⟩ := h
    have := ih ht
    have := length_scanEscape? hr
    simp only [List.length_cons]; omega
  | case4 => simp at h
  | case5 => simp at h
  | case6 c cs _ _ _ ih =>
    simp only [Option.map_eq_some_iff, Prod.exists, Prod.mk.injEq] at h
    obtain ⟨t, r', ht, -, rfl⟩ := h
    have := ih ht
    simp only [List.length_cons]; omega

/-! ## Whole texts -/

/-- A mark that is a token by itself. -/
def ofMark? : Char → Option Token
  | '[' => some openArray
  | ']' => some closeArray
  | '\x7b' => some openObject
  | '\x7d' => some closeObject
  | ',' => some comma
  | ':' => some colon
  | _ => none

/-- A token that is a word. -/
def ofWord? (word : String) : Option Token :=
  if word = "null" then some null
  else if word = "true" then some (bool true)
  else if word = "false" then some (bool false)
  else none

/-- The characters that may stand between tokens. -/
def isBlank (c : Char) : Bool := c = ' ' ∨ c = '\n' ∨ c = '\t' ∨ c = '\r'

/-- The token at the front of a text that starts with `c`, and the rest. -/
def scanOne? (c : Char) (cs : List Char) : Option (Token × List Char) :=
  match ofMark? c with
  | some token => some (token, cs)
  | none =>
    if c = '"' then (scanText? cs).map fun (text, rest) => (string (String.ofList text), rest)
    else if c.isAlpha then
      (ofWord? (String.ofList (c :: cs.takeWhile Char.isAlpha))).map (·, cs.dropWhile Char.isAlpha)
    else do
      let (literal, rest) ← NumberLiteral.scan? (c :: cs)
      return (number (← literal.value?), rest)

theorem length_scanOne? {c : Char} {cs rest : List Char} {token : Token}
    (h : scanOne? c cs = some (token, rest)) : rest.length < (c :: cs).length := by
  unfold scanOne? at h
  split at h
  · simp at h; simp [h.2]
  · split at h
    · simp only [Option.map_eq_some_iff, Prod.exists, Prod.mk.injEq] at h
      obtain ⟨t, r, ht, -, rfl⟩ := h
      have := length_scanText? ht
      simp only [List.length_cons]; omega
    · split at h
      · simp only [Option.map_eq_some_iff, Prod.mk.injEq] at h
        obtain ⟨t, ht, -, rfl⟩ := h
        have : (cs.dropWhile Char.isAlpha).length ≤ cs.length := (List.dropWhile_suffix _).length_le
        simp only [List.length_cons]; omega
      · simp only [Option.bind_eq_bind, Option.bind_eq_some_iff, Prod.exists, Option.pure_def,
          Option.some.injEq, Prod.mk.injEq] at h
        obtain ⟨l, r, hl, n, hn, -, rfl⟩ := h
        exact NumberLiteral.length_scan? hl

/-- The tokens of a text. -/
def scan? (cs : List Char) : Option (List Token) :=
  match cs with
  | [] => some []
  | c :: cs =>
    if isBlank c then scan? cs
    else match _h : scanOne? c cs with
      | some (token, rest) => (scan? rest).map (token :: ·)
      | none => none
termination_by cs.length
decreasing_by
  · simp
  · exact length_scanOne? _h

end Token

end ValueGraph.Json
