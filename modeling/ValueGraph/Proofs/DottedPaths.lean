/-
  The dotted paths of properties.

  The dotted path of a property is written in two ways: as that of a path with
  one more step, and from the dotted path of its object, where a point is put
  in only if there is something to put it after.  An object under an empty key
  at the root shows nothing, so that below it the second way leaves out the
  point in front.  Nowhere else do the two differ.

  * `KeyPath.text_step`: the dotted path of one more step;
  * `KeyPath.text_eq_empty_iff`: the paths that show nothing;
  * `KeyPath.textWith_eq`: the dotted path of a property;
  * `IgnoreRules.matchesPathBy_iff_text`: what globs are matched against.
-/
import ValueGraph.Rules

namespace ValueGraph

/-! ## One more step -/

theorem integerText_ne_empty (i : Int) : integerText i ≠ "" := by
  have hdigits : String.ofList (digitsOf i.natAbs) ≠ "" := by
    simp [digitsOf, Nat.toDigits_ne_nil]
  rw [integerText]
  split
  · simp
  · exact hdigits

theorem Symbol.text_ne_empty (s : Symbol) : s.text ≠ "" := by
  simp [Symbol.text]

theorem Segment.text_eq_empty_iff {segment : Segment} :
    segment.text = "" ↔ segment = .key (.name "") := by
  cases segment with
  | key k =>
    cases k with
    | name name => simp [text, Key.text]
    | symbol s => simp [text, Key.text, s.text_ne_empty]
  | index i => simp [text, integerText_ne_empty]

namespace KeyPath

variable {path : KeyPath}

theorem segments_eq_nil : path.segments = [] ↔ path = .root := by
  cases path <;> simp [segments]

/-- **One more step** is shown behind a point, unless it is the first one. -/
theorem text_step (path : KeyPath) (segment : Segment) : (path.step segment).text =
    if path = .root then segment.text else path.text ++ "." ++ segment.text := by
  rw [text, segments, List.map_append, List.map_singleton]
  split
  next h => rw [h, segments, List.map_nil, List.nil_append, String.intercalate_singleton]
  next h =>
    have hne : path.segments.map Segment.text ≠ [] := by
      rwa [Ne, List.map_eq_nil_iff, segments_eq_nil]
    rw [String.intercalate_append_of_ne_nil hne (List.cons_ne_nil _ _),
      String.intercalate_singleton, text]

/-! ## Paths that show nothing -/

/-- The path to a property of the root that has an empty key. -/
def nameless : KeyPath := .step .root (.key (.name ""))

/-- **Only the root** and what lies under an empty key there show nothing. -/
theorem text_eq_empty_iff : path.text = "" ↔ path = .root ∨ path = nameless := by
  cases path with
  | root => simp [text, segments]
  | step parent segment =>
    rw [text_step]
    split
    next h => simp [h, nameless, Segment.text_eq_empty_iff]
    next h => simp [h, nameless]

/-- **The dotted path of a property** is that of its object with one more step,
    and only the key if its object is under an empty key at the root. -/
theorem textWith_eq (path : KeyPath) (key : Key) : path.textWith key =
    if path = nameless then key.text else (path.step (.key key)).text := by
  have hshown : path.textWith key =
      if path.text = "" then key.text else path.text ++ "." ++ key.text := by
    rw [textWith]
    by_cases h : path.text = "" <;> simp [h]
  rw [hshown, text_step]
  by_cases hroot : path = .root
  · simp [hroot, text_eq_empty_iff, Segment.text]
  · simp only [text_eq_empty_iff, hroot, false_or, if_false]
    rfl

/-- Under an empty key at the root the two dotted paths differ by the point in
    front. -/
theorem text_step_nameless (key : Key) :
    (nameless.step (.key key)).text = "." ++ key.text := by
  rw [text_step, if_neg (by simp [nameless]), text_eq_empty_iff.2 (.inr rfl), String.empty_append]
  rfl

end KeyPath

/-! ## Globs -/

namespace IgnoreRules

open KeyPath

/-- **What globs are matched against**: the dotted path of a property at any
    depth, except that under an empty key at the root the point in front is
    missing. -/
theorem matchesPathBy_iff_text (isMatch : Glob → String → Bool) (r : IgnoreRules)
    (path : KeyPath) (key : Key) :
    (path.textWith key = (path.step (.key key)).text ↔ path ≠ nameless) ∧
    (r.matchesPathBy isMatch key path = true ↔ ∃ glob ∈ r.globs,
      isMatch glob (if path = nameless then key.text else (path.step (.key key)).text) = true) := by
  refine ⟨⟨?_, fun hne => ?_⟩, ?_⟩
  · rintro htext rfl
    rw [textWith_eq, if_pos rfl, text_step_nameless] at htext
    have hlen := congrArg String.length htext
    rw [String.length_append] at hlen
    exact absurd hlen (Nat.ne_of_lt (Nat.lt_add_of_pos_left (by decide)))
  · rw [textWith_eq, if_neg hne]
  · rw [← textWith_eq]
    exact List.any_eq_true

/-- The rule that ignores what lies at `id`. -/
def idPath : IgnoreRules := ⟨[], [⟨"id", "id".toList.map .literal⟩]⟩

/-- The property `id` of what lies under an empty key at the root is at `.id`,
    and yet the rule for `id` ignores it. -/
theorem matchesPath_nameless : (nameless.step (.key (.name "id"))).text = ".id" ∧
    nameless.textWith (.name "id") = "id" ∧ idPath.matchesPath (.name "id") nameless = true ∧
    ¬∃ glob ∈ idPath.globs, glob.isMatch (nameless.step (.key (.name "id"))).text = true := by
  have htext : (nameless.step (.key (.name "id"))).text = ".id" := text_step_nameless _
  rw [htext]
  refine ⟨rfl, textWith_eq _ _, ?_, ?_⟩
  · decide +kernel
  · decide +kernel

end IgnoreRules

end ValueGraph
