/-
  Nested calls compare as the walk does, and are nested no deeper than the left
  value reaches.

  A call that compares two objects for the first time pairs the left one before
  it compares their values.  Below it there is one object less that is not
  paired, so the calls come to an end on every graph.

  * `Object.agree?_eq_questions?`: the questions of a call are those of the
    walk;
  * `Heap.Call`: what one call can do;
  * `Heap.run_equalWithin`: the walk does what a call does;
  * `Heap.exists_equalWithin`: how deep the calls are nested;
  * `Heap.exists_deepEqualWithin`: a whole comparison.
-/
import ValueGraph.Comparison.Nesting
import ValueGraph.Proofs.Correspondence
import ValueGraph.Proofs.Extent

namespace ValueGraph

open Comparison

/-! ## Questions -/

theorem mapM_map_some {α : Type} : ∀ l : List α, (l.map some).mapM id = some l
  | [] => rfl
  | a :: l => by rw [List.map_cons, List.mapM_cons, mapM_map_some l]; rfl

/-- Two objects agree if every question that comparing them asks has values to
    compare. -/
theorem Object.agree?_eq_questions? (a b : Object) :
    a.agree? b = (a.questions? b).bind (List.mapM id) := by
  have hsome (inner : Option (List (Value × Value))) :
      inner = (inner.map (List.map some)).bind (List.mapM id) := by
    cases inner with
    | none => rfl
    | some l => exact (mapM_map_some l).symm
  unfold Object.questions?
  split
  next p q =>
    rw [agree?]
    split
    · rw [PlainObject.agree?, PlainObject.questions?]
      split
      · rw [Option.bind_some, List.mapM_map]
        rfl
      · rfl
    · rfl
  next m n =>
    rw [agree?, OrderedMap.agree?, OrderedMap.questions?]
    split
    · rw [Option.bind_some, List.mapM_map]
      rfl
    · rfl
  next => exact hsome _

theorem Heap.agree?_eq_questions? (h : Heap) (l r : Ref) :
    h.agree? l r = (h.questions? l r).bind (List.mapM id) := by
  rw [agree?, questions?]
  cases h.get? l with
  | none => rfl
  | some a =>
    cases h.get? r with
    | none => rfl
    | some b => exact a.agree?_eq_questions? b

/-- The left values that are asked about are held by the left object. -/
theorem Object.held_of_questions? {a b : Object} {questions : List (Option (Value × Value))}
    {v w : Value} (hq : a.questions? b = some questions) (hvw : some (v, w) ∈ questions) :
    v ∈ a.held := by
  unfold Object.questions? at hq
  split at hq
  next p q =>
    split at hq
    · rw [PlainObject.questions?] at hq
      split at hq
      · cases hq
        obtain ⟨⟨k, u⟩, he, hu⟩ := List.mem_map.1 hvw
        split at hu
        · obtain ⟨u', -, hu'⟩ := Option.map_eq_some_iff.1 hu
          cases hu'
          obtain ⟨c, hc, -, rfl⟩ := PlainObject.get?_eq_some.1 (PlainObject.mem_entries.1 he).2
          exact List.mem_map.2 ⟨c, hc, rfl⟩
        · cases hu
      · cases hq
    · cases hq
  next m n =>
    rw [OrderedMap.questions?] at hq
    split at hq
    · cases hq
      obtain ⟨e, he, hu⟩ := List.mem_map.1 hvw
      obtain ⟨u, -, hu'⟩ := Option.map_eq_some_iff.1 hu
      cases hu'
      exact List.mem_append_right _ (List.mem_map.2 ⟨e, he, rfl⟩)
    · cases hq
  next hplain hmap =>
    obtain ⟨inner, ha, rfl⟩ := Option.map_eq_some_iff.1 hq
    obtain ⟨e, he, hu⟩ := List.mem_map.1 hvw
    cases hu
    unfold agree? at ha
    split at ha
    next xs ys =>
      split at ha
      · cases ha
        exact (List.of_mem_zip he).1
      · cases ha
    next p q => exact absurd rfl (hplain p q rfl)
    next m n => exact absurd rfl (hmap m n rfl)
    case h_10 => cases ha
    all_goals
      split at ha
      · cases ha
        cases he
      · cases ha

namespace Heap

variable {h : Heap} {depth : Nat} {a b : Value} {m m' : Meetings h.size} {res : Bool}
  {questions : List (Option (Value × Value))}

theorem held_of_questions? {l r : Ref} {v w : Value} (hq : h.questions? l r = some questions)
    (hvw : some (v, w) ∈ questions) : ∃ o, h.get? l = some o ∧ v ∈ o.held := by
  rw [questions?] at hq
  split at hq
  next o p ho _ => exact ⟨o, ho, Object.held_of_questions? hq hvw⟩
  next => cases hq

/-! ## One call -/

/-- What one call can do: the same object is equal to itself; a left object
    that is paired is compared with its partner; a new one is paired, and its
    values are compared one after the other. -/
inductive Call (h : Heap) (depth : Nat) :
    Value → Value → Meetings h.size → Bool → Meetings h.size → Prop
  | same (r : Ref) (m) : Call h depth (.object r) (.object r) m true m
  | paired {l r paired : Ref} {m} : l ≠ r → m.pairing.get? l = some paired →
      Call h depth (.object l) (.object r) m (decide (paired = r)) m
  | apart {l r : Ref} {m} : l ≠ r → m.pairing.get? l = none → h.questions? l r = none →
      Call h depth (.object l) (.object r) m false (m.expand l r)
  | expand {l r : Ref} {m questions res m'} : l ≠ r → m.pairing.get? l = none →
      h.questions? l r = some questions →
      askAll (h.equalWithin depth) questions (m.expand l r) = some (res, m') →
      Call h depth (.object l) (.object r) m res m'
  | flat {a b : Value} {m} : (∀ l r, a = .object l → b ≠ .object r) →
      Call h depth a b m (a.sameValueZero b) m

theorem equalWithin_flat (hno : ∀ l r, a = .object l → b ≠ .object r) :
    h.equalWithin (depth + 1) a b m = some (a.sameValueZero b, m) := by
  cases a with
  | object l =>
    cases b with
    | object r => exact absurd rfl (hno l r rfl)
    | _ => rfl
  | _ => rfl

theorem call_of_equalWithin (he : h.equalWithin (depth + 1) a b m = some (res, m')) :
    Call h depth a b m res m' := by
  by_cases hobj : ∃ l r, a = .object l ∧ b = .object r
  · obtain ⟨l, r, rfl, rfl⟩ := hobj
    rw [equalWithin] at he
    split at he
    next hlr =>
      cases he
      subst hlr
      exact .same l m
    next hlr =>
      split at he
      next paired hp =>
        cases he
        exact .paired hlr hp
      next hp =>
        split at he
        next hq =>
          cases he
          exact .apart hlr hp hq
        next questions hq => exact .expand hlr hp hq he
  · have hno : ∀ l r, a = .object l → b ≠ .object r := fun l r hl hr => hobj ⟨l, r, hl, hr⟩
    rw [equalWithin_flat hno] at he
    cases he
    exact .flat hno

/-- What holds of every answer, and from one to the next, holds of all of
    them. -/
theorem askAll_induction {n : Nat} {ask : Value → Value → Meetings n → Option (Bool × Meetings n)}
    {P : Meetings n → Bool → Meetings n → Prop} (hdone : ∀ m res, P m res m)
    (hnext : ∀ {m m₁ m' res}, P m true m₁ → P m₁ res m' → P m res m')
    (hask : ∀ {a b m res m'}, ask a b m = some (res, m') → P m res m') :
    ∀ {questions m res m'}, askAll ask questions m = some (res, m') → P m res m'
  | [], m, _, _, he => by
    cases he
    exact hdone m _
  | none :: _, m, _, _, he => by
    cases he
    exact hdone m _
  | some (a, b) :: questions, m, res, m', he => by
    rw [askAll] at he
    split at he
    next => cases he
    next m₁ hm₁ =>
      cases he
      exact hask hm₁
    next m₁ hm₁ => exact hnext (hask hm₁) (askAll_induction hdone hnext hask he)

/-! ## Pairing -/

/-- A left object keeps its partner. -/
theorem grows_equalWithin : ∀ {depth a b m res m'},
    h.equalWithin depth a b m = some (res, m') → m.pairing.Grows m'.pairing
  | 0, _, _, _, _, _, he => by cases he
  | depth + 1, a, b, m, res, m', he => by
    cases call_of_equalWithin he with
    | same | paired | flat => exact .refl _
    | @apart l r => exact m.pairing.grows_record l r
    | @expand l r _ questions _ _ _ _ _ hall =>
      have hrest := askAll_induction (P := fun m _ m' => m.pairing.Grows m'.pairing)
        (fun m _ => .refl m.pairing) .trans grows_equalWithin hall
      exact (m.pairing.grows_record l r).trans hrest

end Heap

/-- The objects expanded are different ones, and they are paired. -/
structure Meetings.Sound {n : Nat} (m : Meetings n) : Prop where
  nodup : m.expanded.Nodup
  paired : ∀ l ∈ m.expanded, m.pairing.get? l ≠ none

theorem Meetings.sound_start (n : Nat) : (Meetings.start n).Sound := ⟨.nil, by simp [start]⟩

section
variable {n : Nat} {m : Meetings n} {l : Ref}

theorem Meetings.Sound.nodup_expand (hm : m.Sound) (hl : m.pairing.get? l = none) (r : Ref) :
    (m.expand l r).expanded.Nodup :=
  List.nodup_cons.2 ⟨fun hmem => hm.paired l hmem hl, hm.nodup⟩

theorem Meetings.Sound.expand (hm : m.Sound) (hlt : l.index < n) (hl : m.pairing.get? l = none)
    (r : Ref) : (m.expand l r).Sound := by
  refine ⟨hm.nodup_expand hl r, List.forall_mem_cons.2 ⟨?_, fun s hs => ?_⟩⟩
  · simp [Meetings.expand, IdentityMap.get?_record_self hlt hl]
  · obtain ⟨paired, hp⟩ := Option.ne_none_iff_exists'.1 (hm.paired s hs)
    simp [Meetings.expand, m.pairing.grows_record l r s paired hp]

end

namespace Heap

variable {h : Heap}

theorem lt_of_questions? {l r : Ref} {questions : List (Option (Value × Value))}
    (hq : h.questions? l r = some questions) : l.index < h.size := by
  rw [questions?] at hq
  split at hq
  next hl _ => exact lt_of_get? hl
  next => cases hq

/-- **A left object is expanded** at most once.  After a no some object may be
    expanded without being paired, but then nothing more is asked. -/
theorem sound_equalWithin : ∀ {depth a b} {m : Meetings h.size} {res m'},
    h.equalWithin depth a b m = some (res, m') → m.Sound →
      m'.expanded.Nodup ∧ (res = true → m'.Sound)
  | 0, _, _, _, _, _, he => by cases he
  | depth + 1, a, b, m, res, m', he => by
    intro hm
    cases call_of_equalWithin he with
    | same | paired | flat => exact ⟨hm.nodup, fun _ => hm⟩
    | @apart l r _ _ hl => exact ⟨hm.nodup_expand hl r, by simp⟩
    | @expand l r _ questions _ _ _ hl hq hall =>
      refine askAll_induction
        (P := fun m res m' => m.Sound → m'.expanded.Nodup ∧ (res = true → m'.Sound))
        (fun m _ hm => ⟨hm.nodup, fun _ => hm⟩) ?_ sound_equalWithin hall
        (hm.expand (lt_of_questions? hq) hl r)
      intro m m₁ m' res h₁ h₂ hm
      exact h₂ ((h₁ hm).2 rfl)

/-! ## The walk does what the calls do -/

/-- Asking all questions of a frame, given that the walk does what each answer
    does.  If some question has no values to compare, the answer is no. -/
theorem run_askAll {ask : Value → Value → Meetings h.size → Option (Bool × Meetings h.size)}
    (hask : ∀ {a b m res m'}, ask a b m = some (res, m') → ∀ rest frames,
      State.run (h := h) ⟨m.pairing, ((a, b) :: rest) :: frames⟩ =
        if res then State.run ⟨m'.pairing, rest :: frames⟩ else none) :
    ∀ {questions m res m'}, askAll ask questions m = some (res, m') →
      match questions.mapM id with
      | none => res = false
      | some inner => ∀ frames, State.run (h := h) ⟨m.pairing, inner :: frames⟩ =
          if res then State.run ⟨m'.pairing, frames⟩ else none
  | [], m, res, m', he => by
    cases he
    exact fun frames => run_running rfl
  | none :: _, m, res, m', he => by
    cases he
    rfl
  | some (a, b) :: questions, m, res, m', he => by
    have hcons : (some (a, b) :: questions).mapM id =
        (questions.mapM id).map fun inner => (a, b) :: inner := by
      rw [List.mapM_cons]
      cases questions.mapM id <;> rfl
    rw [hcons]
    rw [askAll] at he
    split at he
    next => cases he
    next m₁ hm₁ =>
      cases he
      cases questions.mapM id with
      | none => rfl
      | some inner =>
        intro frames
        rw [hask hm₁]
        rfl
    next m₁ hm₁ =>
      have hrest := run_askAll hask he
      cases hinner : questions.mapM id with
      | none =>
        rw [hinner] at hrest
        exact hrest
      | some inner =>
        rw [hinner] at hrest
        intro frames
        rw [hask hm₁, if_pos rfl]
        exact hrest frames

/-- **The walk does what a call does**: it comes to the next question with the
    same pairing, or ends with no. -/
theorem run_equalWithin : ∀ {depth a b m res m'},
    h.equalWithin depth a b m = some (res, m') → ∀ rest frames,
      State.run (h := h) ⟨m.pairing, ((a, b) :: rest) :: frames⟩ =
        if res then State.run ⟨m'.pairing, rest :: frames⟩ else none
  | 0, _, _, _, _, _, he, _, _ => by cases he
  | depth + 1, a, b, m, res, m', he, rest, frames => by
    cases call_of_equalWithin he with
    | same r => exact run_running (by simp [State.next])
    | @paired l r paired _ hlr hp =>
      by_cases hpr : paired = r
      · rw [decide_eq_true hpr, if_pos rfl]
        exact run_running (by simp [State.next, hlr, hp, hpr])
      · rw [decide_eq_false hpr]
        exact run_different (by simp [State.next, hlr, hp, hpr])
    | @apart l r _ hlr hp hq =>
      have ha : h.agree? l r = none := by rw [agree?_eq_questions?, hq]; rfl
      exact run_different (by simp [State.next, hlr, hp, ha])
    | @expand l r _ questions _ _ hlr hp hq hall =>
      have hrun := run_askAll run_equalWithin hall
      cases hinner : questions.mapM id with
      | none =>
        have ha : h.agree? l r = none := by rw [agree?_eq_questions?, hq]; exact hinner
        rw [hinner] at hrun
        rw [hrun]
        exact run_different (by simp [State.next, hlr, hp, ha])
      | some inner =>
        have ha : h.agree? l r = some inner := by rw [agree?_eq_questions?, hq]; exact hinner
        rw [hinner] at hrun
        rw [← hrun (rest :: frames)]
        exact run_running (by simp [State.next, hlr, hp, ha, Meetings.expand])
    | flat hno =>
      have hnext : State.next (h := h) ⟨m.pairing, ((a, b) :: rest) :: frames⟩ =
          if a.sameValueZero b then .running ⟨m.pairing, rest :: frames⟩ else .different := by
        cases a with
        | object l =>
          cases b with
          | object r => exact absurd rfl (hno l r rfl)
          | _ => rfl
        | _ => rfl
      cases hs : a.sameValueZero b with
      | true => exact run_running (by rw [hnext, hs]; rfl)
      | false => exact run_different (by rw [hnext, hs]; rfl)

/-! ## Depth -/

/-- Asking all questions about what a new object holds takes no more nesting
    than each of them does. -/
theorem exists_askAll {l r : Ref} {questions : List (Option (Value × Value))}
    {m : Meetings h.size} {depth : Nat} (hl : m.pairing.get? l = none)
    (hq : h.questions? l r = some questions)
    (hd : (h.unmet m.pairing (.object l)).ncard ≤ depth)
    (hcall : ∀ {a b} {m : Meetings h.size}, (h.unmet m.pairing a).ncard < depth →
      ∃ result, h.equalWithin depth a b m = some result) :
    ∀ (questions' : List (Option (Value × Value))) (m' : Meetings h.size),
      questions' ⊆ questions → (m.pairing.record l r).Grows m'.pairing →
      ∃ result, askAll (h.equalWithin depth) questions' m' = some result
  | [], m', _, _ => ⟨_, rfl⟩
  | none :: _, m', _, _ => ⟨_, rfl⟩
  | some (v, w) :: questions', m', hsub, hgrows => by
    obtain ⟨hmem, hsub⟩ := List.cons_subset.1 hsub
    obtain ⟨o, ho, hv⟩ := held_of_questions? hq hmem
    obtain ⟨⟨res, m₁⟩, hm₁⟩ :=
      hcall (b := w) (Nat.lt_of_lt_of_le (ncard_unmet_lt hl ho hv hgrows) hd)
    rw [askAll, hm₁]
    cases res with
    | false => exact ⟨_, rfl⟩
    | true =>
      exact exists_askAll hl hq hd hcall questions' m₁ hsub (hgrows.trans (grows_equalWithin hm₁))

/-- **The calls are nested** no deeper than the left value reaches objects that
    are not paired, and one level for the last call. -/
theorem exists_equalWithin : ∀ {depth a b} {m : Meetings h.size},
    (h.unmet m.pairing a).ncard < depth → ∃ result, h.equalWithin depth a b m = some result
  | depth + 1, a, b, m, hd => by
    by_cases hobj : ∃ l r, a = .object l ∧ b = .object r
    · obtain ⟨l, r, rfl, rfl⟩ := hobj
      rw [equalWithin]
      split
      next => exact ⟨_, rfl⟩
      next =>
        split
        next => exact ⟨_, rfl⟩
        next hl =>
          split
          next => exact ⟨_, rfl⟩
          next questions hq =>
            exact exists_askAll hl hq (Nat.le_of_lt_succ hd) exists_equalWithin questions _
              (List.Subset.refl _) (.refl _)
    · exact ⟨_, equalWithin_flat fun l r hl hr => hobj ⟨l, r, hl, hr⟩⟩

/-! ## A whole comparison -/

/-- **Comparing by nested calls** comes to an end when they may be nested deeper
    than the left value reaches objects.  It says what the walk says, and
    expands no left object twice. -/
theorem exists_deepEqualWithin {depth : Nat} {a : Value} (hd : h.extent a < depth) (b : Value) :
    ∃ expanded, h.deepEqualWithin depth a b = some (h.deepEqual a b, expanded) ∧
      expanded.Nodup := by
  rw [← unmet_empty (α := Ref)] at hd
  obtain ⟨⟨res, m⟩, he⟩ := exists_equalWithin (b := b) (m := .start h.size) hd
  refine ⟨m.expanded, ?_, (sound_equalWithin he (Meetings.sound_start h.size)).1⟩
  have hrun : h.compare? a b = if res then State.run ⟨m.pairing, [[]]⟩ else none :=
    run_equalWithin he [] []
  rw [deepEqualWithin, he, deepEqual, hrun]
  cases res with
  | false => rfl
  | true =>
    rw [if_pos rfl, run_running (s := ⟨m.pairing, [[]]⟩) rfl, run_equal (s := ⟨m.pairing, []⟩) rfl]
    rfl

/-- The limit is met: an array of one element takes two levels, one for the
    array and one for the element. -/
example : (⟨#[.array [.null], .array [.null]]⟩ : Heap).deepEqualWithin 2 (.object ⟨0⟩)
    (.object ⟨1⟩) = some (true, [⟨0⟩]) := rfl

example : (⟨#[.array [.null], .array [.null]]⟩ : Heap).deepEqualWithin 1 (.object ⟨0⟩)
    (.object ⟨1⟩) = none := rfl

end Heap

end ValueGraph
