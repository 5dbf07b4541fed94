/-
  Deep equality, declaratively.

  A correspondence of two values is a partial map of objects under which the
  values fit and every object agrees with its counterpart.  It may be read as
  a bisimulation whose left side determines the right one; cycles and sharing
  need no special care in it.

  * `Heap.Correspondence`: what it is for a map to explain that two values are
    equal;
  * `correspondence_of_compare?`: the pairing of a comparison that succeeds is
    a correspondence;
  * `compare?_of_correspondence`: where there is a correspondence the
    comparison succeeds, and its pairing is part of every correspondence;
  * `deepEqual_iff_exists_correspondence`.
-/
import ValueGraph.Proofs.Agreement

namespace ValueGraph

/-- A partial map of objects explains that two values are equal: they fit under
    it, and each object agrees with its counterpart unless it is the same. -/
structure Heap.Correspondence (h : Heap) (f : Ref → Option Ref) (a b : Value) : Prop where
  matched : Matched f a b
  agree : ∀ l r, f l = some r → l ≠ r →
    ∃ o p, h.get? l = some o ∧ h.get? r = some p ∧ o.Agree (Matched f) p

theorem Heap.agree?_iff {h : Heap} {M : Value → Value → Prop} {l r : Ref} :
    (∃ inner, h.agree? l r = some inner ∧ ∀ e ∈ inner, M e.1 e.2) ↔
      ∃ o p, h.get? l = some o ∧ h.get? r = some p ∧ o.Agree M p := by
  simp only [← Object.agree?_iff]
  rw [agree?]
  cases h.get? l <;> cases h.get? r <;> simp

namespace Comparison

variable {h : Heap}

/-! ## One question -/

/-- The objects of a pairing have under `f` the same counterparts. -/
def Within {n : Nat} (t : IdentityMap n Ref) (f : Ref → Option Ref) : Prop :=
  ∀ l r, t.get? l = some r → f l = some r

/-- What the next question can lead to.  A question is answered with no only if
    no map that extends the pairing could make its values fit. -/
inductive Step (h : Heap) : State h.size → Progress h.size → Prop
  | done (pairing) : Step h ⟨pairing, []⟩ (.equal pairing)
  | leave (pairing frames) : Step h ⟨pairing, [] :: frames⟩ (.running ⟨pairing, frames⟩)
  | fits {pairing v w frame frames} : Matched pairing.get? v w →
      Step h ⟨pairing, ((v, w) :: frame) :: frames⟩ (.running ⟨pairing, frame :: frames⟩)
  | enter {pairing l r inner frame frames} : l ≠ r → pairing.get? l = none →
      h.agree? l r = some inner →
      Step h ⟨pairing, ((.object l, .object r) :: frame) :: frames⟩
        (.running ⟨pairing.record l r, inner :: frame :: frames⟩)
  | refuse {pairing v w frame frames} :
      (∀ f, Within pairing f → (∀ l r, f l = some r → l ≠ r → h.agree? l r ≠ none) →
        ¬Matched f v w) →
      Step h ⟨pairing, ((v, w) :: frame) :: frames⟩ .different

theorem step_next (s : State h.size) : Step h s s.next := by
  obtain ⟨pairing, frames⟩ := s
  unfold State.next
  split
  next hf => cases hf; exact .done pairing
  next frames hf => cases hf; exact .leave pairing frames
  next l r frame frames hf =>
    cases hf
    split
    next hlr => subst hlr; exact .fits (.same l)
    next hlr =>
      split
      next paired hp =>
        split
        next hpr => subst hpr; exact .fits (.paired hp)
        next hpr =>
          refine .refuse fun f hw _ hm => ?_
          have hf := hm.eq_some hlr
          rw [hw _ _ hp] at hf
          exact hpr (Option.some.inj hf)
      next hp =>
        split
        next inner ha => exact .enter hlr hp ha
        next ha => exact .refuse fun f _ hagree hm => hagree l r (hm.eq_some hlr) hlr ha
  next v w frame frames hno hf =>
    cases hf
    have hobj : v.isObject = false ∨ w.isObject = false := by
      cases v <;> cases w <;> simp [Value.isObject]
      next l r => exact hno l r rfl rfl
    split
    next hs => exact .fits (.of_sameValueZero hs)
    next hs => exact .refuse fun f _ _ hm => hs (hm.sameValueZero hobj)

/-! ## All questions -/

theorem run_equal {s : State h.size} {t : IdentityMap h.size Ref} (hs : s.next = .equal t) :
    s.run = some t := by
  rw [State.run]; split <;> simp_all

theorem run_different {s : State h.size} (hs : s.next = .different) : s.run = none := by
  rw [State.run]; split <;> simp_all

theorem run_running {s t : State h.size} (hs : s.next = .running t) : s.run = t.run := by
  rw [State.run]; split <;> simp_all

/-- **A walk that succeeds** keeps the pairing that it starts with, makes the
    values of all its questions fit, and what it adds to the pairing agrees. -/
theorem run_sound (s : State h.size) : ∀ t, s.run = some t →
    (∀ l r, s.pairing.get? l = some r → t.get? l = some r) ∧
    (∀ q ∈ s.frames.flatten, Matched t.get? q.1 q.2) ∧
    ∀ l r, t.get? l = some r → s.pairing.get? l = some r ∨
      ∃ inner, h.agree? l r = some inner ∧ ∀ q ∈ inner, Matched t.get? q.1 q.2 := by
  induction s using State.run.induct with
  | case1 s pairing hs =>
    intro t ht
    rw [run_equal hs] at ht
    cases ht
    have hstep := step_next s
    rw [hs] at hstep
    cases hstep
    exact ⟨fun _ _ hl => hl, by simp, fun _ _ hl => Or.inl hl⟩
  | case2 s hs => intro t ht; rw [run_different hs] at ht; simp at ht
  | case3 s s' hs ih =>
    intro t ht
    rw [run_running hs] at ht
    obtain ⟨hext, hq, hnew⟩ := ih t ht
    have hstep := step_next s
    rw [hs] at hstep
    cases hstep with
    | leave => exact ⟨hext, by simpa using hq, hnew⟩
    | fits hm =>
      refine ⟨hext, ?_, hnew⟩
      simp only [List.flatten_cons, List.cons_append, List.mem_cons]
      rintro q (rfl | hq')
      · exact hm.mono hext
      · exact hq q (by simpa using hq')
    | @enter pairing l r inner frame frames hlr hl ha =>
      have hget := pairing.get?_record l
      have hlt := lt_of_agree? ha
      have hrec : t.get? l = some r := hext l r (by rw [hget]; simp [hl, hlt])
      have hinner : ∀ q ∈ inner, Matched t.get? q.1 q.2 := fun q hq' => hq q (by simp [hq'])
      refine ⟨fun l' r' hl' => hext l' r' ?_, ?_, fun l' r' hl' => ?_⟩
      · rw [hget, if_neg]
        · exact hl'
        · rintro ⟨rfl, -⟩
          simp [hl] at hl'
      · simp only [List.flatten_cons, List.cons_append, List.mem_cons]
        rintro q (rfl | hq')
        · exact .paired hrec
        · exact hq q (by simp only [List.flatten_cons, List.mem_append] at hq' ⊢; tauto)
      · rcases hnew l' r' hl' with hp | hp
        · rw [hget] at hp
          split at hp
          next hll =>
            cases hp
            obtain ⟨rfl, -⟩ := hll
            exact Or.inr ⟨inner, ha, hinner⟩
          next => exact Or.inl hp
        · exact Or.inr hp

/-- **A walk succeeds under a map** that extends its pairing, makes the values
    of its questions fit and is closed under agreement; it stays within the
    map. -/
theorem run_complete {f : Ref → Option Ref}
    (hf : ∀ l r, f l = some r → l ≠ r →
      ∃ inner, h.agree? l r = some inner ∧ ∀ q ∈ inner, Matched f q.1 q.2)
    (s : State h.size) : Within s.pairing f → (∀ q ∈ s.frames.flatten, Matched f q.1 q.2) →
      ∃ t, s.run = some t ∧ Within t f := by
  induction s using State.run.induct with
  | case1 s pairing hs =>
    intro hw _
    have hstep := step_next s
    rw [hs] at hstep
    cases hstep
    exact ⟨pairing, run_equal hs, hw⟩
  | case2 s hs =>
    intro hw hq
    have hstep := step_next s
    rw [hs] at hstep
    cases hstep with
    | @refuse _ v w frame frames hno =>
      refine absurd (hq (v, w) (by simp)) (hno f hw fun l r hl hlr => ?_)
      obtain ⟨inner, ha, -⟩ := hf l r hl hlr
      simp [ha]
  | case3 s s' hs ih =>
    intro hw hq
    rw [run_running hs]
    have hstep := step_next s
    rw [hs] at hstep
    cases hstep with
    | leave => exact ih hw (by simpa using hq)
    | fits hm =>
      refine ih hw fun q hq' => hq q ?_
      simp only [List.flatten_cons, List.mem_append, List.cons_append, List.mem_cons] at hq' ⊢
      exact Or.inr hq'
    | @enter pairing l r inner frame frames hlr hl ha =>
      have hlr' := (hq (.object l, .object r) (by simp)).eq_some hlr
      obtain ⟨inner', ha', hinner⟩ := hf l r hlr' hlr
      rw [ha] at ha'
      cases ha'
      refine ih (fun l' r' hl' => ?_) fun q hq' => ?_
      · rw [IdentityMap.get?_record] at hl'
        split at hl'
        next hll => cases hl'; rw [← hll.1, hlr']
        next => exact hw l' r' hl'
      · simp only [List.flatten_cons, List.mem_append] at hq'
        rcases hq' with hq' | hq'
        · exact hinner q hq'
        · refine hq q ?_
          simp only [List.flatten_cons, List.mem_append, List.cons_append, List.mem_cons]
          exact Or.inr hq'

end Comparison

/-! ## Whole values -/

namespace Heap

variable {h : Heap} {a b : Value} {t : IdentityMap h.size Ref}

theorem correspondence_of_compare? (ht : h.compare? a b = some t) :
    h.Correspondence t.get? a b := by
  obtain ⟨-, hq, hnew⟩ := Comparison.run_sound _ t ht
  refine ⟨hq (a, b) (by simp [Comparison.State.start]), fun l r hl hlr => agree?_iff.1 ?_⟩
  rcases hnew l r hl with hp | hp
  · simp [Comparison.State.start, IdentityMap.get?_empty] at hp
  · exact hp

theorem compare?_of_correspondence {f : Ref → Option Ref} (hf : h.Correspondence f a b) :
    ∃ t, h.compare? a b = some t ∧ Comparison.Within t f := by
  refine Comparison.run_complete (fun l r hl hlr => agree?_iff.2 (hf.agree l r hl hlr)) _ ?_ ?_
  · intro l r hl
    simp [Comparison.State.start, IdentityMap.get?_empty] at hl
  · simpa [Comparison.State.start] using hf.matched

theorem compare?_within (ht : h.compare? a b = some t) {f : Ref → Option Ref}
    (hf : h.Correspondence f a b) : Comparison.Within t f := by
  obtain ⟨t', ht', hw⟩ := compare?_of_correspondence hf
  rw [ht] at ht'
  cases ht'
  exact hw

theorem exists_correspondence_of_deepEqual (he : h.deepEqual a b = true) :
    ∃ f, h.Correspondence f a b := by
  obtain ⟨t, ht⟩ := Option.isSome_iff_exists.1 he
  exact ⟨t.get?, correspondence_of_compare? ht⟩

theorem Correspondence.deepEqual {f : Ref → Option Ref} (hf : h.Correspondence f a b) :
    h.deepEqual a b = true := by
  obtain ⟨t, ht, -⟩ := compare?_of_correspondence hf
  exact Option.isSome_iff_exists.2 ⟨t, ht⟩

/-- **Deep equality.**  Two values are deeply equal iff some partial map of
    objects makes them fit and has every object agree with its counterpart. -/
theorem deepEqual_iff_exists_correspondence (h : Heap) (a b : Value) :
    h.deepEqual a b = true ↔ ∃ f, h.Correspondence f a b := by
  constructor
  · exact exists_correspondence_of_deepEqual
  · rintro ⟨f, hf⟩
    exact hf.deepEqual

/-- Two different objects are equal only if they agree. -/
theorem exists_agree_of_deepEqual {l r : Ref}
    (he : h.deepEqual (.object l) (.object r) = true) (hlr : l ≠ r) :
    ∃ f o p, h.get? l = some o ∧ h.get? r = some p ∧ o.Agree (Matched f) p := by
  obtain ⟨f, hf⟩ := exists_correspondence_of_deepEqual he
  exact ⟨f, hf.agree l r (hf.matched.eq_some hlr) hlr⟩

end Heap

end ValueGraph
