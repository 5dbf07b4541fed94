/-
  Transitivity of deep equality.

  Two pairings compose object by object.  What is in the way is an object that
  a value shares with the value that it is equal to: it stands opposite itself
  without being paired, and may be paired with another object elsewhere.  So
  the values have to lie apart.

  * `Object.Agree.trans`: what agrees with an object agrees with what that
    object agrees with, for every kind of object;
  * `Heap.Disjoint`: two values reach no object in common;
  * `Heap.Correspondence.trans`: correspondences compose where the values lie
    apart;
  * `Heap.deepEqual_trans`.
-/
import ValueGraph.Proofs.Opposition
import ValueGraph.Proofs.Symmetry

namespace ValueGraph

/-! ## Agreement with a third object -/

theorem forall₂_comp {α β γ : Type} {R : α → β → Prop} {S : β → γ → Prop} :
    ∀ {xs : List α} {ys : List β} {zs : List γ}, List.Forall₂ R xs ys → List.Forall₂ S ys zs →
      List.Forall₂ (fun x z => ∃ y, R x y ∧ S y z) xs zs
  | _, _, _, .nil, .nil => .nil
  | _, _, _, .cons h hs, .cons h' hs' => .cons ⟨_, h, h'⟩ (forall₂_comp hs hs')

/-- **Agreement composes**: the values that two objects hold in the same place
    fit what the object between them holds there. -/
theorem Object.Agree.trans {M N : Value → Value → Prop} {o p q : Object} (h : o.Agree M p)
    (h' : p.Agree N q) : o.Agree (fun v w => ∃ u, M v u ∧ N u w) q := by
  cases h with
  | arrays h => cases h' with
    | arrays h' => exact .arrays (forall₂_comp h h')
  | plains ho _ hk hv => cases h' with
    | plains _ hq hk' hv' =>
      refine .plains ho hq (fun k => (hk k).trans (hk' k)) fun k v w he hov hqw => ?_
      have he' := (hk k).symm.trans he
      obtain ⟨u, hu⟩ := PlainObject.exists_get? he'
      exact ⟨u, hv k v u he hov hu, hv' k u w he' hu hqw⟩
  | maps hk hv => cases h' with
    | maps hk' hv' =>
      refine .maps (fun k => (hk k).trans (hk' k)) fun k v w hov hqw => ?_
      obtain ⟨u, hu⟩ := OrderedMap.contains_iff.1
        ((hk k).symm.trans (OrderedMap.contains_iff.2 ⟨v, hov⟩))
      exact ⟨u, hv k v u hov hu, hv' k u w hu hqw⟩
  | sets hk => cases h' with
    | sets hk' => exact .sets fun v => (hk v).trans (hk' v)
  | dates millis => cases h' with
    | dates => exact .dates millis
  | patterns hs hf => cases h' with
    | patterns hs' hf' => exact .patterns (hs.trans hs') (hf.trans hf')
  | boxes hb => cases h' with
    | boxes hb' => exact .boxes (Value.strictEq_trans hb hb')
  | integers element items => cases h' with
    | integers => exact .integers element items
  | floats element hx => cases h' with
    | floats _ hx' =>
      exact .floats element ((forall₂_comp hx hx').imp fun _ _ ⟨_, h, h'⟩ => Binary64.eq_trans h h')
  | dataViews bytes => cases h' with
    | dataViews => exact .dataViews bytes

namespace Heap

variable {h : Heap} {a b c v w u : Value} {f g : Ref → Option Ref}

/-! ## Composed correspondences -/

/-- Two values reach no object in common. -/
def Disjoint (h : Heap) (a b : Value) : Prop :=
  ∀ r, h.Reaches a (.object r) → ¬h.Reaches b (.object r)

/-- An object that the first value reaches and the counterpart, on the way to
    the third value, of its counterpart on the way to the second one. -/
def Through (h : Heap) (f g : Ref → Option Ref) (a b c : Value) (l r : Ref) : Prop :=
  ∃ m, f l = some m ∧ g m = some r ∧ h.Reaches a (.object l) ∧ h.Reaches b (.object m) ∧
    h.Reaches c (.object r)

theorem counterpart_through {l r : Ref} :
    counterpart (Through h f g a b c) l = some r ↔ Through h f g a b c l r := by
  refine counterpart_eq_some fun l r r' => ?_
  rintro ⟨m, hm, hr, -⟩ ⟨m', hm', hr', -⟩
  rw [hm] at hm'
  cases hm'
  rw [hr] at hr'
  exact Option.some.inj hr'

section
variable (hab : h.Disjoint a b) (hbc : h.Disjoint b c)
include hab hbc

/-- Values that fit one after the other fit under the composed map if they are
    reached from values that lie apart. -/
theorem matched_through (hvw : Matched f v w) (hwu : Matched g w u) (hv : h.Reaches a v)
    (hw : h.Reaches b w) (hu : h.Reaches c u) :
    Matched (counterpart (Through h f g a b c)) v u := by
  cases hvw with
  | primitives hvo hwo he =>
    have hvw := (Matched.primitives (f := f) hvo hwo he).sameValueZero (Or.inl hvo)
    exact .of_sameValueZero (Value.sameValueZero_trans hvw (hwu.sameValueZero (Or.inl hwo)))
  | same r => exact absurd hw (hab r hv)
  | paired hf =>
    cases hwu with
    | primitives hno => simp [Value.isObject] at hno
    | same => exact absurd hu (hbc _ hw)
    | paired hg => exact .paired (counterpart_through.2 ⟨_, hf, hg, hv, hw, hu⟩)

/-- **Correspondences compose** where the values lie apart. -/
theorem Correspondence.trans (hf : h.Correspondence f a b) (hg : h.Correspondence g b c) :
    h.Correspondence (counterpart (Through h f g a b c)) a c := by
  refine ⟨matched_through hab hbc hf.matched hg.matched .refl .refl .refl, fun l r hlr _ => ?_⟩
  obtain ⟨m, hm, hr, hal, hbm, hcr⟩ := counterpart_through.1 hlr
  have hlm : l ≠ m := fun he => hab m (he ▸ hal) hbm
  have hmr : m ≠ r := fun he => hbc r (he ▸ hbm) hcr
  obtain ⟨o, p, ho, hp, hop⟩ := hf.agree l m hm hlm
  obtain ⟨p', q, hp', hq, hpq⟩ := hg.agree m r hr hmr
  rw [hp] at hp'
  cases hp'
  refine ⟨o, q, ho, hq, ?_⟩
  -- what the objects hold is reached, so the values in between lie apart, too
  have hleft : o.Agree (fun v w => Matched f v w ∧ h.Reaches a v) p :=
    hop.imp fun v w hb hm => ⟨hm, .step hal ho hb.held⟩
  have hright : p.Agree (fun w u => Matched g w u ∧ h.Reaches b w ∧ h.Reaches c u) q :=
    hpq.imp fun w u hb hm => ⟨hm, .step hbm hp hb.held, .step hcr hq hb.symm.held⟩
  exact (hleft.trans hright).mono fun v u ⟨w, ⟨hvw, hv⟩, hwu, hw, hu⟩ =>
    matched_through hab hbc hvw hwu hv hw hu

/-- **Transitivity** of deep equality, where the value in the middle has no
    object in common with the other two.  Cycles and sharing within the values
    are no matter. -/
theorem deepEqual_trans (heq : h.deepEqual a b = true) (heq' : h.deepEqual b c = true) :
    h.deepEqual a c = true := by
  obtain ⟨f, hf⟩ := exists_correspondence_of_deepEqual heq
  obtain ⟨g, hg⟩ := exists_correspondence_of_deepEqual heq'
  exact (hf.trans hab hbc hg).deepEqual

end

/-- A cycle of four objects, a cycle of two and a cycle of one. -/
def nestedRings : Heap :=
  ⟨#[link 1, link 2, link 3, link 0, link 5, link 4, link 6]⟩

/-- The cycle that an object is on. -/
def ringOf (r : Ref) : Nat := if r.index < 4 then 4 else if r.index < 6 then 2 else 1

theorem ringOf_eq {r s : Ref} (hr : nestedRings.Reaches (.object r) (.object s)) :
    ringOf s = ringOf r := by
  have hheld : ∀ i : Fin 7, ∀ w ∈ nestedRings.objects[i].held, ∀ t ∈ w.ref?,
      ringOf t = ringOf ⟨i⟩ := by decide
  refine hr.closed (P := fun t => ringOf t = ringOf r) (fun t ht => by cases ht; rfl)
    fun t o ht ho u hu => ?_
  obtain ⟨hlt, rfl⟩ := Array.getElem?_eq_some_iff.1 ho
  exact (hheld ⟨t.index, hlt⟩ _ hu u rfl).trans ht

theorem disjoint_nestedRings {r s : Ref} (hrs : ringOf r ≠ ringOf s) :
    nestedRings.Disjoint (.object r) (.object s) := fun _ hr hs =>
  hrs ((ringOf_eq hr).symm.trans (ringOf_eq hs))

/-- The longest cycle has the next one as its counterpart, and this one the
    shortest. -/
def halved (l : Ref) : Option Ref :=
  if l.index < 4 then some ⟨4 + l.index % 2⟩ else if l.index < 6 then some ⟨6⟩ else none

theorem deepEqual_halved {l r : Ref} (hlr : halved l = some r) :
    nestedRings.deepEqual (.object l) (.object r) = true := by
  have hlinks : ∀ l r : Ref, halved l = some r → ∃ i j, nestedRings.get? l = some (link i) ∧
      nestedRings.get? r = some (link j) ∧ halved ⟨i⟩ = some ⟨j⟩ := by
    rintro ⟨l⟩ r hl
    rw [halved] at hl
    split at hl
    next hlt =>
      cases hl
      obtain rfl | rfl | rfl | rfl : l = 0 ∨ l = 1 ∨ l = 2 ∨ l = 3 := by
        dsimp only at hlt
        omega
      all_goals exact ⟨_, _, rfl, rfl, rfl⟩
    next hge =>
      split at hl
      next hlt =>
        cases hl
        obtain rfl | rfl : l = 4 ∨ l = 5 := by
          dsimp only at hge hlt
          omega
        all_goals exact ⟨_, _, rfl, rfl, rfl⟩
      next => simp at hl
  refine Correspondence.deepEqual (f := halved) ⟨.paired hlr, fun l r hl _ => ?_⟩
  obtain ⟨i, j, hi, hj, hij⟩ := hlinks l r hl
  exact ⟨link i, link j, hi, hj, agree_link.2 (.paired hij)⟩

theorem deepEqual_trans_nestedRings : nestedRings.Disjoint (.object ⟨0⟩) (.object ⟨4⟩) ∧
    nestedRings.Disjoint (.object ⟨4⟩) (.object ⟨6⟩) ∧
    nestedRings.deepEqual (.object ⟨0⟩) (.object ⟨4⟩) = true ∧
    nestedRings.deepEqual (.object ⟨4⟩) (.object ⟨6⟩) = true ∧
    nestedRings.deepEqual (.object ⟨0⟩) (.object ⟨6⟩) = true := by
  have hab := disjoint_nestedRings (r := ⟨0⟩) (s := ⟨4⟩) (by decide)
  have hbc := disjoint_nestedRings (r := ⟨4⟩) (s := ⟨6⟩) (by decide)
  have heq := deepEqual_halved (l := ⟨0⟩) rfl
  have heq' := deepEqual_halved (l := ⟨4⟩) rfl
  exact ⟨hab, hbc, heq, heq', deepEqual_trans hab hbc heq heq'⟩

end Heap

end ValueGraph
