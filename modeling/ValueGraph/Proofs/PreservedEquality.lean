/-
  When equal values stay equal without the excluded keys.

  Leaving keys out of equal values leaves equal values if the same keys are
  left out of objects that stand opposite each other.  Copying is in the way
  only where one object stands opposite itself and opposite another one, for
  its two copies are two objects.

  * `Object.Agree.rebuild`: what is kept of objects that agree;
  * `prunedCorrespondence_of_equal`, `deepEqualExcept_of_coherent`: equal values
    in which no object stands so;
  * `deepEqualExcept_of_deepEqual`: equal values that have no object in common,
    under exclusions that decide by the key.
-/
import ValueGraph.Proofs.PrunedEquality
import ValueGraph.Proofs.Reordering

namespace ValueGraph

open Pruning

variable {ε : Type} {x : Exclusion ε}

/-! ## Decisions by the key -/

/-- The predicate, if there is one, ignores the path. -/
def Exclusion.ByKey (x : Exclusion ε) : Prop :=
  ∀ p, x.predicate = some p → ∀ k path path', p k path = p k path'

theorem Exclusion.ByKey.keeps_eq (hx : x.ByKey) (k : Key) (path path' : KeyPath) :
    x.keeps k path = x.keeps k path' := by
  have he : x.excludes k path = x.excludes k path' := by
    rw [excludes, excludes]
    split
    next => rfl
    next =>
      split
      next p hp => exact hx p hp k path path'
      next => rfl
  rw [keeps, keeps, he]

namespace Object

variable {M : Value → Value → Prop} {o p : Object} {path path' : KeyPath}

/-- The same enumerable keys of the object are kept at two paths. -/
def KeptAlike (x : Exclusion ε) (path path' : KeyPath) (o : Object) : Prop :=
  ∀ p, o = .plain p → ∀ k, p.hasEnumerable k = true → x.keeps k path = x.keeps k path'

/-- **What is kept of objects that agree** agrees if the same keys are kept of
    both. -/
theorem Agree.rebuild (h : o.Agree M p) (hs : o.isStructural = true)
    (hk : o.KeptAlike x path path') :
    (Pruning.rebuild x id path o).Agree M (Pruning.rebuild x id path' p) := by
  cases h with
  | arrays h => exact .arrays (by simpa using h)
  | @plains a b ha hb hkeys hv =>
    refine .plains (by rwa [PlainObject.prototype_ofEntries])
      (by rwa [PlainObject.prototype_ofEntries]) (fun k => ?_) fun k v w _ hv' hw' => ?_
    · refine PlainObject.hasEnumerable_rebuilt.trans (Eq.trans ?_
        PlainObject.hasEnumerable_rebuilt.symm)
      rw [← hkeys k]
      cases he : a.hasEnumerable k with
      | false => rfl
      | true => rw [hk a rfl k he]
    · obtain ⟨he, -, v, hav, rfl⟩ := PlainObject.get?_rebuilt.1 hv'
      obtain ⟨-, -, w, hbw, rfl⟩ := PlainObject.get?_rebuilt.1 hw'
      exact hv k v w he hav hbw
  | _ => simp [isStructural_iff] at hs

end Object

namespace Heap

variable {h : Heap} {a b v w : Value} {log log' : List Event} {F : Ref → Option Ref}

/-! ## Equal values -/

theorem Outside.reaches (ho : h.Outside a b v w) : h.Reaches a v := by
  induction ho with
  | root => exact .refl
  | part _ hl _ _ _ hb ih => exact .step ih hl hb.held

/-- An array or plain object and what stands opposite it. -/
def OpposedOutside (h : Heap) (a b : Value) (l r : Ref) : Prop :=
  h.Structural l ∧ h.Outside a b (.object l) (.object r)

section
variable (ht : Traverses h x a log) (ht' : Traverses h x b log') (hF : h.Correspondence F a b)
  (hco : h.OutsideCoherent a b)
include hF hco

theorem counterpart_opposedOutside {l r : Ref} :
    counterpart (OpposedOutside h a b) l = some r ↔ OpposedOutside h a b l r :=
  counterpart_eq_some fun _ _ _ ho ho' => ho.2.unique hF ho'.2 hco ho.1

include ht ht'

/-- Values that stand opposite each other fit if the traversals come to them. -/
theorem fits_of_outside (ho : h.Outside a b v w) (hv : Occurs h x log a v)
    (hw : Occurs h x log' b w) :
    Fits log log' (counterpart (OpposedOutside h a b)) F v w := by
  have hm := ho.matched hF
  have hobjects : ∀ l r, v = .object l → w = .object r →
      Fits log log' (counterpart (OpposedOutside h a b)) F v w := by
    rintro l r rfl rfl
    have hiff := hF.structural_iff hm
    by_cases hl : h.Structural l
    · exact .copied (ht.met_of_occurs hv hl) (ht'.met_of_occurs hw (hiff.1 hl))
        ((counterpart_opposedOutside hF hco).2 ⟨hl, ho⟩)
    · refine .shared (fun l' he hmet => hl ?_) (fun r' he hmet => hl (hiff.2 ?_)) hm
      · cases he
        exact ht.structural hmet
      · cases he
        exact ht'.structural hmet
  cases hm with
  | primitives hv' hw' he =>
    refine .shared (fun r hr => ?_) (fun r hr => ?_) (.primitives hv' hw' he)
    · simp [hr, Value.isObject] at hv'
    · simp [hr, Value.isObject] at hw'
  | same r => exact hobjects r r rfl rfl
  | paired => exact hobjects _ _ rfl rfl

/-- **Equal values** have equal kept contents if opposite objects keep the same
    keys. -/
theorem prunedCorrespondence_of_equal
    (hkeep : ∀ l r path path' o, h.Outside a b (.object l) (.object r) → .met l path ∈ log →
      .met r path' ∈ log' → h.get? l = some o → o.KeptAlike x path path') :
    h.PrunedCorrespondence x log log' (counterpart (OpposedOutside h a b)) F a b := by
  refine ⟨fits_of_outside ht ht' hF hco .root (Or.inl rfl) (Or.inl rfl),
    fun l r o p hlr ho hp => ?_, hF.agree⟩
  obtain ⟨hstr, hopp⟩ := (counterpart_opposedOutside hF hco).1 hlr
  have hfits : ∀ v w, o.Beside p v w → h.Outside a b v w →
      Fits log log' (counterpart (OpposedOutside h a b)) F v w := fun v w hb hvw =>
    fits_of_outside ht ht' hF hco hvw (Or.inr ⟨l, o, ho, hb.held⟩)
      (Or.inr ⟨r, p, hp, hb.symm.held⟩)
  obtain ⟨path, o₀, hm, hlo, rfl⟩ := ho
  obtain ⟨path', p₀, hm', hrp, rfl⟩ := hp
  have hs := hstr.isStructural hlo
  have hagree := hF.agree_structural (hopp.matched hF) hlo hrp hs
  have hopp' : o₀.Agree (h.Outside a b) p₀ := hagree.imp fun v w hb _ =>
    .part hopp hlo hrp hs (hagree.isStructural_eq ▸ hs) hb
  exact (hopp'.rebuild hs (hkeep l r path path' o₀ hopp hm hm' hlo)).imp hfits

end

section
variable (hc : h.Closed) (ha : InHeap h a) (hb : InHeap h b) (hx : x.Total)
include hc ha hb hx

/-- Equal values are equal without the excluded keys if none of their objects
    stands opposite itself and opposite another one, and opposite objects keep
    the same keys. -/
theorem deepEqualExcept_of_coherent (he : h.deepEqual a b = true) (hco : h.OutsideCoherent a b)
    (hkeep : ∀ log log', Traverses h x a log → Traverses h x b log' → ∀ l r path path' o,
      h.Outside a b (.object l) (.object r) → .met l path ∈ log → .met r path' ∈ log' →
      h.get? l = some o → o.KeptAlike x path path') :
    (h.deepEqualExcept a b x).outcome = .ok true := by
  cases hne : x.isEmpty with
  | true => rw [deepEqualExcept, hne, if_pos rfl, he]
  | false =>
    obtain ⟨log, ht⟩ := exists_traverses (h := h) hx a
    obtain ⟨log', ht'⟩ := exists_traverses (h := h) hx b
    obtain ⟨F, hF⟩ := exists_correspondence_of_deepEqual he
    obtain ⟨verdict, hout, hiff⟩ :=
      deepEqualExcept_iff_prunedCorrespondence hc ha hb hx hne ht ht'
    rw [hout, hiff.2 ⟨_, _, prunedCorrespondence_of_equal ht ht' hF hco (hkeep log log' ht ht')⟩]

/-- **Ignoring keys never turns equal into different** where the values have no
    object in common and what is left out depends on the key only. -/
theorem deepEqualExcept_of_deepEqual (hkey : x.ByKey)
    (hapart : ∀ r, h.Reaches a (.object r) → ¬h.Reaches b (.object r))
    (he : h.deepEqual a b = true) : (h.deepEqualExcept a b x).outcome = .ok true := by
  refine deepEqualExcept_of_coherent hc ha hb hx he (fun r s _ ho _ => ?_) ?_
  · -- an object opposite itself is reached from both values
    exact absurd ho.symm.reaches (hapart r ho.reaches)
  · exact fun _ _ _ _ _ _ path path' _ _ _ _ _ _ _ k _ => hkey.keeps_eq k path path'

end

/-- No reference leads from one knot to the other. -/
theorem knots_apart {r s : Ref} (hr : knots.Reaches (.object r) (.object s)) :
    r.index < 3 ↔ s.index < 3 := by
  have hheld : ∀ i : Fin 6, ∀ w ∈ knots.objects[i].held, ∀ t ∈ w.ref?,
      (i.val < 3 ↔ t.index < 3) := by decide
  refine hr.closed (P := fun t => (r.index < 3 ↔ t.index < 3)) (fun t ht => by cases ht; rfl)
    fun t o ht ho u hu => ?_
  obtain ⟨hlt, rfl⟩ := Array.getElem?_eq_some_iff.1 ho
  exact ht.trans (hheld ⟨t.index, hlt⟩ _ hu u rfl)

/-- Each object of the first knot has one of the second knot for it. -/
def toSecondKnot (l : Ref) : Option Ref := if l.index < 3 then some ⟨l.index + 3⟩ else none

theorem agree_knots {l r : Ref} (hlr : toSecondKnot l = some r) :
    ∃ o p, knots.get? l = some o ∧ knots.get? r = some p ∧
      o.Agree (fun v w => w = image toSecondKnot v) p := by
  have hagree : ∀ i : Fin 3, (knots.agree? ⟨i⟩ ⟨i + 3⟩).any
      (·.all fun e => decide (e.2 = image toSecondKnot e.1)) = true := by decide
  rw [toSecondKnot] at hlr
  split at hlr
  next hlt =>
    cases hlr
    obtain ⟨inner, hinner, hall⟩ := (Option.any_eq_true _ _).1 (hagree ⟨l.index, hlt⟩)
    exact agree?_iff.1 ⟨inner, hinner, by simpa using hall⟩
  next => simp at hlr

theorem deepEqual_knots : knots.deepEqual (.object ⟨0⟩) (.object ⟨3⟩) = true := by
  refine Correspondence.deepEqual (f := toSecondKnot) ⟨.paired rfl, fun l r hlr _ => ?_⟩
  obtain ⟨o, p, ho, hp, hagree⟩ := agree_knots hlr
  exact ⟨o, p, ho, hp, hagree.mono fun v w hw => hw ▸ matched_image toSecondKnot v⟩

/-- Leaves out one key, wherever it stands. -/
def selfDropped : Exclusion Empty :=
  Exclusion.nothing.withPredicate fun k _ => .ok (k == .name "self")

theorem deepEqualExcept_of_deepEqual_knots : knots.Closed ∧ InHeap knots (.object ⟨0⟩) ∧
    InHeap knots (.object ⟨3⟩) ∧ selfDropped.Total ∧ selfDropped.ByKey ∧
    (∀ r, knots.Reaches (.object ⟨0⟩) (.object r) → ¬knots.Reaches (.object ⟨3⟩) (.object r)) ∧
    knots.deepEqual (.object ⟨0⟩) (.object ⟨3⟩) = true ∧
    (knots.deepEqualExcept (.object ⟨0⟩) (.object ⟨3⟩) selfDropped).outcome = .ok true := by
  have hc : knots.Closed := by decide
  have ha : InHeap knots (.object ⟨0⟩) := by decide
  have hb : InHeap knots (.object ⟨3⟩) := by decide
  have hx : selfDropped.Total := by
    rintro p ⟨⟩ k path
    exact ⟨_, rfl⟩
  have hkey : selfDropped.ByKey := by
    rintro p ⟨⟩ k path path'
    rfl
  have hapart : ∀ r, knots.Reaches (.object ⟨0⟩) (.object r) →
      ¬knots.Reaches (.object ⟨3⟩) (.object r) := by
    intro r hr hr'
    have hlt : r.index < 3 := (knots_apart hr).1 (by decide)
    exact absurd ((knots_apart hr').2 hlt) (by decide)
  exact ⟨hc, ha, hb, hx, hkey, hapart, deepEqual_knots,
    deepEqualExcept_of_deepEqual hc ha hb hx hkey hapart deepEqual_knots⟩

end Heap

end ValueGraph
