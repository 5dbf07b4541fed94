/-
  The order of properties, without the excluded keys.

  The order of properties decides by which path a traversal meets an object
  first, and that path decides which of its keys are left out wherever it
  occurs.  As long as another order leaves out the same keys, it makes no
  difference to the verdict.

  * `Heap.KeepsAlike`: traversals of two values leave out the same keys of
    objects that stand for each other, though they may meet them by different
    paths; always so if the key alone decides (`keepsAlike_of_byKey`);
  * `Object.Reordered.rebuild`: what is kept of an object in another order;
  * `Heap.Mirrors`: one value is another one with its properties in whatever
    order;
  * `Heap.deepEqualExcept_reordered`: another order leaves the verdict, and a
    value is equal to itself in another order;
  * `Heap.deepEqualExcept_not_orderless`: an object that occurs twice, and a key
    left out at one of its paths only.
-/
import Mathlib
import ValueGraph.Proofs.PreservedEquality
import ValueGraph.Proofs.SameContents

namespace ValueGraph

open Pruning

variable {ε : Type} {x : Exclusion ε}

/-! ## Another order of what is kept -/

theorem PlainObject.entries_perm {p q : PlainObject} (h : p.properties.Perm q.properties) :
    p.entries.Perm q.entries :=
  ((h.filter _).append (h.filter _)).map _

namespace Object

variable {o p : Object} {path path' : KeyPath}

theorem KeptAlike.symm_of_reordered (hk : o.KeptAlike x path path') (h : o.Reordered p) :
    p.KeptAlike x path' path := by
  rintro q rfl k he
  cases h with
  | same => exact (hk q rfl k he).symm
  | @properties p _ _ h =>
    exact (hk p rfl k ((PlainObject.hasEnumerable_perm h k).trans he)).symm

theorem Reordered.isStructural_eq (h : o.Reordered p) : o.isStructural = p.isStructural := by
  cases h with
  | properties hp _ => simp [isStructural, isAtomic, kind, hp]
  | _ => rfl

/-- **What is kept of an object in another order** is in another order if the
    same keys are kept. -/
theorem Reordered.rebuild (h : o.Reordered p) (hk : o.KeptAlike x path path') :
    (Pruning.rebuild x id path o).Reordered (Pruning.rebuild x id path' p) := by
  have hplain : ∀ {a b : PlainObject}, (plain a).KeptAlike x path path' →
      a.prototype = b.prototype → a.properties.Perm b.properties →
      (Pruning.rebuild x id path (plain a)).Reordered (Pruning.rebuild x id path' (plain b)) := by
    intro a b hk hp h
    have hfilter : (a.entries.filter fun e => x.keeps e.1 path) =
        a.entries.filter fun e => x.keeps e.1 path' := List.filter_congr fun e he =>
      hk a rfl e.1 (PlainObject.mem_entries.1 he).1
    refine .properties ?_ ?_
    · rw [PlainObject.prototype_ofEntries, PlainObject.prototype_ofEntries, hp]
    · rw [PlainObject.properties_ofEntries PlainObject.nodup_kept,
        PlainObject.properties_ofEntries PlainObject.nodup_kept, hfilter]
      exact (((PlainObject.entries_perm h).filter _).map _).map _
  cases h with
  | same =>
    cases o with
    | plain a => exact hplain hk rfl (.refl _)
    | _ => exact .same _
  | properties hp h => exact hplain hk hp h
  | entries h => exact .entries h
  | elements h => exact .elements h

end Object

namespace Heap

variable {h g : Heap} {a b v w : Value} {r : Ref} {log lg : List Event} {c : Ref → Option Ref}

theorem Reordered.closed (hg : h.Reordered g) (hc : h.Closed) : g.Closed := by
  intro p hp v hv r hr
  obtain ⟨i, hi⟩ := Array.mem_iff_getElem?.1 hp
  obtain ⟨o, ho, hop⟩ := hg.symm.get? (r := ⟨i⟩) hi
  exact hg.size_eq ▸ hc.held ho v (hop.mem_held.1 hv) r hr

theorem Reordered.inHeap (hg : h.Reordered g) (hv : InHeap h v) : InHeap g v :=
  fun r hr => hg.size_eq ▸ hv r hr

/-! ## The same keys -/

/-- By whichever paths traversals of two values meet an object and the one that
    stands for it, they keep the same of its enumerable keys. -/
def KeepsAlike (h g : Heap) (x : Exclusion ε) (c : Ref → Option Ref) (v w : Value) : Prop :=
  ∀ log lg, Traverses h x v log → Traverses g x w lg → ∀ r path path' o, .met r path ∈ log →
    .met ((c r).getD r) path' ∈ lg → h.get? r = some o → o.KeptAlike x path path'

/-- Decisions by the key keep the same of everything. -/
theorem keepsAlike_of_byKey (hx : x.ByKey) : KeepsAlike h g x c v w :=
  fun _ _ _ _ _ path path' _ _ _ _ _ _ k _ => hx.keeps_eq k path path'

theorem Reordered.rebuiltAlike (hg : h.Reordered g) (hk : ∀ r path path' o, .met r path ∈ log →
    .met r path' ∈ lg → h.get? r = some o → o.KeptAlike x path path')
    (ht : Traverses h x v log) : SameKept.RebuiltAlike h g x log lg := by
  intro r path o hm ho
  have hs := (ht.structural ⟨path, hm⟩).isStructural ho
  obtain ⟨p, hp, hop⟩ := hg.get? ho
  exact ⟨p, hp, hop.isStructural_eq ▸ hs, fun path' hm' => hop.rebuild (hk r path path' o hm hm' ho)⟩

/-- Traversals of one value keep the same in both orders if they leave out the
    same keys. -/
theorem Reordered.sameKept (hg : h.Reordered g) (hk : KeepsAlike h g x (fun _ => none) v v)
    (ht : Traverses h x v log) (hgt : Traverses g x v lg) : SameKept h g x log lg := by
  refine .of_rebuilt ht hgt (hg.rebuiltAlike (hk log lg ht hgt) ht)
    (hg.symm.rebuiltAlike (fun r path path' p hm hm' hp => ?_) hgt)
  obtain ⟨o, ho, hop⟩ := hg.symm.get? hp
  exact (hk log lg ht hgt r path' path o hm' hm ho).symm_of_reordered hop.symm

theorem Reordered.alongside (hg : h.Reordered g) : Alongside h g fun _ => True where
  alike _ _ _ ho := (hg.get? ho).imp fun _ hp => ⟨hp.1, hp.2.alike⟩
  held _ _ _ _ _ _ _ _ _ := trivial

/-! ## A value in another order -/

/-- One value is another one with some of its objects replaced by others of the
    same content, with the properties in whatever order.  An array or plain
    object outside atomic objects that is not replaced holds nothing that is. -/
structure Mirrors (h : Heap) (c : Ref → Option Ref) (a b : Value) : Prop where
  root : b = image c a
  replaced : ∀ l r, c l = some r →
    ∃ o p, h.get? l = some o ∧ h.get? r = some p ∧ o.Agree (fun v w => w = image c v) p
  kept : ∀ l w o, c l = none → h.Outside a b (.object l) w → h.get? l = some o →
    o.isStructural = true → ∀ v ∈ o.held, image c v = v

namespace Mirrors

variable (hm : h.Mirrors c a b)
include hm

theorem correspondence : h.Correspondence c a b := by
  refine ⟨hm.root ▸ matched_image c a, fun l r hlr _ => ?_⟩
  obtain ⟨o, p, ho, hp, hagree⟩ := hm.replaced l r hlr
  exact ⟨o, p, ho, hp, hagree.mono fun v w hw => hw ▸ matched_image c v⟩

/-- What stands opposite a value outside is what stands for it. -/
theorem eq_image (ho : h.Outside a b v w) : w = image c v := by
  induction ho with
  | root => exact hm.root
  | @part l r o p v w ho hl hr hs _ hb ih =>
    cases hlr : c l with
    | none =>
      -- the object stands opposite itself
      rw [image, hlr] at ih
      cases ih
      rw [Option.getD_none, hl] at hr
      cases hr
      rw [← hb.eq, hm.kept l _ o hlr ho hl hs v hb.held]
    | some s =>
      rw [image, hlr] at ih
      cases ih
      obtain ⟨o', p', ho', hp', hagree⟩ := hm.replaced l s hlr
      rw [Option.getD_some, hp'] at hr
      rw [hl] at ho'
      cases hr
      cases ho'
      exact hagree.beside hb

theorem outsideCoherent : h.OutsideCoherent a b := by
  intro r s _ hr hs
  have hrs := (hm.eq_image hr).trans (hm.eq_image hs).symm
  cases hrs
  rfl

end Mirrors

/-! ## Verdicts -/

/-- **Another order of properties** leaves a verdict without the excluded keys
    as long as it leaves out the same keys, and under the same condition a
    value is equal to itself with its properties in another order.  Decisions by
    the key meet the condition. -/
theorem deepEqualExcept_reordered (hc : h.Closed) (ha : InHeap h a) (hb : InHeap h b)
    (hx : x.Total) :
    (∀ g, h.Reordered g → KeepsAlike h g x (fun _ => none) a a →
      KeepsAlike h g x (fun _ => none) b b → ∃ verdict,
        (h.deepEqualExcept a b x).outcome = .ok verdict ∧
          (g.deepEqualExcept a b x).outcome = .ok verdict) ∧
    (∀ c, h.Mirrors c a b → KeepsAlike h h x c a b →
      (h.deepEqualExcept a b x).outcome = .ok true) ∧
    (x.ByKey → ∀ g c v w, KeepsAlike h g x c v w) := by
  refine ⟨fun g hg hka hkb => ?_, fun c hm hk => ?_, fun hkey _ _ _ _ => keepsAlike_of_byKey hkey⟩
  · cases hne : x.isEmpty with
    | true =>
      refine ⟨h.deepEqual a b, by rw [deepEqualExcept, hne, if_pos rfl], ?_⟩
      rw [deepEqualExcept, hne, if_pos rfl, Except.ok.injEq, Bool.eq_iff_iff]
      exact hg.deepEqual_iff
    | false =>
      obtain ⟨log, ht⟩ := exists_traverses (h := h) hx a
      obtain ⟨log', ht'⟩ := exists_traverses (h := h) hx b
      obtain ⟨lg, hgt⟩ := exists_traverses (h := g) hx a
      obtain ⟨lg', hgt'⟩ := exists_traverses (h := g) hx b
      exact exists_verdict_of_sameKept hc (hg.closed hc) ha hb (hg.inHeap ha)
        (hg.inHeap hb) hx hne ht ht' hgt hgt' (hg.sameKept hka ht hgt)
        (hg.sameKept hkb ht' hgt') hg.alongside hg.symm.alongside (fun _ _ _ => trivial)
        fun _ _ _ => trivial
  · refine deepEqualExcept_of_coherent hc ha hb hx hm.correspondence.deepEqual
      hm.outsideCoherent ?_
    intro log log' ht ht' l r path path' o ho hml hmr hlo
    have hr := hm.eq_image ho
    cases hr
    exact hk log log' ht ht' l path path' o hml hmr hlo

/-- Leaves out one key at the root only. -/
def rootSelfDropped : Exclusion Empty :=
  Exclusion.nothing.withPredicate fun k path => .ok (path == .root && k == .name "self")

/-- Nothing below the root has parts but under the key left out there. -/
def RootOnly (h : Heap) (r : Ref) : Prop :=
  ∀ part ∈ (h.parts? r).getD [], part.1 = .key (.name "self") ∨
    (part.2.ref?.bind h.parts?).isNone = true

instance (h : Heap) (r : Ref) : Decidable (RootOnly h r) :=
  inferInstanceAs (Decidable (∀ part ∈ (h.parts? r).getD [], part.1 = .key (.name "self") ∨
    (part.2.ref?.bind h.parts?).isNone = true))

theorem met_rootSelfDropped {s : Ref} {path : KeyPath} (hroot : RootOnly h r)
    (ht : Traverses h rootSelfDropped (.object r) log) (hm : .met s path ∈ log) :
    s = r ∧ path = .root := by
  refine ht.met_induction (P := fun s path => s = r ∧ path = .root) (fun s hs _ => ?_) ?_ path s hm
  · cases hs
    exact ⟨rfl, rfl⟩
  · rintro _ _ ps segment t _ ⟨rfl, rfl⟩ hp ⟨hmem, hkeep, ht⟩ _
    rw [RootOnly, hp] at hroot
    rcases hroot _ hmem with rfl | hnone
    · simp [State.excludes, Exclusion.excludes, rootSelfDropped, Exclusion.withPredicate,
        Exclusion.nothing] at hkeep
    · rw [Value.ref?, Option.bind_some, Option.isNone_iff_eq_none] at hnone
      simp [hnone] at ht

theorem keepsAlike_rootSelfDropped {s : Ref} (c : Ref → Option Ref) (hr : RootOnly h r)
    (hs : RootOnly g s) : KeepsAlike h g rootSelfDropped c (.object r) (.object s) := by
  intro log lg ht hgt _ path path' o hm hm' _
  obtain ⟨-, rfl⟩ := met_rootSelfDropped hr ht hm
  obtain ⟨-, rfl⟩ := met_rootSelfDropped hs hgt hm'
  exact fun _ _ _ _ => rfl

theorem mirrors_knots : knots.Mirrors toSecondKnot (.object ⟨0⟩) (.object ⟨3⟩) := by
  refine ⟨rfl, fun l r => agree_knots, fun l w _ hl ho _ _ => ?_⟩
  -- an object that is not replaced belongs to the second knot
  have hlt : l.index < 3 := (knots_apart ho.reaches).1 (by decide)
  simp [toSecondKnot, hlt] at hl

theorem deepEqualExcept_reordered_knots : knots.Closed ∧ InHeap knots (.object ⟨0⟩) ∧
    InHeap knots (.object ⟨3⟩) ∧ rootSelfDropped.Total ∧ knots.Reordered turnedKnots ∧
    KeepsAlike knots turnedKnots rootSelfDropped (fun _ => none) (.object ⟨0⟩) (.object ⟨0⟩) ∧
    KeepsAlike knots turnedKnots rootSelfDropped (fun _ => none) (.object ⟨3⟩) (.object ⟨3⟩) ∧
    (∃ verdict,
      (knots.deepEqualExcept (.object ⟨0⟩) (.object ⟨3⟩) rootSelfDropped).outcome = .ok verdict ∧
      (turnedKnots.deepEqualExcept (.object ⟨0⟩) (.object ⟨3⟩) rootSelfDropped).outcome =
        .ok verdict) ∧
    knots.Mirrors toSecondKnot (.object ⟨0⟩) (.object ⟨3⟩) ∧
    KeepsAlike knots knots rootSelfDropped toSecondKnot (.object ⟨0⟩) (.object ⟨3⟩) ∧
    (knots.deepEqualExcept (.object ⟨0⟩) (.object ⟨3⟩) rootSelfDropped).outcome = .ok true := by
  have hc : knots.Closed := by decide
  have ha : InHeap knots (.object ⟨0⟩) := by decide
  have hb : InHeap knots (.object ⟨3⟩) := by decide
  have hx : rootSelfDropped.Total := by
    rintro p ⟨⟩ k path
    exact ⟨_, rfl⟩
  have hka := keepsAlike_rootSelfDropped (h := knots) (g := turnedKnots) (r := ⟨0⟩) (s := ⟨0⟩)
    (fun _ => none) (by decide) (by decide)
  have hkb := keepsAlike_rootSelfDropped (h := knots) (g := turnedKnots) (r := ⟨3⟩) (s := ⟨3⟩)
    (fun _ => none) (by decide) (by decide)
  have hkc := keepsAlike_rootSelfDropped (h := knots) (g := knots) (r := ⟨0⟩) (s := ⟨3⟩)
    toSecondKnot (by decide) (by decide)
  obtain ⟨hreordered, hmirrored, -⟩ := deepEqualExcept_reordered hc ha hb hx
  exact ⟨hc, ha, hb, hx, reordered_knots, hka, hkb, hreordered _ reordered_knots hka hkb,
    mirrors_knots, hkc, hmirrored _ mirrors_knots hkc⟩

/-! ## An object that occurs twice -/

/-- A plain object with two properties that hold the object `0`. -/
def twice (first second : String) : Object :=
  .plain (.ofEntries .object [(.name first, .object ⟨0⟩), (.name second, .object ⟨0⟩)])

/-- An object and two objects that hold it twice, the second one in the given
    order. -/
def forked (first second : String) : Heap :=
  ⟨#[.plain (.ofEntries .object [(.name "id", .null)]), twice "p" "q", twice first second]⟩

/-- Leaves out a key below one property only. -/
def branchExcluded : Exclusion Empty :=
  Exclusion.nothing.withPredicate fun k path =>
    .ok (k == .name "id" && path == .step .root (.key (.name "p")))

/-- Another order of properties can change the verdict: in one order the object
    is met first where its key is left out, in the other one where it is
    kept. -/
theorem deepEqualExcept_not_orderless :
    ¬∀ (h g : Heap) (a b : Value) (x : Exclusion Empty), h.Closed → InHeap h a → InHeap h b →
      x.Total → h.Reordered g →
        (g.deepEqualExcept a b x).outcome = (h.deepEqualExcept a b x).outcome := by
  intro hall
  have hx : branchExcluded.Total := by
    rintro p ⟨⟩ k path
    exact ⟨_, rfl⟩
  have hreordered : (forked "p" "q").Reordered (forked "q" "p") :=
    .cons (.same _) (.cons (.same _) (.cons (.properties rfl (by decide)) .nil))
  have heq := hall (forked "p" "q") (forked "q" "p") (.object ⟨1⟩) (.object ⟨2⟩) branchExcluded
    (by decide) (by decide) (by decide) hx hreordered
  have hfirst : ((forked "p" "q").deepEqualExcept (.object ⟨1⟩) (.object ⟨2⟩)
      branchExcluded).outcome = .ok true := by cbv
  have hsecond : ((forked "q" "p").deepEqualExcept (.object ⟨1⟩) (.object ⟨2⟩)
      branchExcluded).outcome = .ok false := by cbv
  rw [hfirst, hsecond] at heq
  simp at heq

end Heap

end ValueGraph
