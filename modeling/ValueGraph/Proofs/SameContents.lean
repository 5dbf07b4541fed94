/-
  Two heaps in which traversals keep the same.

  The verdict of a comparison without excluded keys depends on what its
  traversals keep, and on the objects that are shared with the copies.  So two
  heaps that differ elsewhere, or by the order of properties, have one verdict.

  * `SameKept`: the traversals keep the same of the same objects up to order;
    `SameKept.of_rebuilt`: they do if what they rebuild is the same where both
    meet an object;
  * `Alongside`: the heaps have alike objects in a region that no comparison
    leaves;
  * `Heap.exists_verdict_of_sameKept`: the verdict is the same;
    `Heap.exists_verdict_of_grow`: so it is when the heap grows.
-/
import ValueGraph.Proofs.PrunedEquality
import ValueGraph.Proofs.Reordering

namespace ValueGraph

open Pruning

variable {ε : Type} {x : Exclusion ε} {h g : Heap} {a b v w : Value} {r : Ref}
  {log log' lg lg' : List Event} {f f₀ : Ref → Option Ref} {S : Value → Prop}

theorem Object.Reordered.mem_held {o p : Object} (h : o.Reordered p) :
    v ∈ o.held ↔ v ∈ p.held := by
  cases h with
  | same => rfl
  | properties _ h => exact (h.map Property.value).mem_iff
  | entries h => exact ((h.map Prod.fst).append (h.map Prod.snd)).mem_iff
  | elements h => exact h.mem_iff

namespace Pruning

/-! ## The same kept contents -/

theorem Kept.met {p : Object} (hk : Kept h x log r p) : Met log r := by
  obtain ⟨path, -, hm, -⟩ := hk
  exact ⟨path, hm⟩

/-- What one traversal keeps of an object, another one keeps of it in another
    heap, up to order. -/
structure SameKept (h g : Heap) (x : Exclusion ε) (log lg : List Event) : Prop where
  mp : ∀ r p, Kept h x log r p → ∃ q, Kept g x lg r q ∧ p.Reordered q
  mpr : ∀ r q, Kept g x lg r q → ∃ p, Kept h x log r p ∧ q.Reordered p

namespace SameKept

theorem symm (hk : SameKept h g x log lg) : SameKept g h x lg log := ⟨hk.mpr, hk.mp⟩

section
variable (hk : SameKept h g x log lg)
include hk

theorem met (ht : Traverses h x v log) (hm : Met log r) : Met lg r := by
  obtain ⟨p, hp⟩ := ht.exists_kept hm
  obtain ⟨q, hq, -⟩ := hk.mp r p hp
  exact hq.met

theorem uncopied (ht : Traverses g x v lg) (hw : Uncopied log w) : Uncopied lg w :=
  fun r hr hm => hw r hr (hk.symm.met ht hm)

theorem occurs (ho : Occurs h x log v w) : Occurs g x lg v w := by
  rcases ho with rfl | ⟨r, p, hp, hw⟩
  · exact Or.inl rfl
  · obtain ⟨q, hq, hpq⟩ := hk.mp r p hp
    exact Or.inr ⟨r, q, hq, hpq.mem_held.1 hw⟩

end

/-- The objects that a traversal has met are arrays and plain objects in
    another heap, too, and what another traversal rebuilds of them there is the
    same up to order. -/
def RebuiltAlike (h g : Heap) (x : Exclusion ε) (log lg : List Event) : Prop :=
  ∀ r path o, .met r path ∈ log → h.get? r = some o →
    ∃ p, g.get? r = some p ∧ p.isStructural = true ∧
      ∀ path', .met r path' ∈ lg → (rebuild x id path o).Reordered (rebuild x id path' p)

section
variable (ht : Traverses h x v log) (hg : Traverses g x v lg)
include ht hg

/-- What one traversal meets, the other one meets: it meets the value, and has
    kept the same parts of every object before. -/
theorem met_of_rebuilt (hrb : RebuiltAlike h g x log lg) (hm : Met log r) : Met lg r := by
  have hstr : ∀ r path, .met r path ∈ log → g.Structural r := by
    intro r path hm
    obtain ⟨o, ho, -⟩ := ht.structural ⟨path, hm⟩
    obtain ⟨p, hp, hs, -⟩ := hrb r path o hm ho
    exact ⟨p, hp, hs⟩
  obtain ⟨path, hm⟩ := hm
  refine ht.met_induction (P := fun r _ => Met lg r) (fun r hr hm => ?_) ?_ path r hm
  · exact hg.met_of_occurs (Or.inl hr.symm) (hstr r .root hm)
  · intro r q ps segment s hm ih hp hl hms
    obtain ⟨o, ho, hs⟩ := ht.structural ⟨q, hm⟩
    rw [Heap.parts?, ho, Option.bind_some] at hp
    have hheld : .object s ∈ (rebuild x id q o).held :=
      (Object.mem_held_rebuild hs).2 ⟨ps, hp, segment, hl.1, hl.2.1⟩
    obtain ⟨p, hgp, -, hpath⟩ := hrb r q o hm ho
    obtain ⟨q', hm'⟩ := ih
    exact hg.met_of_occurs (Or.inr ⟨r, _, ⟨q', p, hm', hgp, rfl⟩,
      (hpath q' hm').mem_held.1 hheld⟩) (hstr s _ hms)

theorem exists_kept_of_rebuilt (hrb : RebuiltAlike h g x log lg) (r : Ref) (p : Object)
    (hp : Kept h x log r p) : ∃ q, Kept g x lg r q ∧ p.Reordered q := by
  obtain ⟨path, o, hm, ho, rfl⟩ := hp
  obtain ⟨p, hgp, -, hpath⟩ := hrb r path o hm ho
  obtain ⟨path', hm'⟩ := met_of_rebuilt ht hg hrb ⟨path, hm⟩
  exact ⟨_, ⟨path', p, hm', hgp, rfl⟩, hpath path' hm'⟩

/-- **The same is kept** if what is rebuilt is the same, seen from either
    side. -/
theorem of_rebuilt (hrb : RebuiltAlike h g x log lg) (hrb' : RebuiltAlike g h x lg log) :
    SameKept h g x log lg :=
  ⟨exists_kept_of_rebuilt ht hg hrb, exists_kept_of_rebuilt hg ht hrb'⟩

end

end SameKept

/-! ## Shared objects -/

/-- Two heaps have alike objects in a region, and what an object of the region
    holds is in it, unless it agrees with nothing. -/
structure Alongside (h g : Heap) (S : Value → Prop) : Prop where
  alike : ∀ r o, S (.object r) → h.get? r = some o → ∃ p, g.get? r = some p ∧ o.Alike p
  held : ∀ r o p M, S (.object r) → h.get? r = some o → o.Agree M p → ∀ v ∈ o.held, S v

/-- What explains an equality in one heap explains it in another one with the
    same kept contents and alike shared objects. -/
theorem SameKept.prunedCorrespondence (hk : SameKept h g x log lg)
    (hk' : SameKept h g x log' lg') (ht : Traverses h x a log) (ht' : Traverses h x b log')
    (hg : Traverses g x a lg) (hg' : Traverses g x b lg') (hS : Alongside h g S)
    (hv : ∀ v, Occurs h x log a v → Uncopied log v → S v)
    (hw : ∀ w, Occurs h x log' b w → Uncopied log' w → S w)
    (hp : h.PrunedCorrespondence x log log' f f₀ a b) :
    g.PrunedCorrespondence x lg lg' f (restrict (fun r => S (.object r)) f₀) a b := by
  have hfits : ∀ v w, Occurs h x log a v → Occurs h x log' b w → Fits log log' f f₀ v w →
      Fits lg lg' f (restrict (fun r => S (.object r)) f₀) v w := by
    intro v w hov how hvw
    cases hvw with
    | copied hl hr hlr => exact .copied (hk.met ht hl) (hk'.met ht' hr) hlr
    | shared hv' hw' hm =>
      refine .shared (hk.uncopied hg hv') (hk'.uncopied hg' hw') (matched_restrict hm ?_ ?_)
      · rintro l rfl
        exact hv _ hov hv'
      · rintro r rfl
        exact hw _ how hw'
  refine ⟨hfits a b (Or.inl rfl) (Or.inl rfl) hp.fits, fun l r o' p' hlr ho' hp' => ?_,
    fun l r hlr hne => ?_⟩
  · obtain ⟨o, ho, hoo⟩ := hk.mpr l o' ho'
    obtain ⟨p, hpr, hpp⟩ := hk'.mpr r p' hp'
    refine hoo.symm.alike.agree hpp.symm.alike ((hp.copied l r o p hlr ho hpr).imp ?_)
    exact fun v w hbeside hvw => hfits v w (Or.inr ⟨l, o, ho, hbeside.held⟩)
      (Or.inr ⟨r, p, hpr, hbeside.symm.held⟩) hvw
  · obtain ⟨hlr, hSl, hSr⟩ := restrict_eq_some.1 hlr
    obtain ⟨o, p, ho, hpr, hagree⟩ := hp.shared l r hlr hne
    obtain ⟨o', ho', hoo⟩ := hS.alike l o hSl ho
    obtain ⟨p', hp', hpp⟩ := hS.alike r p hSr hpr
    refine ⟨o', p', ho', hp', hoo.agree hpp (hagree.imp fun v w hbeside hm => ?_)⟩
    refine matched_restrict hm (fun l' hl' => ?_) fun r' hr' => ?_
    · exact hl' ▸ hS.held l o p _ hSl ho hagree v hbeside.held
    · exact hr' ▸ hS.held r p o _ hSr hpr hagree.symm w hbeside.symm.held

end Pruning

/-! ## The verdict -/

/-- **The verdict is the same** in two heaps in which the traversals keep the
    same and what is shared with the copies is alike. -/
theorem Heap.exists_verdict_of_sameKept (hc : h.Closed) (hc' : g.Closed) (ha : InHeap h a)
    (hb : InHeap h b) (ha' : InHeap g a) (hb' : InHeap g b) (hx : x.Total)
    (hne : x.isEmpty = false) (ht : Traverses h x a log) (ht' : Traverses h x b log')
    (hg : Traverses g x a lg) (hg' : Traverses g x b lg') (hk : SameKept h g x log lg)
    (hk' : SameKept h g x log' lg') (hS : Alongside h g S) (hS' : Alongside g h S)
    (hv : ∀ v, Occurs h x log a v → Uncopied log v → S v)
    (hw : ∀ w, Occurs h x log' b w → Uncopied log' w → S w) :
    ∃ verdict, (h.deepEqualExcept a b x).outcome = .ok verdict ∧
      (g.deepEqualExcept a b x).outcome = .ok verdict := by
  obtain ⟨verdict, hout, hiff⟩ := deepEqualExcept_iff_prunedCorrespondence hc ha hb hx hne ht ht'
  obtain ⟨verdict', hout', hiff'⟩ :=
    deepEqualExcept_iff_prunedCorrespondence hc' ha' hb' hx hne hg hg'
  refine ⟨verdict, hout, ?_⟩
  rw [hout', Except.ok.injEq, Bool.eq_iff_iff, hiff, hiff']
  constructor
  · rintro ⟨f, f₀, hp⟩
    refine ⟨f, _, hk.symm.prunedCorrespondence hk'.symm hg hg' ht ht' hS' ?_ ?_ hp⟩
    · exact fun v ho hu => hv v (hk.symm.occurs ho) (hk.symm.uncopied ht hu)
    · exact fun w ho hu => hw w (hk'.symm.occurs ho) (hk'.symm.uncopied ht' hu)
  · rintro ⟨f, f₀, hp⟩
    exact ⟨f, _, hk.prunedCorrespondence hk' ht ht' hg hg' hS hv hw hp⟩

/-! ## Growth -/

section
variable (hg : ∀ r, r.index < h.size → g.get? r = h.get? r)
include hg

theorem Pruning.Traverses.sameKept_of_grow (ht : Traverses h x v log) : SameKept h g x log log := by
  have hget : ∀ {r path}, .met r path ∈ log → g.get? r = h.get? r := fun hm =>
    hg _ (ht.lt_size ⟨_, hm⟩)
  refine ⟨?_, ?_⟩
  · rintro r _ ⟨path, o, hm, ho, rfl⟩
    exact ⟨_, ⟨path, o, hm, (hget hm).trans ho, rfl⟩, .same _⟩
  · rintro r _ ⟨path, o, hm, ho, rfl⟩
    exact ⟨_, ⟨path, o, hm, (hget hm).symm.trans ho, rfl⟩, .same _⟩

/-- **What is added to a closed heap** leaves its verdicts as they are. -/
theorem Heap.exists_verdict_of_grow (hc : h.Closed) (hc' : g.Closed) (ha : InHeap h a)
    (hb : InHeap h b) (hx : x.Total) (hne : x.isEmpty = false) :
    ∃ verdict, (h.deepEqualExcept a b x).outcome = .ok verdict ∧
      (g.deepEqualExcept a b x).outcome = .ok verdict := by
  have hin : ∀ {v}, InHeap h v → InHeap g v := fun hv r hr =>
    Nat.lt_of_lt_of_le (hv r hr) (size_le_of_old hg)
  have hS : Alongside h g (InHeap h) :=
    ⟨fun r o hr ho => ⟨o, (hg r (hr r rfl)).trans ho, .refl o⟩, fun _ _ _ _ _ ho _ => hc.held ho⟩
  have hS' : Alongside g h (InHeap h) :=
    ⟨fun r o hr ho => ⟨o, (hg r (hr r rfl)).symm.trans ho, .refl o⟩,
      fun r _ _ _ hr ho _ => hc.held ((hg r (hr r rfl)).symm.trans ho)⟩
  obtain ⟨log, ht⟩ := exists_traverses (h := h) hx a
  obtain ⟨log', ht'⟩ := exists_traverses (h := h) hx b
  exact exists_verdict_of_sameKept hc hc' ha hb (hin ha) (hin hb) hx hne ht ht' (ht.grow hg hc ha)
    (ht'.grow hg hc hb) (ht.sameKept_of_grow hg) (ht'.sameKept_of_grow hg) hS hS'
    (fun v ho _ => ht.inHeap_of_occurs hc ha ho) fun w ho _ => ht'.inHeap_of_occurs hc hb ho

end

end ValueGraph
