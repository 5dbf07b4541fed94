/-
  When a copy is equal to its source.

  Source and copy have their atomic objects in common, so a comparison of the
  two meets objects that are the same beside objects that are copies.  The map
  from the originals to their copies explains both, whichever side comes first.

  * `Copies.correspondence`: the map of a copy that lacks nothing is a
    correspondence;
  * `Heap.deepEqual_prune`: a copy under an exclusion that leaves nothing out is
    equal to its source in both orders;
  * `Heap.spares_of_deepEqual_prune`: only such a copy is equal to its source.
-/
import ValueGraph.Proofs.PrunedEquality
import ValueGraph.Proofs.SparedKeys
import ValueGraph.Proofs.Symmetry

namespace ValueGraph

open Pruning

variable {ε : Type} {x : Exclusion ε} {v w : Value}

/-! ## An object and its copy -/

namespace Object

variable {M : Value → Value → Prop} {f : Value → Value} {path : KeyPath} {o : Object}

/-- An object from which nothing is left out agrees with what is made of it. -/
theorem Spared.agree_rebuild (hsp : o.Spared x path) (hs : o.isStructural = true)
    (hM : ∀ v, M v (f v)) : o.Agree M (rebuild x f path o) := by
  have hself : (rebuild x id path o).Agree M (rebuild x f path o) := agree_rebuild_self hs hM
  exact (hsp.alike hs).agree (.refl _) hself

/-- What agrees with what is made of it lacks no key there. -/
theorem spared_of_agree (ha : o.Agree M (rebuild x f path o)) : o.Spared x path := by
  rintro p rfl k hk
  cases ha with
  | plains _ _ hkeys =>
    have hcopy := (hkeys k).symm.trans hk
    exact (Bool.and_eq_true_iff.1 (PlainObject.hasEnumerable_rebuilt.symm.trans hcopy)).2

/-- A kept part stands beside what is made of it. -/
theorem beside_rebuild {parts : List (Segment × Value)} {segment : Segment}
    (hop : o.parts? = some parts) (hpart : (segment, w) ∈ parts)
    (hkeep : State.excludes x path segment = .ok false) :
    o.Beside (rebuild x f path o) w (f w) := by
  cases o with
  | array items =>
    cases hop
    obtain ⟨⟨u, i⟩, hi, heq⟩ := List.mem_map.1 hpart
    cases heq
    have hget := List.mem_zipIdx_iff_getElem?.1 hi
    exact .element i hget (by rw [List.getElem?_map, hget]; rfl)
  | plain p =>
    rw [parts?] at hop
    split at hop
    next =>
      cases hop
      obtain ⟨⟨k, u⟩, he, heq⟩ := List.mem_map.1 hpart
      cases heq
      obtain ⟨hk, hu⟩ := PlainObject.mem_entries.1 he
      have hkeep := Exclusion.keeps_iff.2 hkeep
      refine .property k hk ?_ hu (PlainObject.get?_rebuilt.2 ⟨hk, hkeep, u, hu, rfl⟩)
      exact PlainObject.hasEnumerable_rebuilt.trans (by rw [hk, hkeep]; rfl)
    next => simp at hop
  | _ => simp [parts?] at hop

end Object

/-! ## A value and its copy -/

namespace Pruning

variable {h g : Heap} {r : Ref} {log : List Event} {c F : Ref → Option Ref}
  (hc : Copies h x log c g)
include hc

/-- **The map of a copy that lacks nothing** explains that it is equal to its
    source. -/
theorem Copies.correspondence (ht : Traverses h x v log) (hs : h.Spares x v) :
    g.Correspondence c v (image c v) := by
  refine ⟨Heap.matched_image c v, fun r s hcs _ => ?_⟩
  obtain ⟨path, hm⟩ := hc.met hcs
  obtain ⟨o, ho, hstr⟩ := hc.structural r s hcs
  refine ⟨o, _, ?_, hc.get?_copy hm hcs ho,
    (hs log ht r path o hm ho).agree_rebuild hstr (Heap.matched_image c)⟩
  rw [hc.old r (Heap.lt_of_get? ho), ho]

variable (hF : g.Correspondence F v (image c v))
include hF

theorem Copies.agree_of_paired {s : Ref} {path : KeyPath} {o : Object} (hm : .met r path ∈ log)
    (hcs : c r = some s) (hFr : F r = some s) (ho : h.get? r = some o) :
    o.Agree (Matched F) (rebuild x (image c) path o) := by
  have hr := Heap.lt_of_get? ho
  obtain ⟨o', p, ho', hp, hagree⟩ := hF.agree r s hFr (hc.ne_copy hr hcs)
  rw [hc.old r hr, ho] at ho'
  rw [hc.get?_copy hm hcs ho] at hp
  cases ho'
  cases hp
  exact hagree

variable (ht : Traverses h x v log)
include ht

/-- The objects met can have no other counterparts than their copies. -/
theorem Copies.paired_of_met (hm : Met log r) : ∃ s, c r = some s ∧ F r = some s := by
  have hpair : ∀ r, Met log r → Matched F (.object r) (image c (.object r)) →
      ∃ s, c r = some s ∧ F r = some s := by
    intro r hm hfit
    obtain ⟨s, hcs⟩ := hc.exists_copy hm
    rw [image, hcs] at hfit
    exact ⟨s, hcs, hfit.eq_some (hc.ne_copy (ht.lt_size hm) hcs)⟩
  obtain ⟨path, hm⟩ := hm
  refine ht.met_induction (P := fun r _ => ∃ s, c r = some s ∧ F r = some s) ?_ ?_ path r hm
  · rintro r rfl hm
    exact hpair r ⟨.root, hm⟩ hF.matched
  · rintro r q ps segment t hmr ⟨s, hcs, hFr⟩ hp hl hmt
    obtain ⟨o, ho, hop⟩ := Option.bind_eq_some_iff.1 hp
    exact hpair t ⟨_, hmt⟩ ((hc.agree_of_paired hF hmr hcs hFr ho).beside
      (Object.beside_rebuild hop hl.1 hl.2.1))

/-- **A copy that is equal to its source** lacks nothing. -/
theorem Copies.spares_of_correspondence : h.Spares x v := by
  intro log' ht' r path o hm ho
  obtain rfl := ht'.deterministic ht
  obtain ⟨s, hcs, hFr⟩ := hc.paired_of_met hF ht ⟨path, hm⟩
  exact Object.spared_of_agree (hc.agree_of_paired hF hm hcs hFr ho)

end Pruning

namespace Heap

variable {h : Heap}

/-- **A copy under an exclusion that leaves nothing out** is equal to its source,
    whichever comes first. -/
theorem deepEqual_prune (hx : x.Total) (hs : h.Spares x v) : ∃ copy,
    (h.prune v x).outcome = .ok copy ∧ copy.heap.deepEqual v copy.value = true ∧
      copy.heap.deepEqual copy.value v = true := by
  obtain ⟨copy, log, c, hout, hvalue, ht, hc⟩ := exists_copies h v hx
  have hcorr : copy.heap.Correspondence c v copy.value := hvalue ▸ hc.correspondence ht hs
  exact ⟨copy, hout, deepEqual_of_oneToOne hcorr hc.injective⟩

/-- An object that holds itself, a second object, and a map of the one to the
    other.  It also has a property that is not enumerable. -/
def indexed : Heap :=
  ⟨#[.plain ⟨.object, [⟨.name "self", .object ⟨0⟩, true⟩, ⟨.name "part", .object ⟨1⟩, true⟩,
      ⟨.name "index", .object ⟨2⟩, true⟩, ⟨.name "unused", .object ⟨1⟩, false⟩], by simp⟩,
    .plain (.empty .object), .map (.ofEntries [(.object ⟨1⟩, .object ⟨0⟩)])]⟩

theorem deepEqual_prune_indexed : unusedIgnored.Total ∧
    indexed.Spares unusedIgnored (.object ⟨0⟩) ∧ ∃ copy,
      (indexed.prune (.object ⟨0⟩) unusedIgnored).outcome = .ok copy ∧
        copy.heap.deepEqual (.object ⟨0⟩) copy.value = true ∧
        copy.heap.deepEqual copy.value (.object ⟨0⟩) = true := by
  have hs : indexed.Spares unusedIgnored (.object ⟨0⟩) := by
    refine spares_unusedIgnored _ fun p hmem => ?_
    simp only [indexed, List.mem_toArray, List.mem_cons, reduceCtorEq, Object.plain.injEq,
      List.not_mem_nil, or_false] at hmem
    rcases hmem with rfl | rfl <;> rfl
  exact ⟨unusedIgnored_total, hs, deepEqual_prune unusedIgnored_total hs⟩

/-- **Only a copy that lacks nothing** is equal to its source. -/
theorem spares_of_deepEqual_prune {copy : Copy} (hx : x.Total)
    (hout : (h.prune v x).outcome = .ok copy) (he : copy.heap.deepEqual v copy.value = true) :
    h.Spares x v := by
  obtain ⟨copy', log, c, hout', hvalue, ht, hc⟩ := exists_copies h v hx
  rw [hout] at hout'
  cases hout'
  obtain ⟨F, hF⟩ := exists_correspondence_of_deepEqual he
  rw [hvalue] at hF
  exact hc.spares_of_correspondence hF ht

end Heap

end ValueGraph
