/-
  Pruning what has been pruned.

  A copy of a copy is a copy of the source.  It leaves out what either of the
  two leaves out, and what can be reached through that only plays no part.

  * `Object.rebuild_rebuild`: an object rebuilt twice is rebuilt once;
  * `Staged.copies_copyOfCopy`, `Staged.exists_copies`: a copy of a copy is a copy
    of the source;
  * `Heap.prune_prune`: pruning again leaves out nothing more;
  * `Heap.prune_prune_comm`: exclusions that decide by the key may be applied in
    either order, or at once.
-/
import ValueGraph.Proofs.CopyTraversal
import ValueGraph.Proofs.Isomorphism
import ValueGraph.Proofs.PreservedEquality
import ValueGraph.Proofs.SparedKeys

namespace ValueGraph

open Pruning

variable {ε : Type} {x x₁ x₂ : Exclusion ε} {path path₁ : KeyPath}

/-! ## Joined exclusions -/

namespace Exclusion

/-- An exclusion leaves out just what one of two others leaves out. -/
def Joins (x x₁ x₂ : Exclusion ε) : Prop := ∀ k path,
  x.excludes k path = .ok true ↔ x₁.excludes k path = .ok true ∨ x₂.excludes k path = .ok true

theorem Joins.symm (hj : x.Joins x₁ x₂) : x.Joins x₂ x₁ := fun k path =>
  (hj k path).trans or_comm

theorem Joins.keepsBoth (hj : x.Joins x₁ x₂) (hx : x.Total) (hx₁ : x₁.Total) (hx₂ : x₂.Total)
    (hk₁ : x₁.ByKey) (path₁ path : KeyPath) : x.KeepsBoth x₁ x₂ path path₁ path := by
  intro k
  rw [hk₁.keeps_eq k path₁ path]
  have hiff := hj k path
  rw [← hx.keeps_eq_false, ← hx₁.keeps_eq_false, ← hx₂.keeps_eq_false] at hiff
  rw [Bool.eq_iff_iff, Bool.and_eq_true]
  simpa using not_congr hiff

end Exclusion

/-! ## Rebuilding twice -/

theorem PlainObject.rebuilt_rebuilt {p : PlainObject} {f g : Value → Value}
    (hb : x.KeepsBoth x₁ x₂ path path₁ path) :
    (p.rebuilt x₁ f path₁).rebuilt x₂ g path = p.rebuilt x (g ∘ f) path := by
  refine eq_of_fields (prototype_ofEntries.trans
    (prototype_ofEntries.trans prototype_ofEntries.symm)) ?_
  rw [properties_rebuilt, properties_rebuilt, entries_rebuilt, List.filter_map, List.map_map,
    List.filter_filter]
  have hkeeps : ∀ e : Key × Value, x.keeps e.1 path =
      (x₂.keeps e.1 path && x₁.keeps e.1 path₁) := fun e => by rw [hb e.1, Bool.and_comm]
  simp only [hkeeps]
  rfl

/-- **An object rebuilt twice** is rebuilt once, under the exclusion that keeps
    what both keep. -/
theorem Object.rebuild_rebuild {o : Object} {f g : Value → Value}
    (hb : x.KeepsBoth x₁ x₂ path path₁ path) :
    rebuild x₂ g path (rebuild x₁ f path₁ o) = rebuild x (g ∘ f) path o := by
  cases o with
  | array items => exact congrArg array List.map_map
  | plain p => exact congrArg plain (PlainObject.rebuilt_rebuilt hb)
  | _ => rfl

/-- What is made of an object under an exclusion has no key that it leaves
    out. -/
theorem Object.spared_rebuild {o : Object} {f : Value → Value} :
    (rebuild x f path o).Spared x path := by
  intro p hp k hk
  cases o with
  | plain q =>
    cases hp
    have hboth := PlainObject.hasEnumerable_rebuilt.symm.trans hk
    exact (Bool.and_eq_true_iff.1 hboth).2
  | _ => cases hp

namespace Pruning

/-! ## Copies of copies -/

/-- The copy of the copy of an object. -/
def copyOfCopy (c d : Ref → Option Ref) (r : Ref) : Option Ref := (c r).bind d

variable {h g g' : Heap} {v w : Value} {r s t : Ref} {log log₁ lg : List Event}
  {c d : Ref → Option Ref}

theorem copyOfCopy_eq_some : copyOfCopy c d r = some t ↔ ∃ s, c r = some s ∧ d s = some t :=
  Option.bind_eq_some_iff

namespace Staged

variable (hs : Staged h x x₁ x₂ v log log₁ c g)

section
variable (hd : Copies g x₂ lg d g') (hf : Follows c log lg)
include hs hd hf

theorem exists_copyOfCopy (hm : Met log r) : ∃ s t, c r = some s ∧ d s = some t := by
  obtain ⟨s, hcs⟩ := hs.copies.exists_copy (hs.met hm)
  obtain ⟨t, hdt⟩ := hd.exists_copy ((hf.met_iff hs.copies.injective hcs).2 hm)
  exact ⟨s, t, hcs, hdt⟩

theorem isSome_copyOfCopy : (copyOfCopy c d r).isSome = true ↔ Met log r := by
  constructor
  · intro hr
    obtain ⟨t, hrt⟩ := Option.isSome_iff_exists.1 hr
    obtain ⟨s, hcs, hdt⟩ := copyOfCopy_eq_some.1 hrt
    exact (hf.met_iff hs.copies.injective hcs).1 (hd.met hdt)
  · intro hm
    obtain ⟨s, t, hcs, hdt⟩ := hs.exists_copyOfCopy hd hf hm
    rw [copyOfCopy_eq_some.2 ⟨s, hcs, hdt⟩]
    rfl

/-- What stands for a value in the copy of a copy. -/
theorem image_image (hw : Occurs h x log v w) :
    image d (image c w) = image (copyOfCopy c d) w := by
  cases w with
  | object r =>
    by_cases hm : Met log r
    · obtain ⟨s, t, hcs, hdt⟩ := hs.exists_copyOfCopy hd hf hm
      rw [image, image, image, copyOfCopy, hcs, Option.getD_some, Option.bind_some, hdt,
        Option.getD_some, Option.getD_some]
    · -- what occurs and is not met is atomic, so neither traversal copies it
      have hatomic : ¬h.Structural r := mt (hs.both.met_of_occurs hw) hm
      have hatomic' : ¬g.Structural r := by
        have hr := hs.both.inHeap_of_occurs hs.closed hs.inHeap hw r rfl
        rwa [Heap.Structural, hs.copies.old r hr]
      rw [image, image, image, copyOfCopy, hs.copies.eq_none_of_atomic hatomic, Option.getD_none,
        Option.bind_none, hd.eq_none_of_atomic hatomic']
  | _ => rfl

/-- **A copy of a copy** is a copy of the source that leaves out what either of
    them leaves out. -/
theorem copies_copyOfCopy : Copies h x log (copyOfCopy c d) g' := by
  refine .of_get? (Heap.old_trans hs.copies.old hd.old) (fun r => hs.isSome_copyOfCopy hd hf)
    (fun r t hr => ?_) (fun r t hr => ?_) (fun r r' t hr hr' => ?_)
    fun r path t o hm hr ho => ?_
  · obtain ⟨s, hcs, -⟩ := copyOfCopy_eq_some.1 hr
    exact hs.copies.structural r s hcs
  · obtain ⟨s, -, hdt⟩ := copyOfCopy_eq_some.1 hr
    exact Nat.le_trans (Heap.size_le_of_old hs.copies.old) (hd.fresh s t hdt)
  · obtain ⟨s, hcs, hds⟩ := copyOfCopy_eq_some.1 hr
    obtain ⟨s', hcs', hds'⟩ := copyOfCopy_eq_some.1 hr'
    obtain rfl := hd.injective s s' t hds hds'
    exact hs.copies.injective r r' s hcs hcs'
  · obtain ⟨s, hcs, hdt⟩ := copyOfCopy_eq_some.1 hr
    obtain ⟨path₁, hm₁⟩ := hs.copies.met hcs
    rw [hd.get?_copy ((hf s path).2 ⟨r, hcs, hm⟩) hdt (hs.copies.get?_copy hm₁ hcs ho),
      Object.rebuild_rebuild (hs.keeps r path₁ path hm₁ hm)]
    refine congrArg some (Object.rebuild_congr fun u hu => ?_)
    exact hs.image_image hd hf (Or.inr ⟨r, _, ⟨path, o, hm, ho, rfl⟩, hu⟩)

end

include hs

/-- **Pruning a copy** gives a copy of the source. -/
theorem exists_copies (hx₂ : x₂.Total) : ∃ copy d,
    (g.prune (image c v) x₂).outcome = .ok copy ∧ copy.value = image d v ∧
      Copies h x log d copy.heap ∧ ∀ r, r.index < g.size → copy.heap.get? r = g.get? r := by
  obtain ⟨copy, lg, d, hout, hvalue, ht, hd⟩ := Heap.exists_copies g (image c v) hx₂
  obtain ⟨lg', ht', hf⟩ := hs.exists_follows hx₂
  obtain rfl := ht.deterministic ht'
  exact ⟨copy, copyOfCopy c d, hout, hvalue.trans (hs.image_image hd hf (Or.inl rfl)),
    hs.copies_copyOfCopy hd hf, hd.old⟩

end Staged

/-! ## The same exclusion again -/

/-- A copy that is to be pruned under the same exclusion again. -/
theorem Copies.staged (hc : Copies h x log c g) (ht : Traverses h x v log) (hx : x.Total)
    (hcl : h.Closed) (hv : InHeap h v) : Staged h x x x v log log c g := by
  refine ⟨hcl, hv, ht, hc, ht, fun r path₁ path hm₁ hm k => ?_⟩
  rw [ht.path_unique hx hm₁ hm, Bool.and_self]

/-- The exclusion under which a copy is made leaves out none of its keys: the
    copies are met by the paths of their originals. -/
theorem Staged.spares (hs : Staged h x x x v log log c g) (hx : x.Total) :
    g.Spares x (image c v) := by
  obtain ⟨lg, ht, hf⟩ := hs.exists_follows hx
  intro lg' ht' s path p hm hp
  obtain rfl := ht'.deterministic ht
  obtain ⟨r, hcs, hm⟩ := (hf s path).1 hm
  obtain ⟨o, ho, -⟩ := hs.copies.structural r s hcs
  rw [hs.copies.get?_copy hm hcs ho] at hp
  cases hp
  exact Object.spared_rebuild

end Pruning

namespace Heap

variable {h : Heap} {v : Value}

/-- **Pruning again** under the same exclusion leaves out nothing more, and gives
    a value that differs in nothing but the places of its objects. -/
theorem prune_prune (hc : h.Closed) (hv : InHeap h v) (hx : x.Total) : ∃ copy copy',
    (h.prune v x).outcome = .ok copy ∧ (copy.heap.prune copy.value x).outcome = .ok copy' ∧
      copy.heap.Spares x copy.value ∧ copy'.heap.Isomorphic copy'.value copy.value ∧
      copy'.heap.deepEqual copy'.value copy.value = true ∧
      copy'.heap.deepEqual copy.value copy'.value = true := by
  obtain ⟨copy, log, c, hout, hvalue, ht, hcopies⟩ := exists_copies h v hx
  have hs := hcopies.staged ht hx hc hv
  obtain ⟨copy', d, hout', hvalue', hcopies', hold⟩ := hs.exists_copies hx
  have hiso := hcopies'.isomorphism (hcopies.extend hold) ht hc hv
  rw [← hvalue, ← hvalue'] at hiso
  refine ⟨copy, copy', hout, hvalue ▸ hout', hvalue ▸ hs.spares hx, ⟨_, hiso⟩, hiso.deepEqual⟩

/-- Two objects that hold each other, one of them twice, and an array that holds
    one of them. -/
def tangle : Heap :=
  ⟨#[.plain (.ofEntries .object
      [(.name "left", .object ⟨1⟩), (.name "right", .object ⟨1⟩), (.name "made", .null)]),
    .plain (.ofEntries .object [(.name "made", .object ⟨2⟩), (.name "owner", .object ⟨0⟩)]),
    .array [.object ⟨1⟩]]⟩

theorem prune_prune_tangle : tangle.Closed ∧ InHeap tangle (.object ⟨0⟩) ∧ nestedExcluded.Total ∧
    ∃ copy copy', (tangle.prune (.object ⟨0⟩) nestedExcluded).outcome = .ok copy ∧
      (copy.heap.prune copy.value nestedExcluded).outcome = .ok copy' ∧
      copy.heap.Spares nestedExcluded copy.value ∧
      copy'.heap.Isomorphic copy'.value copy.value ∧
      copy'.heap.deepEqual copy'.value copy.value = true ∧
      copy'.heap.deepEqual copy.value copy'.value = true := by
  have hc : tangle.Closed := by decide
  have hv : InHeap tangle (.object ⟨0⟩) := by decide
  have hx : nestedExcluded.Total := .withPredicate _ _
  exact ⟨hc, hv, hx, prune_prune hc hv hx⟩

/-! ## Two exclusions that decide by the key -/

/-- Pruning twice, in a heap that has grown, gives a copy of the source under the
    exclusion that keeps what both keep. -/
theorem exists_copies_twice {g : Heap} {log : List Event} (hc : h.Closed) (hv : InHeap h v)
    (hg : ∀ r, r.index < h.size → g.get? r = h.get? r) (hx₁ : x₁.Total) (hx₂ : x₂.Total)
    (ht : Traverses h x v log) (hkeeps : ∀ path₁ path, x.KeepsBoth x₁ x₂ path path₁ path) :
    ∃ copy copy' c, (g.prune v x₁).outcome = .ok copy ∧
      (copy.heap.prune copy.value x₂).outcome = .ok copy' ∧ copy'.value = image c v ∧
      Copies h x log c copy'.heap ∧
      ∀ r, r.index < g.size → copy'.heap.get? r = g.get? r := by
  obtain ⟨copy, log₁, c, hout, hvalue, ht₁, hcopies⟩ := exists_copies_grown hc hg hv hx₁
  have hs : Staged h x x₁ x₂ v log log₁ c copy.heap :=
    ⟨hc, hv, ht₁, hcopies.restrict hg fun r hm => ht₁.lt_size hm, ht,
      fun r path₁ path _ _ => hkeeps path₁ path⟩
  obtain ⟨copy', d, hout', hvalue', hcopies', hold⟩ := hs.exists_copies hx₂
  exact ⟨copy, copy', d, hout, hvalue ▸ hout', hvalue', hcopies', old_trans hcopies.old hold⟩

/-- **Pruning composes and commutes** for exclusions that decide by the key: it
    makes no difference but for the places of the copies whether a value is
    pruned under the one and then the other, the other way round, or at once
    under one that leaves out what either of them leaves out. -/
theorem prune_prune_comm (hc : h.Closed) (hv : InHeap h v) (hx : x.Total) (hx₁ : x₁.Total)
    (hx₂ : x₂.Total) (hk₁ : x₁.ByKey) (hk₂ : x₂.ByKey) (hj : x.Joins x₁ x₂) :
    ∃ l l' r r' b, (h.prune v x₁).outcome = .ok l ∧
      (l.heap.prune l.value x₂).outcome = .ok l' ∧
      (l'.heap.prune v x₂).outcome = .ok r ∧ (r.heap.prune r.value x₁).outcome = .ok r' ∧
      (r'.heap.prune v x).outcome = .ok b ∧ b.heap.Isomorphic l'.value r'.value ∧
      b.heap.Isomorphic r'.value b.value ∧ b.heap.Isomorphic l'.value b.value := by
  obtain ⟨-, log, -, ht, -⟩ := traverses_run (h := h) hx v
  obtain ⟨l, l', c, hl, hl', hlv, hlc, hlold⟩ := exists_copies_twice hc hv (fun _ _ => rfl) hx₁ hx₂
    ht (hj.keepsBoth hx hx₁ hx₂ hk₁)
  obtain ⟨r, r', d, hr, hr', hrv, hrc, hrold⟩ := exists_copies_twice hc hv hlold hx₂ hx₁
    ht (hj.symm.keepsBoth hx hx₂ hx₁ hk₂)
  have hold := old_trans hlold hrold
  obtain ⟨b, log', e, hb, hbv, htb, hbc⟩ := exists_copies_grown hc hold hv hx
  obtain rfl := htb.deterministic ht
  -- all three are copies of one value that leave out the same keys, in one heap
  have hlc' := (hlc.extend hrold).extend hbc.old
  have hrc' := hrc.extend hbc.old
  have hbc' := hbc.restrict hold fun r hm => htb.lt_size hm
  refine ⟨l, l', r, r', b, hl, hl', hr, hr', hb, ?_⟩
  rw [hlv, hrv, hbv]
  exact ⟨⟨_, hlc'.isomorphism hrc' htb hc hv⟩, ⟨_, hrc'.isomorphism hbc' htb hc hv⟩,
    ⟨_, hlc'.isomorphism hbc' htb hc hv⟩⟩

/-- Ignores one key. -/
def madeIgnored : Exclusion Empty := Exclusion.nothing.ignoreKey (.name "made")

/-- Leaves out another key wherever it occurs. -/
def ownerExcluded : Exclusion Empty :=
  Exclusion.nothing.withPredicate fun k _ => .ok (k == .name "owner")

/-- Leaves out both. -/
def madeAndOwnerExcluded : Exclusion Empty := ownerExcluded.ignoreKey (.name "made")

theorem prune_prune_comm_tangle : tangle.Closed ∧ InHeap tangle (.object ⟨0⟩) ∧
    madeAndOwnerExcluded.Total ∧ madeIgnored.Total ∧ ownerExcluded.Total ∧ madeIgnored.ByKey ∧
    ownerExcluded.ByKey ∧ madeAndOwnerExcluded.Joins madeIgnored ownerExcluded ∧
    ∃ l l' r r' b, (tangle.prune (.object ⟨0⟩) madeIgnored).outcome = .ok l ∧
      (l.heap.prune l.value ownerExcluded).outcome = .ok l' ∧
      (l'.heap.prune (.object ⟨0⟩) ownerExcluded).outcome = .ok r ∧
      (r.heap.prune r.value madeIgnored).outcome = .ok r' ∧
      (r'.heap.prune (.object ⟨0⟩) madeAndOwnerExcluded).outcome = .ok b ∧
      b.heap.Isomorphic l'.value r'.value ∧ b.heap.Isomorphic r'.value b.value ∧
      b.heap.Isomorphic l'.value b.value := by
  have hc : tangle.Closed := by decide
  have hv : InHeap tangle (.object ⟨0⟩) := by decide
  have hx₁ : madeIgnored.Total := Exclusion.Total.nothing.ignoreKey _
  have hx₂ : ownerExcluded.Total := .withPredicate _ _
  have hx : madeAndOwnerExcluded.Total := hx₂.ignoreKey _
  have hk₁ : madeIgnored.ByKey := by rintro p ⟨⟩
  have hk₂ : ownerExcluded.ByKey := by
    rintro p ⟨⟩ k path path'
    rfl
  have hj : madeAndOwnerExcluded.Joins madeIgnored ownerExcluded := by
    intro k path
    by_cases hk : k = .name "made" <;>
      simp [madeAndOwnerExcluded, madeIgnored, ownerExcluded, Exclusion.excludes,
        Exclusion.ignoreKey, Exclusion.nothing, Exclusion.withPredicate, hk]
  exact ⟨hc, hv, hx, hx₁, hx₂, hk₁, hk₂, hj, prune_prune_comm hc hv hx hx₁ hx₂ hk₁ hk₂ hj⟩

end Heap

end ValueGraph
