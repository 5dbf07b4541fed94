/-
  How much of a heap a value reaches.

  A traversal that keeps a table of the objects it has met goes into an object
  only if the table has no entry for it, and makes the entry first.  So with
  every object that it goes into there are fewer objects ahead of it, and no
  more objects lie within each other than the value reaches.

  * `IdentityMap.Grows`: entries stay;
  * `Heap.unmet`: the objects that a value reaches and a table does not have;
  * `Heap.extent`: how many objects a value reaches;
  * `Heap.ncard_unmet_lt`: there are fewer of them below an object with an
    entry.
-/
import ValueGraph.Proofs.ClosedHeaps
import Mathlib.Order.Interval.Set.Nat

namespace ValueGraph

/-! ## Growing tables -/

namespace IdentityMap

variable {n : Nat} {α : Type} {t t' t'' : IdentityMap n α}

/-- The entries of the first table are entries of the second one. -/
def Grows (t t' : IdentityMap n α) : Prop := ∀ r a, t.get? r = some a → t'.get? r = some a

theorem Grows.refl (t : IdentityMap n α) : t.Grows t := fun _ _ ht => ht

theorem Grows.trans (ht : t.Grows t') (ht' : t'.Grows t'') : t.Grows t'' :=
  fun r a ha => ht' r a (ht r a ha)

theorem grows_record (t : IdentityMap n α) (r : Ref) (a : α) : t.Grows (t.record r a) := by
  intro s b hs
  rw [get?_record, if_neg]
  · exact hs
  · rintro ⟨rfl, hnone, -⟩
    rw [hnone] at hs
    cases hs

theorem get?_record_self {r : Ref} {a : α} (hr : r.index < n) (hn : t.get? r = none) :
    (t.record r a).get? r = some a := by
  rw [get?_record, if_pos ⟨rfl, hn, hr⟩]

end IdentityMap

/-! ## Objects ahead -/

namespace Heap

variable {α : Type} {h : Heap} {t t' : IdentityMap h.size α} {r : Ref} {o : Object} {v w u : Value}

theorem Reaches.head (ho : h.get? r = some o) (hw : w ∈ o.held) (hu : h.Reaches w u) :
    h.Reaches (.object r) u := by
  induction hu with
  | refl => exact .step .refl ho hw
  | step _ ho' hu ih => exact .step ih ho' hu

/-- The objects of the heap that a value reaches and that have no entry. -/
def unmet (h : Heap) (t : IdentityMap h.size α) (v : Value) : Set Ref :=
  {r | r.index < h.size ∧ h.Reaches v (.object r) ∧ t.get? r = none}

/-- **The extent** of a value: how many different objects it reaches. -/
noncomputable def extent (h : Heap) (v : Value) : Nat :=
  {r : Ref | r.index < h.size ∧ h.Reaches v (.object r)}.ncard

theorem finite_refs (n : Nat) : {r : Ref | r.index < n}.Finite :=
  ((Set.finite_lt_nat n).image Ref.mk).subset fun r hr => ⟨r.index, hr, rfl⟩

theorem unmet_empty (h : Heap) (v : Value) :
    (h.unmet (.empty h.size α) v).ncard = h.extent v := by
  simp only [unmet, extent, IdentityMap.get?_empty, and_true]

/-- A value reaches no more objects than there are. -/
theorem extent_le_size (h : Heap) (v : Value) : h.extent v ≤ h.size := by
  have hsub : {r : Ref | r.index < h.size ∧ h.Reaches v (.object r)} ⊆
      Ref.mk '' Set.Iio h.size := fun r hr => ⟨r.index, hr.1, rfl⟩
  have himage : (Ref.mk '' Set.Iio h.size).ncard ≤ (Set.Iio h.size).ncard :=
    Set.ncard_image_le (Set.finite_lt_nat h.size)
  rw [Set.ncard_Iio_nat] at himage
  exact (Set.ncard_le_ncard hsub ((Set.finite_lt_nat h.size).image _)).trans himage

/-- **Below an object** with an entry fewer objects are ahead than at an object
    without one. -/
theorem ncard_unmet_lt {a : α} (hr : t.get? r = none) (ho : h.get? r = some o) (hw : w ∈ o.held)
    (hgrows : (t.record r a).Grows t') :
    (h.unmet t' w).ncard < (h.unmet t (.object r)).ncard := by
  have hlt : r.index < h.size := lt_of_get? ho
  refine Set.ncard_lt_ncard ⟨?_, ?_⟩ ((finite_refs h.size).subset fun s hs => hs.1)
  · rintro s ⟨hs, hreach, hnone⟩
    refine ⟨hs, hreach.head ho hw, ?_⟩
    by_contra hne
    obtain ⟨b, hb⟩ := Option.ne_none_iff_exists'.1 hne
    rw [(t.grows_record r a).trans hgrows s b hb] at hnone
    cases hnone
  · intro hsub
    obtain ⟨-, -, hnone⟩ := hsub ⟨hlt, .refl, hr⟩
    rw [hgrows r a (IdentityMap.get?_record_self hlt hr)] at hnone
    cases hnone

end Heap

end ValueGraph
