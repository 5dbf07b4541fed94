/-
  Heaps: the objects that references lead to.

  A heap holds finitely many objects; the reference to an object is its place,
  so an object keeps its reference for ever and new objects get new ones.

  * `Heap.get?`, `Heap.alloc` and `Heap.set` read, add and replace objects;
  * `IdentityMap` is a table keyed by object: the first entry for an object
    stays, and `IdentityMap.vacant` counts the objects without one.
-/
import ValueGraph.Object

namespace ValueGraph

/-! ## Heaps -/

/-- The objects of a graph, each at the place that its reference names. -/
structure Heap where
  objects : Array Object

namespace Heap

/-- A heap without objects. -/
def empty : Heap := ⟨#[]⟩

/-- The number of objects. -/
def size (h : Heap) : Nat := h.objects.size

/-- The object that a reference leads to. -/
def get? (h : Heap) (r : Ref) : Option Object := h.objects[r.index]?

/-- The reference that the next new object gets. -/
def next (h : Heap) : Ref := ⟨h.size⟩

/-- Adds an object; its reference is `h.next`. -/
def alloc (h : Heap) (o : Object) : Heap := ⟨h.objects.push o⟩

/-- Replaces the object at a reference. -/
def set (h : Heap) (r : Ref) (o : Object) : Heap := ⟨h.objects.setIfInBounds r.index o⟩

theorem size_alloc (h : Heap) (o : Object) : (h.alloc o).size = h.size + 1 := by
  simp [size, alloc]

theorem lt_of_get? {h : Heap} {r : Ref} {o : Object} (ho : h.get? r = some o) :
    r.index < h.size := by
  rw [get?, Array.getElem?_eq_some_iff] at ho
  exact ho.1

theorem get?_alloc_next (h : Heap) (o : Object) : (h.alloc o).get? h.next = some o := by
  simp [get?, alloc, next, size]

theorem get?_alloc_of_lt {h : Heap} {o : Object} {r : Ref} (hr : r.index < h.size) :
    (h.alloc o).get? r = h.get? r := by
  simp only [size] at hr
  simp [get?, alloc, Array.getElem?_push_lt hr, hr]

end Heap

/-! ## Tables keyed by object -/

/-- A table with at most one entry per object of a heap of `n` objects. -/
structure IdentityMap (n : Nat) (α : Type) where
  slots : Vector (Option α) n

namespace IdentityMap

variable {n : Nat} {α : Type}

/-- A table without entries. -/
def empty (n : Nat) (α : Type) : IdentityMap n α := ⟨Vector.replicate n none⟩

/-- The entry of an object. -/
def get? (t : IdentityMap n α) (r : Ref) : Option α := t.slots[r.index]?.join

/-- Makes an entry for an object; an entry that is there stays. -/
def record (t : IdentityMap n α) (r : Ref) (a : α) : IdentityMap n α :=
  if (t.get? r).isSome then t else ⟨t.slots.setIfInBounds r.index (some a)⟩

/-- The number of objects that have no entry yet. -/
def vacant (t : IdentityMap n α) : Nat := t.slots.countP Option.isNone

theorem get?_empty (r : Ref) : (empty n α).get? r = none := by
  simp only [get?, empty, Vector.getElem?_replicate]
  split <;> rfl

theorem get?_record (t : IdentityMap n α) (r s : Ref) (a : α) :
    (t.record r a).get? s =
      if r = s ∧ t.get? r = none ∧ r.index < n then some a else t.get? s := by
  rw [record]
  cases h : t.get? r with
  | some b => simp
  | none =>
    simp only [Option.isSome_none, Bool.false_eq_true, if_false, get?,
      Vector.getElem?_setIfInBounds, true_and]
    have hrs : r = s ↔ r.index = s.index := by cases r; cases s; simp
    by_cases hi : r.index = s.index
    · by_cases hlt : r.index < n <;> simp [hi, hrs, hi ▸ hlt]
    · simp [hi, hrs]

/-- Making an entry for an object without one leaves fewer of them. -/
theorem vacant_record {t : IdentityMap n α} {r : Ref} {a : α} (hr : r.index < n)
    (hn : t.get? r = none) : (t.record r a).vacant < t.vacant := by
  have hslot : t.slots[r.index] = none := by simpa [get?, hr] using hn
  have hpos : 0 < t.slots.countP Option.isNone :=
    Vector.countP_pos_iff.2 ⟨_, Vector.getElem_mem hr, by simp [hslot]⟩
  have hset : t.slots.setIfInBounds r.index (some a) = t.slots.set r.index (some a) :=
    Vector.ext fun i hi => by simp [Vector.getElem_setIfInBounds, Vector.getElem_set]
  simp only [record, hn, vacant, Option.isSome_none, Bool.false_eq_true, if_false, hset,
    Vector.countP_set, hslot, Option.isNone_none, Option.isNone_some, if_true]
  omega

end IdentityMap

end ValueGraph
