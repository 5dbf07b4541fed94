/-
  Maps and sets over values, in insertion order.

  Keys and elements are told apart by `Value.sameValueZero`.  Inserting under
  a known key keeps the first spelling of the key and its place and replaces
  the value.

  * `OrderedMap.get?`, `OrderedMap.insert` and `OrderedMap.ofEntries`;
  * `OrderedSet.contains`, `OrderedSet.insert` and `OrderedSet.ofItems`;
  * no two keys of a map and no two elements of a set are the same: the proof
    is part of the value.
-/
import ValueGraph.Value

namespace ValueGraph

/-- A map with its entries in insertion order. -/
structure OrderedMap where
  entries : List (Value × Value)
  distinct : entries.Pairwise fun a b => a.1.sameValueZero b.1 = false
deriving DecidableEq

namespace OrderedMap

/-- A map without entries. -/
def empty : OrderedMap := ⟨[], .nil⟩

/-- The entry under a key that is the same as `k`. -/
def find? (m : OrderedMap) (k : Value) : Option (Value × Value) :=
  m.entries.find? (·.1.sameValueZero k)

/-- The value under a key that is the same as `k`. -/
def get? (m : OrderedMap) (k : Value) : Option Value := (m.find? k).map Prod.snd

/-- Whether there is a key that is the same as `k`. -/
def contains (m : OrderedMap) (k : Value) : Bool := (m.find? k).isSome

/-- The entries after setting the value under `k`: in place of the one with
    that key, or at the end. -/
def insertIn (k v : Value) : List (Value × Value) → List (Value × Value)
  | [] => [(k, v)]
  | e :: es => if e.1.sameValueZero k then (e.1, v) :: es else e :: insertIn k v es

theorem mem_insertIn {k v : Value} {es : List (Value × Value)} {e : Value × Value}
    (h : e ∈ insertIn k v es) : e = (k, v) ∨ ∃ d ∈ es, d.1 = e.1 := by
  induction es with
  | nil => exact .inl (by simpa [insertIn] using h)
  | cons d es ih =>
    rw [insertIn] at h
    split at h
    · rcases List.mem_cons.1 h with rfl | h
      · exact .inr ⟨d, by simp, rfl⟩
      · exact .inr ⟨e, by simp [h], rfl⟩
    · rcases List.mem_cons.1 h with rfl | h
      · exact .inr ⟨e, by simp, rfl⟩
      · exact (ih h).imp_right fun ⟨d', hd, he⟩ => ⟨d', by simp [hd], he⟩

theorem distinct_insertIn (k v : Value) {es : List (Value × Value)}
    (h : es.Pairwise fun a b => a.1.sameValueZero b.1 = false) :
    (insertIn k v es).Pairwise fun a b => a.1.sameValueZero b.1 = false := by
  induction es with
  | nil => simp [insertIn]
  | cons d es ih =>
    obtain ⟨hd, hes⟩ := List.pairwise_cons.1 h
    rw [insertIn]
    split
    · exact List.pairwise_cons.2 ⟨hd, hes⟩
    next hk =>
      refine List.pairwise_cons.2 ⟨fun e he => ?_, ih hes⟩
      rcases mem_insertIn he with rfl | ⟨d', hd', he'⟩
      · simpa using hk
      · rw [← he']; exact hd d' hd'

/-- Sets the value under `k`; also gives the value it replaces. -/
def insert (m : OrderedMap) (k v : Value) : Option Value × OrderedMap :=
  (m.get? k, ⟨insertIn k v m.entries, distinct_insertIn k v m.distinct⟩)

/-- The map that inserting the entries in order gives. -/
def ofEntries (entries : List (Value × Value)) : OrderedMap :=
  entries.foldl (fun m e => (m.insert e.1 e.2).2) empty

end OrderedMap

/-- A set with its elements in insertion order. -/
structure OrderedSet where
  items : List Value
  distinct : items.Pairwise fun a b => a.sameValueZero b = false
deriving DecidableEq

namespace OrderedSet

/-- A set without elements. -/
def empty : OrderedSet := ⟨[], .nil⟩

/-- Whether an element is the same as `v`. -/
def contains (s : OrderedSet) (v : Value) : Bool := s.items.any (·.sameValueZero v)

/-- Adds an element at the end unless the same one is there; also says whether
    it was added. -/
def insert (s : OrderedSet) (v : Value) : Bool × OrderedSet :=
  if h : s.contains v then (false, s)
  else (true, ⟨s.items ++ [v], by
    refine List.pairwise_append.2 ⟨s.distinct, List.pairwise_singleton .., fun a ha b hb => ?_⟩
    simp only [contains, List.any_eq_true, not_exists, not_and] at h
    simpa [List.mem_singleton.1 hb] using h a ha⟩)

/-- The set that inserting the items in order gives. -/
def ofItems (items : List Value) : OrderedSet :=
  items.foldl (fun s v => (s.insert v).2) empty

end OrderedSet

end ValueGraph
