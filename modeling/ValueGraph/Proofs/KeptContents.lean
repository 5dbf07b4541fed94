/-
  What a traversal keeps.

  A traversal meets objects one from another: the first one is the value
  itself, and every other one is a kept part of an object met before.  What it
  keeps of an object is the object rebuilt with its own values, before any of
  them is replaced by a copy.

  * `Traverses.met_induction`: what holds of the first object and passes to the
    kept parts of the objects met holds of every object met;
  * `Kept`: what a traversal keeps of an object;
  * `Occurs`: the values that a traversal comes to; of the arrays and plain
    objects among them it has met all (`Traverses.met_of_occurs`), and the value
    reaches them (`Traverses.reaches_of_occurs`).
-/
import ValueGraph.Proofs.Opposition
import ValueGraph.Proofs.SeparateCopies

namespace ValueGraph

open Pruning

variable {ε : Type} {x : Exclusion ε}

theorem Exclusion.keeps_iff {k : Key} {path : KeyPath} :
    x.keeps k path = true ↔ x.excludes k path = .ok false := by
  rw [keeps]
  split
  next excluded he => simp [he]
  next reason he => simp [he]

/-! ## Rebuilt objects -/

namespace PlainObject

variable {p : PlainObject} {path : KeyPath} {v : Value}

theorem mem_values_rebuilt : v ∈ (p.rebuilt x id path).properties.map Property.value ↔
    ∃ k, (k, v) ∈ p.entries ∧ x.keeps k path = true := by
  have hget : v ∈ (p.rebuilt x id path).properties.map Property.value ↔
      ∃ k, (p.rebuilt x id path).get? k = some v := by
    simp only [get?_eq_some, List.mem_map]
    exact ⟨fun ⟨a, ha, hv⟩ => ⟨a.key, a, ha, rfl, hv⟩, fun ⟨_, a, ha, _, hv⟩ => ⟨a, ha, hv⟩⟩
  rw [hget]
  refine exists_congr fun k => ?_
  rw [get?_rebuilt, mem_entries]
  constructor
  · rintro ⟨hk, hkeep, u, hu, rfl⟩
    exact ⟨⟨hk, hu⟩, hkeep⟩
  · rintro ⟨⟨hk, hu⟩, hkeep⟩
    exact ⟨hk, hkeep, v, hu, rfl⟩

end PlainObject

namespace Object

variable {path : KeyPath} {o : Object} {v : Value}

/-- What is kept of an object holds the values of its kept parts. -/
theorem mem_held_rebuild (ho : o.isStructural = true) : v ∈ (rebuild x id path o).held ↔
    ∃ parts, o.parts? = some parts ∧ ∃ segment, (segment, v) ∈ parts ∧
      State.excludes x path segment = .ok false := by
  rcases (isStructural_iff o).1 ho with ⟨items, rfl⟩ | ⟨p, rfl, -⟩
  · simp only [rebuild, List.map_id, held, parts?, Option.some.injEq, exists_eq_left']
    constructor
    · intro hv
      obtain ⟨i, hi⟩ := List.mem_iff_getElem?.1 hv
      exact ⟨.index i, List.mem_map.2 ⟨(v, i), List.mem_zipIdx_iff_getElem?.2 hi, rfl⟩, rfl⟩
    · rintro ⟨segment, hmem, -⟩
      obtain ⟨⟨w, i⟩, hw, heq⟩ := List.mem_map.1 hmem
      cases heq
      exact List.mem_of_getElem? (List.mem_zipIdx_iff_getElem?.1 hw)
  · refine Iff.trans PlainObject.mem_values_rebuilt ?_
    simp only [parts?, ho, if_true, Option.some.injEq, exists_eq_left']
    constructor
    · rintro ⟨k, he, hkeep⟩
      exact ⟨.key k, List.mem_map.2 ⟨_, he, rfl⟩, Exclusion.keeps_iff.1 hkeep⟩
    · rintro ⟨segment, hmem, hkeep⟩
      obtain ⟨⟨k, w⟩, he, heq⟩ := List.mem_map.1 hmem
      cases heq
      exact ⟨k, he, Exclusion.keeps_iff.2 hkeep⟩

end Object

namespace Pruning

variable {h : Heap} {path : KeyPath} {parts : List (Segment × Value)} {log log' : List Event}
  {v w : Value} {r s : Ref}

/-! ## Where objects are met -/

/-- Every object that a visit meets is a kept part of what is visited or of an
    object met. -/
theorem Visits.origin (hv : Visits h x path parts log log') : ∀ s p, .met s p ∈ log' →
    .met s p ∈ log ∨ (∃ segment, Leads h x path parts segment s ∧ p = path.step segment) ∨
      ∃ r q ps segment, .met r q ∈ log' ∧ h.parts? r = some ps ∧ Leads h x q ps segment s ∧
        p = q.step segment := by
  have hwiden : ∀ {path : KeyPath} {part rest} {s : Ref} {p : KeyPath},
      (∃ segment, Leads h x path rest segment s ∧ p = path.step segment) →
        ∃ segment, Leads h x path (part :: rest) segment s ∧ p = path.step segment :=
    fun ⟨segment, ⟨hl, hk⟩, hp⟩ => ⟨segment, ⟨List.mem_cons_of_mem _ hl, hk⟩, hp⟩
  induction hv with
  | nil => exact fun s p hm => Or.inl hm
  | skip _ _ ih =>
    exact fun s p hm => (ih s p hm).imp mem_questions_append.1 (Or.imp_left hwiden)
  | stop _ _ _ ih =>
    exact fun s p hm => (ih s p hm).imp mem_questions_append.1 (Or.imp_left hwiden)
  | @enter path segment r ps rest log log₁ log' he hp _ hin hrest ih₁ ih₂ =>
    intro s p hm
    rcases ih₂ s p hm with hm | hl | hr
    · rcases ih₁ s p hm with hm | ⟨segment', hl, rfl⟩ | ⟨r', q, ps', segment', hm', hr⟩
      · rcases List.mem_cons.1 hm with hm | hm
        · cases hm
          exact Or.inr (Or.inl ⟨segment, ⟨by simp, he, by simp [hp]⟩, rfl⟩)
        · exact Or.inl (mem_questions_append.1 hm)
      · have hmet : Event.met r (path.step segment) ∈ log' :=
          hrest.subset (hin.subset (List.mem_cons_self ..))
        exact Or.inr (Or.inr ⟨r, _, ps, segment', hmet, hp, hl, rfl⟩)
      · exact Or.inr (Or.inr ⟨r', q, ps', segment', hrest.subset hm', hr⟩)
    · exact Or.inr (Or.inl (hwiden hl))
    · exact Or.inr (Or.inr hr)

theorem Traverses.origin (ht : Traverses h x v log) (hm : .met s path ∈ log) :
    (v = .object s ∧ path = .root) ∨ ∃ r q ps segment, .met r q ∈ log ∧ h.parts? r = some ps ∧
      Leads h x q ps segment s ∧ path = q.step segment := by
  cases ht with
  | stop => simp at hm
  | @enter r₀ ps₀ log hp hv =>
    rcases hv.origin s path hm with hm | ⟨segment, hl, rfl⟩ | hr
    · obtain ⟨rfl, rfl⟩ : s = r₀ ∧ path = .root := by simpa using hm
      exact Or.inl ⟨rfl, rfl⟩
    · exact Or.inr ⟨r₀, .root, ps₀, segment, hv.subset (List.mem_cons_self ..), hp, hl, rfl⟩
    · exact Or.inr hr

/-- An object is met by one path only. -/
theorem Traverses.path_unique (ht : Traverses h x v log) (hx : x.Total) {path' : KeyPath}
    (hm : .met r path ∈ log) (hm' : .met r path' ∈ log) : path = path' := by
  obtain ⟨t, log', -, ht', hb⟩ := traverses_run (h := h) hx v
  obtain rfl := ht.deterministic ht'
  rw [← mem_met, ← hb.met] at hm hm'
  exact hb.numbered.path_unique hm hm'

/-- **Induction over the objects met**, along the paths by which they were
    met. -/
theorem Traverses.met_induction {P : Ref → KeyPath → Prop} (ht : Traverses h x v log)
    (root : ∀ r, v = .object r → .met r .root ∈ log → P r .root)
    (step : ∀ r q ps segment s, .met r q ∈ log → P r q → h.parts? r = some ps →
      Leads h x q ps segment s → .met s (q.step segment) ∈ log → P s (q.step segment)) :
    ∀ path r, .met r path ∈ log → P r path := by
  intro path
  induction path with
  | root =>
    intro r hm
    rcases ht.origin hm with ⟨hv, -⟩ | ⟨_, _, _, _, _, _, _, he⟩
    · exact root r hv hm
    · cases he
  | step q segment ih =>
    intro s hm
    rcases ht.origin hm with ⟨-, he⟩ | ⟨r, q', ps, segment', hm', hp, hl, he⟩
    · cases he
    · cases he
      exact step r q ps segment s hm' (ih r hm') hp hl hm

/-! ## Kept contents -/

/-- What a traversal keeps of an object that it has met: its elements, or its
    kept properties, with the values that it holds itself. -/
def Kept (h : Heap) (x : Exclusion ε) (log : List Event) (r : Ref) (p : Object) : Prop :=
  ∃ path o, .met r path ∈ log ∧ h.get? r = some o ∧ p = rebuild x id path o

/-- The values that a traversal comes to: the value itself, and what is kept of
    the objects met. -/
def Occurs (h : Heap) (x : Exclusion ε) (log : List Event) (v w : Value) : Prop :=
  w = v ∨ ∃ r p, Kept h x log r p ∧ w ∈ p.held

/-- The value is not among the objects met, so that no copy stands for it. -/
def Uncopied (log : List Event) (v : Value) : Prop := ∀ r, v = .object r → ¬Met log r

section
variable (ht : Traverses h x v log)
include ht

theorem Traverses.structural (hm : Met log r) : h.Structural r :=
  Heap.parts?_isSome.1 (ht.isSome_parts? hm)

theorem Traverses.exists_kept (hm : Met log r) : ∃ p, Kept h x log r p := by
  obtain ⟨o, ho, -⟩ := ht.structural hm
  obtain ⟨path, hm⟩ := hm
  exact ⟨_, path, o, hm, ho, rfl⟩

theorem Traverses.part_of_kept {p : Object} (hk : Kept h x log r p) (hw : w ∈ p.held) :
    ∃ path parts segment, .met r path ∈ log ∧ h.parts? r = some parts ∧ (segment, w) ∈ parts ∧
      State.excludes x path segment = .ok false := by
  obtain ⟨path, o, hm, ho, rfl⟩ := hk
  have hs := (ht.structural ⟨path, hm⟩).isStructural ho
  obtain ⟨parts, hp, segment, hmem, hkeep⟩ := (Object.mem_held_rebuild hs).1 hw
  exact ⟨path, parts, segment, hm, by rw [Heap.parts?, ho, Option.bind_some, hp], hmem, hkeep⟩

/-- Of the objects that a traversal comes to, the arrays and plain objects are
    met. -/
theorem Traverses.met_of_occurs (ho : Occurs h x log v (.object r)) (hr : h.Structural r) :
    Met log r := by
  rcases ho with he | ⟨s, p, hk, hw⟩
  · exact ht.exhausts.root r he.symm (Heap.parts?_isSome.2 hr)
  · obtain ⟨path, parts, segment, hm, hp, hmem, hkeep⟩ := ht.part_of_kept hk hw
    exact ht.exhausts.parts s path parts hm hp segment r ⟨hmem, hkeep, Heap.parts?_isSome.2 hr⟩

theorem Traverses.reaches_of_met (hm : Met log r) : h.Reaches v (.object r) := by
  obtain ⟨path, hm⟩ := hm
  refine ht.met_induction (P := fun r _ => h.Reaches v (.object r))
    (fun r hr _ => hr ▸ .refl) ?_
    path r hm
  intro r q ps segment s _ ih hp hl _
  obtain ⟨o, ho, hop⟩ := Option.bind_eq_some_iff.1 hp
  exact .step ih ho (Object.held_of_parts? hop hl.1)

/-- A traversal comes to nothing that the value does not reach. -/
theorem Traverses.reaches_of_occurs (ho : Occurs h x log v w) : h.Reaches v w := by
  rcases ho with rfl | ⟨s, p, hk, hw⟩
  · exact .refl
  · obtain ⟨path, parts, segment, hm, hp, hmem, -⟩ := ht.part_of_kept hk hw
    obtain ⟨o, ho, hop⟩ := Option.bind_eq_some_iff.1 hp
    exact .step (ht.reaches_of_met ⟨path, hm⟩) ho (Object.held_of_parts? hop hmem)

theorem Traverses.inHeap_of_occurs (hc : h.Closed) (hv : InHeap h v) (ho : Occurs h x log v w) :
    InHeap h w := by
  rcases ho with rfl | ⟨s, p, hk, hw⟩
  · exact hv
  · obtain ⟨path, parts, segment, -, hp, hmem, -⟩ := ht.part_of_kept hk hw
    exact hc.parts hp _ hmem

end

end Pruning

end ValueGraph
