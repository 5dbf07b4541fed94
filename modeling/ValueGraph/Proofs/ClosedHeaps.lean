/-
  Heaps in which every reference leads to an object, and what grows beside
  them.

  References are handed out with the objects that they lead to, so no heap
  comes about in which an object holds a reference that leads nowhere.

  * `Object.held`: the values that an object holds;
  * `Heap.Reaches`: what a value leads to;
  * `Heap.Closed`: the references held lead to objects; this stays so when an
    object is replaced (`Closed.set`);
  * `Pruning.Traverses.grow`: a traversal of a closed heap does not see what is
    added to the heap later.
-/
import ValueGraph.Proofs.Copying

namespace ValueGraph

open Pruning

/-! ## Closed heaps -/

/-- The values that an object holds: elements, values of properties, keys and
    values of a map. -/
def Object.held : Object → List Value
  | array items => items
  | plain p => p.properties.map Property.value
  | map m => m.entries.map Prod.fst ++ m.entries.map Prod.snd
  | set s => s.items
  | _ => []

instance (h : Heap) (v : Value) : Decidable (InHeap h v) :=
  decidable_of_iff (v.ref?.all fun r => r.index < h.size)
    (by cases v <;> simp [InHeap, Value.ref?])

/-- Every reference that an object holds leads to an object. -/
def Heap.Closed (h : Heap) : Prop := ∀ o ∈ h.objects, ∀ v ∈ o.held, InHeap h v

instance (h : Heap) : Decidable h.Closed :=
  inferInstanceAs (Decidable (∀ o ∈ h.objects, ∀ v ∈ o.held, InHeap h v))

variable {ε : Type} {x : Exclusion ε} {h g : Heap}

theorem Heap.exists_get? {r : Ref} (hr : r.index < h.size) : ∃ o, h.get? r = some o :=
  ⟨h.objects[r.index], Array.getElem?_eq_some_iff.2 ⟨hr, rfl⟩⟩

theorem Object.held_of_parts? {o : Object} {parts : List (Segment × Value)}
    {part : Segment × Value} (hop : o.parts? = some parts) (hpart : part ∈ parts) :
    part.2 ∈ o.held := by
  cases o with
  | array items =>
    cases hop
    obtain ⟨⟨v, i⟩, hv, rfl⟩ := List.mem_map.1 hpart
    exact List.mem_of_getElem? (List.mem_zipIdx_iff_getElem?.1 hv)
  | plain p =>
    rw [Object.parts?] at hop
    split at hop
    next =>
      cases hop
      obtain ⟨⟨k, v⟩, he, rfl⟩ := List.mem_map.1 hpart
      obtain ⟨a, ha, -, rfl⟩ := PlainObject.get?_eq_some.1 (PlainObject.mem_entries.1 he).2
      exact List.mem_map.2 ⟨a, ha, rfl⟩
    next => simp at hop
  | _ => simp [Object.parts?] at hop

namespace Heap.Closed

theorem held (hc : h.Closed) {r : Ref} {o : Object} (ho : h.get? r = some o) :
    ∀ v ∈ o.held, InHeap h v :=
  hc o (Array.mem_of_getElem? ho)

theorem parts (hc : h.Closed) {r : Ref} {parts : List (Segment × Value)}
    (hp : h.parts? r = some parts) : ∀ part ∈ parts, InHeap h part.2 := by
  obtain ⟨o, ho, hop⟩ := Option.bind_eq_some_iff.1 hp
  exact fun part hpart => hc.held ho part.2 (Object.held_of_parts? hop hpart)

theorem set (hc : h.Closed) {r : Ref} {o : Object} (ho : ∀ v ∈ o.held, InHeap h v) :
    (h.set r o).Closed := by
  have hsize : (h.set r o).size = h.size := Array.size_setIfInBounds
  intro p hp v hv s hs
  rw [hsize]
  rcases Array.mem_or_eq_of_mem_setIfInBounds hp with hp | rfl
  · exact hc p hp v hv s hs
  · exact ho v hv s hs

end Heap.Closed

/-! ## Reachability -/

namespace Heap

/-- What a value leads to: itself, and what the objects on the way hold. -/
inductive Reaches (h : Heap) (v : Value) : Value → Prop
  | refl : Reaches h v v
  | step {r : Ref} {o : Object} {w : Value} : Reaches h v (.object r) → h.get? r = some o →
      w ∈ o.held → Reaches h v w

variable {v : Value}

/-- What holds of an object, if the value is one, and passes from objects to
    those that they hold, holds of all objects that the value reaches. -/
theorem Reaches.closed {P : Ref → Prop} {r : Ref} (hvr : h.Reaches v (.object r))
    (hv : ∀ s, v = .object s → P s)
    (hstep : ∀ s o, P s → h.get? s = some o → ∀ t, .object t ∈ o.held → P t) : P r := by
  have hall : ∀ w, h.Reaches v w → ∀ s, w = .object s → P s := by
    intro w hw
    induction hw with
    | refl => exact hv
    | step _ ho hmem ih =>
      rintro s rfl
      exact hstep _ _ (ih _ rfl) ho s hmem
  exact hall _ hvr r rfl

/-- What is added to a closed heap is not reached from old values. -/
theorem Reaches.shrink {w : Value} (hg : ∀ r, r.index < h.size → g.get? r = h.get? r)
    (hc : h.Closed) (hv : InHeap h v) (hvw : g.Reaches v w) : h.Reaches v w ∧ InHeap h w := by
  induction hvw with
  | refl => exact ⟨.refl, hv⟩
  | step _ ho hw ih =>
    rw [hg _ (ih.2 _ rfl)] at ho
    exact ⟨.step ih.1 ho hw, hc.held ho _ hw⟩

end Heap

/-! ## Traversals while the heap grows -/

namespace Pruning

variable {path : KeyPath} {parts : List (Segment × Value)} {log log' : List Event} {v : Value}

/-- Objects met have parts. -/
theorem Traverses.isSome_parts? (ht : Traverses h x v log) {r : Ref} (hm : Met log r) :
    (h.parts? r).isSome = true := by
  obtain ⟨path, hm⟩ := hm
  cases ht with
  | stop => simp at hm
  | @enter r₀ parts log hp hv =>
    refine hv.forall_met (P := fun r _ => (h.parts? r).isSome = true)
      (fun _ _ _ _ _ segment s hl => hl.2.2) (fun s path hs => ?_)
      (fun segment s hl => hl.2.2) r path hm
    obtain ⟨rfl, -⟩ : s = r₀ ∧ path = .root := by simpa using hs
    rw [hp]
    rfl

theorem Traverses.lt_size (ht : Traverses h x v log) {r : Ref} (hm : Met log r) :
    r.index < h.size := by
  obtain ⟨parts, hp⟩ := Option.isSome_iff_exists.1 (ht.isSome_parts? hm)
  exact lt_of_parts? hp

section
variable (hg : ∀ r, r.index < h.size → g.get? r = h.get? r)
include hg

theorem parts?_grow {r : Ref} (hr : r.index < h.size) : g.parts? r = h.parts? r := by
  rw [Heap.parts?, Heap.parts?, hg r hr]

theorem Visits.grow (hc : h.Closed) (hv : Visits h x path parts log log') :
    (∀ part ∈ parts, InHeap h part.2) → Visits g x path parts log log' := by
  induction hv with
  | nil path log => exact fun _ => .nil path log
  | skip he _ ih => exact fun hin => .skip he (ih fun part hp => hin part (.tail _ hp))
  | @stop path segment v rest log log' he hs _ ih =>
    refine fun hin => .stop he (fun r hr => ?_) (ih fun part hp => hin part (.tail _ hp))
    rw [parts?_grow hg (hin (segment, v) (.head _) r hr)]
    exact hs r hr
  | enter he hp hn _ _ ih₁ ih₂ =>
    refine fun hin => .enter he ?_ hn (ih₁ (hc.parts hp)) (ih₂ fun part hp => hin part (.tail _ hp))
    rw [parts?_grow hg (lt_of_parts? hp), hp]

/-- **What is added to a closed heap** leaves its traversals as they are. -/
theorem Traverses.grow (hc : h.Closed) (hv : InHeap h v) (ht : Traverses h x v log) :
    Traverses g x v log := by
  cases ht with
  | stop hs =>
    refine .stop fun r hr => ?_
    rw [parts?_grow hg (hv r hr)]
    exact hs r hr
  | enter hp hvs =>
    exact .enter ((parts?_grow hg (lt_of_parts? hp)).trans hp) (hvs.grow hg hc (hc.parts hp))

end

end Pruning

end ValueGraph
