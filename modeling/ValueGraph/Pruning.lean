/-
  Pruned copies: a value without the excluded keys.

  Arrays and plain objects are rebuilt, everything else is shared.  An object
  is rebuilt once, however often it occurs, so the copy has the sharing and
  the cycles of what is kept.

  * `Pruning.State` is the depth-first walk over the source, with one frame
    per object whose parts are being visited.  It finds the objects to
    rebuild, each with the path by which it was met first, and asks the
    predicate on the way;
  * `State.next` visits one part, and `State.next_lt` says that every part
    brings the end nearer;
  * `Heap.prune` rebuilds what the walk has found: the copy of the `i`-th
    object lies `i` places after the end of the heap;
  * `Heap.deepEqualExcept` compares two values without the excluded keys.
-/
import ValueGraph.Comparison
import ValueGraph.Exclusion

namespace ValueGraph

/-- The parts of an object that traversals look into, in order, each with the
    step that leads to it; nothing if the object is a unit. -/
def Object.parts? (o : Object) : Option (List (Segment × Value)) :=
  match o with
  | array items => some (items.zipIdx.map fun part => (.index part.2, part.1))
  | plain p =>
    if (plain p).isStructural then some (p.entries.map fun e => (.key e.1, e.2)) else none
  | _ => none

/-- `Object.parts?` for the object that a reference leads to. -/
def Heap.parts? (h : Heap) (r : Ref) : Option (List (Segment × Value)) :=
  (h.get? r).bind Object.parts?

namespace Pruning

/-! ## The walk -/

/-- An object whose parts are being visited: its path and the parts left. -/
structure Frame where
  path : KeyPath
  rest : List (Segment × Value)

/-- A walk over a graph with `n` objects. -/
structure State (n : Nat) where
  /-- For each object met, how many were met before it. -/
  place : IdentityMap n Nat
  /-- The objects met and the paths that led to them, the latest first. -/
  met : List (Ref × KeyPath)
  /-- The questions put to the predicate, the latest first. -/
  asked : List (Key × KeyPath)
  /-- The objects whose parts are being visited, the innermost first. -/
  frames : List Frame

/-- What one part leads to. -/
inductive Progress (ε : Type) (n : Nat) where
  | finished (s : State n)
  | rejected (reason : ε) (s : State n)
  | running (s : State n)

variable {ε : Type}

namespace State

/-- Meets the value at a path: an object with parts that has not been met
    before gets the next place, and its parts come next. -/
def visit {h : Heap} (s : State h.size) (v : Value) (path : KeyPath) : State h.size :=
  match v with
  | .object r =>
    match s.place.get? r, h.parts? r with
    | none, some parts =>
      { s with
        place := s.place.record r s.met.length
        met := (r, path) :: s.met
        frames := ⟨path, parts⟩ :: s.frames }
    | _, _ => s
  | _ => s

/-- The walk that starts at `v`. -/
def start (h : Heap) (v : Value) : State h.size :=
  visit (h := h) ⟨.empty h.size Nat, [], [], []⟩ v .root

/-- Notes the question about a part if the predicate decides it. -/
def ask {n : Nat} (s : State n) (x : Exclusion ε) (path : KeyPath) : Segment → State n
  | .key k => if x.asks k then { s with asked := (k, path) :: s.asked } else s
  | .index _ => s

/-- Whether a part is left out.  Array elements never are. -/
def excludes (x : Exclusion ε) (path : KeyPath) : Segment → Except ε Bool
  | .key k => x.excludes k path
  | .index _ => .ok false

/-- Visits the next part. -/
def next {h : Heap} (x : Exclusion ε) (s : State h.size) : Progress ε h.size :=
  match s.frames with
  | [] => .finished s
  | ⟨_, []⟩ :: frames => .running { s with frames }
  | ⟨path, (segment, v) :: rest⟩ :: frames =>
    let s := { s.ask x path segment with frames := ⟨path, rest⟩ :: frames }
    match excludes x path segment with
    | .error reason => .rejected reason s
    | .ok true => .running s
    | .ok false => .running (s.visit v (path.step segment))

/-- The parts and frames that are left. -/
def pending {n : Nat} (s : State n) : Nat :=
  s.frames.foldr (fun frame n => frame.rest.length + 1 + n) 0

end State

theorem lt_of_parts? {h : Heap} {r : Ref} {parts : List (Segment × Value)}
    (hp : h.parts? r = some parts) : r.index < h.size := by
  obtain ⟨o, ho, _⟩ := Option.bind_eq_some_iff.1 hp
  exact Heap.lt_of_get? ho

theorem State.visit_le {h : Heap} (s : State h.size) (v : Value) (path : KeyPath) :
    s.visit (h := h) v path = s ∨ (s.visit (h := h) v path).place.vacant < s.place.vacant := by
  unfold State.visit
  split
  next r =>
    split
    next parts hr hp => exact .inr (IdentityMap.vacant_record (lt_of_parts? hp) hr)
    next => exact .inl rfl
  next => exact .inl rfl

theorem State.place_ask {n : Nat} (s : State n) (x : Exclusion ε) (path : KeyPath)
    (segment : Segment) : (s.ask x path segment).place = s.place := by
  cases segment <;> simp only [State.ask]
  split <;> rfl

/-- Each part meets one more object or leaves fewer parts. -/
theorem State.next_lt {h : Heap} {x : Exclusion ε} {s t : State h.size}
    (hs : s.next x = .running t) :
    Prod.Lex (· < ·) (· < ·) (t.place.vacant, t.pending) (s.place.vacant, s.pending) := by
  rw [State.next] at hs
  split at hs
  next => simp at hs
  next path frames hf =>
    cases hs
    exact .right _ (by simp [pending, hf])
  next path segment v rest frames hf =>
    dsimp only at hs
    split at hs
    next => simp at hs
    next =>
      cases hs
      simp only [place_ask]
      exact .right _ (by simp [pending, hf])
    next =>
      cases hs
      rcases visit_le (h := h) { s.ask x path segment with frames := ⟨path, rest⟩ :: frames } v
        (path.step segment) with he | hlt
      · rw [he]
        simp only [place_ask]
        exact .right _ (by simp [pending, hf])
      · exact .left _ _ (by simpa only [place_ask] using hlt)

/-- Visits all parts that are left; also gives the reason of a rejection. -/
def State.run {h : Heap} (x : Exclusion ε) (s : State h.size) : Option ε × State h.size :=
  match _hs : s.next x with
  | .finished t => (none, t)
  | .rejected reason t => (some reason, t)
  | .running t => t.run x
termination_by (s.place.vacant, s.pending)
decreasing_by exact next_lt _hs

/-! ## Rebuilding -/

/-- The value that stands for `v` among the copies, which start at `base`. -/
def relocate {n : Nat} (base : Nat) (place : IdentityMap n Nat) : Value → Value
  | .object r =>
    match place.get? r with
    | some i => .object ⟨base + i⟩
    | none => .object r
  | v => v

/-- The copy of an object met at `path`: the same elements, or the same
    prototype and the kept properties, all enumerable. -/
def rebuild (x : Exclusion ε) (relocate : Value → Value) (path : KeyPath) : Object → Object
  | .array items => .array (items.map relocate)
  | .plain p =>
    .plain (.ofEntries p.prototype
      ((p.entries.filter fun e => x.keeps e.1 path).map fun e => (e.1, relocate e.2)))
  | o => o

/-- A value in a heap of its own. -/
structure Copy where
  heap : Heap
  value : Value

/-- A traversal's questions to the predicate, in order, and what came of it:
    an `α`, or the reason of a rejection. -/
structure Traced (ε α : Type) where
  questions : List (Key × KeyPath)
  outcome : Except ε α

end Pruning

open Pruning

namespace Heap

variable {ε : Type}

/-- The copies of the objects that a walk has met, in the order of their
    places. -/
def copies (h : Heap) (x : Exclusion ε) (s : Pruning.State h.size) : List Object :=
  s.met.reverse.filterMap fun visit =>
    (h.get? visit.1).map (rebuild x (relocate h.size s.place) visit.2)

/-- A copy of `v` without the excluded keys, in the heap extended by the
    copies of the objects met. -/
def prune (h : Heap) (v : Value) (x : Exclusion ε) : Traced ε Copy :=
  let (rejection, s) := (Pruning.State.start h v).run x
  { questions := s.asked.reverse
    outcome := match rejection with
      | some reason => .error reason
      | none => .ok ⟨⟨h.objects ++ (h.copies x s).toArray⟩, relocate h.size s.place v⟩ }

/-- Whether two values are equal without the excluded keys: their pruned
    copies are compared, or the values themselves if nothing is excluded. -/
def deepEqualExcept (h : Heap) (a b : Value) (x : Exclusion ε) : Traced ε Bool :=
  if x.isEmpty then ⟨[], .ok (h.deepEqual a b)⟩
  else
    let left := h.prune a x
    match left.outcome with
    | .error reason => ⟨left.questions, .error reason⟩
    | .ok l =>
      let right := l.heap.prune b x
      ⟨left.questions ++ right.questions,
        right.outcome.map fun r => r.heap.deepEqual l.value r.value⟩

end Heap

end ValueGraph
