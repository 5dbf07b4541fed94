/-
  Pruned copies made in place.

  The heap grows while the source is traversed: a container's copy is put into
  the heap empty, and into a table, before its parts are copied, and each part
  is written into it when it is there.  What is left of the copies when they
  are not wanted any more is emptied: after a rejection, and after a
  comparison.  `Heap.prune` makes the same copies after the traversal.  Here
  what happens to the heap can be seen, and how deep the calls are nested.

  * `Object.blank`, `Object.write`: a copy without its parts, and one part put
    in its place;
  * `Workspace`: what the calls of one traversal share;
  * `copyValue`: one call;
  * `Heap.copyWithin`: a whole traversal;
  * `Heap.omitWithin`: pruning, which empties its copies after a rejection;
  * `Heap.exceptWithin`: comparing what two prunings leave, which empties all
    copies.
-/
import ValueGraph.Comparison.Nesting
import ValueGraph.Pruning

namespace ValueGraph

open Pruning

/-! ## Containers -/

/-- A new container for the parts of an object: undefined elements, or no
    properties under the same prototype. -/
def Object.blank : Object → Object
  | array items => array (List.replicate items.length .undefined)
  | plain p => plain (.empty p.prototype)
  | o => o

/-- A container with a part put in its place. -/
def Object.write (o : Object) (segment : Segment) (v : Value) : Object :=
  match o, segment with
  | array items, .index i => array (items.set i v)
  | plain p, .key k => plain (p.insert k v).2
  | o, _ => o

/-- Changes the object at a reference. -/
def Heap.modify (h : Heap) (r : Ref) (f : Object → Object) : Heap :=
  match h.get? r with
  | some o => h.set r (f o)
  | none => h

/-- Empties the containers at the references. -/
def Heap.clearAll (h : Heap) (refs : List Ref) : Heap :=
  refs.foldl (fun h r => h.modify r Object.clear) h

/-- The entries of a table. -/
def IdentityMap.values {n : Nat} {α : Type} (t : IdentityMap n α) : List α :=
  t.slots.toList.filterMap id

namespace Pruning

/-! ## Calls -/

/-- What the calls of one traversal share.  The traversal starts with `n`
    objects, of which `copies` has the copies. -/
structure Workspace (n : Nat) where
  heap : Heap
  copies : IdentityMap n Ref
  /-- The objects copied and the paths that led to them, the latest first. -/
  copied : List (Ref × KeyPath)
  /-- The questions put to the predicate, the latest first. -/
  asked : List (Key × KeyPath)

variable {ε : Type} {n : Nat}

namespace Workspace

/-- The workspace before a traversal. -/
def start (h : Heap) : Workspace h.size := ⟨h, .empty h.size Ref, [], []⟩

/-- Notes the question about a part if the predicate decides it. -/
def ask (w : Workspace n) (x : Exclusion ε) (path : KeyPath) : Segment → Workspace n
  | .key k => if x.asks k then { w with asked := (k, path) :: w.asked } else w
  | .index _ => w

/-- The object to copy at a reference, with its parts; nothing for a unit.  A
    reference that led nowhere at the start is one. -/
def source? (w : Workspace n) (r : Ref) : Option (Object × List (Segment × Value)) :=
  if r.index < n then (w.heap.get? r).bind fun o => o.parts?.map fun parts => (o, parts) else none

/-- Puts an empty copy of an object into the heap, and into the table. -/
def enter (w : Workspace n) (r : Ref) (o : Object) (path : KeyPath) : Workspace n :=
  { w with
    heap := w.heap.alloc o.blank
    copies := w.copies.record r w.heap.next
    copied := (r, path) :: w.copied }

/-- Writes a part into a copy. -/
def write (w : Workspace n) (c : Ref) (segment : Segment) (v : Value) : Workspace n :=
  { w with heap := w.heap.modify c fun o => o.write segment v }

end Workspace

/-- Copies the parts of the object at a path, in order, each into the copy `c`
    as soon as it is there.  A rejection ends it at once. -/
def copyParts (copy : KeyPath → Value → Workspace n → Option (Except ε Value × Workspace n))
    (x : Exclusion ε) (path : KeyPath) (c : Ref) :
    List (Segment × Value) → Workspace n → Option (Option ε × Workspace n)
  | [], w => some (none, w)
  | (segment, v) :: rest, w =>
    let w := w.ask x path segment
    match State.excludes x path segment with
    | .error reason => some (some reason, w)
    | .ok true => copyParts copy x path c rest w
    | .ok false =>
      match copy (path.step segment) v w with
      | none => none
      | some (.error reason, w) => some (some reason, w)
      | some (.ok u, w) => copyParts copy x path c rest (w.write c segment u)

/-- The copy of a value that was met at a path, with at most so many calls
    within each other; nothing if it takes more.  An object copied before
    keeps its copy, and everything but containers stands for itself. -/
def copyValue (x : Exclusion ε) :
    Nat → KeyPath → Value → Workspace n → Option (Except ε Value × Workspace n)
  | 0, _, _, _ => none
  | depth + 1, path, .object r, w =>
    match w.copies.get? r with
    | some c => some (.ok (.object c), w)
    | none => match w.source? r with
      | none => some (.ok (.object r), w)
      | some (o, parts) =>
        match copyParts (copyValue x depth) x path w.heap.next parts (w.enter r o path) with
        | none => none
        | some (some reason, w) => some (.error reason, w)
        | some (none, w') => some (.ok (.object w.heap.next), w')
  | _ + 1, _, v, w => some (.ok v, w)

end Pruning

/-! ## Traversals -/

/-- What a traversal that changes the heap comes to, with the heap that it
    leaves. -/
structure Effect (ε α : Type) extends Traced ε α where
  heap : Heap

namespace Heap

variable {ε : Type}

/-- The copy of a value without the excluded keys, and the workspace that
    copying it leaves. -/
def copyWithin (h : Heap) (depth : Nat) (v : Value) (x : Exclusion ε) :
    Option (Except ε Value × Workspace h.size) :=
  copyValue x depth .root v (.start h)

/-- The copy of a value without the excluded keys, and the containers made for
    it.  A rejection leaves these empty. -/
def omitTracked (h : Heap) (depth : Nat) (v : Value) (x : Exclusion ε) :
    Option (Effect ε (Value × List Ref)) :=
  (h.copyWithin depth v x).map fun
    | (.ok copy, w) => ⟨⟨w.asked.reverse, .ok (copy, w.copies.values)⟩, w.heap⟩
    | (.error reason, w) =>
      ⟨⟨w.asked.reverse, .error reason⟩, w.heap.clearAll w.copies.values⟩

/-- **Pruning in place**: the copy of a value without the excluded keys. -/
def omitWithin (h : Heap) (depth : Nat) (v : Value) (x : Exclusion ε) :
    Option (Effect ε Value) :=
  (h.omitTracked depth v x).map fun e => ⟨⟨e.questions, e.outcome.map Prod.fst⟩, e.heap⟩

/-- **Comparing in place** what two values are without the excluded keys, or
    the values themselves if nothing is excluded.  The copies are emptied in
    the end, also after a rejection, the right ones first.  `bound` says for
    each traversal how deep its calls may be nested. -/
def exceptWithin (bound : Heap → Value → Nat) (h : Heap) (a b : Value) (x : Exclusion ε) :
    Option (Effect ε Bool) :=
  if x.isEmpty then
    (h.deepEqualWithin (bound h a) a b).map fun equal => ⟨⟨[], .ok equal.1⟩, h⟩
  else do
    let left ← h.omitTracked (bound h a) a x
    match left.outcome with
    | .error reason => some ⟨⟨left.questions, .error reason⟩, left.heap⟩
    | .ok (l, leftCopies) =>
      let right ← left.heap.omitTracked (bound left.heap b) b x
      let questions := left.questions ++ right.questions
      match right.outcome with
      | .error reason => some ⟨⟨questions, .error reason⟩, right.heap.clearAll leftCopies⟩
      | .ok (r, rightCopies) =>
        let equal ← right.heap.deepEqualWithin (bound right.heap l) l r
        some ⟨⟨questions, .ok equal.1⟩, (right.heap.clearAll rightCopies).clearAll leftCopies⟩

end Heap

end ValueGraph
