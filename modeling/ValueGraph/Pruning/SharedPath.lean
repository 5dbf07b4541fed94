/-
  Pruned copies made along one path.

  All calls of a traversal share one path.  A step is put on it before a part
  is copied and taken off it afterwards, whatever the part was, and what the
  path is at the time is what the predicate sees.  `copyValue` is given the
  path of each value instead.

  * `Walker`: a workspace with the path that the calls share;
  * `copyValueAlong`: one call;
  * `Heap.copyAlong`: a whole traversal.
-/
import ValueGraph.Pruning.InPlace

namespace ValueGraph

namespace Pruning

variable {ε : Type} {n : Nat}

/-- What the calls of one traversal share, with the path to the value that is
    being copied. -/
structure Walker (n : Nat) extends Workspace n where
  path : KeyPath

namespace Walker

/-- The walker before a traversal. -/
def start (h : Heap) : Walker h.size := ⟨.start h, .root⟩

/-- Puts a step on the path. -/
def push (w : Walker n) (segment : Segment) : Walker n :=
  { w with path := w.path.step segment }

/-- Takes the last step off the path. -/
def pop (w : Walker n) : Walker n := { w with path := w.path.parent }

/-- Notes the question about a part of the object at the path if the predicate
    decides it. -/
def ask (w : Walker n) (x : Exclusion ε) (segment : Segment) : Walker n :=
  ⟨w.toWorkspace.ask x w.path segment, w.path⟩

/-- Puts an empty copy of the object at the path into the heap, and into the
    table. -/
def enter (w : Walker n) (r : Ref) (o : Object) : Walker n :=
  ⟨w.toWorkspace.enter r o w.path, w.path⟩

/-- Writes a part into a copy. -/
def write (w : Walker n) (c : Ref) (segment : Segment) (v : Value) : Walker n :=
  ⟨w.toWorkspace.write c segment v, w.path⟩

end Walker

/-- Copies the parts of the object at the path, in order, each into the copy `c`
    as soon as it is there.  A rejection ends it at once and leaves the path
    where it is. -/
def copyPartsAlong (copy : Value → Walker n → Option (Except ε Value × Walker n))
    (x : Exclusion ε) (c : Ref) :
    List (Segment × Value) → Walker n → Option (Option ε × Walker n)
  | [], w => some (none, w)
  | (segment, v) :: rest, w =>
    let w := w.ask x segment
    match State.excludes x w.path segment with
    | .error reason => some (some reason, w)
    | .ok true => copyPartsAlong copy x c rest w
    | .ok false =>
      match copy v (w.push segment) with
      | none => none
      | some (.error reason, w) => some (some reason, w)
      | some (.ok u, w) => copyPartsAlong copy x c rest (w.pop.write c segment u)

/-- The copy of the value at the path, with at most so many calls within each
    other; nothing if it takes more. -/
def copyValueAlong (x : Exclusion ε) :
    Nat → Value → Walker n → Option (Except ε Value × Walker n)
  | 0, _, _ => none
  | depth + 1, .object r, w =>
    match w.copies.get? r with
    | some c => some (.ok (.object c), w)
    | none => match w.source? r with
      | none => some (.ok (.object r), w)
      | some (o, parts) =>
        match copyPartsAlong (copyValueAlong x depth) x w.heap.next parts (w.enter r o) with
        | none => none
        | some (some reason, w) => some (.error reason, w)
        | some (none, w') => some (.ok (.object w.heap.next), w')
  | _ + 1, v, w => some (.ok v, w)

end Pruning

open Pruning

/-- The copy of a value without the excluded keys, and the walker that copying
    it leaves. -/
def Heap.copyAlong {ε : Type} (h : Heap) (depth : Nat) (v : Value) (x : Exclusion ε) :
    Option (Except ε Value × Walker h.size) :=
  copyValueAlong x depth v (.start h)

end ValueGraph
