/-
  Deep equality of two values of a heap.

  Two objects agree if their own contents fit: same length, same keys, same
  bytes and so on (`Object.agree?`); the values they hold are then compared in
  turn.  The comparison walks both graphs at once, depth first.  It keeps a
  pairing that gives each left object it has met the right object it was met
  with; a left object is looked into once, and every later meeting only checks
  the pairing, so the walk ends on cyclic graphs too.

  * `Comparison.State` is the walk between two questions, with one frame per
    pair of objects that is being looked into;
  * `State.next` asks one question, and `State.next_lt` says that every
    question brings the end nearer;
  * `Heap.compare?` is the final pairing of two equal values, and
    `Heap.deepEqual` says whether there is one.
-/
import ValueGraph.Heap

namespace ValueGraph

/-! ## Local agreement -/

/-- The values of two plain objects under the same keys, if their enumerable
    keys are the same: as many keys of either sort, and each key of the left
    one is enumerable in the right one. -/
def PlainObject.agree? (p q : PlainObject) : Option (List (Value × Value)) :=
  if p.names.length = q.names.length ∧ p.symbols.length = q.symbols.length then
    p.entries.mapM fun e => if q.hasEnumerable e.1 then (q.get? e.1).map fun w => (e.2, w) else none
  else none

/-- The values of two maps under the same keys, if their keys are the same. -/
def OrderedMap.agree? (m n : OrderedMap) : Option (List (Value × Value)) :=
  if m.entries.length = n.entries.length then
    m.entries.mapM fun e => (n.get? e.1).map fun w => (e.2, w)
  else none

/-- Whether two sets have the same elements. -/
def OrderedSet.eq (s t : OrderedSet) : Bool :=
  s.items.length == t.items.length && s.items.all t.contains

/-- The pairs of values that two different objects must have equal to be equal
    themselves; nothing if they cannot be equal. -/
def Object.agree? : Object → Object → Option (List (Value × Value))
  | array xs, array ys => if xs.length = ys.length then some (xs.zip ys) else none
  | plain p, plain q =>
    if (plain p).isStructural && (plain q).isStructural then p.agree? q else none
  | map m, map n => m.agree? n
  | set s, set t => if s.eq t then some [] else none
  | date (some a), date (some b) => if a = b then some [] else none
  | pattern p, pattern q => if p = q then some [] else none
  | boxed a, boxed b => if a.primitive.strictEq b.primitive then some [] else none
  | typedArray a, typedArray b => if a.eq b then some [] else none
  | dataView a, dataView b => if a = b then some [] else none
  | _, _ => none

/-- `Object.agree?` for the objects that two references lead to. -/
def Heap.agree? (h : Heap) (l r : Ref) : Option (List (Value × Value)) :=
  match h.get? l, h.get? r with
  | some a, some b => a.agree? b
  | _, _ => none

/-! ## The walk -/

namespace Comparison

/-- A walk over two graphs with `n` objects: the pairing so far, and for each
    pair of objects that is being looked into the questions left to ask, the
    innermost pair first. -/
structure State (n : Nat) where
  pairing : IdentityMap n Ref
  frames : List (List (Value × Value))

/-- What one question leads to. -/
inductive Progress (n : Nat) where
  | equal (pairing : IdentityMap n Ref)
  | different
  | running (s : State n)

namespace State

/-- The walk that asks whether `a` and `b` are equal. -/
def start (n : Nat) (a b : Value) : State n := ⟨.empty n Ref, [[(a, b)]]⟩

/-- Asks the next question.  The same object is equal to itself.  A left object
    that has been met before must have been met with this right object; a new
    one is paired, and its values are next. -/
def next {h : Heap} (s : State h.size) : Progress h.size :=
  match s.frames with
  | [] => .equal s.pairing
  | [] :: frames => .running ⟨s.pairing, frames⟩
  | ((.object l, .object r) :: frame) :: frames =>
    if l = r then .running ⟨s.pairing, frame :: frames⟩
    else match s.pairing.get? l with
      | some paired => if paired = r then .running ⟨s.pairing, frame :: frames⟩ else .different
      | none => match h.agree? l r with
        | some inner => .running ⟨s.pairing.record l r, inner :: frame :: frames⟩
        | none => .different
  | ((a, b) :: frame) :: frames =>
    if a.sameValueZero b then .running ⟨s.pairing, frame :: frames⟩ else .different

/-- The questions and frames that are left. -/
def pending {n : Nat} (s : State n) : Nat :=
  s.frames.foldr (fun frame n => frame.length + 1 + n) 0

end State

theorem lt_of_agree? {h : Heap} {l r : Ref} {inner : List (Value × Value)}
    (ha : h.agree? l r = some inner) : l.index < h.size := by
  rw [Heap.agree?] at ha
  split at ha
  next hl _ => exact Heap.lt_of_get? hl
  next => simp at ha

/-- Each question pairs one more left object or leaves fewer questions. -/
theorem State.next_lt {h : Heap} {s t : State h.size} (hs : s.next = .running t) :
    Prod.Lex (· < ·) (· < ·) (t.pairing.vacant, t.pending) (s.pairing.vacant, s.pending) := by
  rw [State.next] at hs
  split at hs
  next => simp at hs
  next frames hf =>
    cases hs
    exact .right _ (by simp [pending, hf])
  next l r frame frames hf =>
    split at hs
    · cases hs
      exact .right _ (by simp [pending, hf])
    · split at hs
      · split at hs
        · cases hs
          exact .right _ (by simp [pending, hf])
        · simp at hs
      next hl =>
        split at hs
        next inner ha =>
          cases hs
          exact .left _ _ (IdentityMap.vacant_record (lt_of_agree? ha) hl)
        · simp at hs
  next a b frame frames _ hf =>
    split at hs
    · cases hs
      exact .right _ (by simp [pending, hf])
    · simp at hs

/-- Asks all questions that are left; the pairing if every answer was yes. -/
def State.run {h : Heap} (s : State h.size) : Option (IdentityMap h.size Ref) :=
  match _hs : s.next with
  | .equal pairing => some pairing
  | .different => none
  | .running t => t.run
termination_by (s.pairing.vacant, s.pending)
decreasing_by exact next_lt _hs

end Comparison

/-! ## Deep equality -/

namespace Heap

/-- The pairing under which two values are equal. -/
def compare? (h : Heap) (a b : Value) : Option (IdentityMap h.size Ref) :=
  (Comparison.State.start h.size a b).run

/-- Whether two values have the same structure and content. -/
def deepEqual (h : Heap) (a b : Value) : Bool := (h.compare? a b).isSome

end Heap

end ValueGraph
