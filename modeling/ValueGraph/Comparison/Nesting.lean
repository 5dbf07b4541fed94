/-
  Deep equality as nested calls.

  Every pair of values is compared by a call of its own, which compares the
  values of two objects by further calls, one after the other, and looks at
  the next key only when the values before it were equal.  `Heap.deepEqual`
  asks the same questions in a flat loop.  Here the nesting can be seen: the
  calls may be nested only so deep.

  * `Object.questions?`: what comparing two different objects asks, in order;
  * `Meetings`: what the calls of one comparison share;
  * `Heap.equalWithin`: one call;
  * `Heap.deepEqualWithin`: a whole comparison.
-/
import ValueGraph.Comparison

namespace ValueGraph

/-! ## Questions -/

/-- The values of two plain objects under the keys of the left one, if they
    have as many keys of either sort; nothing for a key that is not enumerable
    in the right one. -/
def PlainObject.questions? (p q : PlainObject) : Option (List (Option (Value × Value))) :=
  if p.names.length = q.names.length ∧ p.symbols.length = q.symbols.length then
    some <| p.entries.map fun e =>
      if q.hasEnumerable e.1 then (q.get? e.1).map fun w => (e.2, w) else none
  else none

/-- The values of two maps under the keys of the left one, if they have as many
    keys; nothing for a key that the right one does not have. -/
def OrderedMap.questions? (m n : OrderedMap) : Option (List (Option (Value × Value))) :=
  if m.entries.length = n.entries.length then
    some (m.entries.map fun e => (n.get? e.1).map fun w => (e.2, w))
  else none

/-- What comparing two different objects asks, in order: whether two values are
    equal, or nothing where the right object has no value to compare with and
    the answer is no.  Objects that differ at once ask no questions. -/
def Object.questions? : Object → Object → Option (List (Option (Value × Value)))
  | plain p, plain q =>
    if (plain p).isStructural && (plain q).isStructural then p.questions? q else none
  | map m, map n => m.questions? n
  | a, b => (a.agree? b).map (List.map some)

/-- `Object.questions?` for the objects that two references lead to. -/
def Heap.questions? (h : Heap) (l r : Ref) : Option (List (Option (Value × Value))) :=
  match h.get? l, h.get? r with
  | some a, some b => a.questions? b
  | _, _ => none

/-! ## Calls -/

/-- What the calls of one comparison share: the right object that each left one
    was met with first, and the left objects that were expanded, the latest
    first. -/
structure Meetings (n : Nat) where
  pairing : IdentityMap n Ref
  expanded : List Ref

/-- The meetings before a comparison. -/
def Meetings.start (n : Nat) : Meetings n := ⟨.empty n Ref, []⟩

/-- The meetings with one more: the left object is paired and expanded. -/
def Meetings.expand {n : Nat} (m : Meetings n) (l r : Ref) : Meetings n :=
  ⟨m.pairing.record l r, l :: m.expanded⟩

/-- Whether all answers are yes.  No question is asked after the first no, and
    a missing value is one. -/
def askAll {n : Nat} (ask : Value → Value → Meetings n → Option (Bool × Meetings n)) :
    List (Option (Value × Value)) → Meetings n → Option (Bool × Meetings n)
  | [], m => some (true, m)
  | none :: _, m => some (false, m)
  | some (a, b) :: rest, m =>
    match ask a b m with
    | none => none
    | some (false, m) => some (false, m)
    | some (true, m) => askAll ask rest m

namespace Heap

/-- Whether two values are equal, with the meetings so far and with at most so
    many calls within each other; nothing if it takes more. -/
def equalWithin (h : Heap) : Nat → Value → Value → Meetings h.size → Option (Bool × Meetings h.size)
  | 0, _, _, _ => none
  | depth + 1, .object l, .object r, m =>
    if l = r then some (true, m)
    else match m.pairing.get? l with
      | some paired => some (decide (paired = r), m)
      | none => match h.questions? l r with
        | none => some (false, m.expand l r)
        | some questions => askAll (h.equalWithin depth) questions (m.expand l r)
  | _ + 1, a, b, m => some (a.sameValueZero b, m)

/-- Whether two values are equal, by at most so many calls within each other;
    also gives the left objects expanded. -/
def deepEqualWithin (h : Heap) (depth : Nat) (a b : Value) : Option (Bool × List Ref) :=
  (h.equalWithin depth a b (.start h.size)).map fun result => (result.1, result.2.expanded)

end Heap

end ValueGraph
