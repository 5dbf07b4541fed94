/-
  Exclusions: which keys a traversal leaves out.

  A key is left out if it is one of the ignored keys, or else if the predicate
  says so.  The predicate sees the key and the path of the object that owns
  it; it may also reject a key, which ends the traversal.

  * `Exclusion.excludes` is the decision;
  * `Exclusion.asks` says whether the decision takes the predicate.
-/
import ValueGraph.Key

namespace ValueGraph

/-- Which keys to leave out.  A rejection of the predicate carries an `ε`. -/
structure Exclusion (ε : Type) where
  keys : List Key
  predicate : Option (Key → KeyPath → Except ε Bool)

namespace Exclusion

variable {ε : Type}

/-- Leaves nothing out. -/
def nothing : Exclusion ε := ⟨[], none⟩

/-- Ignores one more key. -/
def ignoreKey (x : Exclusion ε) (k : Key) : Exclusion ε :=
  if k ∈ x.keys then x else { x with keys := x.keys ++ [k] }

/-- Ignores more keys. -/
def ignoreKeys (x : Exclusion ε) (ks : List Key) : Exclusion ε := ks.foldl ignoreKey x

/-- The same ignored keys with another predicate. -/
def withPredicate (x : Exclusion ε) (p : Key → KeyPath → Except ε Bool) : Exclusion ε :=
  { x with predicate := some p }

/-- Whether there is neither an ignored key nor a predicate. -/
def isEmpty (x : Exclusion ε) : Bool := x.keys.isEmpty && x.predicate.isNone

/-- Whether deciding about a key takes the predicate. -/
def asks (x : Exclusion ε) (k : Key) : Bool := decide (k ∉ x.keys) && x.predicate.isSome

/-- Whether a key of the object at `parent` is left out. -/
def excludes (x : Exclusion ε) (k : Key) (parent : KeyPath) : Except ε Bool :=
  if k ∈ x.keys then .ok true
  else match x.predicate with
    | some p => p k parent
    | none => .ok false

/-- Whether a key of the object at `parent` is definitely kept. -/
def keeps (x : Exclusion ε) (k : Key) (parent : KeyPath) : Bool :=
  match x.excludes k parent with
  | .ok excluded => !excluded
  | .error _ => false

theorem excludes_of_not_asks {x : Exclusion ε} {k : Key} (parent : KeyPath)
    (h : x.asks k = false) : x.excludes k parent = .ok (decide (k ∈ x.keys)) := by
  by_cases hk : k ∈ x.keys
  · simp [excludes, hk]
  · have hp : x.predicate = none := by simpa [asks, hk] using h
    simp [excludes, hk, hp]

end Exclusion

end ValueGraph
