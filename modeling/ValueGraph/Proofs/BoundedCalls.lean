/-
  How deep the calls of a traversal are nested.

  Every object that a traversal goes into is in its table before its values are
  looked at, so below it there is one object less that is not.  The calls come
  to an end on every graph, and no deeper than the value reaches objects.

  * `Pruning.exists_copyValue`: how deep the calls that copy are nested;
  * `Heap.exists_omitTracked`, `Heap.exists_exceptWithin`: pruning and comparing
    in place come to an end, with the questions and outcomes of `Heap.prune` and
    `Heap.deepEqualExcept`;
  * `Heap.calls_bounded`: how deep the calls of every traversal are nested.
-/
import ValueGraph.Proofs.InPlaceCopies
import ValueGraph.Proofs.NestedComparison

namespace ValueGraph

open Pruning

namespace Pruning

variable {ε : Type} {x : Exclusion ε} {path : KeyPath} {segment : Segment} {c : Ref}

/-! ## Copying -/

section
variable {h : Heap} {place : IdentityMap h.size Nat} {w : Workspace h.size} {r : Ref}
  {o : Object} {v : Value} {depth : Nat}

/-- Copying the parts of a new object takes no more nesting than copying each of
    them does. -/
theorem exists_copyParts (hr : w.copies.get? r = none) (ho : h.get? r = some o)
    (hd : (h.unmet w.copies (.object r)).ncard ≤ depth)
    (hcall : ∀ {place} path {v} {w : Workspace h.size}, Accounts h place w →
      (h.unmet w.copies v).ncard < depth →
      ∃ result, copyValue x depth path v w = some result) (hc : h.size ≤ c.index)
    {c' : Ref} : ∀ (parts : List (Segment × Value)) {place} (w' : Workspace h.size),
      (∀ part ∈ parts, part.2 ∈ o.held) → Accounts h place w' →
      (w.copies.record r c').Grows w'.copies →
      ∃ result, copyParts (copyValue x depth) x path c parts w' = some result
  | [], _, w', _, _, _ => ⟨_, rfl⟩
  | (segment, v) :: parts, place, w', hheld, ha, hgrows => by
    have ha₀ := ha.ask x path segment
    have hgrows₀ : (w.copies.record r c').Grows (w'.ask x path segment).copies := by
      simpa using hgrows
    have hheld' := fun part hp => hheld part (List.mem_cons_of_mem _ hp)
    rw [copyParts]
    split
    next => exact ⟨_, rfl⟩
    next => exact exists_copyParts hr ho hd hcall hc parts _ hheld' ha₀ hgrows₀
    next =>
      have hlt := Heap.ncard_unmet_lt hr ho (hheld (segment, v) List.mem_cons_self) hgrows₀
      obtain ⟨⟨copy, w₁⟩, hw₁⟩ :=
        hcall (path.step segment) ha₀ (Nat.lt_of_lt_of_le hlt hd)
      rw [hw₁]
      have hmakes := makes_of_copyValue hw₁
      cases copy with
      | error reason => exact ⟨_, rfl⟩
      | ok u =>
        obtain ⟨place₁, ha₁⟩ := hmakes.accounts ha₀
        exact exists_copyParts hr ho hd hcall hc parts _ hheld' (ha₁.write hc segment u)
          (hgrows₀.trans hmakes.grows)

/-- **The calls are nested** no deeper than the value reaches objects without
    copies, and one level for the last call. -/
theorem exists_copyValue : ∀ {depth place} path {v} {w : Workspace h.size}, Accounts h place w →
    (h.unmet w.copies v).ncard < depth → ∃ result, copyValue x depth path v w = some result
  | depth + 1, place, path, v, w, ha, hd => by
    cases v with
    | object r =>
      rw [copyValue]
      split
      next => exact ⟨_, rfl⟩
      next hr =>
        split
        next => exact ⟨_, rfl⟩
        next o parts hs =>
          obtain ⟨ho, hop⟩ := ha.source?.1 hs
          have hparts : ∃ result, copyParts (copyValue x depth) x path w.heap.next parts
              (w.enter r o path) = some result :=
            exists_copyParts hr ho (Nat.le_of_lt_succ hd) exists_copyValue ha.next_le parts _
              (fun part hp => Object.held_of_parts? hop hp) (ha.enter hr hs path) (.refl _)
          obtain ⟨⟨out, w'⟩, hw'⟩ := hparts
          rw [hw']
          cases out with
          | none => exact ⟨_, rfl⟩
          | some reason => exact ⟨_, rfl⟩
    | _ => exact ⟨_, rfl⟩

/-- An object is copied once. -/
theorem Accounts.nodup (ha : Accounts h place w) : (w.copied.map Prod.fst).Nodup := by
  rw [← List.nodup_reverse, ← List.map_reverse, List.nodup_iff_injective_get]
  intro i j hij
  have hplace : ∀ k : Fin (w.copied.reverse.map Prod.fst).length,
      place.get? ((w.copied.reverse.map Prod.fst).get k) = some k := by
    intro k
    have hk : (k : Nat) < w.copied.reverse.length := by simpa using k.isLt
    refine (ha.numbered.place_iff _ _).2 ⟨w.copied.reverse[k].2, ?_⟩
    rw [List.getElem?_eq_getElem hk, List.get_eq_getElem, List.getElem_map]
    rfl
  have hi := hplace i
  rw [hij, hplace j] at hi
  exact Fin.ext (Option.some.inj hi).symm

end

end Pruning

namespace Heap

variable {ε : Type} {h : Heap} {depth : Nat} {v : Value}

/-- **Copying a value** comes to an end when its calls may be nested deeper than
    the value reaches objects. -/
theorem exists_copyWithin (hd : h.extent v < depth) (x : Exclusion ε) : ∃ copy w,
    h.copyWithin depth v x = some (copy, w) ∧
      h.prune v x = ⟨w.asked.reverse, copy.map fun u => ⟨w.heap, u⟩⟩ ∧
      (w.copied.map Prod.fst).Nodup := by
  rw [← unmet_empty (α := Ref)] at hd
  obtain ⟨⟨copy, w⟩, hw⟩ := exists_copyValue (x := x) .root (accounts_start h) hd
  have hmakes := makes_of_copyValue hw
  obtain ⟨place, ha⟩ := hmakes.accounts (accounts_start h)
  exact ⟨copy, w, hw, hmakes.prune, ha.nodup⟩

/-- Pruning in place gives what `Heap.prune` gives. -/
theorem exists_omitTracked (hd : h.extent v < depth) (x : Exclusion ε) : ∃ e,
    h.omitTracked depth v x = some e ∧
      h.prune v x = ⟨e.questions, e.outcome.map fun made => ⟨e.heap, made.1⟩⟩ := by
  obtain ⟨copy, w, hw, hprune, -⟩ := exists_copyWithin hd x
  rw [omitTracked, hw, hprune]
  cases copy with
  | ok u => exact ⟨_, rfl, rfl⟩
  | error reason => exact ⟨_, rfl, rfl⟩

/-! ## Comparing copies -/

/-- **Comparing in place** gives what `Heap.deepEqualExcept` gives, when the
    calls of each of its traversals may be nested deep enough. -/
theorem exists_exceptWithin {bound : Heap → Value → Nat} (hb : ∀ g v, g.extent v < bound g v)
    (h : Heap) (a b : Value) (x : Exclusion ε) : ∃ e,
    h.exceptWithin bound a b x = some e ∧ h.deepEqualExcept a b x = e.toTraced := by
  rw [exceptWithin, deepEqualExcept]
  cases x.isEmpty with
  | true =>
    obtain ⟨expanded, he, -⟩ := exists_deepEqualWithin (hb h a) b
    exact ⟨_, by rw [if_pos rfl, he]; rfl, rfl⟩
  | false =>
    obtain ⟨left, hleft, hl⟩ := exists_omitTracked (hb h a) x
    rw [hl, hleft]
    obtain ⟨⟨leftQuestions, outcome⟩, leftHeap⟩ := left
    cases outcome with
    | error reason => exact ⟨_, rfl, rfl⟩
    | ok made =>
      obtain ⟨right, hright, hr⟩ := exists_omitTracked (hb leftHeap b) x
      obtain ⟨⟨rightQuestions, outcome⟩, rightHeap⟩ := right
      cases outcome with
      | error reason =>
        refine ⟨⟨⟨leftQuestions ++ rightQuestions, .error reason⟩, rightHeap.clearAll made.2⟩,
          ?_, ?_⟩
        · simp [hright]
        · simp [hr, Except.map]
      | ok made' =>
        obtain ⟨expanded, he, -⟩ := exists_deepEqualWithin (hb rightHeap made.1) made'.1
        refine ⟨⟨⟨leftQuestions ++ rightQuestions, .ok (rightHeap.deepEqual made.1 made'.1)⟩,
          (rightHeap.clearAll made'.2).clearAll made.2⟩, ?_, ?_⟩
        · simp [hright, he]
        · simp [hr, Except.map]

/-- **The calls of every traversal** come to an end, on every graph, nested no
    deeper than one level more than the value traversed reaches objects.  A
    comparison expands no left object twice, and pruning copies no object
    twice. -/
theorem calls_bounded (h : Heap) (a b : Value) (x : Exclusion ε) :
    (∃ expanded, h.deepEqualWithin (h.extent a + 1) a b = some (h.deepEqual a b, expanded) ∧
      expanded.Nodup) ∧
    (∃ copy w, h.copyWithin (h.extent a + 1) a x = some (copy, w) ∧
      h.prune a x = ⟨w.asked.reverse, copy.map fun u => ⟨w.heap, u⟩⟩ ∧
      (w.copied.map Prod.fst).Nodup) ∧
    ∃ e, h.exceptWithin (fun g v => g.extent v + 1) a b x = some e ∧
      h.deepEqualExcept a b x = e.toTraced :=
  ⟨exists_deepEqualWithin (Nat.lt_succ_self _) b, exists_copyWithin (Nat.lt_succ_self _) x,
    exists_exceptWithin (fun _ _ => Nat.lt_succ_self _) h a b x⟩

end Heap

end ValueGraph
