/-
  Maps and sets after any history of changes.

  Keys and elements are told apart by an equivalence that is not equality: any
  two not-a-numbers are the same, and so are the two zeros.  What a map or a
  set holds can be read off what was inserted since it was last cleared: the
  first spelling of a key stays, in its place, and the last value under it
  counts.

  * `Value.sameValueZero_iff`: the equivalence, exactly;
  * `Change`, `sinceCleared`: histories, and what is left to say of them;
  * `OrderedMap.Reflects`, `OrderedSet.Reflects`: what all reads give, and what
    the next insertion says;
  * `OrderedMap.reflects_after`, `OrderedSet.reflects_after`: a history decides
    all of that.
-/
import Mathlib.Data.List.Induction
import ValueGraph.Proofs.Agreement

namespace ValueGraph

/-! ## The equivalence -/

namespace Value

/-- Whether the value is the positive or the negative zero. -/
def isZero : Value → Bool
  | number x => x.isZero
  | _ => false

/-- **Sameness of keys and elements**: values are the same if they are equal,
    which for objects, symbols and functions is identity, or both
    not-a-numbers, or both zeros. -/
theorem sameValueZero_iff {v w : Value} : v.sameValueZero w = true ↔
    v = w ∨ (v.isNaN = true ∧ w.isNaN = true) ∨ (v.isZero = true ∧ w.isZero = true) := by
  by_cases hvw : v = w
  · simp [hvw, sameValueZero_refl]
  · cases v with
    | number x =>
      cases w with
      | number y =>
        have hxy : x ≠ y := fun h => hvw (congrArg number h)
        simp only [sameValueZero, strictEq, isNaN, isZero, Binary64.eq, Bool.or_eq_true,
          Bool.and_eq_true, beq_iff_eq, hxy, hvw, false_or, Bool.not_eq_true']
        -- a zero is a number
        have hzero : ∀ z : Binary64, z.isZero = true → z.isNaN = false := by
          intro z hz
          simp only [Binary64.isZero, Bool.and_eq_true, beq_iff_eq] at hz
          simp [Binary64.isNaN, hz.1]
        constructor
        · rintro (hnan | ⟨-, hz⟩)
          · exact .inl hnan
          · exact .inr hz
        · rintro (hnan | hz)
          · exact .inl hnan
          · exact .inr ⟨⟨hzero x hz.1, hzero y hz.2⟩, hz⟩
      | _ => simp [sameValueZero, strictEq, isNaN, isZero]
    | _ => simp_all [sameValueZero, strictEq, isNaN, isZero]

theorem any_sameValueZero_comm (v : Value) (ws : List Value) :
    ws.any v.sameValueZero = ws.any (·.sameValueZero v) := by
  congr 1
  funext w
  exact sameValueZero_comm v w

theorem sameValueZero_equivalence : Equivalence fun v w : Value => v.sameValueZero w = true where
  refl := sameValueZero_refl
  symm h := by rwa [sameValueZero_comm]
  trans := sameValueZero_trans

end Value

/-! ## Histories -/

/-- A change of a collection: something is put in, or everything is taken
    out. -/
inductive Change (α : Type) where
  | insert (a : α)
  | clear

section
variable {α : Type}

/-- What has been put in since everything was last taken out, in order. -/
def sinceCleared (changes : List (Change α)) : List α :=
  changes.foldl (fun as change => match change with
    | .insert a => as ++ [a]
    | .clear => []) []

theorem sinceCleared_insert (changes : List (Change α)) (a : α) :
    sinceCleared (changes ++ [.insert a]) = sinceCleared changes ++ [a] := by
  simp [sinceCleared]

theorem sinceCleared_clear (changes : List (Change α)) :
    sinceCleared (changes ++ [.clear]) = [] := by
  simp [sinceCleared]

/-- Of one more value, the first occurrences are the same unless it is new. -/
theorem eraseDupsBy_concat (r : α → α → Bool) (as : List α) (b : α) :
    (as ++ [b]).eraseDupsBy r =
      if (as.eraseDupsBy r).any (r b) then as.eraseDupsBy r else as.eraseDupsBy r ++ [b] := by
  -- `seen` are the first occurrences so far, the latest first
  have hloop : ∀ as seen : List α, List.eraseDupsBy.loop r (as ++ [b]) seen =
      if (List.eraseDupsBy.loop r as seen).any (r b) then List.eraseDupsBy.loop r as seen
      else List.eraseDupsBy.loop r as seen ++ [b] := by
    intro as
    induction as with
    | nil =>
      intro seen
      simp only [List.nil_append, List.eraseDupsBy.loop, List.any_reverse]
      cases seen.any (r b) <;> simp
    | cons a as ih =>
      intro seen
      rw [List.cons_append, List.eraseDupsBy.loop, List.eraseDupsBy.loop]
      cases seen.any (r a) with
      | true => exact ih seen
      | false => exact ih (a :: seen)
  exact hloop as []

end

/-! ## Maps -/

namespace OrderedMap

variable {k l v : Value} {es : List (Value × Value)}

theorem keys_insertIn (k v : Value) (es : List (Value × Value)) :
    (insertIn k v es).map Prod.fst =
      if (es.map Prod.fst).any (·.sameValueZero k) then es.map Prod.fst
      else es.map Prod.fst ++ [k] := by
  induction es with
  | nil => simp [insertIn]
  | cons e es ih =>
    rw [insertIn]
    by_cases hk : e.1.sameValueZero k = true
    · simp [hk]
    · rw [if_neg hk, List.map_cons, ih, List.map_cons, List.any_cons]
      rw [Bool.not_eq_true] at hk
      rw [hk, Bool.false_or]
      split <;> rfl

/-- What is found under a key after an insertion. -/
theorem find?_insertIn (k v l : Value) (es : List (Value × Value)) :
    ((insertIn k v es).find? (·.1.sameValueZero l)).map Prod.snd =
      if k.sameValueZero l then some v
      else (es.find? (·.1.sameValueZero l)).map Prod.snd := by
  induction es with
  | nil => by_cases hkl : k.sameValueZero l = true <;> simp [insertIn, hkl]
  | cons e es ih =>
    rw [insertIn]
    by_cases hek : e.1.sameValueZero k = true
    · have hel : e.1.sameValueZero l = k.sameValueZero l := by
        rw [Bool.eq_iff_iff]
        refine ⟨fun h => ?_, fun h => Value.sameValueZero_trans hek h⟩
        rw [Value.sameValueZero_comm] at hek
        exact Value.sameValueZero_trans hek h
      rw [if_pos hek, List.find?_cons, List.find?_cons, hel]
      cases k.sameValueZero l <;> simp
    · rw [if_neg hek, List.find?_cons, List.find?_cons]
      cases hel : e.1.sameValueZero l with
      | true =>
        -- the same key cannot be the same as another one too
        have hkl : k.sameValueZero l = false := by
          rw [← Bool.not_eq_true]
          intro h
          exact hek (Value.sameValueZero_left hel h)
        simp [hkl]
      | false => exact ih

theorem keys_insert (m : OrderedMap) (k v : Value) :
    (m.insert k v).2.keys = if m.contains k then m.keys else m.keys ++ [k] := by
  rw [contains_eq_any]
  exact keys_insertIn k v m.entries

theorem get?_insert (m : OrderedMap) (k v l : Value) :
    (m.insert k v).2.get? l = if k.sameValueZero l then some v else m.get? l :=
  find?_insertIn k v l m.entries

/-- The map after a history of changes. -/
def after (changes : List (Change (Value × Value))) : OrderedMap :=
  changes.foldl (fun m change => match change with
    | .insert e => (m.insert e.1 e.2).2
    | .clear => empty) empty

theorem after_insert (changes : List (Change (Value × Value))) (e : Value × Value) :
    after (changes ++ [.insert e]) = ((after changes).insert e.1 e.2).2 := by
  simp [after]

theorem after_clear (changes : List (Change (Value × Value))) :
    after (changes ++ [.clear]) = empty := by
  simp [after]

/-- The value that was inserted last under a key that is the same as `k`. -/
def lastUnder (k : Value) (es : List (Value × Value)) : Option Value :=
  (es.filter (·.1.sameValueZero k)).getLast?.map Prod.snd

theorem lastUnder_concat (l : Value) (es : List (Value × Value)) (k v : Value) :
    lastUnder l (es ++ [(k, v)]) = if k.sameValueZero l then some v else lastUnder l es := by
  rw [lastUnder, List.filter_append]
  by_cases hkl : k.sameValueZero l = true
  · simp [hkl]
  · simp [hkl, lastUnder]

theorem lastUnder_isSome (k : Value) (es : List (Value × Value)) :
    (lastUnder k es).isSome = es.any (·.1.sameValueZero k) := by
  rw [lastUnder, Option.isSome_map, Bool.eq_iff_iff, List.getLast?_isSome, ne_eq,
    List.filter_eq_nil_iff, List.any_eq_true]
  push Not
  rfl

/-- **All reads of the map**, and what the next insertion says, if these pairs
    have been inserted.  The keys are told apart; each is in its first spelling
    and in the order of the first insertions.  Under a key is the value that
    was inserted last under the same key, and an insertion replaces that value
    in its place. -/
structure Reflects (m : OrderedMap) (es : List (Value × Value)) : Prop where
  apart : m.keys.Pairwise fun k l => k.sameValueZero l = false
  keys : m.keys = (es.map Prod.fst).eraseDupsBy Value.sameValueZero
  get? : ∀ k, m.get? k = lastUnder k es
  contains : ∀ k, m.contains k = es.any (·.1.sameValueZero k)
  replaced : ∀ k v, (m.insert k v).1 = lastUnder k es
  kept : ∀ k v, m.contains k = true → (m.insert k v).2.keys = m.keys

theorem keys_after (changes : List (Change (Value × Value))) :
    (after changes).keys =
      ((sinceCleared changes).map Prod.fst).eraseDupsBy Value.sameValueZero := by
  induction changes using List.reverseRecOn with
  | nil => rfl
  | append_singleton changes change ih =>
    cases change with
    | insert e =>
      rw [after_insert, keys_insert, contains_eq_any, ih, sinceCleared_insert, List.map_append,
        List.map_singleton, eraseDupsBy_concat, Value.any_sameValueZero_comm]
    | clear =>
      rw [after_clear, sinceCleared_clear]
      rfl

theorem get?_after (changes : List (Change (Value × Value))) (k : Value) :
    (after changes).get? k = lastUnder k (sinceCleared changes) := by
  induction changes using List.reverseRecOn with
  | nil => rfl
  | append_singleton changes change ih =>
    cases change with
    | insert e =>
      rw [after_insert, get?_insert, ih, sinceCleared_insert, lastUnder_concat]
    | clear =>
      rw [after_clear, sinceCleared_clear]
      rfl

/-- **A history decides** all reads of a map. -/
theorem reflects_after (changes : List (Change (Value × Value))) :
    (after changes).Reflects (sinceCleared changes) where
  apart := (after changes).keys_apart
  keys := keys_after changes
  get? := get?_after changes
  contains k := by
    rw [← lastUnder_isSome, ← get?_after, get?, Option.isSome_map]
    rfl
  replaced k _ := get?_after changes k
  kept k v hk := by rw [keys_insert, if_pos hk]

end OrderedMap

/-! ## Sets -/

namespace OrderedSet

variable {v : Value}

theorem items_insert (s : OrderedSet) (v : Value) :
    (s.insert v).2.items = if s.contains v then s.items else s.items ++ [v] := by
  rw [insert]
  by_cases hv : s.contains v = true
  · simp [hv]
  · simp [hv]

theorem added_insert (s : OrderedSet) (v : Value) : (s.insert v).1 = !s.contains v := by
  rw [insert]
  by_cases hv : s.contains v = true
  · simp [hv]
  · simp [hv]

theorem contains_insert (s : OrderedSet) (v w : Value) :
    (s.insert v).2.contains w = (v.sameValueZero w || s.contains w) := by
  rw [contains, items_insert]
  by_cases hv : s.contains v = true
  · rw [if_pos hv]
    obtain ⟨x, hx, hxv⟩ := List.any_eq_true.1 hv
    -- what is the same as `v` is the same as an element that is there
    cases hvw : v.sameValueZero w with
    | true =>
      rw [Bool.true_or, List.any_eq_true]
      exact ⟨x, hx, Value.sameValueZero_trans hxv hvw⟩
    | false => rfl
  · rw [if_neg hv, List.any_append, Bool.or_comm, contains]
    simp

/-- The set after a history of changes. -/
def after (changes : List (Change Value)) : OrderedSet :=
  changes.foldl (fun s change => match change with
    | .insert v => (s.insert v).2
    | .clear => empty) empty

theorem after_insert (changes : List (Change Value)) (v : Value) :
    after (changes ++ [.insert v]) = ((after changes).insert v).2 := by
  simp [after]

theorem after_clear (changes : List (Change Value)) : after (changes ++ [.clear]) = empty := by
  simp [after]

/-- **All reads of the set**, and what the next insertion says, if these values
    have been inserted.  The elements are told apart; each is in its first
    spelling and in the order of the first insertions. -/
structure Reflects (s : OrderedSet) (vs : List Value) : Prop where
  apart : s.items.Pairwise fun v w => v.sameValueZero w = false
  items : s.items = vs.eraseDupsBy Value.sameValueZero
  contains : ∀ v, s.contains v = vs.any (·.sameValueZero v)
  added : ∀ v, (s.insert v).1 = !vs.any (·.sameValueZero v)

theorem items_after (changes : List (Change Value)) :
    (after changes).items = (sinceCleared changes).eraseDupsBy Value.sameValueZero := by
  induction changes using List.reverseRecOn with
  | nil => rfl
  | append_singleton changes change ih =>
    cases change with
    | insert v =>
      rw [after_insert, items_insert, contains, ih, sinceCleared_insert, eraseDupsBy_concat,
        Value.any_sameValueZero_comm]
    | clear =>
      rw [after_clear, sinceCleared_clear]
      rfl

theorem contains_after (changes : List (Change Value)) (v : Value) :
    (after changes).contains v = (sinceCleared changes).any (·.sameValueZero v) := by
  induction changes using List.reverseRecOn with
  | nil => rfl
  | append_singleton changes change ih =>
    cases change with
    | insert w =>
      rw [after_insert, contains_insert, ih, sinceCleared_insert, List.any_append, Bool.or_comm]
      simp
    | clear =>
      rw [after_clear, sinceCleared_clear]
      rfl

/-- **A history decides** all reads of a set. -/
theorem reflects_after (changes : List (Change Value)) :
    (after changes).Reflects (sinceCleared changes) where
  apart := (after changes).distinct
  items := items_after changes
  contains := contains_after changes
  added v := by rw [added_insert, contains_after]

end OrderedSet

/-! ## Any history -/

/-- **Maps and sets after any history** of insertions and clearings, under the
    equivalence that tells keys and elements apart.  A map or set that is built
    from a list is one into which the members were inserted one by one. -/
theorem reflects_histories (pairs : List (Change (Value × Value))) (items : List (Change Value)) :
    (Equivalence fun v w : Value => v.sameValueZero w = true) ∧
      (∀ v w : Value, v.sameValueZero w = true ↔
        v = w ∨ (v.isNaN = true ∧ w.isNaN = true) ∨ (v.isZero = true ∧ w.isZero = true)) ∧
      (OrderedMap.after pairs).Reflects (sinceCleared pairs) ∧
      (OrderedSet.after items).Reflects (sinceCleared items) ∧
      (∀ es, OrderedMap.ofEntries es = OrderedMap.after (es.map .insert)) ∧
      ∀ vs, OrderedSet.ofItems vs = OrderedSet.after (vs.map .insert) := by
  refine ⟨Value.sameValueZero_equivalence, fun v w => Value.sameValueZero_iff,
    OrderedMap.reflects_after pairs, OrderedSet.reflects_after items, fun es => ?_, fun vs => ?_⟩
  · rw [OrderedMap.after, List.foldl_map]
    rfl
  · rw [OrderedSet.after, List.foldl_map]
    rfl

end ValueGraph
