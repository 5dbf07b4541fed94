/-
  When two values fit, and when two objects agree, said without a comparison.

  * `OneToOne`, `converse`: a partial map of objects that can be turned round,
    and the map turned round;
  * `Matched f`: two values fit under a partial map `f` of objects, which names
    the counterpart of an object;
  * `Object.Agree M`: two different objects have the same own content, and the
    values that they hold fit by `M`;
  * `Object.agree?_iff`: the questions that `Object.agree?` leaves open are just
    those of `Object.Agree`.

  Maps, sets and plain objects are only checked for containment of the left
  keys in the right ones.  The right keys cannot be more, because both sides
  have equally many and the left ones are distinct (`covered`).
-/
import Mathlib.Data.List.Forall2
import ValueGraph.Comparison

namespace ValueGraph

/-! ## Partial maps of objects -/

/-- No object is the counterpart of two. -/
def OneToOne (f : Ref → Option Ref) : Prop :=
  ∀ l l' r, f l = some r → f l' = some r → l = l'

open Classical in
/-- The partial map that leads each object to what it is related to. -/
noncomputable def counterpart (R : Ref → Ref → Prop) (l : Ref) : Option Ref :=
  if h : ∃ r, R l r then some h.choose else none

theorem counterpart_eq_some {R : Ref → Ref → Prop} (hR : ∀ l r r', R l r → R l r' → r = r')
    {l r : Ref} : counterpart R l = some r ↔ R l r := by
  unfold counterpart
  constructor
  · intro h
    split at h
    next he => cases h; exact he.choose_spec
    next => simp at h
  · intro h
    have he : ∃ r, R l r := ⟨r, h⟩
    rw [dif_pos he, hR l _ _ he.choose_spec h]

/-- The map that leads counterparts back. -/
noncomputable def converse (f : Ref → Option Ref) : Ref → Option Ref :=
  counterpart fun r l => f l = some r

theorem converse_eq_some {f : Ref → Option Ref} (hf : OneToOne f) {l r : Ref} :
    converse f r = some l ↔ f l = some r :=
  counterpart_eq_some fun r l l' => hf l l' r

/-! ## Fitting values -/

/-- Two values fit under a partial map of objects: primitives that are strictly
    equal or both not-a-numbers, one and the same object, or an object and its
    counterpart. -/
inductive Matched (f : Ref → Option Ref) : Value → Value → Prop
  | primitives {v w : Value} : v.isObject = false → w.isObject = false →
      (v.strictEq w = true ∨ v.isNaN = true ∧ w.isNaN = true) → Matched f v w
  | same (r : Ref) : Matched f (.object r) (.object r)
  | paired {l r : Ref} : f l = some r → Matched f (.object l) (.object r)

/-- Two different objects agree: they are of one kind, their own contents are
    the same, and the values at the same places fit by `M`.  The objects of
    all other kinds, invalid dates and the instances of classes of the host
    agree with no other object. -/
inductive Object.Agree (M : Value → Value → Prop) : Object → Object → Prop
  | arrays {xs ys : List Value} : List.Forall₂ M xs ys → Agree M (.array xs) (.array ys)
  | plains {p q : PlainObject} :
      p.prototype.isBuiltin = false → q.prototype.isBuiltin = false →
      (∀ k, p.hasEnumerable k = q.hasEnumerable k) →
      (∀ k v w, p.hasEnumerable k = true → p.get? k = some v → q.get? k = some w → M v w) →
      Agree M (.plain p) (.plain q)
  | maps {m n : OrderedMap} : (∀ k, m.contains k = n.contains k) →
      (∀ k v w, m.get? k = some v → n.get? k = some w → M v w) → Agree M (.map m) (.map n)
  | sets {s t : OrderedSet} : (∀ v, s.contains v = t.contains v) → Agree M (.set s) (.set t)
  | dates (millis : Int) : Agree M (.date (some millis)) (.date (some millis))
  | patterns {p q : Pattern} : p.source = q.source → p.flags = q.flags →
      Agree M (.pattern p) (.pattern q)
  | boxes {a b : Boxed} : a.primitive.strictEq b.primitive = true → Agree M (.boxed a) (.boxed b)
  | integers (element : IntegerElement) (items : List Int) :
      Agree M (.typedArray (.integers element items)) (.typedArray (.integers element items))
  | floats (element : FloatElement) {xs ys : List Binary64} :
      List.Forall₂ (fun x y => x.eq y = true) xs ys →
      Agree M (.typedArray (.floats element xs)) (.typedArray (.floats element ys))
  | dataViews (bytes : List UInt8) : Agree M (.dataView bytes) (.dataView bytes)

namespace Matched

variable {f g : Ref → Option Ref} {v w : Value}

theorem mono (h : Matched f v w) (hfg : ∀ l r, f l = some r → g l = some r) : Matched g v w := by
  cases h with
  | primitives hv hw he => exact .primitives hv hw he
  | same r => exact .same r
  | paired hf => exact .paired (hfg _ _ hf)

/-- Different objects fit only as counterparts. -/
theorem eq_some {l r : Ref} (h : Matched f (.object l) (.object r)) (hlr : l ≠ r) :
    f l = some r := by
  cases h with
  | primitives hv => simp [Value.isObject] at hv
  | same => exact absurd rfl hlr
  | paired hf => exact hf

/-- Values that fit from left to right fit from right to left under any map
    that leads the counterparts back. -/
theorem symm (h : Matched f v w) (hfg : ∀ l r, f l = some r → g r = some l) : Matched g w v := by
  cases h with
  | primitives hv hw he =>
    exact .primitives hw hv (by rwa [Value.strictEq_comm, and_comm])
  | same r => exact .same r
  | paired hf => exact .paired (hfg _ _ hf)

theorem of_sameValueZero (hs : v.sameValueZero w = true) : Matched f v w := by
  cases v with
  | object l =>
    cases w with
    | object r =>
      have hlr : l = r := by simpa [Value.sameValueZero, Value.strictEq, Value.isNaN] using hs
      exact hlr ▸ .same l
    | _ => simp [Value.sameValueZero, Value.strictEq, Value.isNaN] at hs
  | _ =>
    cases w with
    | object r => simp [Value.sameValueZero, Value.strictEq, Value.isNaN] at hs
    | _ =>
      refine .primitives rfl rfl ?_
      simpa [Value.sameValueZero, or_comm] using hs

theorem refl (v : Value) : Matched f v v := by
  cases v with
  | object r => exact .same r
  | _ => exact of_sameValueZero (Value.sameValueZero_refl _)

/-- Two values that are not both objects fit under one map as under another. -/
theorem sameValueZero (h : Matched f v w) (hn : v.isObject = false ∨ w.isObject = false) :
    v.sameValueZero w = true := by
  cases h with
  | primitives hv hw he => simpa [Value.sameValueZero, or_comm] using he
  | same r => simp [Value.isObject] at hn
  | paired hf => simp [Value.isObject] at hn

end Matched

/-! ## Agreement under other relations -/

namespace Object.Agree

variable {M N : Value → Value → Prop} {a b : Object}

theorem mono (h : Agree M a b) (hMN : ∀ v w, M v w → N v w) : Agree N a b := by
  cases h with
  | arrays h => exact .arrays (h.imp hMN)
  | plains hp hq hk hv =>
    exact .plains hp hq hk fun k v w he hv' hw => hMN v w (hv k v w he hv' hw)
  | maps hk hv => exact .maps hk fun k v w hv' hw => hMN v w (hv k v w hv' hw)
  | sets hk => exact .sets hk
  | dates millis => exact .dates millis
  | patterns hs hf => exact .patterns hs hf
  | boxes hb => exact .boxes hb
  | integers element items => exact .integers element items
  | floats element hx => exact .floats element hx
  | dataViews bytes => exact .dataViews bytes

theorem symm (h : Agree M a b) : Agree (fun v w => M w v) b a := by
  cases h with
  | arrays h => exact .arrays h.flip
  | plains hp hq hk hv =>
    exact .plains hq hp (fun k => (hk k).symm) fun k v w he hv' hw =>
      hv k w v (by rw [hk]; exact he) hw hv'
  | maps hk hv => exact .maps (fun k => (hk k).symm) fun k v w hv' hw => hv k w v hw hv'
  | sets hk => exact .sets fun v => (hk v).symm
  | dates millis => exact .dates millis
  | patterns hs hf => exact .patterns hs.symm hf.symm
  | boxes hb => exact .boxes (by rwa [Value.strictEq_comm])
  | integers element items => exact .integers element items
  | floats element hx => exact .floats element (hx.flip.imp fun x y h => by rwa [Binary64.eq_comm])
  | dataViews bytes => exact .dataViews bytes

theorem and (hM : Agree M a b) (hN : Agree N a b) : Agree (fun v w => M v w ∧ N v w) a b := by
  cases hM with
  | arrays hM =>
    cases hN with
    | arrays hN =>
      rw [List.forall₂_iff_zip] at hM hN
      exact .arrays (List.forall₂_iff_zip.2 ⟨hM.1, fun h => ⟨hM.2 h, hN.2 h⟩⟩)
  | plains hp hq hk hv =>
    cases hN with
    | plains _ _ _ hv' =>
      exact .plains hp hq hk fun k v w he h h' => ⟨hv k v w he h h', hv' k v w he h h'⟩
  | maps hk hv =>
    cases hN with
    | maps _ hv' => exact .maps hk fun k v w h h' => ⟨hv k v w h h', hv' k v w h h'⟩
  | sets hk => exact .sets hk
  | dates millis => exact .dates millis
  | patterns hs hf => exact .patterns hs hf
  | boxes hb => exact .boxes hb
  | integers element items => exact .integers element items
  | floats element hx => exact .floats element hx
  | dataViews bytes => exact .dataViews bytes

end Object.Agree

/-- Structural objects agree with themselves. -/
theorem Object.agree_self {M : Value → Value → Prop} {o : Object} (hs : o.isStructural = true)
    (hM : ∀ v, M v v) : o.Agree M o := by
  rcases (isStructural_iff o).1 hs with ⟨items, rfl⟩ | ⟨p, rfl, hp⟩
  · exact .arrays (List.forall₂_same.2 fun v _ => hM v)
  · refine .plains hp hp (fun _ => rfl) fun k v w _ hv hw => ?_
    rw [hv] at hw
    cases hw
    exact hM v

/-! ## Containment and equal numbers -/

section
variable {α : Type} {R : α → α → Prop} (hR : ∀ {x y z}, R x z → R y z → R x y)
include hR

/-- Things that are told apart by `R` and each fit something on a list are no
    more than the list holds. -/
theorem length_le_of_contained : ∀ {xs ys : List α}, xs.Pairwise (fun x y => ¬R x y) →
    (∀ x ∈ xs, ∃ y ∈ ys, R x y) → xs.length ≤ ys.length
  | [], _, _, _ => by simp
  | x :: xs, ys, hx, hc => by
    obtain ⟨hx, hxs⟩ := List.pairwise_cons.1 hx
    obtain ⟨y, hy, hxy⟩ := hc x (by simp)
    obtain ⟨s, t, rfl⟩ := List.append_of_mem hy
    -- nothing else on the left fits `y`, so the others fit the rest
    have hrest : ∀ x' ∈ xs, ∃ y' ∈ s ++ t, R x' y' := by
      intro x' hx'
      obtain ⟨y', hy', hxy'⟩ := hc x' (by simp [hx'])
      rcases List.mem_append.1 hy' with h | h
      · exact ⟨y', by simp [h], hxy'⟩
      rcases List.mem_cons.1 h with rfl | h
      · exact absurd (hR hxy hxy') (hx x' hx')
      · exact ⟨y', by simp [h], hxy'⟩
    have := length_le_of_contained hxs hrest
    simp only [List.length_append, List.length_cons] at this ⊢
    omega

/-- If moreover the list is not longer, then each thing on it is fitted. -/
theorem covered {xs ys : List α} (hx : xs.Pairwise fun x y => ¬R x y)
    (hc : ∀ x ∈ xs, ∃ y ∈ ys, R x y) (hlen : ys.length ≤ xs.length) :
    ∀ y ∈ ys, ∃ x ∈ xs, R x y := by
  intro y hy
  by_contra hno
  obtain ⟨s, t, rfl⟩ := List.append_of_mem hy
  have hrest : ∀ x ∈ xs, ∃ y' ∈ s ++ t, R x y' := by
    intro x hx
    obtain ⟨y', hy', hxy'⟩ := hc x hx
    rcases List.mem_append.1 hy' with h | h
    · exact ⟨y', by simp [h], hxy'⟩
    rcases List.mem_cons.1 h with rfl | h
    · exact absurd ⟨x, hx, hxy'⟩ hno
    · exact ⟨y', by simp [h], hxy'⟩
  have := length_le_of_contained (R := R) hR hx hrest
  simp only [List.length_append, List.length_cons] at this hlen
  omega

end

section
variable {α β : Type} {f : α → Option β}

theorem mem_of_mapM : ∀ {xs : List α} {ys : List β}, xs.mapM f = some ys →
    ∀ x ∈ xs, ∃ y ∈ ys, f x = some y
  | [], _, _, x, hx => by simp at hx
  | x :: xs, ys, h, x', hx' => by
    simp only [List.mapM_cons, bind, pure, Option.bind_eq_some_iff, Option.some.injEq] at h
    obtain ⟨y, hy, ys, hys, rfl⟩ := h
    rcases List.mem_cons.1 hx' with rfl | hx'
    · exact ⟨y, by simp, hy⟩
    · obtain ⟨y', hy', he⟩ := mem_of_mapM hys x' hx'
      exact ⟨y', by simp [hy'], he⟩

theorem exists_mapM {P : β → Prop} : ∀ {xs : List α}, (∀ x ∈ xs, ∃ y, f x = some y ∧ P y) →
    ∃ ys, xs.mapM f = some ys ∧ ∀ y ∈ ys, P y
  | [], _ => ⟨[], by simp, by simp⟩
  | x :: xs, h => by
    obtain ⟨y, hy, hP⟩ := h x (by simp)
    obtain ⟨ys, hys, hPs⟩ := exists_mapM fun x' hx' => h x' (List.mem_cons_of_mem _ hx')
    exact ⟨y :: ys, by simp [hy, hys], by simpa [hP] using hPs⟩

end

/-! ## Keys of plain objects -/

namespace PlainObject

variable {p q : PlainObject} {k : Key} {v : Value}

theorem find?_key : ∀ {ps : List Property}, (ps.map Property.key).Nodup → ∀ {a : Property},
    ps.find? (·.key == k) = some a ↔ a ∈ ps ∧ a.key = k
  | [], _, _ => by simp
  | b :: ps, hnd, a => by
    obtain ⟨hb, hps⟩ := List.nodup_cons.1 hnd
    by_cases hk : b.key = k
    · have hno : ∀ c ∈ ps, c.key ≠ k := fun c hc he =>
        hb (List.mem_map.2 ⟨c, hc, he.trans hk.symm⟩)
      simp only [List.find?_cons, hk, beq_self_eq_true, Option.some.injEq, List.mem_cons]
      constructor
      · rintro rfl; exact ⟨Or.inl rfl, hk⟩
      · rintro ⟨rfl | ha, hak⟩
        · rfl
        · exact absurd hak (hno a ha)
    · simp only [List.find?_cons, beq_false_of_ne hk, find?_key hps, List.mem_cons]
      constructor
      · rintro ⟨ha, rfl⟩; exact ⟨Or.inr ha, rfl⟩
      · rintro ⟨rfl | ha, rfl⟩
        · exact absurd rfl hk
        · exact ⟨ha, rfl⟩

theorem find?_eq_some {a : Property} : p.find? k = some a ↔ a ∈ p.properties ∧ a.key = k :=
  find?_key p.nodup

theorem hasEnumerable_iff : p.hasEnumerable k = true ↔
    ∃ a ∈ p.properties, a.key = k ∧ a.enumerable = true := by
  simp [hasEnumerable, Option.any_eq_true, find?_eq_some, and_assoc]

theorem get?_eq_some : p.get? k = some v ↔ ∃ a ∈ p.properties, a.key = k ∧ a.value = v := by
  simp [get?, find?_eq_some, and_assoc]

theorem mem_entries : (k, v) ∈ p.entries ↔ p.hasEnumerable k = true ∧ p.get? k = some v := by
  simp only [entries, names, symbols, List.mem_map, List.mem_append, List.mem_filter,
    Prod.mk.injEq, Bool.and_eq_true, Bool.not_eq_true']
  constructor
  · rintro ⟨a, ⟨ha, he, -⟩ | ⟨ha, he, -⟩, rfl, rfl⟩
    all_goals exact ⟨hasEnumerable_iff.2 ⟨a, ha, rfl, he⟩, get?_eq_some.2 ⟨a, ha, rfl, rfl⟩⟩
  · rintro ⟨he, hv⟩
    obtain ⟨a, ha, rfl, hae⟩ := hasEnumerable_iff.1 he
    obtain ⟨b, hb, hbk, rfl⟩ := get?_eq_some.1 hv
    obtain rfl : b = a := by
      have hfa := find?_eq_some.2 ⟨ha, rfl⟩
      rw [find?_eq_some.2 ⟨hb, hbk⟩] at hfa
      exact Option.some.inj hfa
    cases hs : b.key.isSymbol with
    | false => exact ⟨b, Or.inl ⟨hb, hae, hs⟩, hbk, rfl⟩
    | true => exact ⟨b, Or.inr ⟨hb, hae, hs⟩, hbk, rfl⟩

theorem mem_names :
    k ∈ p.names.map Property.key ↔ p.hasEnumerable k = true ∧ k.isSymbol = false := by
  simp only [names, List.mem_map, List.mem_filter, Bool.and_eq_true, Bool.not_eq_true',
    hasEnumerable_iff]
  constructor
  · rintro ⟨a, ⟨ha, he, hs⟩, rfl⟩; exact ⟨⟨a, ha, rfl, he⟩, hs⟩
  · rintro ⟨⟨a, ha, rfl, he⟩, hs⟩; exact ⟨a, ⟨ha, he, hs⟩, rfl⟩

theorem mem_symbols :
    k ∈ p.symbols.map Property.key ↔ p.hasEnumerable k = true ∧ k.isSymbol = true := by
  simp only [symbols, List.mem_map, List.mem_filter, Bool.and_eq_true, hasEnumerable_iff]
  constructor
  · rintro ⟨a, ⟨ha, he, hs⟩, rfl⟩; exact ⟨⟨a, ha, rfl, he⟩, hs⟩
  · rintro ⟨⟨a, ha, rfl, he⟩, hs⟩; exact ⟨a, ⟨ha, he, hs⟩, rfl⟩

theorem nodup_names (p : PlainObject) : (p.names.map Property.key).Nodup :=
  p.nodup.sublist (List.filter_sublist.map _)

theorem nodup_symbols (p : PlainObject) : (p.symbols.map Property.key).Nodup :=
  p.nodup.sublist (List.filter_sublist.map _)

theorem keys_entries (p : PlainObject) :
    p.entries.map Prod.fst = p.names.map Property.key ++ p.symbols.map Property.key := by
  simp [entries, Function.comp_def]

theorem nodup_entries (p : PlainObject) : (p.entries.map Prod.fst).Nodup := by
  rw [keys_entries, List.nodup_append]
  refine ⟨p.nodup_names, p.nodup_symbols, fun k hk l hl => ?_⟩
  rintro rfl
  rw [mem_names] at hk
  rw [mem_symbols, hk.2] at hl
  simp at hl

theorem mem_keys_entries : k ∈ p.entries.map Prod.fst ↔ p.hasEnumerable k = true := by
  rw [keys_entries, List.mem_append, mem_names, mem_symbols, ← and_or_left]
  cases k.isSymbol <;> simp

theorem exists_get? (h : p.hasEnumerable k = true) : ∃ v, p.get? k = some v := by
  obtain ⟨a, ha, rfl, -⟩ := hasEnumerable_iff.1 h
  exact ⟨a.value, get?_eq_some.2 ⟨a, ha, rfl, rfl⟩⟩

/-- If there are equally many enumerable keys on both sides, then containment
    of the left ones makes them the same. -/
theorem hasEnumerable_eq_of_contained (hn : p.names.length = q.names.length)
    (hs : p.symbols.length = q.symbols.length)
    (hc : ∀ k, p.hasEnumerable k = true → q.hasEnumerable k = true) (k : Key) :
    p.hasEnumerable k = q.hasEnumerable k := by
  have hlen : (q.entries.map Prod.fst).length ≤ (p.entries.map Prod.fst).length := by
    simp [keys_entries, hn, hs]
  have hcov := covered (R := Eq) (fun h h' => h.trans h'.symm) p.nodup_entries
    (fun k hk => ⟨k, mem_keys_entries.2 (hc k (mem_keys_entries.1 hk)), rfl⟩) hlen
  rw [Bool.eq_iff_iff]
  refine ⟨hc k, fun hk => ?_⟩
  obtain ⟨l, hl, rfl⟩ := hcov k (mem_keys_entries.2 hk)
  exact mem_keys_entries.1 hl

theorem length_names_le (h : ∀ k, p.hasEnumerable k = q.hasEnumerable k) :
    p.names.length ≤ q.names.length := by
  have hsub : p.names.map Property.key ⊆ q.names.map Property.key := fun k hk => by
    rw [mem_names] at hk ⊢; rwa [← h]
  simpa using p.nodup_names.length_le_of_subset hsub

theorem length_symbols_le (h : ∀ k, p.hasEnumerable k = q.hasEnumerable k) :
    p.symbols.length ≤ q.symbols.length := by
  have hsub : p.symbols.map Property.key ⊆ q.symbols.map Property.key := fun k hk => by
    rw [mem_symbols] at hk ⊢; rwa [← h]
  simpa using p.nodup_symbols.length_le_of_subset hsub

/-- **The questions about two plain objects**: their enumerable keys are the
    same, and the values under them fit. -/
theorem agree?_iff {M : Value → Value → Prop} :
    (∃ inner, p.agree? q = some inner ∧ ∀ e ∈ inner, M e.1 e.2) ↔
      (∀ k, p.hasEnumerable k = q.hasEnumerable k) ∧
        ∀ k v w, p.hasEnumerable k = true → p.get? k = some v → q.get? k = some w → M v w := by
  rw [agree?]
  constructor
  · rintro ⟨inner, h, hM⟩
    split at h
    next hlen =>
      have hask : ∀ k v, p.hasEnumerable k = true → p.get? k = some v →
          q.hasEnumerable k = true ∧ ∃ w, q.get? k = some w ∧ M v w := by
        intro k v hk hv
        obtain ⟨e, he, hf⟩ := mem_of_mapM h (k, v) (mem_entries.2 ⟨hk, hv⟩)
        dsimp only at hf
        split at hf
        next hq =>
          obtain ⟨w, hw, rfl⟩ := Option.map_eq_some_iff.1 hf
          exact ⟨hq, w, hw, hM _ he⟩
        next => simp at hf
      refine ⟨hasEnumerable_eq_of_contained hlen.1 hlen.2 fun k hk => ?_, fun k v w hk hv hw => ?_⟩
      · obtain ⟨v, hv⟩ := exists_get? hk
        exact (hask k v hk hv).1
      · obtain ⟨-, w', hw', hM'⟩ := hask k v hk hv
        rw [hw] at hw'
        cases hw'
        exact hM'
    next => simp at h
  · rintro ⟨hk, hM⟩
    have hk' := fun k => (hk k).symm
    rw [if_pos ⟨Nat.le_antisymm (length_names_le hk) (length_names_le hk'),
      Nat.le_antisymm (length_symbols_le hk) (length_symbols_le hk')⟩]
    refine exists_mapM fun ⟨k, v⟩ he => ?_
    obtain ⟨he, hv⟩ := mem_entries.1 he
    have hq : q.hasEnumerable k = true := hk k ▸ he
    obtain ⟨w, hw⟩ := exists_get? hq
    exact ⟨(v, w), by simp [hq, hw], hM k v w he hv hw⟩

end PlainObject

/-! ## Keys of maps and elements of sets -/

section
variable {xs ys : List Value}

theorem Value.sameValueZero_left {u v w : Value} (huw : u.sameValueZero w = true)
    (hvw : v.sameValueZero w = true) : u.sameValueZero v = true :=
  sameValueZero_trans huw (by rwa [sameValueZero_comm])

theorem exists_of_any
    (h : ∀ k, xs.any (·.sameValueZero k) = true → ys.any (·.sameValueZero k) = true) :
    ∀ x ∈ xs, ∃ y ∈ ys, x.sameValueZero y = true := by
  intro x hx
  obtain ⟨y, hy, hyx⟩ := List.any_eq_true.1
    (h x (List.any_eq_true.2 ⟨x, hx, Value.sameValueZero_refl x⟩))
  exact ⟨y, hy, by rwa [Value.sameValueZero_comm]⟩

theorem length_le_of_any (hx : xs.Pairwise fun a b => a.sameValueZero b = false)
    (h : ∀ k, xs.any (·.sameValueZero k) = true → ys.any (·.sameValueZero k) = true) :
    xs.length ≤ ys.length :=
  length_le_of_contained (R := fun a b => a.sameValueZero b = true) Value.sameValueZero_left
    (hx.imp fun hab => by simp [hab]) (exists_of_any h)

/-- Values that are told apart and not fewer than those they are among have the
    same members up to sameness. -/
theorem any_eq_of_contained (hx : xs.Pairwise fun a b => a.sameValueZero b = false)
    (hlen : ys.length ≤ xs.length)
    (h : ∀ k, xs.any (·.sameValueZero k) = true → ys.any (·.sameValueZero k) = true) (k : Value) :
    xs.any (·.sameValueZero k) = ys.any (·.sameValueZero k) := by
  refine Bool.eq_iff_iff.2 ⟨h k, fun hk => ?_⟩
  obtain ⟨y, hy, hyk⟩ := List.any_eq_true.1 hk
  obtain ⟨x, hx, hxy⟩ := covered (R := fun a b => a.sameValueZero b = true)
    Value.sameValueZero_left (hx.imp fun hab => by simp [hab]) (exists_of_any h) hlen y hy
  exact List.any_eq_true.2 ⟨x, hx, Value.sameValueZero_trans hxy hyk⟩

end

namespace OrderedMap

variable {m n : OrderedMap} {k l v w : Value}

theorem find?_congr (hkl : k.sameValueZero l = true) : m.find? k = m.find? l := by
  rw [find?, find?]
  congr 1
  funext e
  rw [Bool.eq_iff_iff]
  exact ⟨fun h => Value.sameValueZero_trans h hkl, fun h => Value.sameValueZero_left h hkl⟩

theorem get?_congr (hkl : k.sameValueZero l = true) : m.get? k = m.get? l := by
  rw [get?, get?, find?_congr hkl]

/-- The keys of a map, in order. -/
def keys (m : OrderedMap) : List Value := m.entries.map Prod.fst

theorem keys_apart (m : OrderedMap) : m.keys.Pairwise fun a b => a.sameValueZero b = false :=
  List.pairwise_map.2 m.distinct

theorem contains_eq_any : m.contains k = m.keys.any (·.sameValueZero k) := by
  rw [Bool.eq_iff_iff]
  simp [contains, find?, keys]

theorem find?_entry : ∀ {es : List (Value × Value)},
    es.Pairwise (fun a b => a.1.sameValueZero b.1 = false) → ∀ e ∈ es,
      es.find? (·.1.sameValueZero e.1) = some e
  | [], _, e, he => by simp at he
  | d :: es, hd, e, he => by
    obtain ⟨hd, hes⟩ := List.pairwise_cons.1 hd
    rcases List.mem_cons.1 he with rfl | he
    · simp [Value.sameValueZero_refl]
    · simp [hd e he, find?_entry hes e he]

/-- An entry of a map is what its own key leads to. -/
theorem get?_of_mem {e : Value × Value} (he : e ∈ m.entries) : m.get? e.1 = some e.2 := by
  rw [get?, find?, find?_entry m.distinct e he, Option.map_some]

theorem exists_entry (h : m.get? k = some v) :
    ∃ l, (l, v) ∈ m.entries ∧ l.sameValueZero k = true := by
  obtain ⟨e, he, rfl⟩ := Option.map_eq_some_iff.1 h
  exact ⟨e.1, List.mem_of_find?_eq_some he, by simpa using List.find?_some he⟩

theorem contains_iff : m.contains k = true ↔ ∃ v, m.get? k = some v := by
  rw [contains, get?]
  cases m.find? k <;> simp

/-- **The questions about two maps**: their keys are the same, and the values
    under them fit. -/
theorem agree?_iff {M : Value → Value → Prop} :
    (∃ inner, m.agree? n = some inner ∧ ∀ e ∈ inner, M e.1 e.2) ↔
      (∀ k, m.contains k = n.contains k) ∧
        ∀ k v w, m.get? k = some v → n.get? k = some w → M v w := by
  rw [agree?]
  constructor
  · rintro ⟨inner, h, hM⟩
    split at h
    next hlen =>
      have hask : ∀ k v, m.get? k = some v → ∃ w, n.get? k = some w ∧ M v w := by
        intro k v hv
        obtain ⟨l, hl, hlk⟩ := exists_entry hv
        obtain ⟨p, hp, hf⟩ := mem_of_mapM h _ hl
        obtain ⟨w, hw, rfl⟩ := Option.map_eq_some_iff.1 hf
        exact ⟨w, by rwa [← get?_congr hlk], hM _ hp⟩
      refine ⟨fun k => ?_, fun k v w hv hw => ?_⟩
      · simp only [contains_eq_any]
        refine any_eq_of_contained m.keys_apart (by simp [keys, hlen]) (fun k hk => ?_) k
        rw [← contains_eq_any] at hk ⊢
        obtain ⟨v, hv⟩ := contains_iff.1 hk
        obtain ⟨w, hw, -⟩ := hask k v hv
        exact contains_iff.2 ⟨w, hw⟩
      · obtain ⟨w', hw', hM'⟩ := hask k v hv
        rw [hw] at hw'
        cases hw'
        exact hM'
    next => simp at h
  · rintro ⟨hk, hM⟩
    have hlen : m.entries.length = n.entries.length := by
      simp only [contains_eq_any] at hk
      have hmn := length_le_of_any m.keys_apart fun k h => hk k ▸ h
      have hnm := length_le_of_any n.keys_apart fun k h => (hk k).symm ▸ h
      simp only [keys, List.length_map] at hmn hnm
      omega
    rw [if_pos hlen]
    refine exists_mapM fun e he => ?_
    have hv := get?_of_mem he
    obtain ⟨w, hw⟩ := contains_iff.1 (hk e.1 ▸ contains_iff.2 ⟨_, hv⟩)
    exact ⟨(e.2, w), by simp [hw], hM e.1 e.2 w hv hw⟩

end OrderedMap

theorem OrderedSet.eq_iff {s t : OrderedSet} :
    s.eq t = true ↔ ∀ v, s.contains v = t.contains v := by
  simp only [eq, Bool.and_eq_true, beq_iff_eq, List.all_eq_true]
  constructor
  · rintro ⟨hlen, hall⟩ v
    refine any_eq_of_contained s.distinct (by omega) (fun k hk => ?_) v
    obtain ⟨x, hx, hxk⟩ := List.any_eq_true.1 hk
    obtain ⟨y, hy, hyx⟩ := List.any_eq_true.1 (hall x hx)
    exact List.any_eq_true.2 ⟨y, hy, Value.sameValueZero_trans hyx hxk⟩
  · intro h
    refine ⟨Nat.le_antisymm (length_le_of_any s.distinct fun k hk => ?_)
      (length_le_of_any t.distinct fun k hk => ?_), fun x hx => ?_⟩
    · exact (h k).symm.trans hk
    · exact (h k).trans hk
    · rw [← h]
      exact List.any_eq_true.2 ⟨x, hx, Value.sameValueZero_refl x⟩

theorem TypedArray.floatsEq_iff : ∀ {xs ys : List Binary64},
    floatsEq xs ys = true ↔ List.Forall₂ (fun x y => x.eq y = true) xs ys
  | [], [] => by simp [floatsEq]
  | [], _ :: _ => by simp [floatsEq]
  | _ :: _, [] => by simp [floatsEq]
  | x :: xs, y :: ys => by simp [floatsEq, floatsEq_iff]

/-! ## All kinds -/

/-- **The questions about two objects** are the declarative agreement of the
    objects: nothing is asked of two that disagree. -/
theorem Object.agree?_iff {M : Value → Value → Prop} {a b : Object} :
    (∃ inner, a.agree? b = some inner ∧ ∀ e ∈ inner, M e.1 e.2) ↔ a.Agree M b := by
  constructor
  · rintro ⟨inner, h, hM⟩
    unfold agree? at h
    split at h
    next xs ys =>
      split at h
      next hlen =>
        cases h
        exact .arrays (List.forall₂_iff_zip.2 ⟨hlen, fun he => hM _ he⟩)
      next => simp at h
    next p q =>
      split at h
      next hs =>
        simp only [Bool.and_eq_true, isStructural_iff, reduceCtorEq, exists_false, plain.injEq,
          exists_eq_left', false_or] at hs
        obtain ⟨hk, hv⟩ := PlainObject.agree?_iff.1 ⟨inner, h, hM⟩
        exact .plains hs.1 hs.2 hk hv
      next => simp at h
    next m n =>
      obtain ⟨hk, hv⟩ := OrderedMap.agree?_iff.1 ⟨inner, h, hM⟩
      exact .maps hk hv
    next s t =>
      split at h
      next hs => exact .sets (OrderedSet.eq_iff.1 hs)
      next => simp at h
    next x y =>
      split at h
      next hxy => subst hxy; exact .dates x
      next => simp at h
    next p q =>
      split at h
      next hpq => subst hpq; exact .patterns rfl rfl
      next => simp at h
    next x y =>
      split at h
      next hxy => exact .boxes hxy
      next => simp at h
    next x y =>
      split at h
      next hxy =>
        cases x <;> cases y <;>
          simp only [TypedArray.eq, Bool.and_eq_true, beq_iff_eq, Bool.false_eq_true] at hxy
        · obtain ⟨rfl, rfl⟩ := hxy; exact .integers _ _
        · obtain ⟨rfl, hxy⟩ := hxy; exact .floats _ (TypedArray.floatsEq_iff.1 hxy)
      next => simp at h
    next x y =>
      split at h
      next hxy => subst hxy; exact .dataViews x
      next => simp at h
    next => simp at h
  · intro h
    cases h with
    | @arrays xs ys h =>
      rw [List.forall₂_iff_zip] at h
      exact ⟨xs.zip ys, by simp [agree?, h.1], fun e he => h.2 he⟩
    | @plains p q hp hq hk hv =>
      obtain ⟨inner, hi, hM⟩ := PlainObject.agree?_iff.2 ⟨hk, hv⟩
      exact ⟨inner, by simp [agree?, isStructural_iff, hp, hq, hi], hM⟩
    | maps hk hv => exact OrderedMap.agree?_iff.2 ⟨hk, hv⟩
    | sets hk => exact ⟨[], by simp [agree?, OrderedSet.eq_iff.2 hk], by simp⟩
    | dates millis => exact ⟨[], by simp [agree?], by simp⟩
    | @patterns p q hs hf =>
      have hpq : p = q := by cases p; cases q; simp_all
      exact ⟨[], by simp [agree?, hpq], by simp⟩
    | boxes hb => exact ⟨[], by simp [agree?, hb], by simp⟩
    | integers element items => exact ⟨[], by simp [agree?, TypedArray.eq], by simp⟩
    | floats element hx =>
      exact ⟨[], by simp [agree?, TypedArray.eq, TypedArray.floatsEq_iff.2 hx], by simp⟩
    | dataViews bytes => exact ⟨[], by simp [agree?], by simp⟩

end ValueGraph
