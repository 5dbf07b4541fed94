/-
  Two pruned copies in one heap.

  A comparison without excluded keys prunes its left side, and then its right
  side in the heap that holds the left copy.  What the two copies rebuild lies
  apart; what they share, they share with the source.

  * `Copies.get?_copy`: a copy is its original, rebuilt, and `Copies.of_get?`
    the other way round;
  * `Object.agree_rebuild_self`, `Object.agree_rebuild`: when two rebuilt objects
    agree;
  * `Heap.exists_copies_grown`: the copy of a value in a heap that has grown;
  * `SeparateCopies`: two copies of values of one heap, and
    `Heap.exists_separateCopies`: what a comparison compares;
  * `Heap.deepEqualExcept_self`: a value is equal to itself without whatever
    keys.
-/
import ValueGraph.Proofs.ClosedHeaps
import ValueGraph.Proofs.Reordering

namespace ValueGraph

open Pruning

variable {ε : Type} {x : Exclusion ε}

/-! ## Rebuilt objects -/

namespace PlainObject

variable {prototype : Prototype} {es : List (Key × Value)} {k : Key} {v : Value}

theorem hasEnumerable_ofEntries (hnd : (es.map Prod.fst).Nodup) :
    (ofEntries prototype es).hasEnumerable k = true ↔ k ∈ es.map Prod.fst := by
  rw [hasEnumerable_iff, properties_ofEntries hnd]
  constructor
  · rintro ⟨a, ha, rfl, -⟩
    obtain ⟨e, he, rfl⟩ := List.mem_map.1 ha
    exact List.mem_map.2 ⟨e, he, rfl⟩
  · intro hk
    obtain ⟨e, he, rfl⟩ := List.mem_map.1 hk
    exact ⟨_, List.mem_map.2 ⟨e, he, rfl⟩, rfl, rfl⟩

theorem get?_ofEntries (hnd : (es.map Prod.fst).Nodup) :
    (ofEntries prototype es).get? k = some v ↔ (k, v) ∈ es := by
  rw [get?_eq_some, properties_ofEntries hnd]
  constructor
  · rintro ⟨a, ha, rfl, rfl⟩
    obtain ⟨e, he, rfl⟩ := List.mem_map.1 ha
    exact he
  · intro he
    exact ⟨_, List.mem_map.2 ⟨_, he, rfl⟩, rfl, rfl⟩

theorem eq_of_fields : ∀ {p q : PlainObject}, p.prototype = q.prototype →
    p.properties = q.properties → p = q
  | ⟨_, _, _⟩, ⟨_, _, _⟩, rfl, rfl => rfl

/-- The kept properties with other values, all enumerable. -/
def rebuilt (x : Exclusion ε) (f : Value → Value) (path : KeyPath) (p : PlainObject) :
    PlainObject :=
  .ofEntries p.prototype ((p.entries.filter fun e => x.keeps e.1 path).map fun e => (e.1, f e.2))

variable {p : PlainObject} {f : Value → Value} {path : KeyPath}

theorem nodup_kept : ((((p.entries.filter fun e => x.keeps e.1 path).map fun e =>
    (e.1, f e.2)).map Prod.fst)).Nodup := by
  rw [List.map_map]
  exact p.nodup_entries.sublist (List.filter_sublist.map _)

theorem properties_rebuilt : (p.rebuilt x f path).properties =
    (p.entries.filter fun e => x.keeps e.1 path).map fun e => ⟨e.1, f e.2, true⟩ := by
  rw [rebuilt, properties_ofEntries nodup_kept, List.map_map]
  rfl

theorem hasEnumerable_rebuilt :
    (p.rebuilt x f path).hasEnumerable k = (p.hasEnumerable k && x.keeps k path) := by
  rw [Bool.eq_iff_iff, Bool.and_eq_true, rebuilt, hasEnumerable_ofEntries nodup_kept, List.map_map]
  constructor
  · intro hk
    obtain ⟨e, he, rfl⟩ := List.mem_map.1 hk
    obtain ⟨he, hkeep⟩ := List.mem_filter.1 he
    exact ⟨mem_keys_entries.1 (List.mem_map.2 ⟨e, he, rfl⟩), hkeep⟩
  · rintro ⟨hk, hkeep⟩
    obtain ⟨e, he, rfl⟩ := List.mem_map.1 (mem_keys_entries.2 hk)
    exact List.mem_map.2 ⟨e, List.mem_filter.2 ⟨he, hkeep⟩, rfl⟩

theorem get?_rebuilt : (p.rebuilt x f path).get? k = some v ↔
    p.hasEnumerable k = true ∧ x.keeps k path = true ∧ ∃ u, p.get? k = some u ∧ f u = v := by
  rw [rebuilt, get?_ofEntries nodup_kept]
  constructor
  · intro he
    obtain ⟨⟨l, u⟩, hmem, heq⟩ := List.mem_map.1 he
    cases heq
    obtain ⟨hmem, hkeep⟩ := List.mem_filter.1 hmem
    obtain ⟨hl, hu⟩ := mem_entries.1 hmem
    exact ⟨hl, hkeep, u, hu, rfl⟩
  · rintro ⟨hk, hkeep, u, hu, rfl⟩
    exact List.mem_map.2 ⟨(k, u), List.mem_filter.2 ⟨mem_entries.2 ⟨hk, hu⟩, hkeep⟩, rfl⟩

/-- A plain object is another one with its values replaced. -/
structure Replaced (f : Value → Value) (p q : PlainObject) : Prop where
  prototype : q.prototype = p.prototype
  keys : ∀ k, q.hasEnumerable k = p.hasEnumerable k
  values : ∀ k, q.get? k = (p.get? k).map f

theorem replaced_rebuilt : (p.rebuilt x id path).Replaced f (p.rebuilt x f path) where
  prototype := prototype_ofEntries.trans prototype_ofEntries.symm
  keys k := by rw [hasEnumerable_rebuilt, hasEnumerable_rebuilt]
  values k := by
    refine Option.ext fun v => ?_
    rw [get?_rebuilt, Option.map_eq_some_iff]
    constructor
    · rintro ⟨hk, hkeep, u, hu, rfl⟩
      exact ⟨u, get?_rebuilt.2 ⟨hk, hkeep, u, hu, rfl⟩, rfl⟩
    · rintro ⟨u, hu, rfl⟩
      obtain ⟨hk, hkeep, u', hu', rfl⟩ := get?_rebuilt.1 hu
      exact ⟨hk, hkeep, u', hu', rfl⟩

end PlainObject

namespace Object

variable {M : Value → Value → Prop} {f g : Value → Value} {path path' : KeyPath} {o p : Object}

theorem isStructural_rebuild : (rebuild x f path o).isStructural = o.isStructural := by
  cases o with
  | plain p =>
    rw [Bool.eq_iff_iff, isStructural_iff, isStructural_iff]
    simp [rebuild, PlainObject.prototype_ofEntries]
  | _ => simp [rebuild, isStructural, isAtomic, kind, tag, atomicTags]

/-- No enumerable key of the object at a path is left out. -/
def Spared (x : Exclusion ε) (path : KeyPath) (o : Object) : Prop :=
  ∀ p, o = .plain p → ∀ k, p.hasEnumerable k = true → x.keeps k path = true

section
variable {a b : PlainObject}

theorem Spared.hasEnumerable_rebuilt (hs : (Object.plain a).Spared x path) (k : Key) :
    (a.rebuilt x f path).hasEnumerable k = a.hasEnumerable k := by
  rw [PlainObject.hasEnumerable_rebuilt]
  cases hk : a.hasEnumerable k with
  | false => rfl
  | true => rw [hs a rfl k hk, Bool.and_true]

theorem Spared.get?_rebuilt {k : Key} {v : Value} (hs : (Object.plain a).Spared x path)
    (he : a.hasEnumerable k = true) (hv : a.get? k = some v) :
    (a.rebuilt x f path).get? k = some (f v) :=
  PlainObject.get?_rebuilt.2 ⟨he, hs a rfl k he, v, hv, rfl⟩

end

/-- What is kept of an object is like the object if no key is left out. -/
theorem Spared.alike (hso : o.Spared x path) (ho : o.isStructural = true) :
    (rebuild x id path o).Alike o := by
  rcases (isStructural_iff o).1 ho with ⟨items, rfl⟩ | ⟨a, rfl, -⟩
  · rw [rebuild, List.map_id]
    exact .refl _
  · refine alike_of_lookups (by rw [PlainObject.prototype_ofEntries]) hso.hasEnumerable_rebuilt
      fun k he => ?_
    have hk : a.hasEnumerable k = true := (hso.hasEnumerable_rebuilt k).symm.trans he
    obtain ⟨v, hv⟩ := PlainObject.exists_get? hk
    rw [hv]
    exact hso.get?_rebuilt hk hv

/-- Plain objects with replaced values agree as these do before. -/
theorem agree_replaced {a a' b b' : PlainObject} (ha : a.Replaced f a') (hb : b.Replaced g b') :
    (plain a').Agree M (plain b') ↔ (plain a).Agree (fun v w => M (f v) (g w)) (plain b) := by
  constructor
  · intro h
    cases h with
    | plains hpa hpb hk hv =>
      refine .plains (ha.prototype ▸ hpa) (hb.prototype ▸ hpb)
        (fun k => (ha.keys k).symm.trans ((hk k).trans (hb.keys k))) fun k v w he hav hbw => ?_
      exact hv k (f v) (g w) ((ha.keys k).trans he) (by rw [ha.values, hav]; rfl)
        (by rw [hb.values, hbw]; rfl)
  · intro h
    cases h with
    | plains hpa hpb hk hv =>
      refine .plains (ha.prototype ▸ hpa) (hb.prototype ▸ hpb)
        (fun k => (ha.keys k).trans ((hk k).trans (hb.keys k).symm)) fun k v w he hav hbw => ?_
      rw [ha.values, Option.map_eq_some_iff] at hav
      rw [hb.values, Option.map_eq_some_iff] at hbw
      obtain ⟨v, hav, rfl⟩ := hav
      obtain ⟨w, hbw, rfl⟩ := hbw
      exact hv k v w ((ha.keys k).symm.trans he) hav hbw

/-- **Rebuilt objects agree** as what is kept of their originals does with the
    new values in place of the old ones. -/
theorem agree_rebuild (ho : o.isStructural = true) (hp : p.isStructural = true) :
    (rebuild x f path o).Agree M (rebuild x g path' p) ↔
      (rebuild x id path o).Agree (fun v w => M (f v) (g w)) (rebuild x id path' p) := by
  rcases (isStructural_iff o).1 ho with ⟨xs, rfl⟩ | ⟨a, rfl, -⟩ <;>
    rcases (isStructural_iff p).1 hp with ⟨ys, rfl⟩ | ⟨b, rfl, -⟩
  · constructor <;> intro h <;> cases h with
    | arrays h => exact .arrays (by simpa using h)
  · constructor <;> (intro h; cases h)
  · constructor <;> (intro h; cases h)
  · exact agree_replaced PlainObject.replaced_rebuilt PlainObject.replaced_rebuilt

/-- Structural objects that are rebuilt twice in the same way agree if the two
    values for each value fit. -/
theorem agree_rebuild_self (hs : o.isStructural = true) (hM : ∀ v, M (f v) (g v)) :
    (rebuild x f path o).Agree M (rebuild x g path o) :=
  (agree_rebuild hs hs).2 (agree_self (isStructural_rebuild.trans hs) hM)

/-- **Objects rebuilt in full** agree as their originals do with the new values
    in place of the old ones. -/
theorem agree_rebuild_iff (ho : o.isStructural = true) (hp : p.isStructural = true)
    (hso : o.Spared x path) (hsp : p.Spared x path') :
    (rebuild x f path o).Agree M (rebuild x g path' p) ↔ o.Agree (fun v w => M (f v) (g w)) p :=
  (agree_rebuild ho hp).trans ⟨(hso.alike ho).agree (hsp.alike hp),
    (hso.alike ho).symm.agree (hsp.alike hp).symm⟩

end Object

/-! ## Copies and what is added later -/

namespace Pruning

variable {h copy g : Heap} {log log' : List Event} {c d : Ref → Option Ref} {a b v : Value}

/-- **The copy of an object** is the object rebuilt at the path by which it was
    met. -/
theorem Copies.get?_copy (hc : Copies h x log c copy) {r s : Ref} {path : KeyPath} {o : Object}
    (hm : .met r path ∈ log) (hs : c r = some s) (ho : h.get? r = some o) :
    copy.get? s = some (rebuild x (image c) path o) := by
  obtain ⟨o', ho', hstruct⟩ := hc.structural r s hs
  rw [ho] at ho'
  cases ho'
  rcases (Object.isStructural_iff o).1 hstruct with ⟨items, rfl⟩ | ⟨p, rfl, -⟩
  · exact hc.arrays r s items hs ho
  · obtain ⟨q, hq, hproto, hprops⟩ := hc.plains r path s p hm hs ho
    have hq' : q = p.rebuilt x (image c) path :=
      PlainObject.eq_of_fields (hproto.trans PlainObject.prototype_ofEntries.symm)
        (hprops.trans PlainObject.properties_rebuilt.symm)
    rw [hq, hq']
    rfl

/-- A map of the objects met describes a copy if it leads to new objects, which
    are the originals rebuilt. -/
theorem Copies.of_get? (hold : ∀ r, r.index < h.size → copy.get? r = h.get? r)
    (hdomain : ∀ r, (c r).isSome = true ↔ Met log r)
    (hstruct : ∀ r s, c r = some s → ∃ o, h.get? r = some o ∧ o.isStructural = true)
    (hfresh : ∀ r s, c r = some s → h.size ≤ s.index) (hinj : OneToOne c)
    (hget : ∀ r path s o, .met r path ∈ log → c r = some s → h.get? r = some o →
      copy.get? s = some (rebuild x (image c) path o)) : Copies h x log c copy where
  old := hold
  domain := hdomain
  structural := hstruct
  fresh := hfresh
  injective := hinj
  arrays r s items hs ho := by
    obtain ⟨path, hm⟩ := (hdomain r).1 (by rw [hs]; rfl)
    exact hget r path s _ hm hs ho
  plains r path s p hm hs ho := ⟨_, hget r path s _ hm hs ho, PlainObject.prototype_ofEntries,
    PlainObject.properties_rebuilt⟩

/-- A copy stays when the heap grows. -/
theorem Copies.extend (hc : Copies h x log c copy)
    (hg : ∀ r, r.index < copy.size → g.get? r = copy.get? r) : Copies h x log c g where
  old := Heap.old_trans hc.old hg
  domain := hc.domain
  structural := hc.structural
  fresh := hc.fresh
  injective := hc.injective
  arrays r s items hs ho := by
    have hget := hc.arrays r s items hs ho
    rw [hg s (Heap.lt_of_get? hget), hget]
  plains r path s p hm hs ho := by
    obtain ⟨q, hq, hrest⟩ := hc.plains r path s p hm hs ho
    exact ⟨q, by rw [hg s (Heap.lt_of_get? hq), hq], hrest⟩

/-- A copy made in a heap that has grown, of old objects only, is a copy of the
    old heap, too. -/
theorem Copies.restrict (hc : Copies copy x log c g)
    (hold : ∀ r, r.index < h.size → copy.get? r = h.get? r)
    (hin : ∀ r, Met log r → r.index < h.size) : Copies h x log c g := by
  have hsize := Heap.size_le_of_old hold
  have hlt : ∀ r s, c r = some s → r.index < h.size := fun r s hs =>
    hin r ((hc.domain r).1 (by rw [hs]; rfl))
  refine ⟨fun r hr => ?_, hc.domain, fun r s hs => ?_, fun r s hs => ?_, hc.injective,
    fun r s items hs ho => ?_, fun r path s p hm hs ho => ?_⟩
  · rw [hc.old r (Nat.lt_of_lt_of_le hr hsize), hold r hr]
  · obtain ⟨o, ho, hstruct⟩ := hc.structural r s hs
    exact ⟨o, by rw [← hold r (hlt r s hs), ho], hstruct⟩
  · exact Nat.le_trans hsize (hc.fresh r s hs)
  · exact hc.arrays r s items hs (by rw [hold r (hlt r s hs), ho])
  · exact hc.plains r path s p hm hs (by rw [hold r (hlt r s hs), ho])

/-! ## Separate copies -/

/-- Pruned copies of two values of one heap that rebuild no object in common. -/
structure SeparateCopies (h : Heap) (x : Exclusion ε) (a b : Value) (log log' : List Event)
    (c d : Ref → Option Ref) (g : Heap) : Prop where
  left : Traverses h x a log
  right : Traverses h x b log'
  copies : Copies h x log c g
  copies' : Copies h x log' d g
  apart : ∀ l r s, c l = some s → d r ≠ some s

end Pruning

namespace Heap

variable {h : Heap} {a b v : Value}

/-- What is added to a closed heap does not change the copies of old values. -/
theorem exists_copies_grown {g : Heap} (hc : h.Closed)
    (hg : ∀ r, r.index < h.size → g.get? r = h.get? r) (hv : InHeap h v) (hx : x.Total) :
    ∃ copy log c, (g.prune v x).outcome = .ok copy ∧ copy.value = image c v ∧
      Traverses h x v log ∧ Copies g x log c copy.heap := by
  obtain ⟨copy, log, c, hout, hvalue, ht, hcopies⟩ := exists_copies g v hx
  obtain ⟨-, log₀, -, ht₀, -⟩ := traverses_run (h := h) hx v
  obtain rfl : log = log₀ := ht.deterministic (ht₀.grow hg hc hv)
  exact ⟨copy, log, c, hout, hvalue, ht₀, hcopies⟩

/-- **What a comparison without excluded keys compares**: two copies that lie
    apart. -/
theorem exists_separateCopies (hc : h.Closed) (hb : InHeap h b) (hx : x.Total)
    (hne : x.isEmpty = false) : ∃ log log' c d g, SeparateCopies h x a b log log' c d g ∧
      (h.deepEqualExcept a b x).outcome = .ok (g.deepEqual (image c a) (image d b)) := by
  obtain ⟨l, log, c, hl, hlv, hlt, hlc⟩ := exists_copies h a hx
  obtain ⟨r, log', d, hr, hrv, hrt, hrc⟩ := exists_copies_grown hc hlc.old hb hx
  refine ⟨log, log', c, d, r.heap,
    ⟨hlt, hrt, hlc.extend hrc.old, hrc.restrict hlc.old fun r hm => hrt.lt_size hm, ?_⟩, ?_⟩
  · intro l' r' s hs hs'
    have hnew := hrc.fresh r' s hs'
    obtain ⟨path, hm⟩ := (hlc.domain l').1 (by rw [hs]; rfl)
    obtain ⟨o, ho, -⟩ := hlc.structural l' s hs
    have hlt := lt_of_get? (hlc.get?_copy hm hs ho)
    omega
  · rw [deepEqualExcept, hne]
    simp only [Bool.false_eq_true, if_false, hl, hr, hlv, hrv, Except.map]

/-! ## A value and itself -/

section
variable {log log' : List Event} {c d : Ref → Option Ref} {g : Heap}

/-- The two copies of one object. -/
def Twins (c d : Ref → Option Ref) (s r : Ref) : Prop := ∃ t, c t = some s ∧ d t = some r

theorem twins_unique (hinj : OneToOne c) (s r r' : Ref) (hr : Twins c d s r)
    (hr' : Twins c d s r') : r = r' := by
  obtain ⟨t, hs, hr⟩ := hr
  obtain ⟨t', hs', hr'⟩ := hr'
  obtain rfl := hinj t t' s hs hs'
  rw [hr] at hr'
  exact Option.some.inj hr'

theorem counterpart_twins (hinj : OneToOne c) {s r : Ref} :
    counterpart (Twins c d) s = some r ↔ ∃ t, c t = some s ∧ d t = some r :=
  counterpart_eq_some (twins_unique hinj)

/-- Where the same objects are copied, the two images of a value fit. -/
theorem matched_twins (hinj : OneToOne c) (hdom : ∀ t, (c t).isSome = (d t).isSome) (u : Value) :
    Matched (counterpart (Twins c d)) (image c u) (image d u) := by
  cases u with
  | object t =>
    have ht := hdom t
    cases hs : c t with
    | none =>
      have hr : d t = none := by rwa [hs, eq_comm, Option.isSome_none, Option.isSome_eq_false_iff,
        Option.isNone_iff_eq_none] at ht
      rw [image, image, hs, hr]
      exact .same t
    | some s =>
      obtain ⟨r, hr⟩ := Option.isSome_iff_exists.1 (by rw [← ht, hs]; rfl)
      rw [image, image, hs, hr]
      exact .paired ((counterpart_twins hinj).2 ⟨t, hs, hr⟩)
  | _ => exact .refl _

/-- The two copies of one value correspond. -/
theorem correspondence_twins (hs : SeparateCopies h x v v log log' c d g) :
    g.Correspondence (counterpart (Twins c d)) (image c v) (image d v) := by
  obtain ⟨ht, ht', hc, hd, -⟩ := hs
  -- the same value is traversed twice, so the same objects are met by the same paths
  obtain rfl := ht.deterministic ht'
  have hdom : ∀ t, (c t).isSome = (d t).isSome := fun t => by
    rw [Bool.eq_iff_iff, hc.domain, hd.domain]
  refine ⟨matched_twins hc.injective hdom v, fun s r hsr _ => ?_⟩
  obtain ⟨t, hs, hr⟩ := (counterpart_twins hc.injective).1 hsr
  obtain ⟨path, hm⟩ := (hc.domain t).1 (by rw [hs]; rfl)
  obtain ⟨o, ho, hstruct⟩ := hc.structural t s hs
  exact ⟨_, _, hc.get?_copy hm hs ho, hd.get?_copy hm hr ho,
    Object.agree_rebuild_self hstruct (matched_twins hc.injective hdom)⟩

end

/-- **A value is equal to itself** without whatever keys, though each side is a
    copy of its own: what is equal to no copy of itself is not copied. -/
theorem deepEqualExcept_self (hc : h.Closed) (hv : InHeap h v) (hx : x.Total) :
    (h.deepEqualExcept v v x).outcome = .ok true := by
  cases he : x.isEmpty with
  | true =>
    have hcorr : h.Correspondence (fun _ => none) v v := ⟨.refl v, fun l r hl => by simp at hl⟩
    rw [deepEqualExcept, he, if_pos rfl, hcorr.deepEqual]
  | false =>
    obtain ⟨log, log', c, d, g, hs, hout⟩ := exists_separateCopies (a := v) hc hv hx he
    rw [hout, (correspondence_twins hs).deepEqual]

/-- An object that holds itself, an invalid date, and a map with both. -/
def knot : Heap :=
  ⟨#[.plain (.ofEntries .object
      [(.name "self", .object ⟨0⟩), (.name "made", .object ⟨1⟩), (.name "seen", .object ⟨2⟩)]),
    .date none, .map (.ofEntries [(.object ⟨0⟩, .object ⟨1⟩)])]⟩

/-- Leaves out one key below the root only. -/
def nestedExcluded : Exclusion Empty :=
  Exclusion.nothing.withPredicate fun k path => .ok (path != .root && k == .name "made")

theorem deepEqualExcept_self_knot : knot.Closed ∧ InHeap knot (.object ⟨0⟩) ∧
    nestedExcluded.Total ∧
    (knot.deepEqualExcept (.object ⟨0⟩) (.object ⟨0⟩) nestedExcluded).outcome = .ok true := by
  have hc : knot.Closed := by decide
  have hv : InHeap knot (.object ⟨0⟩) := by decide
  have hx : nestedExcluded.Total := by
    intro p hp k path
    cases hp
    exact ⟨_, rfl⟩
  exact ⟨hc, hv, hx, deepEqualExcept_self hc hv hx⟩

end Heap

end ValueGraph
