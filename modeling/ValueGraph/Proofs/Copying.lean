/-
  Pruned copies, declaratively.

  A pruned copy is given by a one-to-one map from the objects that the
  traversal meets to new ones.  The map extends to values by leaving alone
  what it does not copy (`image`), and the copy of an object holds the images
  of what the object keeps.

  * `image c`: what stands for a value in the copy;
  * `Copies`: the map `c` describes the copy that a traversal leaves;
  * `Heap.exists_copies`: `Heap.prune` gives such a copy if the predicate
    rejects nothing;
  * `Heap.prune_isomorphic`: the map, the traversal and the copy together, and
    what follows for sharing and for the ignored keys.
-/
import ValueGraph.Proofs.Agreement
import ValueGraph.Proofs.Traversal

namespace ValueGraph

/-! ## Properties in order -/

namespace PlainObject

variable {prototype : Prototype} {es : List (Key × Value)}

theorem mem_defineIn {new a : Property} : ∀ {ps : List Property},
    a ∈ defineIn new ps → a = new ∨ a ∈ ps
  | [], ha => by simpa [defineIn] using ha
  | p :: ps, ha => by
    rw [defineIn] at ha
    split at ha
    · exact (List.mem_cons.1 ha).imp_right (List.mem_cons_of_mem _)
    · rcases List.mem_cons.1 ha with rfl | ha
      · exact Or.inr (List.mem_cons_self ..)
      · exact (mem_defineIn ha).imp_right (List.mem_cons_of_mem _)

theorem defineIn_of_not_mem (new : Property) : ∀ {ps : List Property},
    new.key ∉ ps.map Property.key → defineIn new ps = ps ++ [new]
  | [], _ => rfl
  | p :: ps, h => by
    obtain ⟨hp, hps⟩ := not_or.1 (mt List.mem_cons.2 h)
    rw [defineIn, if_neg (Ne.symm hp), defineIn_of_not_mem new hps, List.cons_append]

theorem properties_insert_all : ∀ {es : List (Key × Value)} {o : PlainObject},
    (o.keys ++ es.map Prod.fst).Nodup →
      (es.foldl (fun o e => (o.insert e.1 e.2).2) o).properties =
        o.properties ++ es.map fun e => ⟨e.1, e.2, true⟩
  | [], o, _ => by simp
  | e :: es, o, h => by
    have hnew : (o.insert e.1 e.2).2.properties = o.properties ++ [⟨e.1, e.2, true⟩] := by
      refine defineIn_of_not_mem _ fun hk => ?_
      exact (List.nodup_append.1 h).2.2 e.1 hk e.1 (by simp) rfl
    have hkeys : (o.insert e.1 e.2).2.keys = o.keys ++ [e.1] := by
      rw [keys, hnew, List.map_append]; rfl
    rw [List.foldl_cons, properties_insert_all (by rw [hkeys]; simpa using h), hnew]
    simp

/-- Entries with distinct keys become properties in their order. -/
theorem properties_ofEntries (h : (es.map Prod.fst).Nodup) :
    (ofEntries prototype es).properties = es.map fun e => ⟨e.1, e.2, true⟩ := by
  rw [ofEntries, properties_insert_all (by simpa [keys, empty] using h)]
  rfl

/-- Enumerable properties are entries in their order if string keys come before
    symbol keys. -/
theorem entries_eq_append {o : PlainObject} {es' : List (Key × Value)}
    (h : o.properties = (es ++ es').map fun e => ⟨e.1, e.2, true⟩)
    (hn : ∀ e ∈ es, e.1.isSymbol = false) (hs : ∀ e ∈ es', e.1.isSymbol = true) :
    o.entries = es ++ es' := by
  have hfilter : ∀ kind : Key → Bool, (o.properties.filter fun p => p.enumerable && kind p.key) =
      ((es ++ es').filter fun e => kind e.1).map fun e => ⟨e.1, e.2, true⟩ := by
    intro kind
    rw [h, List.filter_map]
    rfl
  have hnames : (es ++ es').filter (fun e => !e.1.isSymbol) = es := by
    rw [List.filter_append, List.filter_eq_self.2 fun e he => by rw [hn e he]; rfl,
      List.filter_eq_nil_iff.2 fun e he => by rw [hs e he]; simp, List.append_nil]
  have hsymbols : (es ++ es').filter (fun e => e.1.isSymbol) = es' := by
    rw [List.filter_append, List.filter_eq_self.2 hs,
      List.filter_eq_nil_iff.2 fun e he => by rw [hn e he]; simp, List.nil_append]
  rw [entries, names, symbols, hfilter fun k => !k.isSymbol, hfilter Key.isSymbol, hnames, hsymbols,
    ← List.map_append, List.map_map]
  exact List.map_id _

/-- Enumerable properties with string keys are entries in their order. -/
theorem entries_eq {o : PlainObject} (h : o.properties = es.map fun e => ⟨e.1, e.2, true⟩)
    (hn : ∀ e ∈ es, e.1.isSymbol = false) : o.entries = es :=
  (entries_eq_append (by rw [h, List.append_nil]) hn (by simp)).trans (List.append_nil es)

theorem prototype_insert_all : ∀ (es : List (Key × Value)) (o : PlainObject),
    (es.foldl (fun o e => (o.insert e.1 e.2).2) o).prototype = o.prototype
  | [], _ => rfl
  | e :: es, o => by rw [List.foldl_cons, prototype_insert_all es]; rfl

theorem prototype_ofEntries : (ofEntries prototype es).prototype = prototype :=
  prototype_insert_all es _

end PlainObject

theorem Heap.parts?_isSome {h : Heap} {r : Ref} :
    (h.parts? r).isSome = true ↔ ∃ o, h.get? r = some o ∧ o.isStructural = true := by
  rw [parts?]
  cases h.get? r with
  | none => simp
  | some o =>
    simp only [Option.bind_some, Option.some.injEq, exists_eq_left']
    cases o with
    | plain p => rw [Object.parts?]; split <;> simp_all
    | _ => simp [Object.parts?, Object.isStructural_iff]

/-- A heap does not get smaller when its objects stay. -/
theorem Heap.size_le_of_old {h copy : Heap}
    (hold : ∀ r, r.index < h.size → copy.get? r = h.get? r) : h.size ≤ copy.size := by
  by_contra hlt
  have hr : (⟨copy.size⟩ : Ref).index < h.size := Nat.lt_of_not_le hlt
  have hnone : copy.get? ⟨copy.size⟩ = none := by simp [get?, size]
  have hsome : (h.get? ⟨copy.size⟩).isSome = true := by
    simp only [size] at hr
    simp [get?, size, hr]
  rw [← hold _ hr, hnone] at hsome
  simp at hsome

/-- Objects that stay in one heap and then in another stay in both. -/
theorem Heap.old_trans {h g k : Heap} (hg : ∀ r, r.index < h.size → g.get? r = h.get? r)
    (hk : ∀ r, r.index < g.size → k.get? r = g.get? r) :
    ∀ r, r.index < h.size → k.get? r = h.get? r := fun r hr =>
  (hk r (Nat.lt_of_lt_of_le hr (size_le_of_old hg))).trans (hg r hr)

namespace Pruning

variable {ε : Type}

/-! ## Images -/

/-- What stands for a value in a copy of the objects that `c` maps: the copy of
    an object, and everything else itself. -/
def image (c : Ref → Option Ref) : Value → Value
  | .object r => .object ((c r).getD r)
  | v => v

/-- The value is a primitive, a function or an object of the heap. -/
def InHeap (h : Heap) (v : Value) : Prop := ∀ r, v = .object r → r.index < h.size

/-- **A pruned copy**: the objects met, and no others, are copied, each to a new
    object of its own.  The copy of an array holds the images of the elements.
    The copy of a plain object has its prototype and, all enumerable, the kept
    ones of its enumerable properties, string keys first; which ones are kept
    is decided at the path by which the object was met. -/
structure Copies (h : Heap) (x : Exclusion ε) (log : List Event) (c : Ref → Option Ref)
    (copy : Heap) : Prop where
  old : ∀ r, r.index < h.size → copy.get? r = h.get? r
  domain : ∀ r, (c r).isSome = true ↔ Met log r
  structural : ∀ r s, c r = some s → ∃ o, h.get? r = some o ∧ o.isStructural = true
  fresh : ∀ r s, c r = some s → h.size ≤ s.index
  injective : OneToOne c
  arrays : ∀ r s items, c r = some s → h.get? r = some (.array items) →
    copy.get? s = some (.array (items.map (image c)))
  plains : ∀ r path s p, .met r path ∈ log → c r = some s → h.get? r = some (.plain p) →
    ∃ q : PlainObject, copy.get? s = some (.plain q) ∧ q.prototype = p.prototype ∧
      q.properties =
        (p.entries.filter fun e => x.keeps e.1 path).map fun e => ⟨e.1, image c e.2, true⟩

section
variable {h copy : Heap} {x : Exclusion ε} {log : List Event} {c : Ref → Option Ref}

/-- Objects that are units stand for themselves. -/
theorem Copies.image_unit (hc : Copies h x log c copy) {r : Ref} {o : Object}
    (ho : h.get? r = some o) (hu : o.isStructural = false) :
    image c (.object r) = .object r := by
  cases hr : c r with
  | none => rw [image, hr]; rfl
  | some s =>
    obtain ⟨o', ho', hs⟩ := hc.structural r s hr
    rw [ho] at ho'
    cases ho'
    rw [hu] at hs
    simp at hs

/-- A copy lies after the end of the heap. -/
theorem Copies.ne_copy (hc : Copies h x log c copy) {r s s' : Ref} (hr : r.index < h.size)
    (hs : c s = some s') : r ≠ s' := by
  rintro rfl
  have := hc.fresh s r hs
  omega

/-- Sharing is kept: two values have the same image only if they are the
    same. -/
theorem Copies.image_eq_iff (hc : Copies h x log c copy) {u w : Value} (hu : InHeap h u)
    (hw : InHeap h w) : image c u = image c w ↔ u = w := by
  constructor
  · intro he
    cases u with
    | object r =>
      cases w with
      | object s =>
        have hr := hu r rfl
        have hs := hw s rfl
        simp only [image, Value.object.injEq] at he
        cases hcr : c r with
        | none =>
          cases hcs : c s with
          | none => simpa [hcr, hcs] using he
          | some s' => exact absurd (by simpa [hcr, hcs] using he) (hc.ne_copy hr hcs)
        | some r' =>
          cases hcs : c s with
          | none => exact absurd (by simpa [hcr, hcs] using he.symm) (hc.ne_copy hs hcr)
          | some s' =>
            obtain rfl : r' = s' := by simpa [hcr, hcs] using he
            rw [hc.injective r s r' hcr hcs]
      | _ => simp [image] at he
    | _ => cases w <;> simp_all [image]
  · rintro rfl
    rfl

/-- No copy has an ignored key. -/
theorem Copies.not_mem_keys (hc : Copies h x log c copy) {r s : Ref} {q : PlainObject}
    (hr : c r = some s) (hq : copy.get? s = some (.plain q)) {k : Key} (hk : k ∈ x.keys) :
    k ∉ q.keys := by
  obtain ⟨path, hm⟩ := (hc.domain r).1 (by simp [hr])
  obtain ⟨o, ho, hs⟩ := hc.structural r s hr
  rcases (Object.isStructural_iff o).1 hs with ⟨items, rfl⟩ | ⟨p, rfl, -⟩
  · rw [hc.arrays r s items hr ho] at hq
    simp at hq
  · obtain ⟨q', hq', -, hps⟩ := hc.plains r path s p hm hr ho
    rw [hq] at hq'
    cases hq'
    intro hmem
    simp only [PlainObject.keys, hps, List.map_map, List.mem_map, List.mem_filter,
      Function.comp_apply] at hmem
    obtain ⟨e, ⟨-, hkeep⟩, rfl⟩ := hmem
    simp [Exclusion.keeps, Exclusion.excludes, hk] at hkeep

end

/-! ## The copy that a walk leaves -/

section
variable {h : Heap} {x : Exclusion ε}

theorem getElem?_filterMap {α β : Type} {f : α → Option β} : ∀ {l : List α},
    (∀ a ∈ l, (f a).isSome = true) → ∀ i : Nat, (l.filterMap f)[i]? = l[i]?.bind f
  | [], _, i => by simp
  | a :: l, hl, i => by
    obtain ⟨b, hb⟩ := Option.isSome_iff_exists.1 (hl a (by simp))
    rw [List.filterMap_cons_some hb]
    cases i with
    | zero => simp [hb]
    | succ i => simpa using getElem?_filterMap (fun a ha => hl a (List.mem_cons_of_mem _ ha)) i

/-- The map from the objects with a place to their copies after the end of the
    heap. -/
def copyOf (h : Heap) (place : IdentityMap h.size Nat) (r : Ref) : Option Ref :=
  (place.get? r).map fun i => ⟨h.size + i⟩

theorem relocate_eq_image (place : IdentityMap h.size Nat) :
    relocate h.size place = image (copyOf h place) := by
  funext v
  cases v with
  | object r => rw [relocate, image, copyOf]; cases place.get? r <;> rfl
  | _ => rfl

/-- An object is met by one path only. -/
theorem Numbered.path_unique {place : IdentityMap h.size Nat} {met : List (Ref × KeyPath)}
    (hn : Numbered h place met) {r : Ref} {path path' : KeyPath} (hm : (r, path) ∈ met)
    (hm' : (r, path') ∈ met) : path = path' := by
  obtain ⟨i, hi⟩ := List.mem_iff_getElem?.1 (List.mem_reverse.2 hm)
  obtain ⟨j, hj⟩ := List.mem_iff_getElem?.1 (List.mem_reverse.2 hm')
  have hpi := (hn.place_iff r i).2 ⟨path, hi⟩
  have hpj := (hn.place_iff r j).2 ⟨path', hj⟩
  rw [hpi] at hpj
  cases hpj
  rw [hi] at hj
  cases hj
  rfl

/-- The object at the place of a copy is the rebuilt original. -/
theorem Numbered.get?_copy {t : State h.size} (hn : Numbered h t.place t.met) {r s : Ref}
    {path : KeyPath} {o : Object} (hm : (r, path) ∈ t.met) (hs : copyOf h t.place r = some s)
    (ho : h.get? r = some o) :
    (⟨h.objects ++ (h.copies x t).toArray⟩ : Heap).get? s =
      some (rebuild x (image (copyOf h t.place)) path o) := by
  obtain ⟨i, hi, rfl⟩ := Option.map_eq_some_iff.1 hs
  obtain ⟨path', hp⟩ := (hn.place_iff r i).1 hi
  have hm' : (r, path') ∈ t.met := List.mem_reverse.1 (List.mem_of_getElem? hp)
  obtain rfl := hn.path_unique hm hm'
  have hall : ∀ visit ∈ t.met.reverse, ((h.get? visit.1).map
      (rebuild x (relocate h.size t.place) visit.2)).isSome = true := by
    rintro ⟨r', path'⟩ hv
    obtain ⟨o', ho', -⟩ := Heap.parts?_isSome.1 (hn.parts r' path' (List.mem_reverse.1 hv))
    simp [ho']
  show (h.objects ++ (h.copies x t).toArray)[h.objects.size + i]? = _
  rw [Array.getElem?_append_right (Nat.le_add_right ..), Nat.add_sub_cancel_left,
    List.getElem?_toArray, Heap.copies, getElem?_filterMap hall, hp, relocate_eq_image]
  simp [ho]

theorem Behind.copies {t : State h.size} {log : List Event} (hb : Behind h t log) :
    Copies h x log (copyOf h t.place) ⟨h.objects ++ (h.copies x t).toArray⟩ := by
  have hmet : ∀ r path, (r, path) ∈ t.met ↔ .met r path ∈ log := by
    intro r path
    rw [hb.met, mem_met]
  have hdomain : ∀ r, (copyOf h t.place r).isSome = true ↔ Met log r := by
    intro r
    rw [copyOf, Option.isSome_map, Option.isSome_iff_ne_none, hb.get?_ne_none]
  refine ⟨fun r hr => ?_, hdomain, fun r s hs => ?_, fun r s hs => ?_, fun r r' s hs hs' => ?_,
    fun r s items hs ho => ?_, fun r path s p hm hs ho => ?_⟩
  · rw [Heap.size] at hr
    simp [Heap.get?, Array.getElem?_append_left hr]
  · obtain ⟨path, hm⟩ := (hdomain r).1 (by simp [hs])
    exact Heap.parts?_isSome.1 (hb.numbered.parts r path ((hmet r path).2 hm))
  · obtain ⟨i, -, rfl⟩ := Option.map_eq_some_iff.1 hs
    exact Nat.le_add_right ..
  · obtain ⟨i, hi, rfl⟩ := Option.map_eq_some_iff.1 hs
    obtain ⟨j, hj, hij⟩ := Option.map_eq_some_iff.1 hs'
    simp only [Ref.mk.injEq, Nat.add_left_cancel_iff] at hij
    subst hij
    obtain ⟨path, hp⟩ := (hb.numbered.place_iff r j).1 hi
    obtain ⟨path', hp'⟩ := (hb.numbered.place_iff r' j).1 hj
    rw [hp] at hp'
    cases hp'
    rfl
  · obtain ⟨path, hm⟩ := (hdomain r).1 (by simp [hs])
    exact hb.numbered.get?_copy ((hmet r path).2 hm) hs ho
  · refine ⟨_, hb.numbered.get?_copy ((hmet r path).2 hm) hs ho,
      PlainObject.prototype_ofEntries, ?_⟩
    rw [PlainObject.properties_ofEntries, List.map_map]
    · rfl
    · rw [List.map_map]
      exact p.nodup_entries.sublist (List.filter_sublist.map _)

end

end Pruning

open Pruning

namespace Heap

variable {ε : Type} {x : Exclusion ε}

/-- Pruning gives a pruned copy if the predicate rejects nothing. -/
theorem exists_copies (h : Heap) (v : Value) (hx : x.Total) : ∃ copy log c,
    (h.prune v x).outcome = .ok copy ∧ copy.value = image c v ∧ Traverses h x v log ∧
      Copies h x log c copy.heap := by
  obtain ⟨t, log, ht, hv, hb⟩ := traverses_run hx v
  refine ⟨_, log, copyOf h t.place, by rw [prune, ht], ?_, hv, hb.copies⟩
  rw [← relocate_eq_image]

/-- **Pruning, exactly.**  If the predicate rejects nothing, pruning gives the
    copy that a one-to-one map of the objects met by the one depth-first
    traversal describes.  Nothing that is kept is missing, what is not copied
    stands for itself, two values have the same image if and only if they are
    the same, and no copy has an ignored key. -/
theorem prune_isomorphic (h : Heap) (v : Value) (hx : x.Total) : ∃ copy log c,
    (h.prune v x).outcome = .ok copy ∧ copy.value = image c v ∧
      (∀ log', Traverses h x v log' ↔ log' = log) ∧ Exhausts h x v log ∧
      Copies h x log c copy.heap ∧
      (∀ r o, h.get? r = some o → o.isStructural = false → image c (.object r) = .object r) ∧
      (∀ u w, InHeap h u → InHeap h w → (image c u = image c w ↔ u = w)) ∧
      ∀ r s q, c r = some s → copy.heap.get? s = some (.plain q) → ∀ k ∈ x.keys, k ∉ q.keys := by
  obtain ⟨copy, log, c, hout, hvalue, ht, hc⟩ := exists_copies h v hx
  refine ⟨copy, log, c, hout, hvalue, fun log' => ⟨fun ht' => ht'.deterministic ht, ?_⟩,
    ht.exhausts, hc, fun r o => hc.image_unit, fun u w => hc.image_eq_iff,
    fun r s q hr hq k => hc.not_mem_keys hr hq⟩
  rintro rfl
  exact ht

/-- An object that holds itself, a key that is ignored, and a second object
    under two keys; the second object holds the first one. -/
def loop : Heap :=
  ⟨#[.plain (.ofEntries .object [(.name "self", .object ⟨0⟩), (.name "secret", .null),
      (.name "p", .object ⟨1⟩), (.name "q", .object ⟨1⟩)]),
    .plain (.ofEntries .object [(.name "id", .null), (.name "owner", .object ⟨0⟩)])]⟩

/-- Ignores that key and has no predicate. -/
def secretIgnored : Exclusion Empty := Exclusion.nothing.ignoreKey (.name "secret")

/-- Where the first of the two keys leads. -/
def firstWay : KeyPath := .step .root (.key (.name "p"))

/-- Ignores the same key everywhere and leaves out another one there. -/
def idDropped : Exclusion Empty :=
  secretIgnored.withPredicate fun k path => .ok (k == .name "id" && path == firstWay)

/-- The second object is met where the first key leads and not entered again
    under the other one. -/
theorem traverses_loop : Traverses loop idDropped (.object ⟨0⟩)
    [.asked (.name "q") .root, .asked (.name "owner") firstWay, .asked (.name "id") firstWay,
      .met ⟨1⟩ firstWay, .asked (.name "p") .root, .asked (.name "self") .root,
      .met ⟨0⟩ .root] := by
  have hmet : ∀ {log : List Event} {r : Ref} (path : KeyPath), .met r path ∈ log →
      Stops loop log (.object r) := by
    rintro log r path hm s ⟨⟩
    exact .inr ⟨path, hm⟩
  have hnew : ¬Met [.asked (.name "self") .root, .met ⟨0⟩ .root] ⟨1⟩ := by simp [Met]
  refine .enter rfl (.stop rfl (hmet .root (by simp)) (.skip rfl ?_))
  apply Visits.enter rfl rfl hnew
  · exact .skip rfl (.stop rfl (hmet .root (by simp)) (.nil ..))
  · exact .stop rfl (hmet firstWay (by simp [firstWay])) (.nil ..)

/-- The copy of the second object has lost the key that is left out on the first
    way to it, though the other way keeps that key. -/
theorem prune_isomorphic_loop : idDropped.Total ∧ ∃ copy log c s q,
    (loop.prune (.object ⟨0⟩) idDropped).outcome = .ok copy ∧
      copy.value = image c (.object ⟨0⟩) ∧ Traverses loop idDropped (.object ⟨0⟩) log ∧
      Copies loop idDropped log c copy.heap ∧ .met ⟨1⟩ firstWay ∈ log ∧ c ⟨1⟩ = some s ∧
      copy.heap.get? s = some (.plain q) ∧
      q.properties = [⟨.name "owner", copy.value, true⟩] := by
  have hx : idDropped.Total := .withPredicate _ _
  obtain ⟨copy, log, c, hout, hvalue, ht, -, hc, -⟩ := prune_isomorphic loop (.object ⟨0⟩) hx
  obtain rfl := (ht _).1 traverses_loop
  obtain ⟨s, hs⟩ := Option.isSome_iff_exists.1 ((hc.domain ⟨1⟩).2 ⟨firstWay, by simp⟩)
  obtain ⟨q, hq, -, hps⟩ := hc.plains _ firstWay s _ (by simp) hs rfl
  refine ⟨hx, copy, _, c, s, q, hout, hvalue, traverses_loop, hc, by simp, hs, hq, ?_⟩
  rw [hps, hvalue]
  rfl

end Heap

end ValueGraph
