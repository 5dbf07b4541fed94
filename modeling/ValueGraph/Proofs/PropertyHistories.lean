/-
  Plain objects after any history of changes.

  An object with an index keeps two structures in step by hand: the properties,
  in insertion order, and the places of their keys.  Whatever is changed, in
  whatever order, the two say the same, and the object is what an association
  list would be to which the same has been done.

  * `Listing`: ordered association lists under a prototype, and their changes;
  * `IndexedObject.IndexExact`: the index has the place of each key, and
    nothing else;
  * `IndexExact.lookup`: what a look into the index comes to;
  * `IndexExact.change`, `IndexExact.history`: no change breaks the index, and
    each does what it does to a list;
  * `indexedObject_histories`: any history of a new object, the reads after it,
    and the same history without an index.
-/
import ValueGraph.Object.Plain.Indexed
import ValueGraph.Proofs.Agreement

namespace ValueGraph

/-! ## Association lists -/

/-- An ordered association list under a prototype. -/
structure Listing where
  prototype : Prototype
  members : List Property

namespace Listing

/-- The list without members. -/
def empty (prototype : Prototype) : Listing := ⟨prototype, []⟩

/-- The member under a key. -/
def under (l : Listing) (k : Key) : Option Property := l.members.find? (·.key == k)

/-- Puts a member under its key: in the place of the one that is there, or at
    the end. -/
def put (l : Listing) (new : Property) : Listing where
  prototype := l.prototype
  members :=
    if (l.under new.key).isSome then l.members.map fun p => if p.key = new.key then new else p
    else l.members ++ [new]

/-- Takes out the member under a key; the others keep their order. -/
def drop (l : Listing) (k : Key) : Listing := ⟨l.prototype, l.members.filter (·.key != k)⟩

/-- Makes a change; also gives the value that it replaces or takes out. -/
def change (l : Listing) : PlainObject.Change → Option Value × Listing
  | .insert k v => ((l.under k).map Property.value, l.put ⟨k, v, true⟩)
  | .define k v enumerable => ((l.under k).map Property.value, l.put ⟨k, v, enumerable⟩)
  | .remove k => ((l.under k).map Property.value, l.drop k)
  | .clear => (none, ⟨l.prototype, []⟩)
  | .setPrototype prototype => (none, ⟨prototype, l.members⟩)

theorem under_eq_none {l : Listing} {k : Key} :
    l.under k = none ↔ k ∉ l.members.map Property.key := by
  simp [under]

theorem drop_of_under_eq_none {l : Listing} {k : Key} (h : l.under k = none) : l.drop k = l := by
  rw [under_eq_none] at h
  have hkeep : ∀ p ∈ l.members, (p.key != k) = true := by
    intro p hp
    rw [bne_iff_ne]
    rintro rfl
    exact h (List.mem_map_of_mem hp)
  rw [drop, List.filter_eq_self.2 hkeep]

end Listing

/-! ## Without an index -/

namespace PlainObject

/-- The prototype and the properties of an object. -/
def listing (o : PlainObject) : Listing := ⟨o.prototype, o.properties⟩

theorem defineIn_eq_put (new : Property) (prototype : Prototype) : ∀ {ps : List Property},
    (ps.map Property.key).Nodup → defineIn new ps = (Listing.put ⟨prototype, ps⟩ new).members
  | [], _ => rfl
  | p :: ps, hnd => by
    obtain ⟨hp, hps⟩ := List.nodup_cons.1 hnd
    rw [defineIn, Listing.put, Listing.under]
    by_cases hk : p.key = new.key
    · -- no later property has the key
      have hno : ∀ q ∈ ps, (if q.key = new.key then new else q) = q := by
        intro q hq
        exact if_neg fun hqk => hp (List.mem_map.2 ⟨q, hq, hqk.trans hk.symm⟩)
      simp [hk, List.map_congr_left hno]
    · rw [if_neg hk, defineIn_eq_put new prototype hps, Listing.put, Listing.under]
      simp only [List.find?_cons, beq_false_of_ne hk, List.map_cons, if_neg hk]
      split <;> rfl

theorem change_listing (o : PlainObject) (c : Change) :
    (o.change c).1 = (o.listing.change c).1 ∧ (o.change c).2.listing = (o.listing.change c).2 := by
  cases c with
  | insert k v => exact ⟨rfl, congrArg (Listing.mk _) (defineIn_eq_put _ o.prototype o.nodup)⟩
  | define k v enumerable =>
    exact ⟨rfl, congrArg (Listing.mk _) (defineIn_eq_put _ o.prototype o.nodup)⟩
  | remove k => exact ⟨rfl, rfl⟩
  | clear => exact ⟨rfl, rfl⟩
  | setPrototype prototype => exact ⟨rfl, rfl⟩

/-- **An object is an association list** through any history. -/
theorem history_listing (cs : List Change) : ∀ o : PlainObject,
    (Change.history change o cs).1 = (Change.history Listing.change o.listing cs).1 ∧
      (Change.history change o cs).2.listing = (Change.history Listing.change o.listing cs).2 := by
  induction cs with
  | nil => exact fun o => ⟨rfl, rfl⟩
  | cons c cs ih =>
    intro o
    obtain ⟨hprevious, hnext⟩ := change_listing o c
    obtain ⟨hlater, hlast⟩ := ih (o.change c).2
    rw [hnext] at hlater hlast
    exact ⟨congrArg₂ List.cons hprevious hlater, hlast⟩

end PlainObject

/-! ## With an index -/

namespace IndexedObject

variable {o : IndexedObject} {k l : Key} {i j : Nat}

/-- The prototype and the properties of an object. -/
def listing (o : IndexedObject) : Listing := ⟨o.prototype, o.properties⟩

/-- **The index is exact**: it has the place of each key, and nothing else. -/
def IndexExact (o : IndexedObject) : Prop :=
  ∀ (k : Key) (i : Nat), o.index[k]? = some i ↔ o.keys[i]? = some k

theorem property_eq {p : Property} (hp : o.properties[i]? = some p) : o.property i = .ok p := by
  rw [property, hp]

theorem indexExact_empty (prototype : Prototype) : (empty prototype).IndexExact := by
  intro k i
  simp [empty, keys]

namespace IndexExact

theorem nodup (h : o.IndexExact) : o.keys.Nodup := by
  refine List.pairwise_iff_getElem.2 fun i j hi hj hij heq => ?_
  have hplace := (h _ i).2 (List.getElem?_eq_getElem hi)
  rw [heq, (h _ j).2 (List.getElem?_eq_getElem hj), Option.some.injEq] at hplace
  omega

/-- What a look into the index comes to: no property has the key, or the one
    in the place that it gives. -/
theorem lookup (h : o.IndexExact) (k : Key) :
    (o.index[k]? = none ∧ o.listing.under k = none) ∨
      ∃ i p, o.index[k]? = some i ∧ o.properties[i]? = some p ∧ p.key = k ∧
        o.listing.under k = some p := by
  cases hk : o.index[k]? with
  | none =>
    refine .inl ⟨rfl, Listing.under_eq_none.2 fun hmem => ?_⟩
    obtain ⟨i, hi⟩ := List.mem_iff_getElem?.1 hmem
    rw [(h k i).2 hi] at hk
    cases hk
  | some i =>
    have hplace := (h k i).1 hk
    rw [keys, List.getElem?_map, Option.map_eq_some_iff] at hplace
    obtain ⟨p, hp, hpk⟩ := hplace
    exact .inr ⟨i, p, rfl, hp, hpk,
      (PlainObject.find?_key h.nodup).2 ⟨List.mem_of_getElem? hp, hpk⟩⟩

/-! ### Changes of the index -/

/-- A new key goes to the end. -/
theorem append (h : o.IndexExact) (new : Property) (hnew : o.index[new.key]? = none) :
    IndexExact { o with
      properties := o.properties ++ [new]
      index := o.index.insert new.key o.properties.length } := by
  intro l j
  have hlen : o.keys.length = o.properties.length := List.length_map _
  have hkeys : (o.properties ++ [new]).map Property.key = o.keys ++ [new.key] := List.map_append
  rw [keys, hkeys, Std.HashMap.getElem?_insert, ← hlen]
  by_cases hl : new.key = l
  · subst hl
    rw [if_pos (beq_self_eq_true _), Option.some.injEq]
    constructor
    · rintro rfl
      exact List.getElem?_concat_length
    · intro hj
      -- the key is in no place before the last
      rcases Nat.lt_trichotomy j o.keys.length with hlt | heq | hgt
      · rw [List.getElem?_append_left hlt, ← h, hnew] at hj
        cases hj
      · exact heq.symm
      · rw [List.getElem?_eq_none (by rw [List.length_append]; exact hgt)] at hj
        cases hj
  · rw [if_neg (by simpa using hl), h]
    rcases Nat.lt_or_ge j o.keys.length with hlt | hge
    · rw [List.getElem?_append_left hlt]
    · rw [List.getElem?_append_right hge, List.getElem?_eq_none hge, List.getElem?_singleton]
      simp [hl]

/-- A property is replaced in its place. -/
theorem set (h : o.IndexExact) {p q : Property} (hp : o.properties[i]? = some p)
    (hkey : q.key = p.key) : IndexExact { o with properties := o.properties.set i q } := by
  intro l j
  have hsame : ((o.properties.set i q).map Property.key)[j]? = o.keys[j]? := by
    rw [keys, List.getElem?_map, List.getElem?_map, List.getElem?_set]
    by_cases hij : i = j
    · subst hij
      rw [if_pos rfl, if_pos (List.getElem?_eq_some_iff.1 hp).1, hp, Option.map_some,
        Option.map_some, hkey]
    · rw [if_neg hij]
  rw [keys, hsame]
  exact h l j

theorem getElem?_eraseIdx_moveUp {α : Type} {as : List α} (hij : j ≠ i) :
    (as.eraseIdx i)[moveUp i j]? = as[j]? := by
  rw [List.getElem?_eraseIdx, moveUp]
  split
  next hlt => rw [if_neg (by omega), Nat.sub_add_cancel (by omega)]
  next hge => rw [if_pos (by omega)]

/-- Every place is what some other one than the place `i` becomes. -/
theorem exists_moveUp (i j : Nat) : ∃ j', j' ≠ i ∧ moveUp i j' = j := by
  rcases Nat.lt_or_ge j i with hlt | hge
  · exact ⟨j, by omega, by rw [moveUp, if_neg (by omega)]⟩
  · exact ⟨j + 1, by omega, by rw [moveUp, if_pos (by omega)]; omega⟩

theorem moveUp_injective {j' : Nat} (hj : j ≠ i) (hj' : j' ≠ i) (h : moveUp i j = moveUp i j') :
    j = j' := by
  simp only [moveUp] at h
  split at h <;> split at h <;> omega

/-- A property is taken out, and the later ones move up. -/
theorem erase (h : o.IndexExact) (hk : o.index[k]? = some i) :
    IndexExact { o with
      properties := o.properties.eraseIdx i
      index := (o.index.erase k).map fun _ j => moveUp i j } := by
  intro l j
  have hplace : o.keys[i]? = some k := (h k i).1 hk
  obtain ⟨j, hj, rfl⟩ := exists_moveUp i j
  rw [keys, List.getElem?_map, getElem?_eraseIdx_moveUp hj, ← List.getElem?_map, ← keys, ← h,
    Std.HashMap.getElem?_map, Std.HashMap.getElem?_erase]
  by_cases hl : k = l
  · -- the key is in no other place
    subst hl
    simpa [hk] using hj.symm
  · rw [if_neg (by simpa using hl), Option.map_eq_some_iff]
    constructor
    · rintro ⟨j', hl', hmove⟩
      have hj' : j' ≠ i := by
        rintro rfl
        rw [(h l j').1 hl', Option.some.injEq] at hplace
        exact hl hplace.symm
      rw [← moveUp_injective hj' hj hmove]
      exact hl'
    · exact fun hl' => ⟨j, hl', rfl⟩

/-! ### Changes of the properties -/

/-- Putting a property in its place is putting it under its key. -/
theorem put_eq (h : o.IndexExact) {p : Property} (new : Property)
    (hp : o.properties[i]? = some p) (hkey : new.key = p.key) :
    o.listing.put new = ⟨o.prototype, o.properties.set i new⟩ := by
  have hunder : o.listing.under new.key = some p :=
    (PlainObject.find?_key h.nodup).2 ⟨List.mem_of_getElem? hp, hkey.symm⟩
  have hi : o.keys[i]? = some new.key := by rw [keys, List.getElem?_map, hp, hkey, Option.map_some]
  rw [Listing.put, hunder, Option.isSome_some, if_pos rfl]
  refine congrArg (Listing.mk _) (List.ext_getElem? fun j => ?_)
  rw [List.getElem?_map, List.getElem?_set, listing]
  by_cases hij : i = j
  · subst hij
    rw [if_pos rfl, if_pos (List.getElem?_eq_some_iff.1 hp).1, hp, Option.map_some,
      if_pos hkey.symm]
  · rw [if_neg hij]
    cases hj : o.properties[j]? with
    | none => rfl
    | some q =>
      -- a key has one place
      have hne : q.key ≠ new.key := by
        intro hq
        have hqj : o.keys[j]? = some new.key := by rw [keys, List.getElem?_map, hj, ← hq]; rfl
        rw [← h] at hi hqj
        exact hij (Option.some.inj (hi.symm.trans hqj))
      rw [Option.map_some, if_neg hne]

theorem put_new (new : Property) (hnew : o.listing.under new.key = none) :
    o.listing.put new = ⟨o.prototype, o.properties ++ [new]⟩ := by
  rw [Listing.put, hnew]
  rfl

theorem eraseIdx_eq_filter : ∀ {ps : List Property} {i : Nat} {p : Property},
    (ps.map Property.key).Nodup → ps[i]? = some p →
      ps.eraseIdx i = ps.filter (·.key != p.key)
  | q :: ps, 0, p, hnd, hp => by
    obtain ⟨hq, -⟩ := List.nodup_cons.1 hnd
    obtain rfl : q = p := Option.some.inj hp
    have hkeep : ∀ a ∈ ps, (a.key != q.key) = true := by
      intro a ha
      rw [bne_iff_ne]
      intro hak
      exact hq (hak ▸ List.mem_map_of_mem ha)
    simp [List.filter_eq_self.2 hkeep]
  | q :: ps, i + 1, p, hnd, hp => by
    obtain ⟨hq, hps⟩ := List.nodup_cons.1 hnd
    rw [List.getElem?_cons_succ] at hp
    have hqp : (q.key != p.key) = true := by
      rw [bne_iff_ne]
      intro hqp
      exact hq (hqp ▸ List.mem_map_of_mem (List.mem_of_getElem? hp))
    rw [List.eraseIdx_cons_succ, eraseIdx_eq_filter hps hp, List.filter_cons, if_pos hqp]

end IndexExact

/-! ### Histories -/

/-- What a change comes to: it is in range and does what it does to a list, and
    the index is exact after it. -/
def Follows {α : Type} (outcome : Except OutOfRange (α × IndexedObject)) (expected : α × Listing) :
    Prop :=
  ∃ o, outcome = .ok (expected.1, o) ∧ o.listing = expected.2 ∧ o.IndexExact

namespace IndexExact

theorem define (h : o.IndexExact) (k : Key) (v : Value) (enumerable : Bool) :
    Follows (o.define k v enumerable) (o.listing.change (.define k v enumerable)) := by
  rw [Listing.change]
  obtain ⟨hk, hunder⟩ | ⟨i, p, hk, hp, rfl, hunder⟩ := h.lookup k
  · rw [IndexedObject.define, hk, hunder]
    exact ⟨_, rfl, (put_new ⟨k, v, enumerable⟩ hunder).symm, h.append ⟨k, v, enumerable⟩ hk⟩
  · simp only [IndexedObject.define, hk, hunder, property_eq hp]
    exact ⟨_, rfl, (h.put_eq ⟨p.key, v, enumerable⟩ hp rfl).symm, h.set hp rfl⟩

theorem remove (h : o.IndexExact) (k : Key) :
    Follows (o.remove k) (o.listing.change (.remove k)) := by
  rw [Listing.change]
  obtain ⟨hk, hunder⟩ | ⟨i, p, hk, hp, rfl, hunder⟩ := h.lookup k
  · rw [IndexedObject.remove, hk, hunder, Listing.drop_of_under_eq_none hunder]
    exact ⟨o, rfl, rfl, h⟩
  · simp only [IndexedObject.remove, hk, hunder, property_eq hp]
    exact ⟨_, rfl, congrArg (Listing.mk _) (eraseIdx_eq_filter h.nodup hp), h.erase hk⟩

/-- **One change** keeps the index exact and does what it does to a list. -/
theorem change (h : o.IndexExact) (c : PlainObject.Change) :
    Follows (o.change c) (o.listing.change c) := by
  cases c with
  | insert k v => exact h.define k v true
  | define k v enumerable => exact h.define k v enumerable
  | remove k => exact h.remove k
  | clear => exact ⟨o.clear, rfl, rfl, indexExact_empty o.prototype⟩
  | setPrototype prototype => exact ⟨o.withPrototype prototype, rfl, rfl, h⟩

/-- **Any history** keeps the index exact and does what it does to a list. -/
theorem history (cs : List PlainObject.Change) : ∀ {o : IndexedObject}, o.IndexExact →
    Follows (o.history cs) (PlainObject.Change.history Listing.change o.listing cs) := by
  induction cs with
  | nil => exact fun {o} h => ⟨o, rfl, rfl, h⟩
  | cons c cs ih =>
    intro o h
    obtain ⟨next, hnext, hlisting, hexact⟩ := h.change c
    obtain ⟨last, hlast, hlistings, hexacts⟩ := ih hexact
    rw [hlisting] at hlast hlistings
    refine ⟨last, ?_, hlistings, hexacts⟩
    rw [IndexedObject.history, hnext]
    change (next.history cs >>= fun later => _) = _
    rw [hlast]
    rfl

end IndexExact

/-! ## Reads -/

/-- **All reads** of an object are in range and give what a look through the
    list gives. -/
structure Reads (o : IndexedObject) (l : Listing) : Prop where
  prototype : o.prototype = l.prototype
  properties : o.properties = l.members
  get? : ∀ k, o.get? k = .ok ((l.under k).map Property.value)
  getName? : ∀ text, o.getName? text = .ok ((l.under (.name text)).map Property.value)
  hasEnumerable : ∀ k, o.hasEnumerable k = .ok ((l.under k).any Property.enumerable)
  entries : o.entries =
    (l.members.filter (fun p => p.enumerable && !p.key.isSymbol) ++
      l.members.filter (fun p => p.enumerable && p.key.isSymbol)).map fun p => (p.key, p.value)
  nameCount : o.nameCount = l.members.countP fun p => p.enumerable && !p.key.isSymbol
  symbolCount : o.symbolCount = l.members.countP fun p => p.enumerable && p.key.isSymbol
  length : o.length = l.members.length

theorem IndexExact.find?_eq (h : o.IndexExact) (k : Key) : o.find? k = .ok (o.listing.under k) := by
  obtain ⟨hk, hunder⟩ | ⟨i, p, hk, hp, -, hunder⟩ := h.lookup k
  · rw [find?, hk, hunder]
  · simp only [find?, hk, hunder, property_eq hp]
    rfl

theorem IndexExact.reads (h : o.IndexExact) : o.Reads o.listing where
  prototype := rfl
  properties := rfl
  get? k := by rw [get?, h.find?_eq]; rfl
  getName? text := by rw [getName?, get?, h.find?_eq]; rfl
  hasEnumerable k := by rw [hasEnumerable, h.find?_eq]; rfl
  entries := rfl
  nameCount := List.countP_eq_length_filter.symm
  symbolCount := List.countP_eq_length_filter.symm
  length := rfl

end IndexedObject

/-- **Plain objects after any history.**  No access is out of range, the index
    has the place of each key and nothing else, and no key stands twice.  What
    each change replaces or takes out, and all reads in the end, are those of
    an ordered association list, with an index or without. -/
theorem indexedObject_histories (prototype : Prototype) (cs : List PlainObject.Change) :
    ∃ previous l o p,
      PlainObject.Change.history Listing.change (.empty prototype) cs = (previous, l) ∧
      (IndexedObject.empty prototype).history cs = .ok (previous, o) ∧
      o.IndexExact ∧ o.keys.Nodup ∧ o.Reads l ∧
      PlainObject.Change.history PlainObject.change (.empty prototype) cs = (previous, p) ∧
      p.prototype = l.prototype ∧ p.properties = l.members := by
  obtain ⟨o, hrun, hlisting, hexact⟩ :=
    (IndexedObject.indexExact_empty prototype).history cs
  obtain ⟨hprevious, hlast⟩ := PlainObject.history_listing cs (.empty prototype)
  refine ⟨_, _, o, _, rfl, hrun, hexact, hexact.nodup, ?_, Prod.ext hprevious rfl, ?_, ?_⟩
  · have hreads := hexact.reads
    rwa [hlisting] at hreads
  · exact congrArg Listing.prototype hlast
  · exact congrArg Listing.members hlast

end ValueGraph
