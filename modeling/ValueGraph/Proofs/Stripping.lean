/-
  Pruning the tree of a document is stripping the document.

  On a tree every object is met by its own path, so the exclusion is asked
  about the place in the document, and no object is met twice.

  * `Json.strip drops`: a document without the members that `drops` names;
  * `Exclusion.Decides drops`: an exclusion leaves out just these members;
  * `Heap.met_holds`: the traversal of a tree meets every object by its path;
  * `Heap.prune_holds`: the pruned copy of a tree is a tree that holds the
    stripped document;
  * `IgnoreRules.exclusionBy_decides`: what ignore rules leave out.
-/
import ValueGraph.Proofs.DocumentTree
import ValueGraph.Rules

namespace ValueGraph

/-! ## Stripped documents -/

namespace Json

mutual

/-- The document at a path, at each of its objects without the members that
    `drops` names by the path of the object and the key. -/
def strip (drops : KeyPath → String → Bool) (path : KeyPath) : Json → Json
  | null => null
  | bool b => bool b
  | number n => number n
  | string text => string text
  | array items => array (stripItems drops path 0 items)
  | object members => object (stripMembers drops path members)

/-- Strips the elements of the array at a path, from the `n`-th on. -/
def stripItems (drops : KeyPath → String → Bool) (path : KeyPath) (n : Nat) : List Json → List Json
  | [] => []
  | j :: js => strip drops (path.step (.index n)) j :: stripItems drops path (n + 1) js

/-- Drops members of the object at a path, and strips the others. -/
def stripMembers (drops : KeyPath → String → Bool) (path : KeyPath) :
    List (String × Json) → List (String × Json)
  | [] => []
  | (key, j) :: ms =>
    if drops path key then stripMembers drops path ms
    else (key, strip drops (path.step (.key (.name key))) j) :: stripMembers drops path ms

end

variable {drops : KeyPath → String → Bool}

theorem getElem?_stripItems (path : KeyPath) : ∀ (items : List Json) (n i : Nat),
    (stripItems drops path n items)[i]? =
      items[i]?.map (strip drops (path.step (.index (n + i))))
  | [], n, i => by simp [stripItems]
  | j :: items, n, 0 => by simp [stripItems]
  | j :: items, n, i + 1 => by
    rw [stripItems, List.getElem?_cons_succ, getElem?_stripItems path items (n + 1) i,
      show n + 1 + i = n + (i + 1) by omega]
    rfl

theorem length_stripItems (path : KeyPath) : ∀ (items : List Json) (n : Nat),
    (stripItems drops path n items).length = items.length
  | [], _ => by simp [stripItems]
  | j :: items, n => by simp [stripItems, length_stripItems path items]

theorem stripMembers_eq (path : KeyPath) : ∀ members : List (String × Json),
    stripMembers drops path members = (members.filter fun m => !drops path m.1).map fun m =>
      (m.1, strip drops (path.step (.key (.name m.1))) m.2)
  | [] => by simp [stripMembers]
  | (key, j) :: members => by
    rw [stripMembers, stripMembers_eq path members]
    cases hk : drops path key <;> simp [hk]

mutual

/-- Where nothing is dropped a document stays as it is. -/
theorem strip_eq_self (hd : ∀ path k, drops path k = false) (path : KeyPath) :
    ∀ j : Json, strip drops path j = j
  | null => by simp [strip]
  | bool b => by simp [strip]
  | number n => by simp [strip]
  | string text => by simp [strip]
  | array items => by rw [strip, stripItems_eq_self hd path items 0]
  | object members => by rw [strip, stripMembers_eq_self hd path members]

theorem stripItems_eq_self (hd : ∀ path k, drops path k = false) (path : KeyPath) :
    ∀ (items : List Json) (n : Nat), stripItems drops path n items = items
  | [], _ => by simp [stripItems]
  | j :: items, n => by
    rw [stripItems, strip_eq_self hd _ j, stripItems_eq_self hd path items (n + 1)]

theorem stripMembers_eq_self (hd : ∀ path k, drops path k = false) (path : KeyPath) :
    ∀ members : List (String × Json), stripMembers drops path members = members
  | [] => by simp [stripMembers]
  | (key, j) :: members => by
    rw [stripMembers, hd, strip_eq_self hd _ j, stripMembers_eq_self hd path members]
    rfl

end

end Json

/-! ## The traversal of a tree -/

/-- The exclusion leaves out the string keys that `drops` names. -/
def Exclusion.Decides {ε : Type} (x : Exclusion ε) (drops : KeyPath → String → Bool) : Prop :=
  ∀ path k, x.excludes (.name k) path = .ok (drops path k)

theorem Exclusion.Decides.keeps {ε : Type} {x : Exclusion ε} {drops : KeyPath → String → Bool}
    (hx : x.Decides drops) (path : KeyPath) (k : String) :
    x.keeps (.name k) path = !drops path k := by
  rw [Exclusion.keeps, hx]

namespace Heap

open Pruning

variable {ε : Type} {x : Exclusion ε} {h : Heap} {place : Ref → Option KeyPath} {path : KeyPath}
  {v : Value} {j : Json}

theorem parts?_array {r : Ref} {values : List Value} (ho : h.get? r = some (.array values)) :
    h.parts? r = some (values.zipIdx.map fun part => (.index part.2, part.1)) := by
  rw [parts?, ho]
  rfl

theorem parts?_plain {r : Ref} {p : PlainObject} (ho : h.get? r = some (.plain p))
    (hproto : p.prototype = .object) :
    h.parts? r = some (p.entries.map fun e => (.key e.1, e.2)) := by
  have hs : (Object.plain p).isStructural = true :=
    (Object.isStructural_iff _).2 (Or.inr ⟨p, rfl, by rw [hproto]; rfl⟩)
  rw [parts?, ho, Option.bind_some, Object.parts?, if_pos hs]

/-- The parts of a tree are trees. -/
theorem Holds.part {r : Ref} {parts : List (Segment × Value)} {segment : Segment}
    (hr : h.Holds place path (.object r) j) (hp : h.parts? r = some parts)
    (hs : (segment, v) ∈ parts) : ∃ i, h.Holds place (path.step segment) v i := by
  cases hr with
  | @array _ _ values items _ ho hlen hvs =>
    rw [parts?_array ho] at hp
    cases hp
    obtain ⟨⟨w, n⟩, hw, he⟩ := List.mem_map.1 hs
    cases he
    have hw := List.mem_zipIdx_iff_getElem?.1 hw
    obtain ⟨hlt, -⟩ := List.getElem?_eq_some_iff.1 hw
    exact ⟨_, hvs n _ _ hw (List.getElem?_eq_getElem (hlen ▸ hlt))⟩
  | @object _ _ p members _ ho hproto _ hkeys hvs =>
    rw [parts?_plain ho hproto] at hp
    cases hp
    obtain ⟨⟨k, w⟩, hw, he⟩ := List.mem_map.1 hs
    cases he
    obtain ⟨m, hm, hk⟩ := exists_member hkeys hw
    simp only at hk
    subst hk
    exact ⟨m.2, hvs m.1 _ m.2 hw hm⟩

theorem Holds.isSome_parts? {r : Ref} (hr : h.Holds place path (.object r) j) :
    (h.parts? r).isSome = true := by
  cases hr with
  | array _ ho => rw [parts?_array ho]; rfl
  | object _ ho hproto => rw [parts?_plain ho hproto]; rfl

/-- **On a tree** the traversal meets every object by the path of its place. -/
theorem met_holds {log : List Event} (ht : Traverses h x v log)
    (hv : h.Holds place .root v j) :
    ∀ r path, .met r path ∈ log → ∃ i, h.Holds place path (.object r) i := by
  cases ht with
  | stop => intro r path hm; simp at hm
  | @enter r parts log hp hvs =>
    refine hvs.forall_met (P := fun r path => ∃ i, h.Holds place path (.object r) i)
      (fun s path parts hs hp segment s' hl => ?_) (fun s path hm => ?_)
      fun segment s hl => hv.part hp hl.1
    · obtain ⟨i, hi⟩ := hs
      exact hi.part hp hl.1
    · obtain ⟨rfl, rfl⟩ : s = r ∧ path = .root := by simpa using hm
      exact ⟨j, hv⟩

/-! ## The copy of a tree -/

/-- The places of the copies: those of their originals. -/
noncomputable def moved (c : Ref → Option Ref) (place : Ref → Option KeyPath) (s : Ref) :
    Option KeyPath :=
  (converse c s).bind place

section
variable {log : List Event} {c : Ref → Option Ref} {copy : Heap}
  {drops : KeyPath → String → Bool} {root : Value}

theorem moved_eq_some (hc : Copies h x log c copy) {s : Ref} :
    moved c place s = some path ↔ ∃ r, c r = some s ∧ place r = some path := by
  rw [moved, Option.bind_eq_some_iff]
  exact exists_congr fun r => and_congr_left' (converse_eq_some hc.injective)

/-- The copy of an object whose enumerable keys are strings. -/
theorem entries_copy (hc : Copies h x log c copy) {r s : Ref} {p : PlainObject}
    (hm : .met r path ∈ log) (hs : c r = some s) (ho : h.get? r = some (.plain p))
    (hn : ∀ e ∈ p.entries, e.1.isSymbol = false) : ∃ q, copy.get? s = some (.plain q) ∧
      q.prototype = p.prototype ∧
      q.entries = (p.entries.filter fun e => x.keeps e.1 path).map fun e => (e.1, image c e.2) := by
  obtain ⟨q, hq, hproto, hprops⟩ := hc.plains r path s p hm hs ho
  refine ⟨q, hq, hproto, PlainObject.entries_eq (by rw [hprops, List.map_map]; rfl) fun e he => ?_⟩
  obtain ⟨e', he', rfl⟩ := List.mem_map.1 he
  exact hn e' (List.mem_of_mem_filter he')

/-- The keys that are kept are those of the stripped members. -/
theorem keys_kept (hx : x.Decides drops) (path : KeyPath) {es : List (Key × Value)}
    {members : List (String × Json)}
    (hkeys : es.map Prod.fst = members.map fun m => Key.name m.1) :
    (es.filter fun e => x.keeps e.1 path).map Prod.fst =
      (Json.stripMembers drops path members).map fun m => Key.name m.1 := by
  calc (es.filter fun e => x.keeps e.1 path).map Prod.fst
      = (es.map Prod.fst).filter fun k => x.keeps k path := by rw [List.filter_map]; rfl
    _ = (members.filter fun m => x.keeps (.name m.1) path).map fun m => Key.name m.1 := by
        rw [hkeys, List.filter_map]; rfl
    _ = (members.filter fun m => !drops path m.1).map fun m => Key.name m.1 := by
        simp only [hx.keeps]
    _ = _ := by rw [Json.stripMembers_eq, List.map_map]; rfl

/-- An object of a tree that is met has a copy in its place. -/
theorem copied_of_met (hc : Copies h x log c copy)
    (hlog : ∀ r path, .met r path ∈ log → place r = some path) {r : Ref}
    (hr : place r = some path) (hm : Met log r) :
    .met r path ∈ log ∧ ∃ s, c r = some s ∧ image c (.object r) = .object s ∧
      moved c place s = some path := by
  obtain ⟨s, hs⟩ := Option.isSome_iff_exists.1 ((hc.domain r).2 hm)
  obtain ⟨path', hm⟩ := hm
  have hp := hlog r path' hm
  rw [hr] at hp
  cases hp
  exact ⟨hm, s, hs, by rw [image, hs]; rfl, (moved_eq_some hc).2 ⟨r, hs, hr⟩⟩

/-- The image of a tree that is met holds the stripped document. -/
theorem Holds.strip (hv : h.Holds place path v j) (hc : Copies h x log c copy)
    (hx : x.Decides drops) (hex : Exhausts h x root log)
    (hlog : ∀ r path, .met r path ∈ log → place r = some path)
    (hm : ∀ r, v = .object r → Met log r) :
    copy.Holds (moved c place) path (image c v) (j.strip drops path) := by
  induction hv with
  | null path => rw [Json.strip]; exact .null path
  | bool path b => rw [Json.strip]; exact .bool path b
  | number path n => rw [Json.strip]; exact .number path n
  | string path text => rw [Json.strip]; exact .string path text
  | @array path r values items hr ho hlen hvs ih =>
    obtain ⟨hmet, s, hs, himage, hplace⟩ := copied_of_met hc hlog hr (hm r rfl)
    rw [himage, Json.strip]
    refine .array hplace (hc.arrays r s values hs ho)
      (by rw [List.length_map, Json.length_stripItems, hlen]) fun i w k hw hk => ?_
    rw [List.getElem?_map] at hw
    rw [Json.getElem?_stripItems, Nat.zero_add] at hk
    obtain ⟨u, hu, rfl⟩ := Option.map_eq_some_iff.1 hw
    obtain ⟨j, hj, rfl⟩ := Option.map_eq_some_iff.1 hk
    -- elements are never left out, so this one has been met, too
    refine ih i u j hu hj fun r' hr' => ?_
    subst hr'
    refine hex.parts r path _ hmet (parts?_array ho) (.index i) r' ⟨?_, rfl, ?_⟩
    · exact List.mem_map.2 ⟨(_, i), List.mem_zipIdx_iff_getElem?.2 hu, rfl⟩
    · exact (hvs i _ j hu hj).isSome_parts?
  | @object path r p members hr ho hproto hnd hkeys hvs ih =>
    obtain ⟨hmet, s, hs, himage, hplace⟩ := copied_of_met hc hlog hr (hm r rfl)
    obtain ⟨q, hq, hqproto, hentries⟩ := entries_copy hc hmet hs ho fun e he => by
      obtain ⟨m, -, hk⟩ := exists_member hkeys he
      rw [hk]
      rfl
    rw [himage, Json.strip]
    refine .object hplace hq (hqproto.trans hproto) ?_ ?_ fun k w i hw hi => ?_
    · rw [Json.stripMembers_eq, List.map_map]
      exact hnd.sublist (List.filter_sublist.map _)
    · rw [hentries, List.map_map]
      exact keys_kept hx path hkeys
    · rw [hentries] at hw
      rw [Json.stripMembers_eq] at hi
      obtain ⟨⟨k', u⟩, hu, he⟩ := List.mem_map.1 hw
      obtain ⟨⟨key, j⟩, hj, he'⟩ := List.mem_map.1 hi
      cases he
      cases he'
      obtain ⟨hj, hkeep⟩ := List.mem_filter.1 hj
      have hu := List.mem_of_mem_filter hu
      -- the member is kept, so its value has been met, too
      refine ih _ u j hu hj fun r' hr' => ?_
      subst hr'
      refine hex.parts r path _ hmet (parts?_plain ho hproto) (.key (.name key)) r' ⟨?_, ?_, ?_⟩
      · exact List.mem_map.2 ⟨_, hu, rfl⟩
      · rw [State.excludes, hx]
        simpa using hkeep
      · exact (hvs _ _ j hu hj).isSome_parts?

/-- The copies are new objects. -/
theorem added_moved (hc : Copies h x log c copy) : Added h copy (moved c place) := by
  refine ⟨hc.old, size_le_of_old hc.old, fun s path hs => ?_⟩
  obtain ⟨r, hr, -⟩ := (moved_eq_some hc).1 hs
  refine ⟨hc.fresh r s hr, ?_⟩
  obtain ⟨path', hm⟩ := (hc.domain r).1 (by rw [hr]; rfl)
  obtain ⟨o, ho, hstruct⟩ := hc.structural r s hr
  rcases (Object.isStructural_iff o).1 hstruct with ⟨items, rfl⟩ | ⟨p, rfl, -⟩
  · exact lt_of_get? (hc.arrays r s items hr ho)
  · obtain ⟨q, hq, -⟩ := hc.plains r path' s p hm hr ho
    exact lt_of_get? hq

/-- **The pruned copy of a tree** is a new tree that holds the stripped
    document. -/
theorem prune_holds (ht : x.Total) (hx : x.Decides drops) (hv : h.Holds place .root v j) :
    ∃ copy place', (h.prune v x).outcome = .ok copy ∧
      copy.heap.Holds place' .root copy.value (j.strip drops .root) ∧
      Added h copy.heap place' := by
  obtain ⟨copy, log, c, hout, hvalue, htr, hc⟩ := exists_copies h v ht
  refine ⟨copy, moved c place, hout, ?_, added_moved hc⟩
  rw [hvalue]
  refine hv.strip hc hx htr.exhausts (fun r path hm => ?_) fun r hr => ?_
  · obtain ⟨i, hi⟩ := met_holds htr hv r path hm
    exact hi.place_eq
  · subst hr
    exact htr.exhausts.root r rfl hv.isSome_parts?

end

end Heap

/-! ## Ignore rules -/

namespace Exclusion

variable {ε : Type} {x : Exclusion ε}

theorem mem_ignoreKeys {k : Key} : ∀ {ks : List Key} {x : Exclusion ε},
    k ∈ (x.ignoreKeys ks).keys ↔ k ∈ x.keys ∨ k ∈ ks
  | [], x => by simp [ignoreKeys]
  | l :: ks, x => by
    have hone : k ∈ (x.ignoreKey l).keys ↔ k ∈ x.keys ∨ k = l := by
      rw [ignoreKey]
      split
      next hl => exact ⟨Or.inl, fun h => h.elim id fun hk => hk ▸ hl⟩
      next => simp
    rw [show x.ignoreKeys (l :: ks) = (x.ignoreKey l).ignoreKeys ks from rfl, mem_ignoreKeys, hone,
      List.mem_cons, or_assoc]

theorem predicate_ignoreKeys : ∀ {ks : List Key} {x : Exclusion ε},
    (x.ignoreKeys ks).predicate = x.predicate
  | [], _ => rfl
  | l :: ks, x => by
    rw [show x.ignoreKeys (l :: ks) = (x.ignoreKey l).ignoreKeys ks from rfl, predicate_ignoreKeys,
      ignoreKey]
    split <;> rfl

/-- An exclusion without keys and predicate drops nothing. -/
theorem Decides.drops_eq_false {drops : KeyPath → String → Bool} (hx : x.Decides drops)
    (he : x.isEmpty = true) (path : KeyPath) (k : String) : drops path k = false := by
  simp only [isEmpty, Bool.and_eq_true, List.isEmpty_iff, Option.isNone_iff_eq_none] at he
  have hd := hx path k
  rw [excludes, he.1, he.2, if_neg List.not_mem_nil] at hd
  exact (Except.ok.inj hd).symm

end Exclusion

namespace IgnoreRules

variable {ε : Type} (isMatch : Glob → String → Bool) (r : IgnoreRules)

/-- The rules name a key of the object at a path: it is listed, or a glob
    matches its dotted path. -/
def ignores (path : KeyPath) (k : String) : Bool :=
  decide (k ∈ r.keys) || r.globs.any fun glob => isMatch glob (path.textWith (.name k))

theorem mem_exclusionBy {k : String} :
    Key.name k ∈ (r.exclusionBy isMatch : Exclusion ε).keys ↔ k ∈ r.keys := by
  have hkeys : (r.exclusionBy isMatch : Exclusion ε).keys =
      (Exclusion.nothing.ignoreKeys (r.keys.map Key.name) : Exclusion ε).keys := by
    rw [exclusionBy]
    split <;> rfl
  rw [hkeys, Exclusion.mem_ignoreKeys]
  simp [Exclusion.nothing]

theorem predicate_exclusionBy : (r.exclusionBy isMatch : Exclusion ε).predicate =
    if r.globs.isEmpty then none
    else some fun key parent => .ok (r.matchesPathBy isMatch key parent) := by
  rw [exclusionBy]
  split
  next => exact Exclusion.predicate_ignoreKeys
  next => rfl

/-- **What ignore rules leave out**: the listed keys everywhere, and the keys
    whose dotted path a glob matches. -/
theorem exclusionBy_decides :
    (r.exclusionBy isMatch : Exclusion ε).Decides (r.ignores isMatch) := by
  intro path k
  rw [Exclusion.excludes, ignores]
  by_cases hk : k ∈ r.keys
  · rw [if_pos ((mem_exclusionBy isMatch r).2 hk), decide_eq_true hk, Bool.true_or]
  · rw [if_neg (mt (mem_exclusionBy isMatch r).1 hk), predicate_exclusionBy, decide_eq_false hk,
      Bool.false_or]
    by_cases hg : r.globs.isEmpty = true
    · rw [if_pos hg, List.isEmpty_iff.1 hg]
      rfl
    · rw [if_neg hg]
      rfl

theorem exclusionBy_total : (r.exclusionBy isMatch : Exclusion ε).Total := by
  intro p hp k parent
  rw [predicate_exclusionBy] at hp
  split at hp
  next => simp at hp
  next => cases hp; exact ⟨_, rfl⟩

end IgnoreRules

end ValueGraph
