/-
  The graph of a document is a tree.

  A tree that holds a document has an object for each array and each object of
  the document, and one path leads to it.  `Holds` keeps the paths in a map of
  its own: two trees lie apart if no object has a place in both maps.

  * `Heap.Holds`: a value is the root of a tree that holds a document;
  * `Heap.Added`: the heap has grown, and the map only places what is new;
  * `Heap.addEach_holds`: things that are added one after the other lie apart;
  * `Heap.addJson_holds`: `Heap.addJson` adds a tree that holds the document.
-/
import ValueGraph.Document
import ValueGraph.Proofs.Copying
import ValueGraph.Proofs.DistinctKeys

namespace ValueGraph

/-! ## Trees -/

namespace Heap

/-- The value is the root of a tree that holds the document, reached by a path.
    `place` gives the path that leads to each object of the tree. -/
inductive Holds (h : Heap) (place : Ref → Option KeyPath) : KeyPath → Value → Json → Prop
  | null (path : KeyPath) : Holds h place path .null .null
  | bool (path : KeyPath) (b : Bool) : Holds h place path (.bool b) (.bool b)
  | number (path : KeyPath) (n : JsonNumber) : Holds h place path (.number n.value) (.number n)
  | string (path : KeyPath) (text : String) : Holds h place path (.string text) (.string text)
  | array {path : KeyPath} {r : Ref} {values : List Value} {items : List Json} :
      place r = some path → h.get? r = some (.array values) → values.length = items.length →
      (∀ i v j, values[i]? = some v → items[i]? = some j →
        Holds h place (path.step (.index i)) v j) →
      Holds h place path (.object r) (.array items)
  | object {path : KeyPath} {r : Ref} {p : PlainObject} {members : List (String × Json)} :
      place r = some path → h.get? r = some (.plain p) → p.prototype = .object →
      (members.map Prod.fst).Nodup →
      p.entries.map Prod.fst = members.map (fun m => Key.name m.1) →
      (∀ k v j, (.name k, v) ∈ p.entries → (k, j) ∈ members →
        Holds h place (path.step (.key (.name k))) v j) →
      Holds h place path (.object r) (.object members)

section
variable {h h' h₁ : Heap} {place place' : Ref → Option KeyPath} {path : KeyPath} {v : Value}
  {j : Json}

/-- A tree stays when nothing happens to its objects. -/
theorem Holds.mono (hv : Holds h place path v j)
    (hp : ∀ r path, place r = some path → place' r = some path ∧ h'.get? r = h.get? r) :
    Holds h' place' path v j := by
  induction hv with
  | null path => exact .null path
  | bool path b => exact .bool path b
  | number path n => exact .number path n
  | string path text => exact .string path text
  | @array path r values items hr ho hlen _ ih =>
    exact .array (hp r path hr).1 (by rw [(hp r path hr).2, ho]) hlen ih
  | @object path r p members hr ho hproto hnd hkeys _ ih =>
    exact .object (hp r path hr).1 (by rw [(hp r path hr).2, ho]) hproto hnd hkeys ih

theorem Holds.place_eq {r : Ref} (hv : Holds h place path (.object r) j) :
    place r = some path := by
  cases hv with
  | array hr => exact hr
  | object hr => exact hr

/-! ## Growing heaps -/

/-- The heap has grown to `h'`, and the objects with a place are new. -/
structure Added (h h' : Heap) (place : Ref → Option KeyPath) : Prop where
  old : ∀ r, r.index < h.size → h'.get? r = h.get? r
  grown : h.size ≤ h'.size
  new : ∀ r path, place r = some path → h.size ≤ r.index ∧ r.index < h'.size

/-- The places of either map. -/
def join (place place' : Ref → Option KeyPath) (r : Ref) : Option KeyPath :=
  (place r).or (place' r)

theorem Added.refl (h : Heap) : Added h h fun _ => none :=
  ⟨fun _ _ => rfl, Nat.le_refl _, fun r path hr => by simp at hr⟩

theorem Added.alloc (h : Heap) (o : Object) (path : KeyPath) :
    Added h (h.alloc o) fun r => if r = h.next then some path else none := by
  refine ⟨fun r hr => get?_alloc_of_lt hr, by rw [size_alloc]; omega, fun r path' hr => ?_⟩
  split at hr
  next hnext =>
    subst hnext
    rw [size_alloc]
    exact ⟨Nat.le_refl _, Nat.lt_succ_self _⟩
  next => simp at hr

theorem Added.trans (ha : Added h h₁ place) (ha' : Added h₁ h' place') :
    Added h h' (join place place') := by
  refine ⟨fun r hr => ?_, Nat.le_trans ha.grown ha'.grown, fun r path hr => ?_⟩
  · rw [ha'.old r (Nat.lt_of_lt_of_le hr ha.grown), ha.old r hr]
  · rcases Option.or_eq_some_iff.1 hr with hr | ⟨-, hr⟩
    · obtain ⟨hlo, hhi⟩ := ha.new r path hr
      exact ⟨hlo, Nat.lt_of_lt_of_le hhi ha'.grown⟩
    · obtain ⟨hlo, hhi⟩ := ha'.new r path hr
      exact ⟨Nat.le_trans ha.grown hlo, hhi⟩

/-- A root that is added after its parts has a place. -/
theorem place_next (ha : Added h h₁ place) (path : KeyPath) :
    join place (fun r => if r = h₁.next then some path else none) h₁.next = some path := by
  have hnone : place h₁.next = none := by
    cases hp : place h₁.next with
    | none => rfl
    | some path' => exact absurd (ha.new _ path' hp).2 (Nat.lt_irrefl _)
  rw [join, hnone, if_pos rfl]
  rfl

/-- What was added before is still there. -/
theorem Holds.join_left (hv : Holds h₁ place path v j) (ha : Added h h₁ place)
    (ha' : Added h₁ h' place') : Holds h' (join place place') path v j := by
  refine hv.mono fun r path hr => ⟨by rw [join, hr]; rfl, ha'.old r (ha.new r path hr).2⟩

/-- What was added later has its places apart from those before. -/
theorem Holds.join_right (hv : Holds h' place' path v j) (ha : Added h h₁ place)
    (ha' : Added h₁ h' place') : Holds h' (join place place') path v j := by
  refine hv.mono fun r path hr => ⟨?_, rfl⟩
  have hnone : place r = none := by
    cases hp : place r with
    | none => rfl
    | some path' =>
      have hlt := (ha.new r path' hp).2
      have hle := (ha'.new r path hr).1
      omega
  rw [join, hnone, hr]
  rfl

end

/-! ## Adding a document -/

theorem exists_member {es : List (Key × Value)} {members : List (String × Json)}
    (hkeys : es.map Prod.fst = members.map fun m => Key.name m.1) {e : Key × Value}
    (he : e ∈ es) : ∃ m ∈ members, e.1 = .name m.1 := by
  have hk : e.1 ∈ members.map fun m => Key.name m.1 := by
    rw [← hkeys]
    exact List.mem_map.2 ⟨e, he, rfl⟩
  obtain ⟨m, hm, hme⟩ := List.mem_map.1 hk
  exact ⟨m, hm, hme.symm⟩

/-- Adding something to a heap, at any path, adds a tree that holds the
    document. -/
def GrowsBy (add : Heap → Heap × Value) (j : Json) : Prop :=
  ∀ (h : Heap) (path : KeyPath), ∃ place,
    Holds (add h).1 place path (add h).2 j ∧ Added h (add h).1 place

/-- Adding the document to a heap, at any path, adds a tree that holds it. -/
def Grows (j : Json) : Prop :=
  ∀ (h : Heap) (path : KeyPath), ∃ place,
    Holds (h.addJson j).1 place path (h.addJson j).2 j ∧ Added h (h.addJson j).1 place

section
variable {α : Type} (add : Heap → α → Heap × Value) (tree : α → Json)

/-- Adds several things, in order. -/
def addEach (h : Heap) : List α → Heap × List Value
  | [] => (h, [])
  | x :: xs =>
    let (h, v) := add h x
    let (h, vs) := addEach h xs
    (h, v :: vs)

/-- Adding several things adds trees side by side, each at the path of its
    place in the list. -/
theorem addEach_holds : ∀ {xs : List α}, (∀ x ∈ xs, GrowsBy (add · x) (tree x)) →
    ∀ (h : Heap) (path : KeyPath) (segment : Nat → Segment), ∃ place,
      (addEach add h xs).2.length = xs.length ∧
      (∀ i v x, (addEach add h xs).2[i]? = some v → xs[i]? = some x →
        Holds (addEach add h xs).1 place (path.step (segment i)) v (tree x)) ∧
      Added h (addEach add h xs).1 place
  | [], _, h, _, _ => ⟨fun _ => none, rfl, fun i v x hv => by simp [addEach] at hv, .refl h⟩
  | x :: xs, hx, h, path, segment => by
    obtain ⟨place, hv, ha⟩ := hx x (by simp) h (path.step (segment 0))
    obtain ⟨place', hlen, hvs, ha'⟩ := addEach_holds
      (fun x' hx' => hx x' (List.mem_cons_of_mem _ hx')) (add h x).1 path fun i => segment (i + 1)
    refine ⟨join place place', by simp [addEach, hlen], fun i w y hw hy => ?_, ha.trans ha'⟩
    cases i with
    | zero =>
      cases hw
      cases hy
      exact hv.join_left ha ha'
    | succ i => exact (hvs i w y hw hy).join_right ha ha'

end

theorem addItems_eq : ∀ (items : List Json) (h : Heap), h.addItems items = addEach addJson h items
  | [], h => rfl
  | j :: items, h => by simp only [addItems, addEach, addItems_eq items]

theorem addMembers_holds : ∀ {members : List (String × Json)}, (∀ m ∈ members, Grows m.2) →
    (members.map Prod.fst).Nodup → ∀ (h : Heap) (path : KeyPath), ∃ place,
      (h.addMembers members).2.map Prod.fst = members.map (fun m => Key.name m.1) ∧
      (∀ k v j, (.name k, v) ∈ (h.addMembers members).2 → (k, j) ∈ members →
        Holds (h.addMembers members).1 place (path.step (.key (.name k))) v j) ∧
      Added h (h.addMembers members).1 place
  | [], _, _, h, _ => ⟨fun _ => none, rfl, fun k v j hv => by simp [addMembers] at hv, .refl h⟩
  | (key, j) :: members, hj, hnd, h, path => by
    obtain ⟨hkey, hnd⟩ := List.nodup_cons.1 hnd
    obtain ⟨place, hv, ha⟩ := hj (key, j) (by simp) h (path.step (.key (.name key)))
    obtain ⟨place', hkeys, hvs, ha'⟩ := addMembers_holds
      (fun m hm => hj m (List.mem_cons_of_mem _ hm)) hnd (h.addJson j).1 path
    -- the new key is none of the later ones, so its member and its entry go together
    have hmem : ∀ k i, (k, i) ∈ members → k ≠ key := by
      rintro k i hm rfl
      exact hkey (List.mem_map.2 ⟨(k, i), hm, rfl⟩)
    have hent : ∀ k w, (.name k, w) ∈ ((h.addJson j).1.addMembers members).2 → k ≠ key := by
      rintro k w hw rfl
      obtain ⟨m, hm, hmk⟩ := exists_member hkeys hw
      cases hmk
      exact hmem m.1 m.2 hm rfl
    refine ⟨join place place', by simp [addMembers, hkeys], fun k w i hw hi => ?_, ha.trans ha'⟩
    rcases List.mem_cons.1 hw with hw | hw
    · cases hw
      rcases List.mem_cons.1 hi with hi | hi
      · cases hi
        exact hv.join_left ha ha'
      · exact absurd rfl (hmem _ i hi)
    · rcases List.mem_cons.1 hi with hi | hi
      · cases hi
        exact absurd rfl (hent _ w hw)
      · exact (hvs k w i hw hi).join_right ha ha'

/-- **Adding a document** adds a tree that holds it. -/
theorem addJson_holds {j : Json} (hd : j.Distinct) : Grows j := by
  induction hd with
  | null => exact fun h path => ⟨fun _ => none, .null path, .refl h⟩
  | bool b => exact fun h path => ⟨fun _ => none, .bool path b, .refl h⟩
  | number n => exact fun h path => ⟨fun _ => none, .number path n, .refl h⟩
  | string text => exact fun h path => ⟨fun _ => none, .string path text, .refl h⟩
  | @array items _ ih =>
    intro h path
    obtain ⟨place, hlen, hvs, ha⟩ := addEach_holds addJson id ih h path .index
    rw [← addItems_eq] at hlen hvs ha
    have hroot := Added.alloc (h.addItems items).1 (.array (h.addItems items).2) path
    refine ⟨_, ?_, ha.trans hroot⟩
    refine .array ?_ (get?_alloc_next ..) hlen fun i v j hv hj => ?_
    · exact place_next ha path
    · exact (hvs i v j hv hj).join_left ha hroot
  | @object members hnd _ ih =>
    intro h path
    obtain ⟨place, hkeys, hvs, ha⟩ := addMembers_holds ih hnd h path
    have hentries : (PlainObject.ofEntries .object (h.addMembers members).2).entries =
        (h.addMembers members).2 := by
      refine PlainObject.entries_eq (PlainObject.properties_ofEntries ?_) fun e he => ?_
      · rw [hkeys, ← Function.comp_def Key.name, ← List.map_map]
        exact List.Pairwise.map Key.name (fun k l hkl => by simpa using hkl) hnd
      · obtain ⟨m, -, hm⟩ := exists_member hkeys he
        rw [hm]
        rfl
    have hroot := Added.alloc (h.addMembers members).1
      (.plain (.ofEntries .object (h.addMembers members).2)) path
    refine ⟨_, ?_, ha.trans hroot⟩
    refine .object ?_ (get?_alloc_next ..) PlainObject.prototype_ofEntries hnd
      (by rw [hentries, hkeys]) fun k v j hv hj => ?_
    · exact place_next ha path
    · rw [hentries] at hv
      exact (hvs k v j hv hj).join_left ha hroot

end Heap

end ValueGraph
