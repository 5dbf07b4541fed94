/-
  From a value to its document and back.

  The document of plain data unfolds what is shared, and the graph that is built
  from it is a tree.  The tree and the value stand side by side along the paths:
  an object of the tree has one path, and so one object of the value for it.
  The other way round it may have several, one for each path.

  * `Object.Depicts`: an object and a document have the same parts;
  * `Heap.TreeBeside`: a tree that holds the document of a value, in one heap
    with the value;
  * `Heap.Mirrors`: an object of the tree and one of the value, at one path;
  * `Heap.deepEqual_addJson_render`: the tree is equal to the value, and the
    value is equal to the tree if and only if nothing in it is shared.
-/
import ValueGraph.Proofs.DocumentEquality
import ValueGraph.Proofs.EnumerablePaths
import ValueGraph.Proofs.ExactIntegers
import ValueGraph.Proofs.NormalDocuments

open Relation

namespace ValueGraph

/-! ## Documents with distinct keys -/

theorem Binary64.distinct_render (x : Binary64) : x.render.Distinct := by
  rw [render]
  split
  · exact .number _
  · split
    · exact .number _
    · exact .null

theorem Object.distinct_pairUp : ∀ {ts : List (Option Json)},
    (∀ t ∈ ts, (t.getD .null).Distinct) → ∀ j ∈ pairUp ts, j.Distinct
  | [], _ => by simp [pairUp]
  | [_], _ => by simp [pairUp]
  | t :: u :: ts, hts => by
    rw [pairUp]
    obtain ⟨ht, hts⟩ := List.forall_mem_cons.1 hts
    obtain ⟨hu, hts⟩ := List.forall_mem_cons.1 hts
    refine List.forall_mem_cons.2 ⟨.array ?_, distinct_pairUp hts⟩
    exact List.forall_mem_cons.2 ⟨ht, List.forall_mem_cons.2 ⟨hu, by simp⟩⟩

/-- Documents of objects have distinct keys if the documents below them do. -/
theorem Object.distinct_assemble {o : Object} {ts : List (Option Json)}
    (hts : ∀ t ∈ ts, (t.getD .null).Distinct) : (o.assemble ts).Distinct := by
  have hall : ∀ j ∈ ts.map (·.getD .null), j.Distinct := List.forall_mem_map.2 hts
  cases o with
  | array items => exact .array hall
  | set s => exact .array hall
  | map m => exact .array (distinct_pairUp hts)
  | plain p =>
    refine Json.distinct_ofMembers fun m hm => ?_
    obtain ⟨⟨a, t⟩, he, heq⟩ := List.mem_filterMap.1 hm
    obtain ⟨j, rfl, rfl⟩ := Option.map_eq_some_iff.1 heq
    exact hts (some j) (List.of_mem_zip he).2
  | date millis =>
    rw [assemble]
    cases millis.bind Calendar.timestamp? with
    | none => exact .null
    | some text => exact .string text
  | pattern p => exact .string _
  | boxed b =>
    cases b with
    | bool b => exact .bool b
    | number x => exact x.distinct_render
    | string text => exact .string text
  | typedArray a =>
    refine .array fun j hj => ?_
    cases a <;>
    · obtain ⟨x, -, rfl⟩ := List.mem_map.1 hj
      exact Binary64.distinct_render _
  | _ => exact .null

/-- **The document of a value** has distinct keys. -/
theorem Heap.Unfolds.distinct {h : Heap} {v : Value} {t : Option Json} (ht : h.Unfolds v t) :
    (t.getD .null).Distinct := by
  induction ht with
  | undefined | function | symbol | null => exact .null
  | bool b => exact .bool b
  | number x => exact x.distinct_render
  | string text => exact .string text
  | object _ _ hlen _ ih =>
    refine Object.distinct_assemble fun t ht => ?_
    obtain ⟨i, hi⟩ := List.mem_iff_getElem?.1 ht
    obtain ⟨v, hv⟩ := exists_getElem? hlen.symm hi
    exact ih i v t hv hi

/-! ## Objects and the documents that they stand for -/

/-- The document is a part of another one, one step away. -/
inductive Json.Part : Json → Segment → Json → Prop
  | element {items : List Json} {i : Nat} {j : Json} : items[i]? = some j →
      Part (.array items) (.index i) j
  | member {members : List (String × Json)} {k : String} {j : Json} : (k, j) ∈ members →
      Part (.object members) (.key (.name k)) j

namespace Object

/-- An object and a document are of one kind, and their parts at the same steps
    are related. -/
structure Depicts (R : Segment → Value → Json → Prop) (o : Object) (j : Json) : Prop where
  kind : (∃ values items, o = .array values ∧ j = .array items) ∨
    ∃ p members, o = .plain p ∧ p.prototype.isBuiltin = false ∧ j = .object members
  part : ∀ segment v, o.Part segment v → ∃ i, j.Part segment i ∧ R segment v i
  covered : ∀ segment i, j.Part segment i → ∃ v, o.Part segment v ∧ R segment v i

variable {M : Value → Value → Prop} {R S : Segment → Value → Json → Prop} {o p : Object} {j : Json}
  {h : Heap} {ts : List (Option Json)}

/-- Objects of one kind with parts at the same steps agree if these are
    related. -/
theorem agree_of_parts
    (hkind : (∃ xs ys, o = .array xs ∧ p = .array ys) ∨ ∃ a b, o = .plain a ∧ p = .plain b ∧
      a.prototype.isBuiltin = false ∧ b.prototype.isBuiltin = false)
    (hsteps : ∀ segment, (∃ v, o.Part segment v) ↔ ∃ w, p.Part segment w)
    (hparts : ∀ segment v w, o.Part segment v → p.Part segment w → M v w) : o.Agree M p := by
  rcases hkind with ⟨xs, ys, rfl, rfl⟩ | ⟨a, b, rfl, rfl, ha, hb⟩
  · have hindex : ∀ {xs : List Value} {i : Nat},
        (∃ v, (array xs).Part (.index i) v) ↔ i < xs.length := by
      intro xs i
      constructor
      · rintro ⟨v, ⟨hv⟩⟩
        exact (List.getElem?_eq_some_iff.1 hv).1
      · exact fun hi => ⟨xs[i], .element (List.getElem?_eq_getElem hi)⟩
    have hlen : xs.length = ys.length := by
      refine Nat.le_antisymm (Nat.le_of_not_lt fun hlt => ?_) (Nat.le_of_not_lt fun hlt => ?_)
      · exact Nat.lt_irrefl _ (hindex.1 ((hsteps (.index ys.length)).1 (hindex.2 hlt)))
      · exact Nat.lt_irrefl _ (hindex.1 ((hsteps (.index xs.length)).2 (hindex.2 hlt)))
    exact .arrays (forall₂_iff_getElem?.2 ⟨hlen, fun i v w hv hw =>
      hparts _ v w (.element hv) (.element hw)⟩)
  · have hkey : ∀ {p : PlainObject} {k : Key},
        (∃ v, (plain p).Part (.key k) v) ↔ p.hasEnumerable k = true := by
      intro p k
      constructor
      · rintro ⟨v, ⟨⟩⟩
        assumption
      · intro hk
        obtain ⟨v, hv⟩ := PlainObject.exists_get? hk
        exact ⟨v, .property hk hv⟩
    have hkeys : ∀ k, a.hasEnumerable k = b.hasEnumerable k := fun k => by
      rw [Bool.eq_iff_iff, ← hkey, ← hkey, hsteps]
    exact .plains ha hb hkeys fun k v w hk hv hw =>
      hparts _ v w (.property hk hv) (.property (hkeys k ▸ hk) hw)

/-- **Two objects that depict one document** agree. -/
theorem Depicts.agree (ho : o.Depicts R j) (hp : p.Depicts S j)
    (hunique : ∀ segment i i', j.Part segment i → j.Part segment i' → i = i')
    (hM : ∀ segment v w i, o.Part segment v → p.Part segment w → R segment v i →
      S segment w i → M v w) : o.Agree M p := by
  refine agree_of_parts ?_ (fun segment => ⟨?_, ?_⟩) fun segment v w hv hw => ?_
  · rcases ho.kind with ⟨xs, items, rfl, rfl⟩ | ⟨a, members, rfl, ha, rfl⟩
    · rcases hp.kind with ⟨ys, _, rfl, _⟩ | ⟨_, _, _, _, heq⟩
      · exact .inl ⟨xs, ys, rfl, rfl⟩
      · cases heq
    · rcases hp.kind with ⟨_, _, _, heq⟩ | ⟨b, _, rfl, hb, _⟩
      · cases heq
      · exact .inr ⟨a, b, rfl, rfl, ha, hb⟩
  · rintro ⟨v, hv⟩
    obtain ⟨i, hi, -⟩ := ho.part segment v hv
    obtain ⟨w, hw, -⟩ := hp.covered segment i hi
    exact ⟨w, hw⟩
  · rintro ⟨w, hw⟩
    obtain ⟨i, hi, -⟩ := hp.part segment w hw
    obtain ⟨v, hv, -⟩ := ho.covered segment i hi
    exact ⟨v, hv⟩
  · obtain ⟨i, hi, hR⟩ := ho.part segment v hv
    obtain ⟨i', hi', hS⟩ := hp.part segment w hw
    obtain rfl := hunique segment i i' hi hi'
    exact hM segment v w i hv hw hR hS

end Object

namespace Heap

variable {h : Heap} {place : Ref → Option KeyPath} {path : KeyPath} {r : Ref} {o : Object} {j : Json}
  {ts : List (Option Json)}

/-- An object of a tree depicts the document that it holds. -/
theorem Holds.depicts (hv : h.Holds place path (.object r) j) : ∃ o, h.get? r = some o ∧
    o.Depicts (fun segment => h.Holds place (path.step segment)) j := by
  cases hv with
  | @array _ _ values items _ ho hlen hvs =>
    refine ⟨_, ho, .inl ⟨values, items, rfl, rfl⟩, ?_, ?_⟩
    · rintro _ v ⟨hv⟩
      obtain ⟨i, hi⟩ := exists_getElem? hlen.symm hv
      exact ⟨i, .element hi, hvs _ v i hv hi⟩
    · rintro _ i ⟨hi⟩
      obtain ⟨v, hv⟩ := exists_getElem? hlen hi
      exact ⟨v, .element hv, hvs _ v i hv hi⟩
  | @object _ _ p members _ ho hproto _ hkeys hvs =>
    refine ⟨_, ho, .inr ⟨p, members, rfl, by rw [hproto]; rfl, rfl⟩, ?_, ?_⟩
    · rintro _ v ⟨⟩
      next k hk hv =>
        have he := PlainObject.mem_entries.2 ⟨hk, hv⟩
        obtain ⟨m, hm, rfl⟩ : ∃ m ∈ members, k = .name m.1 := exists_member hkeys he
        exact ⟨m.2, .member hm, hvs _ v _ he hm⟩
    · intro segment i hi
      cases hi with
      | member hm =>
        obtain ⟨v, he⟩ := exists_entry hkeys hm
        obtain ⟨hk, hv⟩ := PlainObject.mem_entries.1 he
        exact ⟨v, .property hk hv, hvs _ v i he hm⟩

theorem Holds.part_unique (hv : h.Holds place path (.object r) j) {segment : Segment} {i i' : Json}
    (hi : j.Part segment i) (hi' : j.Part segment i') : i = i' := by
  cases hv with
  | array =>
    cases hi with
    | element hi => cases hi' with
      | element hi' => rw [hi] at hi'; exact Option.some.inj hi'
  | object _ _ _ hnd =>
    cases hi with
    | member hi => cases hi' with
      | member hi' => exact congrArg Prod.snd (List.inj_on_of_nodup_map hnd hi hi' rfl)

/-- The values below data that is unfolded have a document each. -/
theorem exists_documents (hdatum : ∀ v ∈ o.rendered, h.IsDatum v)
    (hlen : ts.length = o.rendered.length)
    (hts : ∀ (i : Nat) v t, o.rendered[i]? = some v → ts[i]? = some t → h.Unfolds v t) :
    ∃ js : List Json, ts = js.map some ∧
      List.Forall₂ (fun v j => h.Unfolds v (some j)) o.rendered js := by
  have hsome : ∀ t ∈ ts, some (t.getD .null) = t := by
    intro t ht
    obtain ⟨i, hi⟩ := List.mem_iff_getElem?.1 ht
    obtain ⟨v, hv⟩ := exists_getElem? hlen.symm hi
    obtain ⟨j, rfl⟩ := (hdatum v (List.mem_of_getElem? hv)).exists_some (hts i v t hv hi)
    rfl
  refine ⟨ts.map (·.getD .null), ?_, forall₂_iff_getElem?.2 ⟨by simp [hlen], fun i v j hv hj => ?_⟩⟩
  · rw [List.map_map]
    exact ((List.map_congr_left hsome).trans (List.map_id ts)).symm
  · rw [List.getElem?_map] at hj
    obtain ⟨t, ht, rfl⟩ := Option.map_eq_some_iff.1 hj
    rw [hsome t (List.mem_of_getElem? ht)]
    exact hts i v t hv ht

end Heap

theorem PlainObject.key_of_mem_names {p : PlainObject} {a : Property} (ha : a ∈ p.names) :
    a.key = .name a.key.text := by
  have hk := (mem_names.1 (List.mem_map_of_mem ha)).2
  cases hkey : a.key with
  | name text => rfl
  | symbol s => rw [hkey] at hk; cases hk

theorem PlainObject.nodup_texts (p : PlainObject) : (p.names.map fun a => a.key.text).Nodup := by
  have heq : p.names.map Property.key = (p.names.map fun a => a.key.text).map Key.name := by
    rw [List.map_map]
    exact List.map_congr_left fun a ha => key_of_mem_names ha
  have hnd := p.nodup_names
  rw [heq] at hnd
  exact hnd.of_map _

namespace Object

variable {h : Heap} {o : Object} {ts : List (Option Json)} {js : List Json}

theorem depicts_array {items : List Value}
    (hjs : List.Forall₂ (fun v j => h.Unfolds v (some j)) items js) :
    (array items).Depicts (fun _ v i => h.Unfolds v (some i)) (.array js) := by
  obtain ⟨hlen, hjs⟩ := forall₂_iff_getElem?.1 hjs
  refine ⟨.inl ⟨items, js, rfl, rfl⟩, ?_, ?_⟩
  · rintro _ v ⟨hv⟩
    obtain ⟨i, hi⟩ := exists_getElem? hlen.symm hv
    exact ⟨i, .element hi, hjs _ v i hv hi⟩
  · rintro _ i ⟨hi⟩
    obtain ⟨v, hv⟩ := exists_getElem? hlen hi
    exact ⟨v, .element hv, hjs _ v i hv hi⟩

/-- The members of the document of a plain object, one for each property. -/
def documentMembers (p : PlainObject) (js : List Json) : List (String × Json) :=
  (p.names.zip js).map fun e => (e.1.key.text, e.2)

theorem exists_assemble_plain {p : PlainObject} (hlen : p.names.length = js.length) :
    ∃ members, (plain p).assemble (js.map some) = .object members ∧
      members.Perm (documentMembers p js) := by
  have heq : (plain p).assemble (js.map some) = .ofMembers (documentMembers p js) := by
    rw [assemble, List.zip_map_right, List.filterMap_map, documentMembers,
      ← List.filterMap_eq_map]
    rfl
  have hfst : (documentMembers p js).map Prod.fst = p.names.map fun a => a.key.text :=
    calc (documentMembers p js).map Prod.fst
      _ = ((p.names.zip js).map Prod.fst).map fun a => a.key.text := by
        rw [documentMembers, List.map_map, List.map_map]
        rfl
      _ = _ := by rw [List.map_fst_zip (Nat.le_of_eq hlen)]
  have hperm := @Json.insertMembers_perm (documentMembers p js) []
    (by rw [List.append_nil, hfst]; exact p.nodup_texts)
  rw [List.append_nil] at hperm
  exact ⟨_, heq, hperm⟩

theorem depicts_plain {p : PlainObject} (hp : (plain p).IsData)
    (hjs : List.Forall₂ (fun a j => h.Unfolds a.value (some j)) p.names js) :
    (plain p).Depicts (fun _ v i => h.Unfolds v (some i)) ((plain p).assemble (js.map some)) := by
  obtain ⟨members, heq, hperm⟩ := exists_assemble_plain hjs.length_eq
  obtain ⟨hlen, hjs⟩ := forall₂_iff_getElem?.1 hjs
  rw [heq]
  refine ⟨.inr ⟨p, members, rfl, hp.1, rfl⟩, ?_, ?_⟩
  · rintro _ v ⟨⟩
    next k hk hv =>
      obtain ⟨a, ha, rfl, rfl⟩ := PlainObject.exists_mem_names hk (hp.2 k hk) hv
      obtain ⟨n, hn⟩ := List.mem_iff_getElem?.1 ha
      obtain ⟨i, hi⟩ := exists_getElem? hlen.symm hn
      have hmem : (a.key.text, i) ∈ members := hperm.mem_iff.2 (List.mem_map.2
        ⟨(a, i), List.mem_of_getElem? (List.getElem?_zip_eq_some.2 ⟨hn, hi⟩), rfl⟩)
      refine ⟨i, ?_, hjs n a i hn hi⟩
      rw [PlainObject.key_of_mem_names ha]
      exact .member hmem
  · intro segment i hi
    cases hi with
    | member hm =>
      obtain ⟨⟨a, j⟩, he, hpair⟩ := List.mem_map.1 (hperm.mem_iff.1 hm)
      cases hpair
      obtain ⟨n, hn⟩ := List.mem_iff_getElem?.1 he
      obtain ⟨hna, hni⟩ := List.getElem?_zip_eq_some.1 hn
      obtain ⟨hk, hv⟩ := PlainObject.get?_of_mem_names (List.mem_of_getElem? hna)
      refine ⟨a.value, ?_, hjs n a j hna hni⟩
      rw [← PlainObject.key_of_mem_names (List.mem_of_getElem? hna)]
      exact .property hk hv

/-- Data depict the document that they unfold to. -/
theorem IsData.depicts (ho : o.IsData) (hdatum : ∀ v ∈ o.rendered, h.IsDatum v)
    (hlen : ts.length = o.rendered.length)
    (hts : ∀ (i : Nat) v t, o.rendered[i]? = some v → ts[i]? = some t → h.Unfolds v t) :
    o.Depicts (fun _ v i => h.Unfolds v (some i)) (o.assemble ts) := by
  obtain ⟨js, rfl, hjs⟩ := Heap.exists_documents hdatum hlen hts
  cases o with
  | array items =>
    have heq : (array items).assemble (js.map some) = .array js := by
      rw [assemble, List.map_map]
      exact congrArg Json.array (List.map_id js)
    rw [heq]
    exact depicts_array hjs
  | plain p =>
    rw [rendered_plain ho.isStructural, List.forall₂_map_left_iff] at hjs
    exact depicts_plain ho hjs
  | _ => exact ho.elim

end Object

/-! ## A value beside the tree of its document -/

namespace Heap

variable {h g : Heap} {place : Ref → Option KeyPath} {v w u x : Value} {path : KeyPath} {l r : Ref}
  {j : Json} {F : Ref → Option Ref} {M : Value → Value → Prop}

/-- Every object of plain data depicts its document. -/
theorem PlainData.depicts (hd : h.PlainData v) (hr : h.At v path (.object r))
    (hj : h.Unfolds (.object r) (some j)) : ∃ o, h.get? r = some o ∧
      o.Depicts (fun _ x i => h.Unfolds x (some i)) j := by
  obtain ⟨o, ho, hdata⟩ := hd.datum _ hr.reach
  cases hj with
  | @object _ o' ts ho' _ hlen hts =>
    rw [ho] at ho'
    cases ho'
    refine ⟨o, ho, hdata.depicts (fun x hx => ?_) hlen hts⟩
    obtain ⟨segment, hpart⟩ := hdata.mem_rendered.1 hx
    exact hd.datum x (hr.step ho hpart).reach

/-- A heap has grown by a tree that holds the document of plain data. -/
structure TreeBeside (h g : Heap) (place : Ref → Option KeyPath) (v w : Value) (j : Json) :
    Prop where
  data : h.PlainData v
  unfolds : h.Unfolds v (some j)
  holds : g.Holds place .root w j
  added : Added h g place

/-- The path leads to the first value in the tree and to the second one in what
    the tree was made from, and both stand for one document. -/
def AtBoth (h g : Heap) (place : Ref → Option KeyPath) (v w : Value) (path : KeyPath)
    (u x : Value) : Prop :=
  ∃ j, g.At w path u ∧ g.Holds place path u j ∧ h.At v path x ∧ h.Unfolds x (some j)

section
variable (ht : TreeBeside h g place v w j)
include ht

theorem TreeBeside.root : AtBoth h g place v w .root w v :=
  ⟨j, .root, ht.holds, .root, ht.unfolds⟩

section
variable (hb : AtBoth h g place v w path (.object l) (.object r))
include hb

theorem TreeBeside.get?_right : ∃ p, h.get? r = some p ∧ g.get? r = some p := by
  obtain ⟨-, -, -, hr, -⟩ := hb
  obtain ⟨p, hp, -⟩ := ht.data.datum _ hr.reach
  exact ⟨p, hp, (ht.added.old r (lt_of_get? hp)).trans hp⟩

/-- The tree is new. -/
theorem TreeBeside.ne : l ≠ r := by
  obtain ⟨p, hp, -⟩ := ht.get?_right hb
  obtain ⟨i, -, hl, -⟩ := hb
  rintro rfl
  exact absurd (lt_of_get? hp) (Nat.not_lt.2 (ht.added.new l path hl.place_eq).1)

/-- An object of the tree and the one that it was made from depict one
    document. -/
theorem TreeBeside.depicts : ∃ o p i, g.get? l = some o ∧ h.get? r = some p ∧
    o.Depicts (fun segment => g.Holds place (path.step segment)) i ∧
    p.Depicts (fun _ x i => h.Unfolds x (some i)) i ∧
    ∀ segment k k', i.Part segment k → i.Part segment k' → k = k' := by
  obtain ⟨i, -, hl, hr, hi⟩ := hb
  obtain ⟨o, ho, hod⟩ := hl.depicts
  obtain ⟨p, hp, hpd⟩ := ht.data.depicts hr hi
  exact ⟨o, p, i, ho, hp, hod, hpd, fun _ _ _ => hl.part_unique⟩

/-- Their parts at the same step are side by side again. -/
theorem TreeBeside.part {o p : Object} {segment : Segment} (ho : g.get? l = some o)
    (hp : h.get? r = some p) (hu : o.Part segment u) (hx : p.Part segment x) :
    AtBoth h g place v w (path.step segment) u x := by
  obtain ⟨o', p', i, ho', hp', hod, hpd, hunique⟩ := ht.depicts hb
  rw [ho] at ho'
  rw [hp] at hp'
  cases ho'
  cases hp'
  obtain ⟨k, hk, hholds⟩ := hod.part segment u hu
  obtain ⟨k', hk', hunfolds⟩ := hpd.part segment x hx
  obtain rfl := hunique segment k k' hk hk'
  obtain ⟨-, hl, -, hr, -⟩ := hb
  exact ⟨k, hl.step ho hu, hholds, hr.step hp hx, hunfolds⟩

/-- No part is missing in the tree. -/
theorem TreeBeside.exists_part {p : Object} {segment : Segment} (hp : h.get? r = some p)
    (hx : p.Part segment x) : ∃ o u, g.get? l = some o ∧ o.Part segment u ∧
      AtBoth h g place v w (path.step segment) u x := by
  obtain ⟨o, p', i, ho, hp', hod, hpd, -⟩ := ht.depicts hb
  rw [hp] at hp'
  cases hp'
  obtain ⟨k, hk, -⟩ := hpd.part segment x hx
  obtain ⟨u, hu, -⟩ := hod.covered segment k hk
  exact ⟨o, u, ho, hu, ht.part hb ho hp hu hx⟩

/-- **An object of the tree agrees** with the one that it was made from. -/
theorem TreeBeside.agree
    (hM : ∀ segment u x, AtBoth h g place v w (path.step segment) u x → M u x) :
    ∃ o p, g.get? l = some o ∧ g.get? r = some p ∧ o.Agree M p := by
  obtain ⟨o, p, i, ho, hp, hod, hpd, hunique⟩ := ht.depicts hb
  refine ⟨o, p, ho, (ht.added.old r (lt_of_get? hp)).trans hp, hod.agree hpd hunique ?_⟩
  exact fun segment u x _ hu hx _ _ => hM segment u x (ht.part hb ho hp hu hx)

end

/-- At a path there are two objects or two equal primitives. -/
theorem TreeBeside.cases (hb : AtBoth h g place v w path u x) :
    (u.isObject = false ∧ x.isObject = false ∧ u.strictEq x = true) ∨
      ∃ l r, u = .object l ∧ x = .object r := by
  obtain ⟨i, -, hu, hx, hi⟩ := hb
  have hdatum := ht.data.datum x hx.reach
  cases x with
  | object r =>
    obtain ⟨o, -, hod⟩ := ht.data.depicts hx hi
    refine .inr ?_
    rcases hod.kind with ⟨_, _, _, rfl⟩ | ⟨_, _, _, _, rfl⟩ <;> cases hu <;> exact ⟨_, _, rfl, rfl⟩
  | number n =>
    obtain ⟨m, hm⟩ := Binary64.render_of_isFinite hdatum
    have heq := (Binary64.value_of_render hdatum hm).2
    cases hi
    rw [hm] at hu
    cases hu
    exact .inl ⟨rfl, rfl, by rwa [Value.strictEq, Binary64.eq_comm]⟩
  | null | bool b | string text =>
    cases hi
    cases hu
    exact .inl ⟨rfl, rfl, by simp [Value.strictEq]⟩
  | _ => exact hdatum.elim

/-! ## The tree is equal to the value -/

/-- An object of the tree and the one that it was made from. -/
def Origin (h g : Heap) (place : Ref → Option KeyPath) (v w : Value) (l r : Ref) : Prop :=
  ∃ path, AtBoth h g place v w path (.object l) (.object r)

omit ht in
theorem origin_unique (l r r' : Ref) (hr : Origin h g place v w l r)
    (hr' : Origin h g place v w l r') : r = r' := by
  obtain ⟨path, i, -, hl, hr, -⟩ := hr
  obtain ⟨path', i', -, hl', hr', -⟩ := hr'
  -- an object of the tree has one path
  have hpath := hl.place_eq
  rw [hl'.place_eq] at hpath
  cases hpath
  cases hr.unique hr'
  rfl

theorem TreeBeside.matched_origin (hb : AtBoth h g place v w path u x) :
    Matched (counterpart (Origin h g place v w)) u x := by
  rcases ht.cases hb with ⟨hu, hx, heq⟩ | ⟨l, r, rfl, rfl⟩
  · exact .primitives hu hx (.inl heq)
  · exact .paired ((counterpart_eq_some origin_unique).2 ⟨path, hb⟩)

/-- **The tree of a document** is equal to what the document was made from. -/
theorem TreeBeside.deepEqual : g.deepEqual w v = true := by
  refine Correspondence.deepEqual (f := counterpart (Origin h g place v w))
    ⟨ht.matched_origin ht.root, fun l r hlr _ => ?_⟩
  obtain ⟨path, hb⟩ := (counterpart_eq_some origin_unique).1 hlr
  exact ht.agree hb fun segment u x => ht.matched_origin

/-! ## When the value is equal to the tree -/

/-- No two paths lead to the same object. -/
def Unshared (h : Heap) (v : Value) : Prop :=
  ∀ path path' r, h.At v path (.object r) → h.At v path' (.object r) → path = path'

section
variable (hno : h.Unshared v)
include hno

omit ht in
theorem converse_unique (r l l' : Ref) (hl : Origin h g place v w l r)
    (hl' : Origin h g place v w l' r) : l = l' := by
  obtain ⟨path, i, hl, -, hr, -⟩ := hl
  obtain ⟨path', i', hl', -, hr', -⟩ := hl'
  -- what the tree was made from has one path here
  cases hno path path' r hr hr'
  cases hl.unique hl'
  rfl

theorem TreeBeside.matched_converse (hb : AtBoth h g place v w path u x) :
    Matched (counterpart fun r l => Origin h g place v w l r) x u := by
  rcases ht.cases hb with ⟨hu, hx, heq⟩ | ⟨l, r, rfl, rfl⟩
  · exact .primitives hx hu (.inl (by rwa [Value.strictEq_comm]))
  · exact .paired ((counterpart_eq_some (converse_unique hno)).2 ⟨path, hb⟩)

theorem TreeBeside.deepEqual_of_unshared : g.deepEqual v w = true := by
  refine Correspondence.deepEqual (f := counterpart fun r l => Origin h g place v w l r)
    ⟨ht.matched_converse hno ht.root, fun r l hrl _ => ?_⟩
  obtain ⟨path, hb⟩ := (counterpart_eq_some (converse_unique hno)).1 hrl
  obtain ⟨o, p, ho, hp, hop⟩ := ht.agree (M := fun u x => Matched _ x u) hb
    fun segment u x => ht.matched_converse hno
  exact ⟨p, o, hp, ho, hop.symm⟩

end

/-- A correspondence pairs what stands side by side. -/
theorem TreeBeside.exists_matched (hF : g.Correspondence F v w) (hx : h.At v path x) :
    ∃ u, AtBoth h g place v w path u x ∧ Matched F x u := by
  induction hx with
  | root => exact ⟨w, ht.root, hF.matched⟩
  | @step path r p segment x hr hp hpart ih =>
    obtain ⟨u, hb, hm⟩ := ih
    rcases ht.cases hb with ⟨-, hno, -⟩ | ⟨l, r, rfl, heq⟩
    · cases hno
    · cases heq
      obtain ⟨o, u, ho, hu, hbelow⟩ := ht.exists_part hb hp hpart
      have hne := (ht.ne hb).symm
      obtain ⟨p', o', hp', ho', hagree⟩ := hF.agree _ l (hm.eq_some hne) hne
      rw [ht.added.old _ (lt_of_get? hp), hp] at hp'
      rw [ho] at ho'
      cases hp'
      cases ho'
      exact ⟨u, hbelow, hagree.beside (hpart.beside hu)⟩

/-- **Only a value without sharing** is equal to the tree. -/
theorem TreeBeside.unshared_of_deepEqual (he : g.deepEqual v w = true) : h.Unshared v := by
  obtain ⟨F, hF⟩ := exists_correspondence_of_deepEqual he
  have hpaired : ∀ {path r}, h.At v path (.object r) →
      ∃ l, place l = some path ∧ F r = some l := by
    intro path r hr
    obtain ⟨u, hb, hm⟩ := ht.exists_matched hF hr
    rcases ht.cases hb with ⟨-, hno, -⟩ | ⟨l, r', rfl, heq⟩
    · cases hno
    · cases heq
      have hl := hm.eq_some (ht.ne hb).symm
      obtain ⟨i, -, hholds, -⟩ := hb
      exact ⟨l, hholds.place_eq, hl⟩
  intro path path' r hr hr'
  obtain ⟨l, hpath, hl⟩ := hpaired hr
  obtain ⟨l', hpath', hl'⟩ := hpaired hr'
  rw [hl] at hl'
  cases hl'
  rw [hpath] at hpath'
  exact Option.some.inj hpath'

end

/-! ## The round trip -/

/-- **From plain data to a document and back.**  Plain data have a document, and
    the graph of the document is equal to them.  They are equal to the graph, in
    this order, if and only if no two paths lead to the same object. -/
theorem deepEqual_addJson_render (hd : h.PlainData v) : ∃ j, h.render v = .ok j ∧
    (h.addJson j).1.deepEqual (h.addJson j).2 v = true ∧
    ((h.addJson j).1.deepEqual v (h.addJson j).2 = true ↔ h.Unshared v) := by
  obtain ⟨j, hj⟩ := hd.exists_unfolds
  obtain ⟨place, hholds, hadded⟩ := addJson_holds hj.distinct h .root
  have ht : TreeBeside h (h.addJson j).1 place v (h.addJson j).2 j := ⟨hd, hj, hholds, hadded⟩
  exact ⟨j, render_eq_ok_iff.2 ⟨some j, hj, rfl⟩, ht.deepEqual,
    ht.unshared_of_deepEqual, ht.deepEqual_of_unshared⟩

/-- A list that has the same object twice.  The object is of a class of its own
    and leads back to the list by a property that is not enumerable. -/
def offer : Heap :=
  ⟨#[.array [.object ⟨1⟩, .object ⟨1⟩], .plain ⟨.ofClass ⟨0, "Item", false⟩,
    [⟨.name "amount", .number (.ofInt 2), true⟩, ⟨.name "offer", .object ⟨0⟩, false⟩], by simp⟩]⟩

theorem hasPart_offer {v w : Value} (hw : offer.HasPart v w) :
    v = .object ⟨0⟩ ∧ w = .object ⟨1⟩ ∨ v = .object ⟨1⟩ ∧ w = .number (.ofInt 2) := by
  obtain ⟨⟨n⟩, o, segment, rfl, ho, hpart⟩ := hw
  match n with
  | 0 =>
    cases ho
    cases hpart with
    | element hw => exact .inl ⟨rfl, by simpa using List.mem_of_getElem? hw⟩
  | 1 =>
    cases ho
    cases hpart with
    | property hk hw =>
      obtain ⟨a, ha, rfl, he⟩ := PlainObject.hasEnumerable_iff.1 hk
      rcases List.mem_pair.1 ha with rfl | rfl
      · cases hw
        exact .inr ⟨rfl, rfl⟩
      · cases he
  | n + 2 => cases ho

/-- How far an object of it is from the list; primitives are farthest. -/
def offerDepth (v : Value) : Nat := (v.ref?.map Ref.index).getD 2

theorem plainData_offer : offer.PlainData (.object ⟨0⟩) := by
  refine ⟨fun w hw => ?_, fun w _ hcycle => ?_⟩
  · rcases hw.cases_tail with rfl | ⟨v, -, hstep⟩
    · exact ⟨_, rfl, trivial⟩
    · rcases hasPart_offer hstep with ⟨-, rfl⟩ | ⟨-, rfl⟩
      · refine ⟨_, rfl, rfl, fun k hk => ?_⟩
        obtain ⟨a, ha, rfl, -⟩ := PlainObject.hasEnumerable_iff.1 hk
        rcases List.mem_pair.1 ha with rfl | rfl <;> rfl
      · show (Binary64.ofInt 2).isFinite = true
        decide
  · have hstep : ∀ v w, offer.HasPart v w → offerDepth v < offerDepth w := by
      intro v w hw
      rcases hasPart_offer hw with ⟨rfl, rfl⟩ | ⟨rfl, rfl⟩ <;> decide
    have hlt : TransGen (· < ·) (offerDepth w) (offerDepth w) := hcycle.lift offerDepth hstep
    rw [transGen_eq_self] at hlt
    exact Nat.lt_irrefl _ hlt

theorem deepEqual_addJson_render_offer : offer.PlainData (.object ⟨0⟩) ∧ ∃ j,
    offer.render (.object ⟨0⟩) = .ok j ∧
      (offer.addJson j).1.deepEqual (offer.addJson j).2 (.object ⟨0⟩) = true ∧
      (offer.addJson j).1.deepEqual (.object ⟨0⟩) (offer.addJson j).2 = false := by
  obtain ⟨j, hj, heq, hiff⟩ := deepEqual_addJson_render plainData_offer
  refine ⟨plainData_offer, j, hj, heq, Bool.eq_false_iff.2 fun he => ?_⟩
  have hpath := hiff.1 he _ _ ⟨1⟩ (.step .root rfl (.element (i := 0) rfl))
    (.step .root rfl (.element (i := 1) rfl))
  cases hpath

end Heap

end ValueGraph
