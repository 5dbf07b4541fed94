/-
  One document in either notation.

  A JSON document can be written as YAML: mappings list their members in any
  order, and any node may have tags.  The two graphs are built by different
  recursions, yet neither comparing nor rendering tells them apart.

  * `Json.WrittenAs`: a YAML document writes a JSON document;
  * `Json.Alike`: the same document, with the same normal document;
  * `Json.WrittenAs.alike_tree`: what a YAML document writes is its tree;
  * `Heap.Indistinct`: values that comparing and rendering do not tell apart;
  * `Heap.indistinct_of_writtenAs`: the graphs of a document in both notations.
-/
import ValueGraph.Proofs.LoadedMappings

namespace ValueGraph

/-! ## Documents in both notations -/

variable {write? : Yaml → Option String}

theorem Yaml.keyText_untag : ∀ y : Yaml, y.untag.keyText write? = y.keyText write?
  | .tagged _ y => by rw [untag, keyText, keyText_untag y]
  | .null | .bool _ | .number _ | .string _ | .sequence _ | .mapping _ => rfl

namespace Json

/-- **The YAML document writes the JSON document**: the same scalars, sequences
    item by item, and for an object a mapping that lists its members in any
    order under their keys.  Every node, keys among them, may have tags. -/
inductive WrittenAs : Json → Yaml → Prop
  | null : WrittenAs .null .null
  | bool (b : Bool) : WrittenAs (.bool b) (.bool b)
  | number (n : YamlNumber) : WrittenAs (.number n.toJson) (.number n)
  | string (text : String) : WrittenAs (.string text) (.string text)
  | array {items : List Json} {ys : List Yaml} : items.length = ys.length →
      (∀ (i : Nat) j y, items[i]? = some j → ys[i]? = some y → WrittenAs j y) →
      WrittenAs (.array items) (.sequence ys)
  | object {members listed : List (String × Json)} {entries : List (Yaml × Yaml)} :
      members.Perm listed → listed.length = entries.length →
      (∀ (i : Nat) m e, listed[i]? = some m → entries[i]? = some e →
        e.1.untag = .string m.1) →
      (∀ (i : Nat) m e, listed[i]? = some m → entries[i]? = some e → WrittenAs m.2 e.2) →
      WrittenAs (.object members) (.mapping entries)
  | tagged (tag : String) {j : Json} {y : Yaml} : WrittenAs j y → WrittenAs j (.tagged tag y)

theorem Same.symm {a b : Json} (hs : a.Same b) : b.Same a := by
  induction hs with
  | null => exact .null
  | bool b => exact .bool b
  | number h => exact .number (by rwa [Binary64.eq_comm, and_comm])
  | string text => exact .string text
  | array hlen _ ih => exact .array hlen.symm fun i y x hy hx => ih i x y hx hy
  | object hkeys _ ih => exact .object (fun k => (hkeys k).symm) fun k y x hy hx => ih k x y hx hy

/-- The same document, with the same normal document. -/
structure Alike (a b : Json) : Prop where
  same : a.Same b
  normal : a.normal = b.normal

namespace Alike

theorem symm {a b : Json} (ha : a.Alike b) : b.Alike a := ⟨ha.same.symm, ha.normal.symm⟩

theorem number (n : JsonNumber) : Alike (.number n) (.number n) := by
  refine ⟨.number ?_, rfl⟩
  cases hnan : n.value.isNaN with
  | false => exact .inl (by simp [Binary64.eq, hnan])
  | true => exact .inr ⟨rfl, rfl⟩

theorem array {xs ys : List Json} (hlen : xs.length = ys.length)
    (hall : ∀ (i : Nat) x y, xs[i]? = some x → ys[i]? = some y → Alike x y) :
    Alike (.array xs) (.array ys) where
  same := .array hlen fun i x y hx hy => (hall i x y hx hy).same
  normal := by
    rw [Json.normal, Json.normal, array.injEq, normalItems_eq_iff]
    exact ⟨hlen, fun i x y hx hy => (hall i x y hx hy).normal⟩

theorem object {ms ns : List (String × Json)} (hms : (ms.map Prod.fst).Nodup)
    (hns : (ns.map Prod.fst).Nodup) (hkeys : ∀ k, k ∈ ms.map Prod.fst ↔ k ∈ ns.map Prod.fst)
    (hall : ∀ k x y, (k, x) ∈ ms → (k, y) ∈ ns → Alike x y) :
    Alike (.object ms) (.object ns) where
  same := .object hkeys fun k x y hx hy => (hall k x y hx hy).same
  normal := by
    rw [Json.normal, Json.normal, normalMembers_eq_iff hms hns]
    exact ⟨hkeys, fun k x y hx hy => (hall k x y hx hy).normal⟩

end Alike

/-- The keys of a mapping that writes the members of an object. -/
theorem keyTexts_of_listed {listed : List (String × Json)} {entries : List (Yaml × Yaml)}
    (hlen : listed.length = entries.length)
    (hkeys : ∀ (i : Nat) m e, listed[i]? = some m → entries[i]? = some e →
      e.1.untag = .string m.1) :
    Yaml.keyTexts write? entries = listed.map Prod.fst := by
  rw [Yaml.keyTexts, ← List.forall₂_eq_eq_eq, List.forall₂_map_left_iff,
    List.forall₂_map_right_iff, forall₂_iff_getElem?]
  refine ⟨hlen.symm, fun i e m he hm => ?_⟩
  rw [← Yaml.keyText_untag, hkeys i m e hm he]
  rfl

/-- **What a YAML document writes** is its tree, but for the order of
    members. -/
theorem WrittenAs.alike_tree {j : Json} {y : Yaml} (hw : j.WrittenAs y) :
    j.Distinct → (y.treeBy write?).Alike j := by
  induction hw with
  | null => exact fun _ => ⟨.null, rfl⟩
  | bool b => exact fun _ => ⟨.bool b, rfl⟩
  | number n => exact fun _ => .number n.toJson
  | string text => exact fun _ => ⟨.string text, rfl⟩
  | tagged tag _ ih => exact ih
  | @array items ys hlen _ ih =>
    intro hj
    cases hj with | array hd =>
    rw [Yaml.treeBy, Yaml.treeItems_eq]
    refine .array (by simp [hlen]) fun i x j hx hj => ?_
    rw [List.getElem?_map] at hx
    obtain ⟨y, hy, rfl⟩ := Option.map_eq_some_iff.1 hx
    exact ih i j y hj hy (hd j (List.mem_of_getElem? hj))
  | @object members listed entries hperm hlen hkeys _ ih =>
    intro hj
    cases hj with | object hnd hd =>
    have htexts : Yaml.keyTexts write? entries = listed.map Prod.fst :=
      keyTexts_of_listed hlen hkeys
    have hndl : (listed.map Prod.fst).Nodup := (hperm.map Prod.fst).nodup_iff.1 hnd
    have htree : ((Json.setMembers (Yaml.treeEntries write? entries)).map Prod.fst).Nodup := by
      have hdistinct := (Yaml.mapping entries).treeBy_distinct write?
      rw [Yaml.treeBy] at hdistinct
      cases hdistinct with | object hnd _ => exact hnd
    rw [Yaml.treeBy]
    refine .object htree hnd (fun k => ?_) fun k x j hx hj => ?_
    · rw [Yaml.mem_keys_tree_mapping, htexts, (hperm.map Prod.fst).mem_iff]
    · -- no two keys have the same text, so the last entry with a text is the only one
      obtain ⟨y, hy, rfl⟩ := Yaml.mem_tree_mapping.1 hx
      obtain ⟨i, hi⟩ := List.mem_iff_getElem?.1 (hperm.mem_iff.1 hj)
      obtain ⟨e, he⟩ := exists_getElem? hlen.symm hi
      have hmem : (k, e.2) ∈ Yaml.members write? entries := by
        refine List.mem_map.2 ⟨e, List.mem_of_getElem? he, ?_⟩
        rw [← Yaml.keyText_untag, hkeys i (k, j) e hi he]
        rfl
      have hlast : lastValue? k (Yaml.members write? entries) = some e.2 :=
        lastValue?_of_nodup (by rwa [Yaml.keys_members, htexts]) hmem
      rw [hlast] at hy
      cases hy
      exact ih i (k, j) e hi he (hd (k, j) hj)

end Json

/-! ## Graphs that nothing tells apart -/

namespace Heap

/-- Neither comparing the two values, in either order, nor rendering them tells
    them apart, and both have a document. -/
structure Indistinct (h : Heap) (v w : Value) : Prop where
  equal : h.deepEqual v w = true
  equal' : h.deepEqual w v = true
  rendered : ∃ k, h.render v = .ok k ∧ h.render w = .ok k

/-- Documents with trees that are alike have graphs that nothing tells apart. -/
theorem indistinct_of_alike (h : Heap) {d e : Document} (hd : d.tree.Distinct)
    (he : e.tree.Distinct) (ha : d.tree.Alike e.tree) :
    ((h.addDocument d).1.addDocument e).1.Indistinct (h.addDocument d).2
      ((h.addDocument d).1.addDocument e).2 := by
  obtain ⟨place, hv, hadd⟩ := addDocument_holds hd h .root
  obtain ⟨place', hw, hadd'⟩ := addDocument_holds he (h.addDocument d).1 .root
  have hv' : ((h.addDocument d).1.addDocument e).1.Holds place .root (h.addDocument d).2 d.tree :=
    hv.mono fun r path hr => ⟨hr, hadd'.old r (hadd.new r path hr).2⟩
  have hapart : Apart place place' := hadd.apart hadd'
  have hapart' : Apart place' place := fun r path path' hr hr' => hapart r path' path hr' hr
  refine ⟨(deepEqual_iff_same hv' hw hapart).2 ha.same,
    (deepEqual_iff_same hw hv' hapart').2 ha.same.symm, d.tree.normal, hv'.render, ?_⟩
  rw [ha.normal]
  exact hw.render

/-- **One document in two notations** becomes graphs that nothing tells apart:
    they are equal in either order and have the same document.  The order in
    which the two are loaded does not matter. -/
theorem indistinct_of_writtenAs (h : Heap) {j : Json} {y : Yaml} (hj : j.Distinct)
    (hw : j.WrittenAs y) :
    ((h.addYaml y).1.addJson j).1.Indistinct (h.addYaml y).2 ((h.addYaml y).1.addJson j).2 ∧
      ((h.addJson j).1.addYaml y).1.Indistinct (h.addJson j).2
        ((h.addJson j).1.addYaml y).2 := by
  have ha : y.tree.Alike j := hw.alike_tree hj
  exact ⟨h.indistinct_of_alike (d := .yaml y) (e := .json j) y.tree_distinct hj ha,
    h.indistinct_of_alike (d := .json j) (e := .yaml y) hj y.tree_distinct ha.symm⟩

/-- The members of a line of a parcel. -/
def parcelLine : List (String × Json) :=
  [("count", .number (.integer 2)), ("sku", .string "a")]

/-- A parcel with a line, and a place where a line is missing. -/
def parcel : Json :=
  .object [("id", .number (.integer 7)), ("lines", .array [.object parcelLine, .null])]

/-- The line with its members the other way round, one of its keys with a tag. -/
def taggedLine : List (Yaml × Yaml) :=
  [(.tagged "!key" (.string "sku"), .string "a"),
    (.string "count", .tagged "!unit" (.number (.integer 2)))]

/-- The parcel in the other notation, with its members the other way round. -/
def taggedParcel : Yaml :=
  .tagged "!parcel" (.mapping [
    (.string "lines", .sequence [.tagged "!line" (.mapping taggedLine), .null]),
    (.string "id", .number (.integer 7))])

theorem distinct_parcel : parcel.Distinct := by
  refine .object (by simp) ?_
  simp only [List.forall_mem_cons]
  refine ⟨.number _, .array ?_, by simp⟩
  simp only [List.forall_mem_cons]
  refine ⟨.object (by simp [parcelLine]) ?_, .null, by simp⟩
  simp only [parcelLine, List.forall_mem_cons]
  exact ⟨.number _, .string _, by simp⟩

theorem writtenAs_taggedLine : (Json.object parcelLine).WrittenAs (.mapping taggedLine) := by
  refine .object (.swap ..) rfl (forall₂_iff_getElem?.1 ?_).2 (forall₂_iff_getElem?.1 ?_).2
  · exact .cons rfl (.cons rfl .nil)
  · exact .cons (.string "a") (.cons (.tagged "!unit" (.number (.integer 2))) .nil)

theorem writtenAs_taggedParcel : parcel.WrittenAs taggedParcel := by
  refine .tagged "!parcel" (.object (.swap ..) rfl (forall₂_iff_getElem?.1 ?_).2
    (forall₂_iff_getElem?.1 ?_).2)
  · exact .cons rfl (.cons rfl .nil)
  · refine .cons (.array rfl (forall₂_iff_getElem?.1 ?_).2) (.cons (.number (.integer 7)) .nil)
    exact .cons (.tagged "!line" writtenAs_taggedLine) (.cons .null .nil)

theorem indistinct_of_writtenAs_parcel : parcel.Distinct ∧ parcel.WrittenAs taggedParcel ∧
    ((empty.addYaml taggedParcel).1.addJson parcel).1.Indistinct (empty.addYaml taggedParcel).2
      ((empty.addYaml taggedParcel).1.addJson parcel).2 ∧
    ((empty.addJson parcel).1.addYaml taggedParcel).1.Indistinct (empty.addJson parcel).2
      ((empty.addJson parcel).1.addYaml taggedParcel).2 :=
  ⟨distinct_parcel, writtenAs_taggedParcel,
    indistinct_of_writtenAs empty distinct_parcel writtenAs_taggedParcel⟩

end Heap

end ValueGraph
