/-
  The graphs of documents of either kind.

  A YAML document has the graph of a JSON document: tags are gone, keys are
  texts, and of keys with the same text the later one has replaced the earlier
  one in its place.

  * `Yaml.treeBy`, `Yaml.tree`, `Document.tree`: that JSON document, for any way
    of writing a collection that is a key (`write?`) and for block texts;
  * `Heap.addDocument_holds`: `Heap.addDocument` adds a tree that holds it;
  * `Document.distinct_of_load`: the documents in files have distinct keys;
  * `Document.Finite`: the numbers in the graph of a document are finite, and so
    are those of its tree (`Document.Finite.tree`);
  * `IgnoreRules.sameDocuments_iff_pruned`: finite documents are equal under
    rules iff they come out the same without what the rules ignore.
-/
import ValueGraph.Command
import ValueGraph.Proofs.ClosedHeaps
import ValueGraph.Proofs.NormalDocuments

namespace ValueGraph

/-! ## The tree of a document -/

/-- Sets a member in the place of the one with its key, or at the end. -/
def Json.setMember (key : String) (j : Json) : List (String × Json) → List (String × Json)
  | [] => [(key, j)]
  | m :: ms => if m.1 = key then (key, j) :: ms else m :: setMember key j ms

/-- The members that setting them in order gives. -/
def Json.setMembers (members : List (String × Json)) : List (String × Json) :=
  members.foldl (fun ms m => setMember m.1 m.2 ms) []

/-- The same number of a JSON document. -/
def YamlNumber.toJson : YamlNumber → JsonNumber
  | integer i => .integer i
  | float x => .float x

theorem YamlNumber.value_toJson (n : YamlNumber) : n.toJson.value = n.value := by
  cases n <;> rfl

namespace Yaml

section
variable (write? : Yaml → Option String)

mutual

/-- The JSON document with the same graph, where `write?` writes the collections
    that are keys. -/
def treeBy : Yaml → Json
  | null => .null
  | bool b => .bool b
  | number n => .number n.toJson
  | string text => .string text
  | sequence items => .array (treeItems items)
  | mapping entries => .object (Json.setMembers (treeEntries entries))
  | tagged _ value => treeBy value

/-- The trees of items. -/
def treeItems : List Yaml → List Json
  | [] => []
  | y :: ys => treeBy y :: treeItems ys

/-- The trees of the values of entries, under the texts of their keys. -/
def treeEntries : List (Yaml × Yaml) → List (String × Json)
  | [] => []
  | (key, y) :: es => (key.keyText write?, treeBy y) :: treeEntries es

end

theorem treeItems_eq : ∀ items : List Yaml, treeItems write? items = items.map (treeBy write?)
  | [] => by rw [treeItems, List.map_nil]
  | y :: items => by rw [treeItems, treeItems_eq items, List.map_cons]

theorem treeEntries_eq : ∀ entries : List (Yaml × Yaml),
    treeEntries write? entries = entries.map fun e => (e.1.keyText write?, e.2.treeBy write?)
  | [] => by rw [treeEntries, List.map_nil]
  | (key, y) :: entries => by rw [treeEntries, treeEntries_eq entries, List.map_cons]

end

/-- The JSON document with the same graph. -/
def tree (y : Yaml) : Json := y.treeBy blockText?

end Yaml

/-- The JSON document with the same graph. -/
def Document.tree : Document → Json
  | json j => j
  | yaml y => y.tree

/-! ## Distinct keys -/

namespace Json

section
variable {key : String} {j : Json} {m : String × Json} {ms : List (String × Json)}

theorem mem_setMember (hm : m ∈ setMember key j ms) : m = (key, j) ∨ m ∈ ms := by
  induction ms with
  | nil => exact Or.inl (List.mem_singleton.1 hm)
  | cons n ms ih =>
    rw [setMember] at hm
    split at hm
    next => exact (List.mem_cons.1 hm).imp_right (List.mem_cons_of_mem _)
    next =>
      rcases List.mem_cons.1 hm with rfl | hm
      · exact Or.inr (List.mem_cons_self ..)
      · exact (ih hm).imp_right (List.mem_cons_of_mem _)

theorem nodup_setMember (hnd : (ms.map Prod.fst).Nodup) :
    ((setMember key j ms).map Prod.fst).Nodup := by
  induction ms with
  | nil => exact List.nodup_singleton _
  | cons n ms ih =>
    obtain ⟨hn, hnd⟩ := List.nodup_cons.1 hnd
    rw [setMember]
    split
    next heq => exact List.nodup_cons.2 ⟨heq ▸ hn, hnd⟩
    next hne =>
      refine List.nodup_cons.2 ⟨fun hmem => ?_, ih hnd⟩
      obtain ⟨m, hm, hkey⟩ := List.mem_map.1 hmem
      rcases mem_setMember hm with rfl | hm
      · exact hne hkey.symm
      · exact hn (List.mem_map.2 ⟨m, hm, hkey⟩)

end

/-- Setting members one after the other keeps keys distinct. -/
theorem nodup_setMembers : ∀ (members : List (String × Json)) {acc : List (String × Json)},
    (acc.map Prod.fst).Nodup →
      ((members.foldl (fun ms m => setMember m.1 m.2 ms) acc).map Prod.fst).Nodup
  | [], _, hnd => hnd
  | _ :: members, _, hnd => nodup_setMembers members (nodup_setMember hnd)

theorem setMembers_distinct {members : List (String × Json)}
    (hd : ∀ m ∈ members, m.2.Distinct) : (Json.object (setMembers members)).Distinct :=
  .object (nodup_setMembers members List.nodup_nil) fun m hm =>
    hd m ((mem_of_foldl mem_setMember hm).resolve_right List.not_mem_nil)

end Json

namespace Yaml

section
variable (write? : Yaml → Option String)

mutual

theorem treeBy_distinct : ∀ y : Yaml, (y.treeBy write?).Distinct
  | null => by rw [treeBy]; exact .null
  | bool b => by rw [treeBy]; exact .bool b
  | number n => by rw [treeBy]; exact .number _
  | string text => by rw [treeBy]; exact .string text
  | sequence items => by rw [treeBy]; exact .array (treeItems_distinct items)
  | mapping entries => by
    rw [treeBy]
    exact Json.setMembers_distinct (treeEntries_distinct entries)
  | tagged _ value => by rw [treeBy]; exact treeBy_distinct value

theorem treeItems_distinct : ∀ items : List Yaml, ∀ j ∈ treeItems write? items, j.Distinct
  | [] => by simp [treeItems]
  | y :: items => by
    rw [treeItems]
    exact List.forall_mem_cons.2 ⟨treeBy_distinct y, treeItems_distinct items⟩

theorem treeEntries_distinct : ∀ entries : List (Yaml × Yaml),
    ∀ m ∈ treeEntries write? entries, m.2.Distinct
  | [] => by simp [treeEntries]
  | (_, y) :: entries => by
    rw [treeEntries]
    exact List.forall_mem_cons.2 ⟨treeBy_distinct y, treeEntries_distinct entries⟩

end

end

theorem tree_distinct (y : Yaml) : y.tree.Distinct := treeBy_distinct _ y

end Yaml

/-- **The documents in files** have distinct keys. -/
theorem Document.distinct_of_load {name : String} {file : File} {d : Document}
    (h : Document.load name file = .ok d) : d.tree.Distinct := by
  cases d with
  | yaml y => exact y.tree_distinct
  | json j =>
    rw [load] at h
    split at h
    next => simp at h
    next text _ =>
      split at h
      next => simp at h
      next d hd =>
        cases h
        cases hkind : (FileName.kind? name).getD .json with
        | json =>
          rw [hkind, read?] at hd
          obtain ⟨j', hj, he⟩ := Option.map_eq_some_iff.1 hd
          cases he
          exact Json.distinct_of_read? hj
        | yaml =>
          rw [hkind, read?] at hd
          obtain ⟨y, -, he⟩ := Option.map_eq_some_iff.1 hd
          cases he

/-! ## Adding a document of either kind -/

namespace Heap

section
variable {h : Heap} {place : Ref → Option KeyPath} {path : KeyPath}

/-- A property of the object at a path is a member: its key is the text of the
    member's, and its value the root of a tree. -/
def IsMember (h : Heap) (place : Ref → Option KeyPath) (path : KeyPath) (a : Property)
    (m : String × Json) : Prop :=
  a.key = .name m.1 ∧ a.enumerable = true ∧
    h.Holds place (path.step (.key (.name m.1))) a.value m.2

theorem isMember_defineIn {key : String} {v : Value} {j : Json}
    (hv : h.Holds place (path.step (.key (.name key))) v j) :
    ∀ {ps : List Property} {ms : List (String × Json)}, List.Forall₂ (IsMember h place path) ps ms →
      List.Forall₂ (IsMember h place path) (PlainObject.defineIn ⟨.name key, v, true⟩ ps)
        (Json.setMember key j ms)
  | [], [], _ => .cons ⟨rfl, rfl, hv⟩ .nil
  | a :: ps, m :: ms, hall => by
    obtain ⟨ham, hall⟩ := List.forall₂_cons.1 hall
    have hiff : a.key = .name key ↔ m.1 = key := by rw [ham.1, Key.name.injEq]
    rw [PlainObject.defineIn, Json.setMember]
    by_cases hk : m.1 = key
    · rw [if_pos (hiff.2 hk), if_pos hk]
      exact .cons ⟨rfl, rfl, hv⟩ hall
    · rw [if_neg (mt hiff.1 hk), if_neg hk]
      exact .cons ham (isMember_defineIn hv hall)

theorem isMember_insert_all {es : List (Key × Value)} {members : List (String × Json)}
    (hall : List.Forall₂ (fun e m => e.1 = .name m.1 ∧
      h.Holds place (path.step (.key (.name m.1))) e.2 m.2) es members) :
    ∀ {o : PlainObject} {ms : List (String × Json)},
      List.Forall₂ (IsMember h place path) o.properties ms →
        List.Forall₂ (IsMember h place path)
          (es.foldl (fun o e => (o.insert e.1 e.2).2) o).properties
          (members.foldl (fun ms m => Json.setMember m.1 m.2 ms) ms) := by
  induction hall with
  | nil => exact fun ho => ho
  | @cons e m es members hem _ ih =>
    intro o ms ho
    obtain ⟨k, v⟩ := e
    obtain ⟨rfl, hv⟩ := hem
    exact ih (isMember_defineIn hv ho)

theorem exists_isMember {ps : List Property} {ms : List (String × Json)}
    (hall : List.Forall₂ (IsMember h place path) ps ms) {a : Property} (ha : a ∈ ps) :
    ∃ m ∈ ms, IsMember h place path a m := by
  obtain ⟨hlen, hall⟩ := forall₂_iff_getElem?.1 hall
  obtain ⟨i, hi⟩ := List.mem_iff_getElem?.1 ha
  obtain ⟨m, hm⟩ := exists_getElem? hlen.symm hi
  exact ⟨m, List.mem_of_getElem? hm, hall i a m hi hm⟩

/-- The entries of an object whose properties are members, all of them. -/
theorem entries_of_isMember {p : PlainObject} {ms : List (String × Json)}
    (hall : List.Forall₂ (IsMember h place path) p.properties ms) :
    p.entries = p.properties.map fun a => (a.key, a.value) := by
  refine PlainObject.entries_eq ?_ fun e he => ?_
  · rw [List.map_map]
    refine (List.map_congr_left fun a ha => ?_).trans (List.map_id _)|>.symm
    obtain ⟨m, -, -, he, -⟩ := exists_isMember hall ha
    cases a
    cases he
    rfl
  · obtain ⟨a, ha, rfl⟩ := List.mem_map.1 he
    obtain ⟨m, -, hk, -⟩ := exists_isMember hall ha
    rw [hk]
    rfl

/-- An object whose properties are the members of a document holds it. -/
theorem holds_of_isMember {r : Ref} {p : PlainObject} {ms : List (String × Json)}
    (hr : place r = some path) (ho : h.get? r = some (.plain p)) (hproto : p.prototype = .object)
    (hnd : (ms.map Prod.fst).Nodup) (hall : List.Forall₂ (IsMember h place path) p.properties ms) :
    h.Holds place path (.object r) (.object ms) := by
  refine .object hr ho hproto hnd ?_ fun k v j hv hj => ?_
  · have hkeys : List.Forall₂ Eq (p.properties.map Property.key)
        (ms.map fun m => Key.name m.1) :=
      List.forall₂_map_left_iff.2 (List.forall₂_map_right_iff.2 (hall.imp fun a m ham => ham.1))
    rw [List.forall₂_eq_eq_eq] at hkeys
    rw [entries_of_isMember hall, List.map_map]
    exact hkeys
  · rw [entries_of_isMember hall] at hv
    obtain ⟨a, ha, he⟩ := List.mem_map.1 hv
    obtain ⟨m, hm, hk, -, hholds⟩ := exists_isMember hall ha
    obtain ⟨hka, rfl⟩ := Prod.mk.inj he
    obtain rfl : m.1 = k := by simpa [hk] using hka
    have hsame := List.inj_on_of_nodup_map hnd hj hm rfl
    rwa [show j = m.2 from congrArg Prod.snd hsame]

end

section
variable (write? : Yaml → Option String)

theorem addYamlItems_eq : ∀ (items : List Yaml) (h : Heap),
    h.addYamlItems write? items = addEach (addYamlBy write?) h items
  | [], h => rfl
  | y :: items, h => by simp only [addYamlItems, addEach, addYamlItems_eq items]

theorem addYamlEntries_eq : ∀ (entries : List (Yaml × Yaml)) (h : Heap),
    h.addYamlEntries write? entries = ((addEach (fun h e => h.addYamlBy write? e.2) h entries).1,
      (entries.map fun e => Key.name (e.1.keyText write?)).zip
        (addEach (fun h e => h.addYamlBy write? e.2) h entries).2)
  | [], h => rfl
  | (key, y) :: entries, h => by
    simp only [addYamlEntries, addEach, addYamlEntries_eq entries, List.map_cons,
      List.zip_cons_cons]

theorem addYamlBy_sequence {items : List Yaml}
    (ih : ∀ y ∈ items, GrowsBy (·.addYamlBy write? y) (y.treeBy write?)) :
    GrowsBy (·.addYamlBy write? (.sequence items)) ((Yaml.sequence items).treeBy write?) := by
  intro h path
  obtain ⟨place, hlen, hvs, ha⟩ :=
    addEach_holds (addYamlBy write?) (Yaml.treeBy write?) ih h path .index
  rw [← addYamlItems_eq] at hlen hvs ha
  have hroot := Added.alloc (h.addYamlItems write? items).1
    (.array (h.addYamlItems write? items).2) path
  refine ⟨_, ?_, ha.trans hroot⟩
  rw [Yaml.treeBy, Yaml.treeItems_eq]
  refine .array (place_next ha path) (get?_alloc_next ..) (by simpa using hlen)
    fun i v j hv hj => ?_
  rw [List.getElem?_map] at hj
  obtain ⟨y, hy, rfl⟩ := Option.map_eq_some_iff.1 hj
  exact (hvs i v y hv hy).join_left ha hroot

theorem addYamlBy_mapping {entries : List (Yaml × Yaml)}
    (ih : ∀ e ∈ entries, GrowsBy (·.addYamlBy write? e.2) (e.2.treeBy write?)) :
    GrowsBy (·.addYamlBy write? (.mapping entries)) ((Yaml.mapping entries).treeBy write?) := by
  intro h path
  obtain ⟨place, hlen, hvs, ha⟩ := addEach_holds
    (fun (h : Heap) (e : Yaml × Yaml) => h.addYamlBy write? e.2) (fun e => e.2.treeBy write?) ih h
    path fun i => ((entries.map fun e => Segment.key (.name (e.1.keyText write?)))[i]?).getD
      (.index i)
  have heq := addYamlEntries_eq write? entries h
  have hadd : Added h (h.addYamlEntries write? entries).1 place := by rwa [heq]
  have hroot := Added.alloc (h.addYamlEntries write? entries).1
    (.plain (.ofEntries .object (h.addYamlEntries write? entries).2)) path
  have hd := (Yaml.mapping entries).treeBy_distinct write?
  rw [Yaml.treeBy] at hd ⊢
  cases hd with | object hnd _ =>
  refine ⟨_, holds_of_isMember (place_next hadd path) (get?_alloc_next ..)
    PlainObject.prototype_ofEntries hnd (isMember_insert_all ?_ .nil), hadd.trans hroot⟩
  rw [Yaml.treeEntries_eq]
  refine forall₂_iff_getElem?.2 ⟨by rw [heq]; simp [hlen], fun i e m he hm => ?_⟩
  rw [heq] at he
  obtain ⟨hkey, hvalue⟩ := List.getElem?_zip_eq_some.1 he
  rw [List.getElem?_map] at hkey hm
  obtain ⟨e', he', rfl⟩ := Option.map_eq_some_iff.1 hm
  rw [he'] at hkey
  have hv := hvs i e.2 e' hvalue he'
  rw [List.getElem?_map, he'] at hv
  refine ⟨(Option.some.inj hkey).symm, ?_⟩
  rw [← congrArg Prod.fst heq] at hv
  exact hv.join_left hadd hroot

mutual

theorem addYamlBy_holds : ∀ y : Yaml, GrowsBy (·.addYamlBy write? y) (y.treeBy write?)
  | .null => fun h path => ⟨fun _ => none, .null path, .refl h⟩
  | .bool b => fun h path => ⟨fun _ => none, .bool path b, .refl h⟩
  | .number n => fun h path => by
    refine ⟨fun _ => none, ?_, .refl h⟩
    show Holds h _ path (.number n.value) _
    rw [Yaml.treeBy, ← n.value_toJson]
    exact .number path n.toJson
  | .string text => fun h path => ⟨fun _ => none, .string path text, .refl h⟩
  | .sequence items => addYamlBy_sequence write? (addYamlItems_holds items)
  | .mapping entries => addYamlBy_mapping write? (addYamlEntries_holds entries)
  | .tagged _ value => addYamlBy_holds value

theorem addYamlItems_holds : ∀ items : List Yaml, ∀ y ∈ items,
    GrowsBy (·.addYamlBy write? y) (y.treeBy write?)
  | [] => by simp
  | y :: items => List.forall_mem_cons.2 ⟨addYamlBy_holds y, addYamlItems_holds items⟩

theorem addYamlEntries_holds : ∀ entries : List (Yaml × Yaml), ∀ e ∈ entries,
    GrowsBy (·.addYamlBy write? e.2) (e.2.treeBy write?)
  | [] => by simp
  | (_, y) :: entries => List.forall_mem_cons.2 ⟨addYamlBy_holds y, addYamlEntries_holds entries⟩

end

end

/-- **Adding a document of either kind** adds a tree that holds its tree. -/
theorem addDocument_holds {d : Document} (hd : d.tree.Distinct) :
    GrowsBy (·.addDocument d) d.tree := by
  cases d with
  | json j => exact addJson_holds hd
  | yaml y => exact addYamlBy_holds _ y

end Heap

/-! ## Finite documents -/

/-- The numbers in the graph of the document are finite. -/
def Document.Finite (d : Document) : Prop :=
  ∀ x, (Heap.empty.addDocument d).1.Reaches (Heap.empty.addDocument d).2 (.number x) →
    x.isFinite = true

theorem Heap.Holds.finite {h : Heap} {place : Ref → Option KeyPath} {path : KeyPath}
    {root v : Value} {j : Json} (hv : h.Holds place path v j)
    (hfin : ∀ x, h.Reaches root (.number x) → x.isFinite = true) :
    h.Reaches root v → j.Finite := by
  induction hv with
  | null => exact fun _ => .null
  | bool _ b => exact fun _ => .bool b
  | number _ n => exact fun hr => .number (hfin _ hr)
  | string _ text => exact fun _ => .string text
  | @array path r values items _ ho hlen _ ih =>
    intro hr
    refine .array fun j hj => ?_
    obtain ⟨i, hi⟩ := List.mem_iff_getElem?.1 hj
    obtain ⟨v, hv⟩ := exists_getElem? hlen hi
    exact ih i v j hv hi (.step hr ho (List.mem_of_getElem? hv))
  | @object path r p members _ ho _ _ hkeys _ ih =>
    intro hr
    refine .object fun m hm => ?_
    obtain ⟨v, hv⟩ := exists_entry hkeys hm
    obtain ⟨a, ha, -, rfl⟩ := PlainObject.get?_eq_some.1 (PlainObject.mem_entries.1 hv).2
    exact ih m.1 a.value m.2 hv hm (.step hr ho (List.mem_map.2 ⟨a, ha, rfl⟩))

/-- The tree of a document with a finite graph is finite. -/
theorem Document.Finite.tree {d : Document} (hf : d.Finite) (hd : d.tree.Distinct) :
    d.tree.Finite := by
  obtain ⟨place, hv, -⟩ := Heap.addDocument_holds hd .empty .root
  exact hv.finite hf .refl

/-! ## Documents under rules -/

theorem Pruning.Traced.result_eq {α : Type} {t : Traced Empty α} {a : α} (h : t.outcome = .ok a) :
    t.result = a := by
  rw [result]
  split <;> simp_all

namespace IgnoreRules

variable {r : IgnoreRules} {a b d : Document}

/-- A document without what the rules ignore is its stripped tree, which is
    rendered without fail. -/
theorem prunedDocument_eq (hd : d.tree.Distinct) :
    r.prunedDocument d = .ok (d.tree.strip (r.ignores Glob.isMatch) .root).normal := by
  obtain ⟨place, hv, -⟩ := Heap.addDocument_holds hd .empty .root
  obtain ⟨copy, place', hout, hv', -⟩ := Heap.prune_holds
    (r.exclusionBy_total (ε := Empty) Glob.isMatch) (r.exclusionBy_decides Glob.isMatch) hv
  have hresult : ((Heap.empty.addDocument d).1.prune (Heap.empty.addDocument d).2
      r.exclusion).result = copy := Pruning.Traced.result_eq hout
  rw [prunedDocument]
  simp only [hresult]
  exact hv'.render

/-- Two documents are equal under the rules iff their stripped trees are the
    same. -/
theorem sameDocuments_iff (ha : a.tree.Distinct) (hb : b.tree.Distinct) :
    r.sameDocuments a b = true ↔ (a.tree.strip (r.ignores Glob.isMatch) .root).Same
      (b.tree.strip (r.ignores Glob.isMatch) .root) := by
  obtain ⟨place, hv, hadd⟩ := Heap.addDocument_holds ha .empty .root
  obtain ⟨place', hw, hadd'⟩ := Heap.addDocument_holds hb (Heap.empty.addDocument a).1 .root
  have hv' : ((Heap.empty.addDocument a).1.addDocument b).1.Holds place .root
      (Heap.empty.addDocument a).2 a.tree :=
    hv.mono fun r path hr => ⟨hr, hadd'.old r (hadd.new r path hr).2⟩
  obtain ⟨verdict, hout, hiff⟩ := Heap.deepEqualExcept_iff_same
    (r.exclusionBy_total (ε := Empty) Glob.isMatch) (r.exclusionBy_decides Glob.isMatch)
    hv' hw (hadd.apart hadd') fun r path hr => (hadd'.new r path hr).2
  have hresult : r.sameDocuments a b = verdict := Pruning.Traced.result_eq hout
  rw [hresult, hiff]

/-- **Comparing and pruning agree**: two finite documents are equal under the
    rules iff they come out the same without what the rules ignore. -/
theorem sameDocuments_iff_pruned (ha : a.tree.Distinct) (hb : b.tree.Distinct) (hfa : a.Finite)
    (hfb : b.Finite) : r.sameDocuments a b = true ↔ r.prunedDocument a = r.prunedDocument b := by
  rw [prunedDocument_eq ha, prunedDocument_eq hb, Except.ok.injEq, sameDocuments_iff ha hb,
    Json.normal_eq_iff ((hfa.tree ha).strip .root) ((hfb.tree hb).strip .root) (ha.strip .root)
      (hb.strip .root)]

end IgnoreRules

end ValueGraph
