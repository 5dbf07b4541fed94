/-
  Rendering the graph of a document.

  A tree that holds a document is rendered without fail: no object is its own
  ancestor, because the path to an object is longer than the paths to its
  ancestors.  The document that comes back lists members in the order of their
  keys and spells numbers by their 64-bit values.

  * `Json.normal`: the document that comes back;
  * `Heap.Holds.render`: rendering a tree;
  * `Heap.render_prune_json`: rendering the pruned graph of a document is
    rendering the graph of the stripped document.
-/
import ValueGraph.Proofs.Stripping
import ValueGraph.Rendering

namespace ValueGraph

/-! ## Normal documents -/

namespace Json

mutual

/-- The document with its members in the order of their keys and its numbers
    spelt by their 64-bit values. -/
def normal : Json → Json
  | null => null
  | bool b => bool b
  | number n => n.value.render
  | string text => string text
  | array items => array (normalItems items)
  | object members => ofMembers (normalMembers members)

/-- The normal documents of elements. -/
def normalItems : List Json → List Json
  | [] => []
  | j :: js => normal j :: normalItems js

/-- Members with their normal documents, in the given order. -/
def normalMembers : List (String × Json) → List (String × Json)
  | [] => []
  | (key, j) :: ms => (key, normal j) :: normalMembers ms

end

theorem Distinct.strip {drops : KeyPath → String → Bool} {j : Json} (hd : j.Distinct) :
    ∀ path, (j.strip drops path).Distinct := by
  induction hd with
  | null => intro path; rw [Json.strip]; exact .null
  | bool b => intro path; rw [Json.strip]; exact .bool b
  | number n => intro path; rw [Json.strip]; exact .number n
  | string text => intro path; rw [Json.strip]; exact .string text
  | @array items _ ih =>
    intro path
    rw [Json.strip]
    refine .array fun j hj => ?_
    obtain ⟨i, hi⟩ := List.mem_iff_getElem?.1 hj
    rw [getElem?_stripItems] at hi
    obtain ⟨j', hj', rfl⟩ := Option.map_eq_some_iff.1 hi
    exact ih j' (List.mem_of_getElem? hj') _
  | @object members hnd _ ih =>
    intro path
    rw [Json.strip, stripMembers_eq]
    refine .object ?_ fun m hm => ?_
    · rw [List.map_map]
      exact hnd.sublist (List.filter_sublist.map _)
    · obtain ⟨m', hm', rfl⟩ := List.mem_map.1 hm
      exact ih m' (List.mem_of_mem_filter hm') _

end Json

namespace Heap

/-! ## One container -/

section
variable {h : Heap} {ancestors : IdentityMap h.size Unit} {r : Ref}

theorem renderIn_primitive {v : Value} (hv : v.isObject = false) :
    h.renderIn ancestors v = v.renderPrimitive? := by
  rw [renderIn]
  rintro r rfl
  simp [Value.isObject] at hv

theorem renderIn_array {items : List Value} (hnew : ancestors.get? r = none)
    (ho : h.get? r = some (.array items)) :
    h.renderIn ancestors (.object r) =
      (h.renderItems (ancestors.record r ()) items).map fun js => some (.array js) := by
  rw [renderIn, dif_pos hnew]
  split
  next hnone => rw [ho] at hnone; cases hnone
  next o hr => rw [ho] at hr; cases hr; rfl

theorem renderIn_plain {p : PlainObject} (hnew : ancestors.get? r = none)
    (ho : h.get? r = some (.plain p)) (hs : (Object.plain p).isStructural = true) :
    h.renderIn ancestors (.object r) =
      (h.renderMembers (ancestors.record r ()) p.entries).map fun ms => some (.ofMembers ms) := by
  rw [renderIn, dif_pos hnew]
  split
  next hnone => rw [ho] at hnone; cases hnone
  next o hr => rw [ho] at hr; cases hr; simp only [hs, if_true]; rfl

theorem renderItems_normal : ∀ {values : List Value} {items : List Json},
    values.length = items.length →
    (∀ (i : Nat) v j, values[i]? = some v → items[i]? = some j →
      h.renderIn ancestors v = .ok (some j.normal)) →
    h.renderItems ancestors values = .ok (Json.normalItems items)
  | [], [], _, _ => by rw [renderItems, Json.normalItems]
  | v :: values, j :: items, hlen, hvs => by
    have hhead := hvs 0 v j rfl rfl
    have htail := renderItems_normal (by simpa using hlen) fun i v j hv hj => hvs (i + 1) v j hv hj
    rw [renderItems, hhead, htail, Json.normalItems]
    rfl

theorem renderMembers_normal : ∀ {entries : List (Key × Value)} {members : List (String × Json)},
    entries.map Prod.fst = members.map (fun m => Key.name m.1) →
    (∀ k v j, (.name k, v) ∈ entries → (k, j) ∈ members →
      h.renderIn ancestors v = .ok (some j.normal)) →
    h.renderMembers ancestors entries = .ok (Json.normalMembers members)
  | [], [], _, _ => by rw [renderMembers, Json.normalMembers]
  | (k, v) :: entries, (key, j) :: members, hkeys, hvs => by
    simp only [List.map_cons, List.cons.injEq] at hkeys
    obtain ⟨rfl, hkeys⟩ := hkeys
    have hhead := hvs key v j (by simp) (by simp)
    have htail := renderMembers_normal hkeys fun k v j hv hj =>
      hvs k v j (List.mem_cons_of_mem _ hv) (List.mem_cons_of_mem _ hj)
    rw [renderMembers, hhead, htail, Json.normalMembers]
    rfl

end

/-! ## Trees -/

section
variable {h : Heap} {place : Ref → Option KeyPath} {path : KeyPath} {v : Value} {j : Json}

/-- The ancestors of an object at a path have shorter paths. -/
def Above {n : Nat} (ancestors : IdentityMap n Unit) (place : Ref → Option KeyPath)
    (path : KeyPath) : Prop :=
  ∀ r p, ancestors.get? r ≠ none → place r = some p → p.length < path.length

theorem Above.new {n : Nat} {ancestors : IdentityMap n Unit} (ha : Above ancestors place path)
    {r : Ref} (hr : place r = some path) : ancestors.get? r = none := by
  by_contra hne
  exact Nat.lt_irrefl _ (ha r path hne hr)

theorem Above.record {n : Nat} {ancestors : IdentityMap n Unit} (ha : Above ancestors place path)
    {r : Ref} (hr : place r = some path) (segment : Segment) :
    Above (ancestors.record r ()) place (path.step segment) := by
  intro s p hs hp
  rw [IdentityMap.get?_record] at hs
  split at hs
  next hrs =>
    obtain ⟨rfl, -⟩ := hrs
    rw [hr] at hp
    cases hp
    exact Nat.lt_succ_self _
  next => exact Nat.lt_succ_of_lt (ha s p hs hp)

/-- **Below ancestors** with shorter paths a tree is rendered. -/
theorem Holds.renderIn (hv : h.Holds place path v j) : ∀ {ancestors : IdentityMap h.size Unit},
    Above ancestors place path → h.renderIn ancestors v = .ok (some j.normal) := by
  induction hv with
  | null => intro ancestors _; rw [renderIn_primitive rfl]; rfl
  | bool => intro ancestors _; rw [renderIn_primitive rfl]; rfl
  | number => intro ancestors _; rw [renderIn_primitive rfl]; rfl
  | string => intro ancestors _; rw [renderIn_primitive rfl]; rfl
  | @array path r values items hr ho hlen _ ih =>
    intro ancestors ha
    have hitems := renderItems_normal hlen fun i v j hv hj =>
      ih i v j hv hj (ha.record hr (.index i))
    rw [renderIn_array (ha.new hr) ho, hitems, Json.normal]
    rfl
  | @object path r p members hr ho hproto _ hkeys _ ih =>
    intro ancestors ha
    have hs : (Object.plain p).isStructural = true :=
      (Object.isStructural_iff _).2 (Or.inr ⟨p, rfl, by rw [hproto]; rfl⟩)
    have hmembers := renderMembers_normal hkeys fun k v j hv hj =>
      ih k v j hv hj (ha.record hr (.key (.name k)))
    rw [renderIn_plain (ha.new hr) ho hs, hmembers, Json.normal]
    rfl

/-- **Rendering a tree** gives the normal document. -/
theorem Holds.render (hv : h.Holds place path v j) : h.render v = .ok j.normal := by
  have ha : Above (.empty h.size Unit) place path := by
    intro r p hr
    exact absurd (IdentityMap.get?_empty r) hr
  rw [Heap.render, hv.renderIn ha]
  rfl

/-- Rendering the graph of a document gives the normal document. -/
theorem render_addJson (h : Heap) (hj : j.Distinct) :
    (h.addJson j).1.render (h.addJson j).2 = .ok j.normal := by
  obtain ⟨place, hv, -⟩ := addJson_holds hj h .root
  exact hv.render

/-- **Pruning a document and rendering it**, for any way of matching globs:
    it never fails, and gives what the graph of the stripped document gives. -/
theorem render_prune_json {ε : Type} (isMatch : Glob → String → Bool) (r : IgnoreRules) (h : Heap)
    (hj : j.Distinct) : ∃ copy document,
      ((h.addJson j).1.prune (h.addJson j).2 (r.exclusionBy isMatch : Exclusion ε)).outcome =
        .ok copy ∧
      copy.heap.render copy.value = .ok document ∧
      (h.addJson (j.strip (r.ignores isMatch) .root)).1.render
        (h.addJson (j.strip (r.ignores isMatch) .root)).2 = .ok document := by
  obtain ⟨place, hv, -⟩ := addJson_holds hj h .root
  obtain ⟨copy, place', hout, hv', -⟩ :=
    prune_holds (r.exclusionBy_total isMatch) (r.exclusionBy_decides isMatch) hv
  exact ⟨copy, _, hout, hv'.render, render_addJson h (hj.strip .root)⟩

/-- A bill with two lines; the bill and the lines have numbers of their own. -/
def bill : Json :=
  .object [("id", .number (.integer 7)), ("lines", .array [
    .object [("id", .number (.integer 1)), ("sum", .string "2.50")],
    .object [("id", .number (.integer 2)), ("sum", .null)]])]

/-- Ignores sums, and the numbers of lines. -/
def billRules : IgnoreRules :=
  ⟨["sum"], [⟨"lines.*.id", "lines.".toList.map .literal ++ .anyRun :: ".id".toList.map .literal⟩]⟩

/-- The bill without sums and without the numbers of lines. -/
def prunedBill : Json :=
  .object [("id", .number (.integer 7)), ("lines", .array [.object [], .object []])]

theorem strip_bill : bill.strip (billRules.ignores Glob.isMatch) .root = prunedBill := rfl

theorem normal_prunedBill : prunedBill.normal = prunedBill := by
  have hseven : (Binary64.ofInt 7).integer? = some 7 := by decide +kernel
  have hlines : ¬ "lines" < "id" := by decide
  simp only [prunedBill, Json.normal, Json.normalItems, Json.normalMembers, Json.ofMembers,
    Json.insertMember, JsonNumber.value, Binary64.render, hseven, hlines, List.foldl_cons,
    List.foldl_nil, if_false, String.reduceEq]

theorem distinct_bill : bill.Distinct := by
  refine .object (by simp) ?_
  simp only [List.forall_mem_cons]
  refine ⟨.number _, .array ?_, by simp⟩
  simp only [List.forall_mem_cons]
  refine ⟨.object (by simp) ?_, .object (by simp) ?_, by simp⟩
  · simp only [List.forall_mem_cons]
    exact ⟨.number _, .string _, by simp⟩
  · simp only [List.forall_mem_cons]
    exact ⟨.number _, .null, by simp⟩

theorem render_prune_json_bill : bill.Distinct ∧ ∃ copy,
    ((empty.addJson bill).1.prune (empty.addJson bill).2
      (billRules.exclusionBy Glob.isMatch : Exclusion Empty)).outcome = .ok copy ∧
    copy.heap.render copy.value = .ok prunedBill := by
  obtain ⟨copy, document, hout, hrender, hstrip⟩ :=
    render_prune_json (ε := Empty) Glob.isMatch billRules empty distinct_bill
  rw [render_addJson empty (distinct_bill.strip .root), strip_bill, normal_prunedBill] at hstrip
  exact ⟨distinct_bill, copy, hout, by rw [hrender, hstrip]⟩

end

end Heap

end ValueGraph
