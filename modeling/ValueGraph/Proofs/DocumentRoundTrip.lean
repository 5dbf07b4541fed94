/-
  Documents that go through a graph and come back.

  The graph of a document holds numbers by their 64-bit values, so how a number
  is spelt is all that can be lost, and once lost it is not lost again.

  * `Json.Ordered`: the objects of a document list their members by key;
  * `Json.Respelt`: two documents differ in the spelling of numbers only;
  * `JsonNumber.HasOneSpelling`: a number that is spelt in one way only;
  * `Json.respelt_normal`, `Json.normal_eq_self`, `Json.normal_normal`: the
    normal document of a document;
  * `Heap.render_addJson_respelt`: the document that comes back.
-/
import ValueGraph.Proofs.ExactIntegers
import ValueGraph.Proofs.NormalDocuments

namespace ValueGraph

/-! ## Spelling of numbers -/

/-- Whether a number is an integer. -/
def Binary64.isIntegral (x : Binary64) : Bool := x.numerator % x.denominator == 0

/-- Integers below `2 ^ 53` in size that are spelt as integers, and numbers that
    are no integers. -/
def JsonNumber.HasOneSpelling : JsonNumber → Prop
  | integer i => i.natAbs < 2 ^ 53
  | float x => x.isIntegral = false

/-- Such a number is spelt in the same way by its value. -/
theorem JsonNumber.HasOneSpelling.render_value {n : JsonNumber} (hn : n.HasOneSpelling)
    (hf : n.value.isFinite = true) : n.value.render = .number n := by
  cases n with
  | integer i => rw [value, Binary64.render, (Binary64.integer?_ofInt hn).2]
  | float x =>
    have hnone : x.integer? = none := by
      have hmod : (x.numerator % x.denominator == 0) = false := hn
      rw [Binary64.integer?, hmod, Bool.and_false, Bool.false_and, if_neg Bool.false_ne_true]
    rw [value, Binary64.render, hnone]
    exact if_pos hf

namespace Json

/-- Every number of the document satisfies `P`. -/
inductive Numbers (P : JsonNumber → Prop) : Json → Prop
  | null : Numbers P .null
  | bool (b : Bool) : Numbers P (.bool b)
  | number {n : JsonNumber} : P n → Numbers P (.number n)
  | string (text : String) : Numbers P (.string text)
  | array {items : List Json} : (∀ j ∈ items, Numbers P j) → Numbers P (.array items)
  | object {members : List (String × Json)} : (∀ m ∈ members, Numbers P m.2) →
      Numbers P (.object members)

/-- The two documents differ in the spelling of numbers only: where one has a
    number the other has an equal one, and all else is the same. -/
inductive Respelt : Json → Json → Prop
  | null : Respelt .null .null
  | bool (b : Bool) : Respelt (.bool b) (.bool b)
  | number {m n : JsonNumber} : m.value.eq n.value = true → Respelt (.number m) (.number n)
  | string (text : String) : Respelt (.string text) (.string text)
  | array {xs ys : List Json} : xs.length = ys.length →
      (∀ (i : Nat) x y, xs[i]? = some x → ys[i]? = some y → Respelt x y) →
      Respelt (.array xs) (.array ys)
  | object {ms ns : List (String × Json)} : ms.map Prod.fst = ns.map Prod.fst →
      (∀ (i : Nat) m n, ms[i]? = some m → ns[i]? = some n → Respelt m.2 n.2) →
      Respelt (.object ms) (.object ns)

/-! ## Members by key -/

/-- The objects of the document list their members in the order of their keys,
    each key once. -/
inductive Ordered : Json → Prop
  | null : Ordered .null
  | bool (b : Bool) : Ordered (.bool b)
  | number (n : JsonNumber) : Ordered (.number n)
  | string (text : String) : Ordered (.string text)
  | array {items : List Json} : (∀ j ∈ items, Ordered j) → Ordered (.array items)
  | object {members : List (String × Json)} : Sorted members → (∀ m ∈ members, Ordered m.2) →
      Ordered (.object members)

theorem Sorted.nodup {members : List (String × Json)} (hs : Sorted members) :
    (members.map Prod.fst).Nodup := by
  refine List.pairwise_map.2 (hs.imp fun hlt heq => ?_)
  rw [heq] at hlt
  exact String.lt_irrefl _ hlt

/-- Whether members are sorted depends on their keys only. -/
theorem sorted_iff_keys {members : List (String × Json)} :
    Sorted members ↔ (members.map Prod.fst).Pairwise (· < ·) := List.pairwise_map.symm

theorem insertMember_last {key : String} {j : Json} : ∀ {members : List (String × Json)},
    (∀ m ∈ members, m.1 < key) → insertMember key j members = members ++ [(key, j)]
  | [], _ => rfl
  | m :: members, hlt => by
    obtain ⟨hm, hlt⟩ := List.forall_mem_cons.1 hlt
    have hne : key ≠ m.1 := fun heq => String.lt_irrefl _ (heq ▸ hm)
    rw [insertMember, if_neg (String.lt_asymm hm), if_neg hne, insertMember_last hlt,
      List.cons_append]

theorem insertMembers_sorted_append : ∀ ms acc : List (String × Json),
    Sorted (acc ++ ms) → ms.foldl (fun acc m => insertMember m.1 m.2 acc) acc = acc ++ ms
  | [], acc, _ => (List.append_nil acc).symm
  | m :: ms, acc, hs => by
    have hlast : insertMember m.1 m.2 acc = acc ++ [m] :=
      insertMember_last fun n hn => (List.pairwise_append.1 hs).2.2 n hn m (List.mem_cons_self ..)
    rw [List.foldl_cons, hlast, insertMembers_sorted_append ms _ (by rwa [List.append_assoc]),
      List.append_assoc]
    rfl

/-- Members in the order of their keys stay as they are. -/
theorem ofMembers_of_sorted {members : List (String × Json)} (hs : Sorted members) :
    ofMembers members = .object members :=
  congrArg object (insertMembers_sorted_append members [] hs)

theorem Ordered.distinct {j : Json} (ho : j.Ordered) : j.Distinct := by
  induction ho with
  | null => exact .null
  | bool b => exact .bool b
  | number n => exact .number n
  | string text => exact .string text
  | array _ ih => exact .array ih
  | object hs _ ih => exact .object hs.nodup ih

/-! ## The normal document of an ordered one -/

theorem sorted_normalMembers {members : List (String × Json)} (hs : Sorted members) :
    Sorted (normalMembers members) := by
  rwa [sorted_iff_keys, keys_normalMembers, ← sorted_iff_keys]

/-- The normal document of an object lists its members in the same order. -/
theorem normal_object {members : List (String × Json)} (hs : Sorted members) :
    (Json.object members).normal = .object (normalMembers members) := by
  rw [normal, ofMembers_of_sorted (sorted_normalMembers hs)]

/-- **The normal document** differs in the spelling of numbers only. -/
theorem respelt_normal {j : Json} (ho : j.Ordered) : j.Finite → j.Respelt j.normal := by
  induction ho with
  | null => exact fun _ => .null
  | bool b => exact fun _ => .bool b
  | number n =>
    rintro (⟨⟩ | ⟨⟩ | hn)
    obtain ⟨m, hm⟩ := Binary64.render_of_isFinite hn
    rw [normal, hm]
    exact .number (Binary64.value_of_render hn hm).2
  | string text => exact fun _ => .string text
  | @array items _ ih =>
    intro hf
    cases hf with | array hf =>
    rw [normal, normalItems_eq]
    refine .array (List.length_map normal).symm fun i x y hx hy => ?_
    rw [List.getElem?_map, hx] at hy
    cases hy
    exact ih x (List.mem_of_getElem? hx) (hf x (List.mem_of_getElem? hx))
  | @object members hs _ ih =>
    intro hf
    cases hf with | object hf =>
    rw [normal_object hs]
    refine .object (keys_normalMembers members).symm fun i m n hm hn => ?_
    rw [normalMembers_eq, List.getElem?_map, hm] at hn
    cases hn
    exact ih m (List.mem_of_getElem? hm) (hf m (List.mem_of_getElem? hm))

/-- A document whose numbers have one spelling is its own normal document. -/
theorem normal_eq_self {j : Json} (ho : j.Ordered) : j.Finite →
    j.Numbers JsonNumber.HasOneSpelling → j.normal = j := by
  induction ho with
  | null | bool | string => intros; rfl
  | number n =>
    rintro (⟨⟩ | ⟨⟩ | hf) (⟨⟩ | ⟨⟩ | hn)
    exact hn.render_value hf
  | @array items _ ih =>
    intro hf hn
    cases hf with | array hf =>
    cases hn with | array hn =>
    rw [normal, normalItems_eq, List.map_congr_left fun j hj => ih j hj (hf j hj) (hn j hj)]
    exact congrArg _ (List.map_id items)
  | @object members hs _ ih =>
    intro hf hn
    cases hf with | object hf =>
    cases hn with | object hn =>
    have hsame : members.map (fun m => (m.1, m.2.normal)) = members.map id :=
      List.map_congr_left fun m hm => Prod.ext rfl (ih m hm (hf m hm) (hn m hm))
    rw [normal_object hs, normalMembers_eq, hsame, List.map_id]

/-- **Nothing is lost twice**: a normal document is its own normal document. -/
theorem normal_normal {j : Json} (ho : j.Ordered) : j.Finite → j.normal.normal = j.normal := by
  induction ho with
  | null | bool | string => intros; rfl
  | number n =>
    rintro (⟨⟩ | ⟨⟩ | hf)
    obtain ⟨m, hm⟩ := Binary64.render_of_isFinite hf
    rw [normal, hm]
    exact Binary64.render_value_of_render hf hm
  | @array items _ ih =>
    intro hf
    cases hf with | array hf =>
    rw [normal, normal, normalItems_eq, normalItems_eq, List.map_map]
    exact congrArg _ (List.map_congr_left fun j hj => ih j hj (hf j hj))
  | @object members hs _ ih =>
    intro hf
    cases hf with | object hf =>
    rw [normal_object hs, normal_object (sorted_normalMembers hs), normalMembers_eq,
      normalMembers_eq, List.map_map]
    exact congrArg _ (List.map_congr_left fun m hm => Prod.ext rfl (ih m hm (hf m hm)))

theorem Ordered.normal {j : Json} (ho : j.Ordered) : j.Finite → j.normal.Ordered := by
  induction ho with
  | null => exact fun _ => .null
  | bool b => exact fun _ => .bool b
  | number n =>
    rintro (⟨⟩ | ⟨⟩ | hf)
    obtain ⟨m, hm⟩ := Binary64.render_of_isFinite hf
    rw [Json.normal, hm]
    exact .number m
  | string text => exact fun _ => .string text
  | @array items _ ih =>
    intro hf
    cases hf with | array hf =>
    rw [Json.normal, normalItems_eq]
    exact .array (List.forall_mem_map.2 fun j hj => ih j hj (hf j hj))
  | @object members hs _ ih =>
    intro hf
    cases hf with | object hf =>
    rw [normal_object hs]
    refine .object (sorted_normalMembers hs) ?_
    rw [normalMembers_eq]
    exact List.forall_mem_map.2 fun m hm => ih m hm (hf m hm)

end Json

/-! ## There and back -/

namespace Heap

variable {j : Json}

/-- **A document that goes through a graph** comes back, whatever else the heap
    holds.  It differs in the spelling of numbers only, and not at all if every
    number has one spelling; and it comes back as it is from then on. -/
theorem render_addJson_respelt (h : Heap) (ho : j.Ordered) (hf : j.Finite) : ∃ k,
    (h.addJson j).1.render (h.addJson j).2 = .ok k ∧ j.Respelt k ∧
      (j.Numbers JsonNumber.HasOneSpelling → k = j) ∧
      ∀ g : Heap, (g.addJson k).1.render (g.addJson k).2 = .ok k := by
  refine ⟨j.normal, render_addJson h ho.distinct, Json.respelt_normal ho hf,
    Json.normal_eq_self ho hf, fun g => ?_⟩
  rw [render_addJson g (ho.normal hf).distinct, Json.normal_normal ho hf]

/-- A measurement.  The numbers under `raw` are a negative zero, a one that is
    spelt as no integer, and an integer that no 64-bit number is. -/
def measurement : Json :=
  .object [
    ("exact", .object [("count", .number (.integer (-3))),
      ("half", .number (.float ⟨0x3fe0000000000000⟩))]),
    ("raw", .array [.number (.float (.zero true)), .number (.float ⟨0x3ff0000000000000⟩),
      .number (.integer 9007199254740993)])]

theorem ordered_measurement : measurement.Ordered := by
  have hsorted : Json.Sorted [("count", Json.number (.integer (-3))),
      ("half", .number (.float ⟨0x3fe0000000000000⟩))] := Json.sorted_iff_keys.2 (by decide)
  refine .object (Json.sorted_iff_keys.2 (by decide)) ?_
  simp only [List.forall_mem_cons]
  refine ⟨.object hsorted ?_, .array ?_, by simp⟩
  · simp only [List.forall_mem_cons]
    exact ⟨.number _, .number _, by simp⟩
  · simp only [List.forall_mem_cons]
    exact ⟨.number _, .number _, .number _, by simp⟩

theorem finite_measurement : measurement.Finite := by
  refine .object ?_
  simp only [List.forall_mem_cons]
  refine ⟨.object ?_, .array ?_, by simp⟩
  · simp only [List.forall_mem_cons]
    exact ⟨.number (by decide +kernel), .number (by decide +kernel), by simp⟩
  · simp only [List.forall_mem_cons]
    exact ⟨.number (by decide +kernel), .number (by decide +kernel), .number (by decide +kernel),
      by simp⟩

theorem render_addJson_respelt_measurement : measurement.Ordered ∧ measurement.Finite ∧ ∃ k,
    (empty.addJson measurement).1.render (empty.addJson measurement).2 = .ok k ∧
      measurement.Respelt k ∧ (empty.addJson k).1.render (empty.addJson k).2 = .ok k := by
  obtain ⟨k, hk, hsame, -, hagain⟩ :=
    render_addJson_respelt empty ordered_measurement finite_measurement
  exact ⟨ordered_measurement, finite_measurement, k, hk, hsame, hagain empty⟩

end Heap

end ValueGraph
