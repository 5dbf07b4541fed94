/-
  Rendering what pruning leaves.

  A pruned copy refers to copies and to objects of the source side by side.
  Below a copied object stand the images of what it keeps; below an object that
  is shared stand the values that always stood there, and these may have been
  copied elsewhere.  So every value of the copy stands for a value of the
  source, as itself or as its image, and that is passed on to what lies below
  them.  Tree unfoldings are transferred along this relation, which is no map.

  * `Heap.Unfolds.transfer`, `Heap.Unfolds.exists_transfer`: unfoldings pass to
    another heap along such relations;
  * `Object.rendered_rebuild`: what is rendered of a rebuilt object;
  * `Pruning.StandsFor`: the values of a copy and those that they stand for;
  * `Heap.render_prune`: a copy can be rendered if its source can be, and to the
    same document if nothing is left out.
-/
import ValueGraph.Proofs.FaithfulCopies
import ValueGraph.Proofs.Refusals

namespace ValueGraph

open Pruning

variable {ε : Type} {x : Exclusion ε}

/-! ## Transfer of unfoldings -/

namespace Heap

variable {h g : Heap} {M : Value → Value → Prop} {v w : Value} {t : Option Json}

/-- An object has the unfolding that is put together from those of the values
    rendered below it. -/
theorem Unfolds.of_rendered {r : Ref} {o : Object} {ts : List (Option Json)} {j : Json}
    (ho : h.get? r = some o) (hrefusal : o.refusal? = none)
    (hts : List.Forall₂ h.Unfolds o.rendered ts) (hj : o.assemble ts = j) :
    h.Unfolds (.object r) (some j) := by
  subst hj
  refine .object ho hrefusal hts.length_eq.symm fun i v t hv ht => ?_
  obtain ⟨hi, rfl⟩ := List.getElem?_eq_some_iff.1 hv
  obtain ⟨hi', rfl⟩ := List.getElem?_eq_some_iff.1 ht
  exact hts.get hi hi'

/-- A value has an unfolding in another heap if the relation to what it stands
    for is passed on to everything that is rendered below it. -/
theorem Unfolds.exists_transfer (hprimitive : ∀ v w, M v w → v.isObject = false → w = v)
    (hobject : ∀ r w o, M (.object r) w → h.get? r = some o → ∃ s p, w = .object s ∧
      g.get? s = some p ∧ p.refusal? = o.refusal? ∧ ∀ w ∈ p.rendered, ∃ v ∈ o.rendered, M v w)
    (ht : h.Unfolds v t) : ∀ w, M v w → ∃ u, g.Unfolds w u := by
  induction ht with
  | @object r o ts ho hrefusal hlen _ ih =>
    intro w hw
    obtain ⟨s, p, rfl, hp, hsame, hbelow⟩ := hobject r w o hw ho
    have hall : ∀ w ∈ p.rendered, ∃ u, g.Unfolds w u := by
      intro w hw
      obtain ⟨v, hv, hvw⟩ := hbelow w hw
      obtain ⟨i, hi⟩ := List.mem_iff_getElem?.1 hv
      obtain ⟨hlt, -⟩ := List.getElem?_eq_some_iff.1 hi
      exact ih i v _ hi (List.getElem?_eq_getElem (hlen ▸ hlt)) w hvw
    choose! unfolding hunfolding using hall
    exact ⟨_, .of_rendered hp (hsame.trans hrefusal)
      (List.forall₂_map_right_iff.2 (List.forall₂_same.2 hunfolding)) rfl⟩
  | _ =>
    intro w hw
    rw [hprimitive _ _ hw rfl]
    exact ⟨_, by constructor⟩

/-- A value has the unfolding of what it stands for if what is rendered below
    the one stands for what is rendered below the other, value by value. -/
theorem Unfolds.transfer (hprimitive : ∀ v w, M v w → v.isObject = false → w = v)
    (hobject : ∀ r w o, M (.object r) w → h.get? r = some o → ∃ s p, w = .object s ∧
      g.get? s = some p ∧ p.refusal? = o.refusal? ∧ (∀ ts, p.assemble ts = o.assemble ts) ∧
      List.Forall₂ M o.rendered p.rendered)
    (ht : h.Unfolds v t) : ∀ w, M v w → g.Unfolds w t := by
  induction ht with
  | @object r o ts ho hrefusal hlen _ ih =>
    intro w hw
    obtain ⟨s, p, rfl, hp, hsame, hassemble, hbelow⟩ := hobject r w o hw ho
    rw [← hassemble]
    refine .object hp (hsame.trans hrefusal) (hlen.trans hbelow.length_eq) fun i w t hi ht => ?_
    obtain ⟨hlt, rfl⟩ := List.getElem?_eq_some_iff.1 hi
    have hlt' : i < o.rendered.length := hbelow.length_eq ▸ hlt
    exact ih i _ t (List.getElem?_eq_getElem hlt') ht _ (hbelow.get hlt' hlt)
  | _ =>
    intro w hw
    rw [hprimitive _ _ hw rfl]
    constructor

end Heap

/-! ## What is rendered of a rebuilt object -/

section
variable {f : Value → Value} {path : KeyPath} {o : Object}

/-- The kept properties with string keys are those of the source, in order. -/
theorem PlainObject.names_rebuilt {p : PlainObject} : (p.rebuilt x f path).names =
    (p.names.filter fun a => x.keeps a.key path).map fun a => ⟨a.key, f a.value, true⟩ := by
  have hnames : ∀ a ∈ p.names, a.key.isSymbol = false := fun a ha =>
    (mem_names.1 (List.mem_map_of_mem ha)).2
  have hsymbols : ∀ a ∈ p.symbols, a.key.isSymbol = true := fun a ha =>
    (mem_symbols.1 (List.mem_map_of_mem ha)).2
  have hnone : p.symbols.filter (fun a => !a.key.isSymbol && x.keeps a.key path) = [] :=
    List.filter_eq_nil_iff.2 fun a ha => by simp [hsymbols a ha]
  have hall : p.names.filter (fun a => !a.key.isSymbol && x.keeps a.key path) =
      p.names.filter fun a => x.keeps a.key path :=
    List.filter_congr fun a ha => by simp [hnames a ha]
  rw [names, properties_rebuilt, entries]
  simp only [List.map_append, List.filter_append, List.filter_map, List.map_map,
    List.filter_filter, Function.comp_def, Bool.true_and, hnone, hall, List.map_nil,
    List.append_nil]

namespace Object

theorem refusal?_of_isStructural (ho : o.isStructural = true) : o.refusal? = none := by
  rcases (isStructural_iff o).1 ho with ⟨items, rfl⟩ | ⟨p, rfl, -⟩
  · rfl
  · exact if_pos ho

theorem held_of_rendered {v : Value} (hv : v ∈ o.rendered) : v ∈ o.held := by
  cases o with
  | array items => exact hv
  | set s => exact hv
  | plain p =>
    rw [rendered] at hv
    split at hv
    · exact (List.filter_sublist.map _).subset hv
    · simp at hv
  | map m =>
    obtain ⟨e, he, hv⟩ := List.mem_flatMap.1 hv
    rw [held, List.mem_append, List.mem_map, List.mem_map]
    simp only [List.mem_cons, List.not_mem_nil, or_false] at hv
    exact hv.imp (fun h => ⟨e, he, h.symm⟩) fun h => ⟨e, he, h.symm⟩
  | _ => simp [rendered] at hv

/-- Objects and what is made of them have a document both or neither. -/
theorem refusal?_rebuild (ho : o.isStructural = true) :
    (rebuild x f path o).refusal? = o.refusal? := by
  rw [refusal?_of_isStructural ho, refusal?_of_isStructural (isStructural_rebuild.trans ho)]

theorem rendered_plain {p : PlainObject} (hp : (plain p).isStructural = true) :
    (plain p).rendered = p.names.map Property.value :=
  if_pos hp

/-- **What is rendered of a rebuilt object** are the new values of some of what
    is rendered of the object, in the same order. -/
theorem rendered_rebuild (ho : o.isStructural = true) : ∃ kept : List Value,
    kept.Sublist o.rendered ∧ (rebuild x f path o).rendered = kept.map f := by
  rcases (isStructural_iff o).1 ho with ⟨items, rfl⟩ | ⟨p, rfl, -⟩
  · exact ⟨items, .refl items, rfl⟩
  · refine ⟨(p.names.filter fun a => x.keeps a.key path).map Property.value, ?_, ?_⟩
    · rw [rendered_plain ho]
      exact List.filter_sublist.map _
    · refine (rendered_plain (isStructural_rebuild.trans ho)).trans ?_
      rw [← PlainObject.rebuilt, PlainObject.names_rebuilt, List.map_map, List.map_map]
      rfl

section
variable (hsp : o.Spared x path)
include hsp

theorem Spared.names_rebuilt {p : PlainObject} (hp : o = .plain p) : (p.rebuilt x f path).names =
    p.names.map fun a => ⟨a.key, f a.value, true⟩ := by
  rw [PlainObject.names_rebuilt, List.filter_eq_self.2 fun a ha => ?_]
  exact hsp p hp a.key (PlainObject.mem_names.1 (List.mem_map_of_mem ha)).1

/-- Of an object that lacks nothing, everything is rendered. -/
theorem Spared.rendered_rebuild (ho : o.isStructural = true) :
    (rebuild x f path o).rendered = o.rendered.map f := by
  rcases (isStructural_iff o).1 ho with ⟨items, rfl⟩ | ⟨p, rfl, -⟩
  · rfl
  · refine (rendered_plain (isStructural_rebuild.trans ho)).trans ?_
    rw [← PlainObject.rebuilt, hsp.names_rebuilt rfl, rendered_plain ho, List.map_map,
      List.map_map]
    rfl

/-- The documents below an object that lacks nothing are put together as they
    are below the object. -/
theorem Spared.assemble_rebuild (ho : o.isStructural = true) (ts : List (Option Json)) :
    (rebuild x f path o).assemble ts = o.assemble ts := by
  rcases (isStructural_iff o).1 ho with ⟨items, rfl⟩ | ⟨p, rfl, -⟩
  · rfl
  · show Json.ofMembers _ = Json.ofMembers _
    rw [← PlainObject.rebuilt, hsp.names_rebuilt rfl, List.zip_map_left, List.filterMap_map]
    rfl

end

end Object

end

/-! ## The values of a copy -/

namespace Pruning

variable {h g : Heap} {log : List Event} {c : Ref → Option Ref} {v w : Value}

/-- What a copy holds for a value of the source: its image, or the value itself,
    below an object that is shared. -/
def StandsFor (c : Ref → Option Ref) (v w : Value) : Prop := w = v ∨ w = image c v

theorem StandsFor.eq_of_primitive (hvw : StandsFor c v w) (hv : v.isObject = false) : w = v := by
  rcases hvw with rfl | rfl
  · rfl
  · exact Heap.image_of_not_object hv

section
variable (hc : Copies h x log c g)
include hc

/-- An object of a copy is that of the source or what is made of it. -/
theorem Copies.get?_standsFor {r : Ref} {o : Object} (hrw : StandsFor c (.object r) w)
    (ho : h.get? r = some o) :
    (w = .object r ∧ g.get? r = some o) ∨
      ∃ s path, w = .object s ∧ .met r path ∈ log ∧ o.isStructural = true ∧
        g.get? s = some (rebuild x (image c) path o) := by
  have hold : g.get? r = some o := (hc.old r (Heap.lt_of_get? ho)).trans ho
  rcases hrw with rfl | rfl
  · exact .inl ⟨rfl, hold⟩
  · cases hcr : c r with
    | none => exact .inl ⟨by rw [image, hcr]; rfl, hold⟩
    | some s =>
      obtain ⟨path, hm⟩ := hc.met hcr
      obtain ⟨o', ho', hs⟩ := hc.structural r s hcr
      rw [ho] at ho'
      cases ho'
      exact .inr ⟨s, path, by rw [image, hcr]; rfl, hm, hs, hc.get?_copy hm hcr ho⟩

/-- **A copy can be unfolded** if its source can be. -/
theorem Copies.exists_unfolds {t : Option Json} (ht : h.Unfolds v t) :
    ∃ u, g.Unfolds (image c v) u := by
  refine ht.exists_transfer (M := StandsFor c) (fun v w => StandsFor.eq_of_primitive) ?_ _ (.inr rfl)
  intro r w o hrw ho
  rcases hc.get?_standsFor hrw ho with ⟨rfl, hr⟩ | ⟨s, path, rfl, -, hstr, hs⟩
  · exact ⟨r, o, rfl, hr, rfl, fun w hw => ⟨w, hw, .inl rfl⟩⟩
  · refine ⟨s, _, rfl, hs, Object.refusal?_rebuild hstr, fun w hw => ?_⟩
    obtain ⟨kept, hkept, heq⟩ := Object.rendered_rebuild hstr
    rw [heq] at hw
    obtain ⟨v, hv, rfl⟩ := List.mem_map.1 hw
    exact ⟨v, hkept.subset hv, .inr rfl⟩

/-- Everything that is rendered below an object of the copy stands for what is
    rendered below its source, if the source lacks nothing. -/
theorem Copies.stand_alike {r : Ref} {o : Object}
    (hs : ∀ r path o, .met r path ∈ log → h.get? r = some o → o.Spared x path)
    (hrw : StandsFor c (.object r) w) (ho : h.get? r = some o) :
    ∃ s p, w = .object s ∧ g.get? s = some p ∧ p.refusal? = o.refusal? ∧
      (∀ ts, p.assemble ts = o.assemble ts) ∧
      List.Forall₂ (StandsFor c) o.rendered p.rendered := by
  rcases hc.get?_standsFor hrw ho with ⟨rfl, hr⟩ | ⟨s, path, rfl, hm, hstr, hr⟩
  · exact ⟨r, o, rfl, hr, rfl, fun ts => rfl, List.forall₂_same.2 fun v _ => .inl rfl⟩
  · have hsp := hs r path o hm ho
    refine ⟨s, _, rfl, hr, Object.refusal?_rebuild hstr, hsp.assemble_rebuild hstr, ?_⟩
    rw [hsp.rendered_rebuild hstr, List.forall₂_map_right_iff]
    exact List.forall₂_same.2 fun v _ => .inr rfl

/-- **A copy that lacks nothing** has the unfolding of its source. -/
theorem Copies.unfolds_image_iff (hcl : h.Closed) (hv : InHeap h v)
    (hs : ∀ r path o, .met r path ∈ log → h.get? r = some o → o.Spared x path)
    (t : Option Json) : g.Unfolds (image c v) t ↔ h.Unfolds v t := by
  constructor
  · intro ht
    refine ht.transfer (M := fun w v => InHeap h v ∧ StandsFor c v w) ?_ ?_ v ⟨hv, .inr rfl⟩
    · rintro w v ⟨-, hvw⟩ hw
      cases v with
      | object r => rcases hvw with rfl | rfl <;> simp [image, Value.isObject] at hw
      | _ => exact (hvw.eq_of_primitive rfl).symm
    · rintro s v p ⟨hin, hvw⟩ hp
      cases v with
      | object r =>
        obtain ⟨o, ho⟩ := Heap.exists_get? (hin r rfl)
        obtain ⟨s', p', heq, hp', hrefusal, hassemble, hbelow⟩ := hc.stand_alike hs hvw ho
        cases heq
        rw [hp] at hp'
        cases hp'
        refine ⟨r, o, rfl, ho, hrefusal.symm, fun ts => (hassemble ts).symm, ?_⟩
        have hin' : ∀ v ∈ o.rendered, InHeap h v := fun v hv =>
          hcl.held ho v (Object.held_of_rendered hv)
        exact ((List.forall₂_and_left _ _).2 ⟨hin', hbelow⟩).flip
      | _ => rcases hvw with heq | heq <;> simp [image] at heq
  · intro ht
    exact ht.transfer (M := StandsFor c) (fun v w => StandsFor.eq_of_primitive)
      (fun r w o hrw ho => hc.stand_alike hs hrw ho) _ (.inr rfl)

end

end Pruning

/-! ## Rendering a copy -/

namespace Heap

variable {h : Heap} {v : Value}

/-- **Pruning never breaks rendering.**  A copy has a document if its source has
    one.  If the exclusion leaves out no enumerable key that is reached, then
    source and copy have documents both or neither, and the same one. -/
theorem render_prune (hc : h.Closed) (hv : InHeap h v) (hx : x.Total) : ∃ copy,
    (h.prune v x).outcome = .ok copy ∧
      ((∃ j, h.render v = .ok j) → ∃ k, copy.heap.render copy.value = .ok k) ∧
      (h.Spares x v → ∀ j, h.render v = .ok j ↔ copy.heap.render copy.value = .ok j) := by
  obtain ⟨copy, log, c, hout, hvalue, ht, hcopies⟩ := exists_copies h v hx
  refine ⟨copy, hout, fun hj => ?_, fun hs j => ?_⟩
  · obtain ⟨t, hunfolds⟩ := exists_render_iff.1 hj
    exact exists_render_iff.2 (hvalue ▸ hcopies.exists_unfolds hunfolds)
  · rw [render_eq_ok_iff, render_eq_ok_iff, hvalue]
    simp only [hcopies.unfolds_image_iff hc hv (hs log ht)]

/-- A list of an object and of a map that has the object as a key. -/
def registry : Heap :=
  ⟨#[.array [.object ⟨1⟩, .object ⟨2⟩], .plain (.ofEntries .null [(.name "name", .string "first")]),
    .map (.ofEntries [(.object ⟨1⟩, .bool true)])]⟩

/-- The document of the object in it. -/
def registered : Json := .ofMembers [("name", .string "first")]

theorem unfolds_registry : registry.Unfolds (.object ⟨0⟩)
    (some (.array [registered, .array [.array [registered, .bool true]]])) := by
  have hobject : registry.Unfolds (.object ⟨1⟩) (some registered) :=
    .of_rendered rfl rfl (.cons (.string "first") .nil) rfl
  have hmap : registry.Unfolds (.object ⟨2⟩) (some (.array [.array [registered, .bool true]])) :=
    .of_rendered rfl rfl (.cons hobject (.cons (.bool true) .nil)) rfl
  exact .of_rendered rfl rfl (.cons hobject (.cons hmap .nil)) rfl

theorem render_prune_registry : registry.Closed ∧ InHeap registry (.object ⟨0⟩) ∧
    unusedIgnored.Total ∧ registry.Spares unusedIgnored (.object ⟨0⟩) ∧ ∃ copy,
      (registry.prune (.object ⟨0⟩) unusedIgnored).outcome = .ok copy ∧
        copy.heap.render copy.value =
          .ok (.array [registered, .array [.array [registered, .bool true]]]) := by
  have hc : registry.Closed := by decide
  have hv : InHeap registry (.object ⟨0⟩) := by decide
  have hs : registry.Spares unusedIgnored (.object ⟨0⟩) := by
    refine spares_unusedIgnored _ fun p hmem => ?_
    simp only [registry, List.mem_toArray, List.mem_cons, reduceCtorEq, Object.plain.injEq,
      List.not_mem_nil, or_false, false_or] at hmem
    rw [hmem]
    rfl
  obtain ⟨copy, hout, -, hiff⟩ := render_prune hc hv unusedIgnored_total
  exact ⟨hc, hv, unusedIgnored_total, hs, copy, hout,
    (hiff hs _).1 (render_eq_ok_iff.2 ⟨_, unfolds_registry, rfl⟩)⟩

end Heap

end ValueGraph
