/-
  Isomorphic values.

  Two values are isomorphic if the arrays and plain objects that they are made
  of can be told apart by nothing but their places.  Atomic objects are units:
  isomorphic values have the same ones.

  * `Object.withValues`: an object with other values in the same places;
  * `Heap.Comprises`: what a value is made of;
  * `Heap.Isomorphism`, `Heap.Isomorphic`: a one-to-one map of arrays and plain
    objects under which two values are the same;
  * `Isomorphism.deepEqual`: isomorphic values are deeply equal in both orders;
    `Isomorphism.symm`: isomorphisms can be turned round;
  * `Copies.isomorphism`: two copies of a value that leave out the same keys are
    isomorphic.
-/
import ValueGraph.Proofs.PrunedEquality
import ValueGraph.Proofs.Symmetry

namespace ValueGraph

open Pruning

variable {ε : Type} {x : Exclusion ε}

/-! ## Other values in the same places -/

namespace PlainObject

/-- The same keys in the same order, with other values. -/
def withValues (f : Value → Value) (p : PlainObject) : PlainObject where
  prototype := p.prototype
  properties := p.properties.map fun a => { a with value := f a.value }
  nodup := by
    rw [List.map_map]
    exact p.nodup

variable {f g : Value → Value} {p : PlainObject} {path : KeyPath}

theorem replaced_withValues : p.Replaced f (p.withValues f) := by
  have hfind : ∀ k, (p.withValues f).find? k =
      (p.find? k).map fun a => { a with value := f a.value } := fun k => List.find?_map
  refine ⟨rfl, fun k => ?_, fun k => ?_⟩
  · rw [hasEnumerable, hasEnumerable, hfind, Option.any_map]
  · rw [get?, get?, hfind, Option.map_map, Option.map_map]
    rfl

theorem withValues_withValues : (p.withValues f).withValues g = p.withValues (g ∘ f) :=
  eq_of_fields rfl List.map_map

theorem withValues_rebuilt : (p.rebuilt x f path).withValues g = p.rebuilt x (g ∘ f) path := by
  refine eq_of_fields (prototype_ofEntries.trans prototype_ofEntries.symm) ?_
  refine (congrArg _ properties_rebuilt).trans (Eq.trans ?_ properties_rebuilt.symm)
  exact List.map_map

end PlainObject

namespace Object

/-- The same array or plain object with other values; all other objects are
    units and stay as they are. -/
def withValues (f : Value → Value) : Object → Object
  | array items => array (items.map f)
  | plain p => plain (p.withValues f)
  | o => o

variable {M : Value → Value → Prop} {f g : Value → Value} {o : Object} {path : KeyPath}

theorem withValues_congr (hfg : ∀ v ∈ o.held, f v = g v) : o.withValues f = o.withValues g := by
  cases o with
  | array items => exact congrArg array (List.map_congr_left hfg)
  | plain p =>
    refine congrArg plain (PlainObject.eq_of_fields rfl (List.map_congr_left fun a ha => ?_))
    rw [hfg a.value (List.mem_map.2 ⟨a, ha, rfl⟩)]
  | _ => rfl

/-- Objects whose values are replaced by themselves stay as they are. -/
theorem withValues_eq_self (hf : ∀ v ∈ o.held, f v = v) : o.withValues f = o := by
  rw [withValues_congr (g := id) hf]
  cases o with
  | array items => exact congrArg array (List.map_id items)
  | plain p => exact congrArg plain (PlainObject.eq_of_fields rfl (List.map_id p.properties))
  | _ => rfl

theorem withValues_withValues : (o.withValues f).withValues g = o.withValues (g ∘ f) := by
  cases o with
  | array items => exact congrArg array List.map_map
  | plain p => exact congrArg plain PlainObject.withValues_withValues
  | _ => rfl

theorem isStructural_withValues : (o.withValues f).isStructural = o.isStructural := by
  cases o <;> rfl

theorem withValues_rebuild :
    (rebuild x f path o).withValues g = rebuild x (g ∘ f) path o := by
  cases o with
  | array items => exact congrArg array List.map_map
  | plain p => exact congrArg plain PlainObject.withValues_rebuilt
  | _ => rfl

/-- Objects are rebuilt alike if the values of what is kept are. -/
theorem rebuild_congr (hfg : ∀ v ∈ (rebuild x id path o).held, f v = g v) :
    rebuild x f path o = rebuild x g path o := by
  have heq := withValues_congr hfg
  rwa [withValues_rebuild, withValues_rebuild, Function.comp_id, Function.comp_id] at heq

theorem held_withValues (hs : o.isStructural = true) :
    (o.withValues f).held = o.held.map f := by
  rcases (isStructural_iff o).1 hs with ⟨items, rfl⟩ | ⟨p, rfl, -⟩
  · rfl
  · simp [withValues, PlainObject.withValues, held, Function.comp_def]

theorem held_rebuild (hs : o.isStructural = true) :
    (rebuild x f path o).held = (rebuild x id path o).held.map f := by
  rw [← held_withValues (isStructural_rebuild.trans hs), withValues_rebuild, Function.comp_id]

/-- A structural object agrees with itself under other values that fit the old
    ones. -/
theorem agree_withValues (hs : o.isStructural = true) (hM : ∀ v, M v (f v)) :
    o.Agree M (o.withValues f) := by
  rcases (isStructural_iff o).1 hs with ⟨items, rfl⟩ | ⟨p, rfl, hp⟩
  · exact .arrays (List.forall₂_map_right_iff.2 (List.forall₂_same.2 fun v _ => hM v))
  · have hr := PlainObject.replaced_withValues (f := f) (p := p)
    refine .plains hp hp (fun k => (hr.keys k).symm) fun k v w _ hv hw => ?_
    rw [hr.values, hv] at hw
    cases hw
    exact hM v

end Object

/-! ## Isomorphisms -/

namespace Heap

/-- What a value is made of: itself, and what the arrays and plain objects among
    it hold. -/
inductive Comprises (h : Heap) (v : Value) : Value → Prop
  | refl : Comprises h v v
  | step {r : Ref} {o : Object} {w : Value} : Comprises h v (.object r) → h.get? r = some o →
      o.isStructural = true → w ∈ o.held → Comprises h v w

/-- A map of the arrays and plain objects that `v` is made of makes `w` of it.
    No two of them have one image, and the image of an object has the same
    elements, or the same prototype and the same keys in the same order, with
    the images of its values.  Everything else, atomic objects in particular,
    is its own image. -/
structure Isomorphism (h : Heap) (e : Ref → Option Ref) (v w : Value) : Prop where
  value : w = image e v
  injective : OneToOne e
  domain : ∀ r, (e r).isSome = true ↔ h.Structural r ∧ h.Comprises v (.object r)
  objects : ∀ r s o, e r = some s → h.get? r = some o →
    h.get? s = some (o.withValues (image e))

/-- Two values of a heap differ in nothing but the places of the arrays and
    plain objects that they are made of. -/
def Isomorphic (h : Heap) (v w : Value) : Prop := ∃ e, h.Isomorphism e v w

variable {h g : Heap} {v w : Value} {e : Ref → Option Ref}

theorem Isomorphism.correspondence (he : h.Isomorphism e v w) : h.Correspondence e v w := by
  refine ⟨he.value ▸ matched_image e v, fun l r hlr _ => ?_⟩
  obtain ⟨⟨o, ho, hs⟩, -⟩ := (he.domain l).1 (by rw [hlr]; rfl)
  exact ⟨o, _, ho, he.objects l r o hlr ho, Object.agree_withValues hs (matched_image e)⟩

/-- **Isomorphic values are deeply equal**, whichever comes first. -/
theorem Isomorphism.deepEqual (he : h.Isomorphism e v w) :
    h.deepEqual v w = true ∧ h.deepEqual w v = true :=
  deepEqual_of_oneToOne he.correspondence he.injective

/-! ## The other way round -/

section
variable {u : Value} {r s : Ref} (he : h.Isomorphism e v w)
include he

/-- An object that becomes an array or a plain object is one that the map
    leads there. -/
theorem Isomorphism.eq_some_of_structural (hr : h.Comprises v (.object r)) (hs : h.Structural s)
    (hrs : (e r).getD r = s) : e r = some s := by
  cases hr' : e r with
  | some t => exact congrArg some (by rwa [hr'] at hrs)
  | none =>
    rw [hr', Option.getD_none] at hrs
    subst hrs
    have hsome := (he.domain r).2 ⟨hs, hr⟩
    rw [hr'] at hsome
    simp at hsome

theorem Isomorphism.structural (hrs : e r = some s) : h.Structural s := by
  obtain ⟨⟨o, ho, hstr⟩, -⟩ := (he.domain r).1 (by rw [hrs]; rfl)
  exact ⟨_, he.objects r s o hrs ho, Object.isStructural_withValues.trans hstr⟩

theorem Isomorphism.comprises_image (hu : h.Comprises v u) : h.Comprises w (image e u) := by
  induction hu with
  | refl => exact he.value ▸ .refl
  | @step r o u hr ho hstr hu ih =>
    obtain ⟨s, hrs⟩ := Option.isSome_iff_exists.1 ((he.domain r).2 ⟨⟨o, ho, hstr⟩, hr⟩)
    rw [image, hrs] at ih
    refine .step ih (he.objects r s o hrs ho) (Object.isStructural_withValues.trans hstr) ?_
    rw [Object.held_withValues hstr]
    exact List.mem_map_of_mem hu

theorem Isomorphism.exists_comprises (hu : h.Comprises w u) :
    ∃ t, u = image e t ∧ h.Comprises v t := by
  induction hu with
  | refl => exact ⟨v, he.value, .refl⟩
  | @step s p u _ hp hstr hu ih =>
    obtain ⟨t, ht, hvt⟩ := ih
    cases t with
    | object r =>
      rw [image, Value.object.injEq] at ht
      have hrs := he.eq_some_of_structural hvt ⟨p, hp, hstr⟩ ht.symm
      obtain ⟨⟨o, ho, hso⟩, -⟩ := (he.domain r).1 (by rw [hrs]; rfl)
      rw [he.objects r s o hrs ho] at hp
      cases hp
      rw [Object.held_withValues hso] at hu
      obtain ⟨t, ht, rfl⟩ := List.mem_map.1 hu
      exact ⟨t, rfl, .step hvt ho hso ht⟩
    | _ => simp [image] at ht

/-- What the map leaves alone is not led back from anywhere. -/
theorem Isomorphism.converse_eq_none (hr : h.Comprises v (.object r)) (hn : e r = none) :
    converse e r = none := by
  refine Option.eq_none_iff_forall_ne_some.2 fun t ht => ?_
  have hstr := he.structural ((converse_eq_some he.injective).1 ht)
  have hsome := he.eq_some_of_structural hr hstr (by rw [hn, Option.getD_none])
  rw [hn] at hsome
  simp at hsome

theorem Isomorphism.image_converse (hu : h.Comprises v u) :
    image (converse e) (image e u) = u := by
  cases u with
  | object r =>
    cases hr : e r with
    | some s =>
      rw [image, image, hr, Option.getD_some, (converse_eq_some he.injective).2 hr,
        Option.getD_some]
    | none =>
      rw [image, image, hr, Option.getD_none, he.converse_eq_none hu hr, Option.getD_none]
  | _ => rfl

/-- An isomorphism can be turned round. -/
theorem Isomorphism.symm : h.Isomorphism (converse e) w v where
  value := by
    rw [he.value]
    exact (he.image_converse .refl).symm
  injective s s' r hs hs' := by
    have hrs := (converse_eq_some he.injective).1 hs
    rw [(converse_eq_some he.injective).1 hs'] at hrs
    exact (Option.some.inj hrs).symm
  domain s := by
    constructor
    · intro hs
      obtain ⟨r, hr⟩ := Option.isSome_iff_exists.1 hs
      have hrs := (converse_eq_some he.injective).1 hr
      have hcomp := he.comprises_image ((he.domain r).1 (by rw [hrs]; rfl)).2
      rw [image, hrs] at hcomp
      exact ⟨he.structural hrs, hcomp⟩
    · rintro ⟨hstr, hcomp⟩
      obtain ⟨t, ht, hvt⟩ := he.exists_comprises hcomp
      cases t with
      | object r =>
        rw [image, Value.object.injEq] at ht
        rw [(converse_eq_some he.injective).2 (he.eq_some_of_structural hvt hstr ht.symm)]
        rfl
      | _ => simp [image] at ht
  objects s r p hs hp := by
    have hrs := (converse_eq_some he.injective).1 hs
    obtain ⟨⟨o, ho, hstr⟩, hcomp⟩ := (he.domain r).1 (by rw [hrs]; rfl)
    rw [he.objects r s o hrs ho] at hp
    cases hp
    rw [Object.withValues_withValues, ho]
    refine congrArg some (Object.withValues_eq_self fun u hu => ?_).symm
    exact he.image_converse (.step hcomp ho hstr hu)

end

theorem Isomorphic.symm (hi : h.Isomorphic v w) : h.Isomorphic w v := by
  obtain ⟨e, he⟩ := hi
  exact ⟨_, he.symm⟩

end Heap

/-! ## Two copies of one value -/

namespace Pruning

open Heap

variable {h g : Heap} {v w : Value} {r : Ref} {log : List Event} {c d : Ref → Option Ref}

/-- The copy of an object holds the images of what is kept of it. -/
theorem Copies.comprises_held {path : KeyPath} {o : Object} (hc : Copies h x log c g)
    (hm : .met r path ∈ log) (ho : h.get? r = some o)
    (hr : g.Comprises (image c v) (image c (.object r)))
    (hw : w ∈ (rebuild x id path o).held) : g.Comprises (image c v) (image c w) := by
  obtain ⟨s, hs⟩ := hc.exists_copy ⟨path, hm⟩
  have hstr := Heap.Structural.isStructural (hc.structural r s hs) ho
  rw [image, hs] at hr
  refine .step hr (hc.get?_copy hm hs ho) (Object.isStructural_rebuild.trans hstr) ?_
  rw [Object.held_rebuild hstr]
  exact List.mem_map_of_mem hw

section
variable (hc : Copies h x log c g) (ht : Traverses h x v log)
include hc ht

theorem Copies.comprises_of_met (hm : Met log r) :
    g.Comprises (image c v) (image c (.object r)) := by
  obtain ⟨path, hm⟩ := hm
  refine ht.met_induction (P := fun r _ => g.Comprises (image c v) (image c (.object r)))
    (fun r hr _ => hr ▸ .refl) (fun r q ps segment s hm ih hp hl _ => ?_) path r hm
  obtain ⟨o, ho, hop⟩ := Option.bind_eq_some_iff.1 hp
  have hstr := (ht.structural ⟨q, hm⟩).isStructural ho
  exact hc.comprises_held hm ho ih
    ((Object.mem_held_rebuild hstr).2 ⟨ps, hop, segment, hl.1, hl.2.1⟩)

/-- **What a copy is made of** are images of what the traversal comes to. -/
theorem Copies.occurs_of_comprises (hcl : h.Closed) (hv : InHeap h v)
    (hw : g.Comprises (image c v) w) : ∃ u, w = image c u ∧ Occurs h x log v u := by
  induction hw with
  | refl => exact ⟨v, rfl, Or.inl rfl⟩
  | @step s p w _ hs hstr hw ih =>
    obtain ⟨u, hu, hou⟩ := ih
    cases u with
    | object r =>
      cases hu
      obtain ⟨path, hm⟩ := (hc.structural_image ht hcl hv hou).1 ⟨p, hs, hstr⟩
      obtain ⟨t, hct⟩ := hc.exists_copy ⟨path, hm⟩
      obtain ⟨o, ho, hso⟩ := hc.structural r t hct
      rw [hct, Option.getD_some, hc.get?_copy hm hct ho] at hs
      cases hs
      rw [Object.held_rebuild hso] at hw
      obtain ⟨u, hu, rfl⟩ := List.mem_map.1 hw
      exact ⟨u, rfl, Or.inr ⟨r, _, ⟨path, o, hm, ho, rfl⟩, hu⟩⟩
    | _ => simp [image] at hu

end

/-- The copy of an object in one copy leads to its copy in the other one. -/
theorem image_twins (hc : Copies h x log c g) (hd : Copies h x log d g) (hw : InHeap h w) :
    image (counterpart (Twins c d)) (image c w) = image d w := by
  cases w with
  | object r =>
    by_cases hm : Met log r
    · obtain ⟨s, hs⟩ := hc.exists_copy hm
      obtain ⟨t, ht⟩ := hd.exists_copy hm
      have htwins : counterpart (Twins c d) s = some t :=
        (counterpart_twins hc.injective).2 ⟨r, hs, ht⟩
      rw [image, image, image, hs, ht, Option.getD_some, htwins, Option.getD_some, Option.getD_some]
    · have hno : counterpart (Twins c d) r = none := by
        refine Option.eq_none_iff_forall_ne_some.2 fun t ht => ?_
        obtain ⟨s, hs, -⟩ := (counterpart_twins hc.injective).1 ht
        exact hc.ne_copy (hw r rfl) hs rfl
      rw [image, image, image, hc.eq_none hm, hd.eq_none hm, Option.getD_none, hno,
        Option.getD_none]
  | _ => rfl

theorem oneToOne_twins (hc : OneToOne c) (hd : OneToOne d) :
    OneToOne (counterpart (Twins c d)) := by
  intro s s' t hs hs'
  obtain ⟨r, hcr, hdr⟩ := (counterpart_twins hc).1 hs
  obtain ⟨r', hcr', hdr'⟩ := (counterpart_twins hc).1 hs'
  obtain rfl := hd r r' t hdr hdr'
  rw [hcr] at hcr'
  exact Option.some.inj hcr'

section
variable (hc : Copies h x log c g) (hd : Copies h x log d g) (ht : Traverses h x v log)
  (hcl : h.Closed) (hv : InHeap h v)
include hc hd ht hcl hv

/-- The arrays and plain objects that a copy is made of are the copies of the
    objects met. -/
theorem Copies.isSome_twins {s : Ref} : (counterpart (Twins c d) s).isSome = true ↔
    g.Structural s ∧ g.Comprises (image c v) (.object s) := by
  constructor
  · intro hs
    obtain ⟨t, hst⟩ := Option.isSome_iff_exists.1 hs
    obtain ⟨r, hcr, -⟩ := (counterpart_twins hc.injective).1 hst
    obtain ⟨path, hm⟩ := hc.met hcr
    obtain ⟨o, ho, hstr⟩ := hc.structural r s hcr
    have hcomp := hc.comprises_of_met ht ⟨path, hm⟩
    rw [image, hcr] at hcomp
    exact ⟨⟨_, hc.get?_copy hm hcr ho, Object.isStructural_rebuild.trans hstr⟩, hcomp⟩
  · rintro ⟨hstr, hcomp⟩
    obtain ⟨u, hu, hou⟩ := hc.occurs_of_comprises ht hcl hv hcomp
    cases u with
    | object r =>
      cases hu
      have hm := (hc.structural_image ht hcl hv hou).1 hstr
      obtain ⟨s, hs⟩ := hc.exists_copy hm
      obtain ⟨t, hdt⟩ := hd.exists_copy hm
      rw [hs, Option.getD_some, (counterpart_twins hc.injective).2 ⟨r, hs, hdt⟩]
      rfl
    | _ => simp [image] at hu

theorem Copies.get?_twins {s t : Ref} {o : Object} (hst : counterpart (Twins c d) s = some t)
    (ho : g.get? s = some o) :
    g.get? t = some (o.withValues (image (counterpart (Twins c d)))) := by
  obtain ⟨r, hcr, hdr⟩ := (counterpart_twins hc.injective).1 hst
  obtain ⟨path, hm⟩ := hc.met hcr
  obtain ⟨o', ho', -⟩ := hc.structural r s hcr
  rw [hc.get?_copy hm hcr ho'] at ho
  cases ho
  rw [hd.get?_copy hm hdr ho', Object.withValues_rebuild]
  refine congrArg some (Object.rebuild_congr fun u hu => ?_)
  have hou : Occurs h x log v u := Or.inr ⟨r, _, ⟨path, o', hm, ho', rfl⟩, hu⟩
  exact (image_twins hc hd (ht.inHeap_of_occurs hcl hv hou)).symm

/-- **Two copies of one value** that leave out the same keys are isomorphic. -/
theorem Copies.isomorphism :
    g.Isomorphism (counterpart (Twins c d)) (image c v) (image d v) where
  value := (image_twins hc hd hv).symm
  injective := oneToOne_twins hc.injective hd.injective
  domain _ := hc.isSome_twins hd ht hcl hv
  objects _ _ _ hst ho := hc.get?_twins hd ht hcl hv hst ho

end

end Pruning

end ValueGraph
