/-
  Exclusions that leave nothing out.

  Such an exclusion still has both sides copied.  An array or plain object that
  is common to both sides is then no longer one object, and one that atomic
  objects hold is there twice: as itself, and as a copy where it also stands
  outside them.  So the two comparisons ask for different counterparts, and
  agree where neither asks for two.

  * `Heap.Spares`: an exclusion leaves out no key that is reached;
  * `FullCopies`: what is compared then;
  * `FullCopies.correspondence_of_images`, `FullCopies.correspondence_of_originals`:
    equal copies come from equal values, and the other way round, if the values
    are coherent enough;
  * `Heap.deepEqualExcept_eq_iff_coherent`: when the verdict stays.
-/
import ValueGraph.Proofs.Opposition
import ValueGraph.Proofs.SeparateCopies

namespace ValueGraph

open Pruning

namespace Heap

variable {ε : Type} {x : Exclusion ε} {h g : Heap} {a b v w : Value} {l r s : Ref}
  {log log' : List Event} {c d f F : Ref → Option Ref}

/-! ## Copies in full -/

/-- The exclusion leaves out no enumerable key that a traversal of the value
    reaches. -/
def Spares (h : Heap) (x : Exclusion ε) (v : Value) : Prop :=
  ∀ log, Traverses h x v log → ∀ r path o, .met r path ∈ log → h.get? r = some o →
    o.Spared x path

theorem met_of_beside {o p : Object} {path : KeyPath} (hex : Exhausts h x a log)
    (hm : .met l path ∈ log) (hl : h.get? l = some o) (hs : o.isStructural = true)
    (hsp : o.Spared x path) (hb : o.Beside p (.object r) w) (hr : h.Structural r) :
    Met log r := by
  have hparts : ∃ parts, o.parts? = some parts ∧ ∃ segment, (segment, .object r) ∈ parts ∧
      State.excludes x path segment = .ok false := by
    cases hb with
    | @element xs _ _ _ i hv =>
      exact ⟨_, rfl, .index i,
        List.mem_map.2 ⟨(_, i), List.mem_zipIdx_iff_getElem?.2 hv, rfl⟩, rfl⟩
    | @property p _ _ _ k hk _ hv =>
      refine ⟨_, if_pos hs, .key k, List.mem_map.2 ⟨_, PlainObject.mem_entries.2 ⟨hk, hv⟩, rfl⟩, ?_⟩
      have hkeep := hsp p rfl k hk
      rw [Exclusion.keeps] at hkeep
      rw [State.excludes]
      split at hkeep
      next excluded he => rw [he, Bool.not_eq_eq_eq_not.1 hkeep, Bool.not_true]
      next => simp at hkeep
    | entry => simp [Object.isStructural_iff] at hs
  obtain ⟨parts, hp, segment, hmem, hex'⟩ := hparts
  refine hex.parts l path parts hm (by rw [parts?, hl, Option.bind_some, hp]) segment r
    ⟨hmem, hex', parts?_isSome.2 hr⟩

theorem Outside.met (ho : h.Outside a b v w) (hv : v = .object r) (hr : h.Structural r)
    (ht : Traverses h x a log) (hx : h.Spares x a) : Met log r := by
  induction ho generalizing r with
  | root => exact ht.exhausts.root r hv (parts?_isSome.2 hr)
  | @part l _ o _ _ _ _ hl _ hs _ hb ih =>
    subst hv
    obtain ⟨path, hm⟩ := ih rfl ⟨o, hl, hs⟩
    exact met_of_beside ht.exhausts hm hl hs (hx log ht l path o hm hl) hb hr

/-- Separate copies of values of a closed heap that leave nothing out. -/
structure FullCopies (h : Heap) (x : Exclusion ε) (a b : Value) (log log' : List Event)
    (c d : Ref → Option Ref) (g : Heap) : Prop extends SeparateCopies h x a b log log' c d g where
  closed : h.Closed
  inHeap : InHeap h a
  inHeap' : InHeap h b
  spares : h.Spares x a
  spares' : h.Spares x b

namespace FullCopies

variable (hs : FullCopies h x a b log log' c d g)
include hs

theorem symm : FullCopies h x b a log' log d c g where
  left := hs.right
  right := hs.left
  copies := hs.copies'
  copies' := hs.copies
  apart l r s hl hr := hs.apart r l s hr hl
  closed := hs.closed
  inHeap := hs.inHeap'
  inHeap' := hs.inHeap
  spares := hs.spares'
  spares' := hs.spares

/-- Atomic objects stand for themselves. -/
theorem image_atomic (hl : ¬h.Structural l) : image c (.object l) = .object l := by
  cases hcl : c l with
  | none => rw [image, hcl]; rfl
  | some s => exact absurd (hs.copies.structural l s hcl) hl

/-- A structural object that stands outside is copied in full. -/
theorem copied {o : Object} (ho : h.Outside a b (.object l) w) (hl : h.get? l = some o)
    (hstr : o.isStructural = true) : ∃ s path, c l = some s ∧
      g.get? s = some (rebuild x (image c) path o) ∧ o.Spared x path := by
  obtain ⟨path, hm⟩ := ho.met rfl ⟨o, hl, hstr⟩ hs.left hs.spares
  obtain ⟨s, hcs⟩ := Option.isSome_iff_exists.1 ((hs.copies.domain l).2 ⟨path, hm⟩)
  exact ⟨s, path, hcs, hs.copies.get?_copy hm hcs hl, hs.spares log hs.left l path o hm hl⟩

/-- An object that stands outside and what stands for it are both structural,
    or neither is. -/
theorem structural_image (ho : h.Outside a b (.object l) w) :
    ∃ s, image c (.object l) = .object s ∧ (g.Structural s ↔ h.Structural l) := by
  by_cases hstr : h.Structural l
  · obtain ⟨o, hlo, hso⟩ := hstr
    obtain ⟨s, path, hcs, hg, -⟩ := hs.copied ho hlo hso
    refine ⟨s, by rw [image, hcs]; rfl, iff_of_true ⟨_, hg, ?_⟩ ⟨o, hlo, hso⟩⟩
    rw [Object.isStructural_rebuild, hso]
  · refine ⟨l, hs.image_atomic hstr, ?_⟩
    rw [Structural, hs.copies.old l (ho.inHeap hs.closed hs.inHeap l rfl)]
    rfl

/-- Copies fit only as counterparts. -/
theorem eq_some_copies {t u : Ref} (hcl : c l = some t) (hdr : d r = some u)
    (hm : Matched F (image c (.object l)) (image d (.object r))) : t ≠ u ∧ F t = some u := by
  have hne : t ≠ u := by
    rintro rfl
    exact hs.apart l r t hcl hdr
  rw [image, image, hcl, hdr] at hm
  exact ⟨hne, hm.eq_some hne⟩

/-! ## From equal copies to equal originals -/

section
variable (hF : g.Correspondence F (image c a) (image d b))
include hF

theorem agree_images {o p : Object} (ho : h.Outside a b (.object l) (.object r))
    (hl : h.get? l = some o) (hr : h.get? r = some p) (hso : o.isStructural = true)
    (hsp : p.isStructural = true) (hm : Matched F (image c (.object l)) (image d (.object r))) :
    o.Agree (fun v w => Matched F (image c v) (image d w)) p := by
  obtain ⟨t, path, hct, hgt, hspared⟩ := hs.copied ho hl hso
  obtain ⟨u, path', hdu, hgu, hspared'⟩ := hs.symm.copied ho.symm hr hsp
  obtain ⟨hne, htu⟩ := hs.eq_some_copies hct hdu hm
  obtain ⟨q, q', hq, hq', hagree⟩ := hF.agree t u htu hne
  rw [hgt] at hq
  rw [hgu] at hq'
  cases hq
  cases hq'
  exact (Object.agree_rebuild_iff hso hsp hspared hspared').1 hagree

/-- The images of opposite values outside fit. -/
theorem matched_images (ho : h.Outside a b v w) : Matched F (image c v) (image d w) := by
  induction ho with
  | root => exact hF.matched
  | part ho hl hr hsl hsr hb ih => exact (hs.agree_images hF ho hl hr hsl hsr ih).beside hb

theorem structural_iff (ho : h.Outside a b (.object l) (.object r)) :
    h.Structural l ↔ h.Structural r := by
  obtain ⟨t, ht, hti⟩ := hs.structural_image ho
  obtain ⟨u, hu, hui⟩ := hs.symm.structural_image ho.symm
  have hm := hs.matched_images hF ho
  rw [ht, hu] at hm
  rw [← hti, ← hui, hF.structural_iff hm]

/-- Atomic objects that stand opposite each other outside fit themselves. -/
theorem matched_atomic (ho : h.Outside a b (.object l) (.object r)) (hl : ¬h.Structural l) :
    Matched F (.object l) (.object r) := by
  have hm := hs.matched_images hF ho
  rwa [hs.image_atomic hl, hs.symm.image_atomic (mt (hs.structural_iff hF ho).2 hl)] at hm

/-- Opposite values inside fit themselves. -/
theorem matched_inside (hi : h.Inside a b v w) : Matched F v w := by
  have hold : ∀ {r o}, h.get? r = some o → g.get? r = some o := fun hr => by
    rw [hs.copies.old _ (lt_of_get? hr), hr]
  induction hi with
  | @enter l r o p v w ho _ hl hr hso _ hb =>
    have hl' : ¬h.Structural l := by
      rintro ⟨o', ho', hs'⟩
      rw [hl] at ho'
      cases ho'
      rw [hso] at hs'
      simp at hs'
    exact hF.matched_beside (hs.matched_atomic hF ho hl') (hold hl) (hold hr) hb
  | part _ _ hl hr hb ih => exact hF.matched_beside ih (hold hl) (hold hr) hb

/-- The copy of an object has one counterpart. -/
theorem outside_unique (hl : h.Structural l) (hr : h.Outside a b (.object l) (.object r))
    (hr' : h.Outside a b (.object l) (.object s)) : r = s := by
  obtain ⟨o, hlo, hso⟩ := hl
  obtain ⟨p, hrp, hsp⟩ := (hs.structural_iff hF hr).1 ⟨o, hlo, hso⟩
  obtain ⟨q, hsq, hsq'⟩ := (hs.structural_iff hF hr').1 ⟨o, hlo, hso⟩
  obtain ⟨t, _, hct, -⟩ := hs.copied hr hlo hso
  obtain ⟨u, _, hdu, -⟩ := hs.symm.copied hr.symm hrp hsp
  obtain ⟨u', _, hdu', -⟩ := hs.symm.copied hr'.symm hsq hsq'
  have htu := (hs.eq_some_copies hct hdu (hs.matched_images hF hr)).2
  rw [(hs.eq_some_copies hct hdu' (hs.matched_images hF hr')).2] at htu
  cases htu
  exact hs.copies'.injective r s u hdu hdu'

/-- **Equal copies** ask of no object two counterparts outside. -/
theorem outsideCoherent_of_images : h.OutsideCoherent a b :=
  fun _ _ hr hrr hrs => hs.outside_unique hF hr hrr hrs

theorem opposed_unique (hin : h.InsideCoherent a b) (l r s : Ref) (hr : Opposed h a b l r)
    (hs' : Opposed h a b l s) : r = s := by
  obtain ⟨hlr, hr⟩ := hr
  obtain ⟨hls, hs'⟩ := hs'
  by_cases hl : h.Structural l
  · rcases hr with hr | hr <;> rcases hs' with hs' | hs'
    · exact hs.outside_unique hF hl hr hs'
    · exact hin l r s hl hr hlr hs' hls
    · exact (hin l s r hl hs' hls hr hlr).symm
    · have hF' := (hs.matched_inside hF hr).eq_some hlr
      rw [(hs.matched_inside hF hs').eq_some hls] at hF'
      exact (Option.some.inj hF').symm
  · -- an atomic object is never copied, so it has one counterpart everywhere
    have hone : ∀ {r}, l ≠ r → h.Outside a b (.object l) (.object r) ∨
        h.Inside a b (.object l) (.object r) → F l = some r := by
      rintro r hlr (hr | hr)
      · exact (hs.matched_atomic hF hr hl).eq_some hlr
      · exact (hs.matched_inside hF hr).eq_some hlr
    have hF' := hone hlr hr
    rw [hone hls hs'] at hF'
    exact (Option.some.inj hF').symm

/-- Different old objects that fit as themselves agree. -/
theorem agree_old (hm : Matched F (.object l) (.object r)) (hlr : l ≠ r)
    (hl : InHeap h (.object l)) (hr : InHeap h (.object r)) :
    ∃ o p, h.get? l = some o ∧ h.get? r = some p ∧ o.Agree (Matched F) p := by
  obtain ⟨o, p, ho, hp, hop⟩ := hF.agree l r (hm.eq_some hlr) hlr
  rw [hs.copies.old l (hl l rfl)] at ho
  rw [hs.copies.old r (hr r rfl)] at hp
  exact ⟨o, p, ho, hp, hop⟩

/-- **Equal copies** come from equal values if these ask of no object two
    counterparts inside and outside. -/
theorem correspondence_of_images (hin : h.InsideCoherent a b) :
    h.Correspondence (counterpart (Opposed h a b)) a b := by
  have hpair : ∀ l r, counterpart (Opposed h a b) l = some r ↔ Opposed h a b l r :=
    fun l r => counterpart_eq_some (hs.opposed_unique hF hin)
  have houtside : ∀ v w, h.Outside a b v w → Matched F (image c v) (image d w) →
      Matched (counterpart (Opposed h a b)) v w := fun v w ho hm =>
    matched_of_images hm fun l r hv hw hlr => (hpair l r).2 ⟨hlr, Or.inl (hv ▸ hw ▸ ho)⟩
  have hinside : ∀ v w, h.Inside a b v w → Matched F v w →
      Matched (counterpart (Opposed h a b)) v w := fun v w hi hm =>
    matched_of_matched hm fun l r hv hw hlr => (hpair l r).2 ⟨hlr, Or.inr (hv ▸ hw ▸ hi)⟩
  refine ⟨houtside a b .root hF.matched, fun l r hlr hne => ?_⟩
  obtain ⟨-, ho | hi⟩ := (hpair l r).1 hlr
  · by_cases hl : h.Structural l
    · obtain ⟨o, hlo, hso⟩ := hl
      obtain ⟨p, hrp, hsp⟩ := (hs.structural_iff hF ho).1 ⟨o, hlo, hso⟩
      have hagree := hs.agree_images hF ho hlo hrp hso hsp (hs.matched_images hF ho)
      exact ⟨o, p, hlo, hrp, hagree.imp fun v w hb =>
        houtside v w (.part ho hlo hrp hso hsp hb)⟩
    · obtain ⟨o, p, hlo, hrp, hagree⟩ := hs.agree_old hF (hs.matched_atomic hF ho hl) hne
        (ho.inHeap hs.closed hs.inHeap) (ho.symm.inHeap hs.closed hs.inHeap')
      have hso : o.isStructural = false := Bool.eq_false_iff.2 fun hso => hl ⟨o, hlo, hso⟩
      exact ⟨o, p, hlo, hrp, hagree.imp fun v w hb =>
        hinside v w (.enter ho hne hlo hrp hso (hagree.isStructural_eq ▸ hso) hb)⟩
  · obtain ⟨hl, hr⟩ := hi.inHeap hs.closed
    obtain ⟨o, p, hlo, hrp, hagree⟩ := hs.agree_old hF (hs.matched_inside hF hi) hne hl hr
    exact ⟨o, p, hlo, hrp, hagree.imp fun v w hb => hinside v w (.part hi hne hlo hrp hb)⟩

end

/-! ## From equal originals to equal copies -/

/-- The counterparts of copies are the copies of what stands opposite, and old
    objects keep theirs. -/
def Carried (h : Heap) (a b : Value) (c d f : Ref → Option Ref) (t u : Ref) : Prop :=
  (∃ l r, h.Outside a b (.object l) (.object r) ∧ c l = some t ∧ d r = some u) ∨
    t ≠ u ∧ f t = some u

section
variable (hf : h.Correspondence f a b)
include hf

theorem carried_unique (hout : h.OutsideCoherent a b) (t u u' : Ref)
    (hu : Carried h a b c d f t u) (hu' : Carried h a b c d f t u') : u = u' := by
  -- copies are new objects, and `f` has counterparts for old ones only
  have hold : ∀ {l u}, c l = some t → t ≠ u → f t ≠ some u := by
    intro l u hct hne hft
    obtain ⟨o, p, ho, -⟩ := hf.agree t u hft hne
    exact absurd (lt_of_get? ho) (Nat.not_lt.2 (hs.copies.fresh l t hct))
  rcases hu with ⟨l, r, ho, hct, hdu⟩ | ⟨hne, hft⟩ <;>
    rcases hu' with ⟨l', r', ho', hct', hdu'⟩ | ⟨hne', hft'⟩
  · obtain rfl := hs.copies.injective l l' t hct hct'
    obtain rfl := ho.unique hf ho' hout (hs.copies.structural l t hct)
    rw [hdu] at hdu'
    exact Option.some.inj hdu'
  · exact absurd hft' (hold hct hne')
  · exact absurd hft (hold hct' hne)
  · rw [hft] at hft'
    exact Option.some.inj hft'

section
variable (hout : h.OutsideCoherent a b)
include hout

theorem counterpart_carried (t u : Ref) :
    counterpart (Carried h a b c d f) t = some u ↔ Carried h a b c d f t u :=
  counterpart_eq_some (hs.carried_unique hf hout)

/-- What fits in the originals still fits. -/
theorem matched_old (hm : Matched f v w) : Matched (counterpart (Carried h a b c d f)) v w :=
  matched_of_matched hm fun l r hv hw hne => (hs.counterpart_carried hf hout l r).2
    (Or.inr ⟨hne, (hv ▸ hw ▸ hm : Matched f _ _).eq_some hne⟩)

theorem matched_copied (ho : h.Outside a b (.object l) (.object r)) :
    Matched (counterpart (Carried h a b c d f)) (image c (.object l)) (image d (.object r)) := by
  have hm := ho.matched hf
  by_cases hl : h.Structural l
  · obtain ⟨p, hrp, hsp⟩ := (hf.structural_iff hm).1 hl
    obtain ⟨o, hlo, hso⟩ := hl
    obtain ⟨t, -, hct, -⟩ := hs.copied ho hlo hso
    obtain ⟨u, -, hdu, -⟩ := hs.symm.copied ho.symm hrp hsp
    rw [image, image, hct, hdu]
    exact .paired ((hs.counterpart_carried hf hout t u).2 (Or.inl ⟨l, r, ho, hct, hdu⟩))
  · rw [hs.image_atomic hl, hs.symm.image_atomic (mt (hf.structural_iff hm).2 hl)]
    exact hs.matched_old hf hout hm

/-- The images of opposite values outside fit. -/
theorem matched_outside (ho : h.Outside a b v w) :
    Matched (counterpart (Carried h a b c d f)) (image c v) (image d w) := by
  cases ho.matched hf with
  | primitives hv hw he =>
    rw [image_of_not_object hv, image_of_not_object hw]
    exact .primitives hv hw he
  | same r => exact hs.matched_copied hf hout ho
  | paired => exact hs.matched_copied hf hout ho

/-- **Equal values** have equal copies if they ask of no object two
    counterparts outside. -/
theorem correspondence_of_originals :
    g.Correspondence (counterpart (Carried h a b c d f)) (image c a) (image d b) := by
  refine ⟨hs.matched_outside hf hout .root, fun t u htu hne => ?_⟩
  rcases (hs.counterpart_carried hf hout t u).1 htu with ⟨l, r, ho, hct, hdu⟩ | ⟨-, hft⟩
  · obtain ⟨o, hlo, hso⟩ := hs.copies.structural l t hct
    obtain ⟨p, hrp, hsp⟩ := hs.copies'.structural r u hdu
    obtain ⟨t', path, hct', hgt, hspared⟩ := hs.copied ho hlo hso
    obtain ⟨u', path', hdu', hgu, hspared'⟩ := hs.symm.copied ho.symm hrp hsp
    rw [hct] at hct'
    rw [hdu] at hdu'
    cases hct'
    cases hdu'
    refine ⟨_, _, hgt, hgu, (Object.agree_rebuild_iff hso hsp hspared hspared').2 ?_⟩
    refine (hf.agree_structural (ho.matched hf) hlo hrp hso).imp fun v w hb _ => ?_
    exact hs.matched_outside hf hout (.part ho hlo hrp hso hsp hb)
  · obtain ⟨o, p, hto, hup, hagree⟩ := hf.agree t u hft hne
    refine ⟨o, p, ?_, ?_, hagree.mono fun v w => hs.matched_old hf hout⟩
    · rw [hs.copies.old t (lt_of_get? hto), hto]
    · rw [hs.copies.old u (lt_of_get? hup), hup]

end

end

end FullCopies

/-! ## Verdicts -/

section
variable (hc : h.Closed) (ha : InHeap h a) (hb : InHeap h b) (hx : x.Total) (hxa : h.Spares x a)
  (hxb : h.Spares x b)
include hc ha hb hx hxa hxb

/-- **An exclusion that leaves nothing out** but has both sides copied trades
    one question of coherence for the other: equal copies ask for one
    counterpart of each copy, equal values for one of each original. -/
theorem deepEqualExcept_iff_of_spares (hne : x.isEmpty = false) :
    ∃ verdict, (h.deepEqualExcept a b x).outcome = .ok verdict ∧
      (verdict = true → h.OutsideCoherent a b) ∧ (h.deepEqual a b = true → h.InsideCoherent a b) ∧
      (verdict = true ∧ h.InsideCoherent a b ↔ h.deepEqual a b = true ∧ h.OutsideCoherent a b) := by
  obtain ⟨log, log', c, d, g, hs, hout⟩ := exists_separateCopies (a := a) hc hb hx hne
  have hfull : FullCopies h x a b log log' c d g := ⟨hs, hc, ha, hb, hxa, hxb⟩
  have houtside : g.deepEqual (image c a) (image d b) = true → h.OutsideCoherent a b := by
    intro he
    obtain ⟨F, hF⟩ := exists_correspondence_of_deepEqual he
    exact hfull.outsideCoherent_of_images hF
  have hinside : h.deepEqual a b = true → h.InsideCoherent a b := by
    intro he
    obtain ⟨f, hf⟩ := exists_correspondence_of_deepEqual he
    exact insideCoherent_of_correspondence hf
  refine ⟨_, hout, houtside, hinside, ?_, ?_⟩
  · rintro ⟨he, hin⟩
    obtain ⟨F, hF⟩ := exists_correspondence_of_deepEqual he
    exact ⟨(hfull.correspondence_of_images hF hin).deepEqual, houtside he⟩
  · rintro ⟨he, hco⟩
    obtain ⟨f, hf⟩ := exists_correspondence_of_deepEqual he
    exact ⟨(hfull.correspondence_of_originals hf hco).deepEqual, hinside he⟩

/-- **When an exclusion that leaves nothing out changes no verdict**: it is
    empty, or both verdicts are negative, or the values are coherent. -/
theorem deepEqualExcept_eq_iff_coherent :
    (h.deepEqualExcept a b x).outcome = .ok (h.deepEqual a b) ↔
      (x.isEmpty = false →
        h.deepEqual a b = true ∨ (h.deepEqualExcept a b x).outcome = .ok true →
          h.Coherent a b) := by
  cases he : x.isEmpty with
  | true => simp [deepEqualExcept, he]
  | false =>
    obtain ⟨verdict, hout, houtside, hinside, hiff⟩ :=
      deepEqualExcept_iff_of_spares hc ha hb hx hxa hxb he
    simp only [hout, Except.ok.injEq, forall_const]
    constructor
    · intro heq hone
      have hv : verdict = true := by
        rcases hone with hd | hv
        · rw [heq, hd]
        · exact hv
      exact ⟨houtside hv, hinside (heq ▸ hv)⟩
    · intro hco
      rw [Bool.eq_iff_iff]
      exact ⟨fun hv => (hiff.1 ⟨hv, (hco (Or.inr hv)).inside⟩).1,
        fun hd => (hiff.2 ⟨hd, (hco (Or.inl hd)).outside⟩).1⟩

end

/-! ## A common part and a copy of it -/

/-- A plain object with two parts. -/
def pair (p q : Nat) : Object :=
  .plain ⟨.object, [⟨.name "p", .object ⟨p⟩, true⟩, ⟨.name "q", .object ⟨q⟩, true⟩], by simp⟩

theorem agree_pair {M : Value → Value → Prop} {p q p' q' : Nat}
    (hp : M (.object ⟨p⟩) (.object ⟨p'⟩)) (hq : M (.object ⟨q⟩) (.object ⟨q'⟩)) :
    (pair p q).Agree M (pair p' q') := by
  refine .plains rfl rfl (fun k => ?_) fun k v w _ hv hw => ?_
  · by_cases hkp : Key.name "p" = k <;> by_cases hkq : Key.name "q" = k <;>
      simp [PlainObject.hasEnumerable, PlainObject.find?, hkp, hkq]
  · obtain ⟨u, hu, rfl, rfl⟩ := PlainObject.get?_eq_some.1 hv
    obtain ⟨u', hu', hkey, rfl⟩ := PlainObject.get?_eq_some.1 hw
    rcases List.mem_pair.1 hu with rfl | rfl <;> rcases List.mem_pair.1 hu' with rfl | rfl
    · exact hp
    · simp at hkey
    · simp at hkey
    · exact hq

/-- Two empty arrays; the object `2` has the first one twice, the object `3`
    has both. -/
def lopsided : Heap := ⟨#[.array [], .array [], pair 0 0, pair 0 1]⟩

/-- Ignores a key that nothing has. -/
def unusedIgnored : Exclusion Empty := Exclusion.nothing.ignoreKey (.name "unused")

theorem unusedIgnored_total : unusedIgnored.Total := Exclusion.Total.nothing.ignoreKey _

/-- The key that is ignored is nowhere enumerable. -/
theorem spares_unusedIgnored {h : Heap} (v : Value) (hno : ∀ p, .plain p ∈ h.objects →
    p.hasEnumerable (.name "unused") = false) : h.Spares unusedIgnored v := by
  rintro log - r path o - ho p rfl k hk
  have hkey : k ≠ .name "unused" := by
    rintro rfl
    rw [hno p (Array.mem_of_getElem? ho)] at hk
    simp at hk
  simp [Exclusion.keeps, Exclusion.excludes, unusedIgnored, Exclusion.ignoreKey,
    Exclusion.nothing, hkey]

theorem spares_lopsided (v : Value) : lopsided.Spares unusedIgnored v := by
  refine spares_unusedIgnored v fun p hmem => ?_
  simp only [lopsided, pair, List.mem_toArray, List.mem_cons, reduceCtorEq, Object.plain.injEq,
    List.not_mem_nil, or_false, false_or] at hmem
  rcases hmem with rfl | rfl <;> rfl

theorem deepEqualExcept_eq_iff_coherent_lopsided : lopsided.Closed ∧
    InHeap lopsided (.object ⟨2⟩) ∧ InHeap lopsided (.object ⟨3⟩) ∧ unusedIgnored.Total ∧
    lopsided.Spares unusedIgnored (.object ⟨2⟩) ∧ lopsided.Spares unusedIgnored (.object ⟨3⟩) ∧
    ((lopsided.deepEqualExcept (.object ⟨2⟩) (.object ⟨3⟩) unusedIgnored).outcome =
        .ok (lopsided.deepEqual (.object ⟨2⟩) (.object ⟨3⟩)) ↔
      (unusedIgnored.isEmpty = false → lopsided.deepEqual (.object ⟨2⟩) (.object ⟨3⟩) = true ∨
        (lopsided.deepEqualExcept (.object ⟨2⟩) (.object ⟨3⟩) unusedIgnored).outcome = .ok true →
          lopsided.Coherent (.object ⟨2⟩) (.object ⟨3⟩))) := by
  have hc : lopsided.Closed := by decide
  have ha : InHeap lopsided (.object ⟨2⟩) := by decide
  have hb : InHeap lopsided (.object ⟨3⟩) := by decide
  exact ⟨hc, ha, hb, unusedIgnored_total, spares_lopsided _, spares_lopsided _,
    deepEqualExcept_eq_iff_coherent hc ha hb unusedIgnored_total (spares_lopsided _)
      (spares_lopsided _)⟩

/-- The two objects are equal: the first array is the same on both sides, and
    it has the second one as its only counterpart. -/
theorem lopsided_equal : lopsided.deepEqual (.object ⟨2⟩) (.object ⟨3⟩) = true := by
  refine Correspondence.deepEqual
    (f := fun l => if l = ⟨2⟩ then some ⟨3⟩ else if l = ⟨0⟩ then some ⟨1⟩ else none) ⟨?_, ?_⟩
  · exact .paired rfl
  · intro l r hl _
    split at hl
    next h2 =>
      cases hl
      subst h2
      exact ⟨pair 0 0, pair 0 1, rfl, rfl, agree_pair (.same _) (.paired rfl)⟩
    next =>
      split at hl
      next h0 =>
        cases hl
        subst h0
        exact ⟨.array [], .array [], rfl, rfl, .arrays .nil⟩
      next => simp at hl

/-- An exclusion that leaves nothing out can change the verdict. -/
theorem deepEqualExcept_not_neutral :
    ¬∀ (h : Heap) (a b : Value) (x : Exclusion Empty), h.Closed → InHeap h a → InHeap h b →
      x.Total → h.Spares x a → h.Spares x b →
        (h.deepEqualExcept a b x).outcome = .ok (h.deepEqual a b) := by
  intro hall
  have hc : lopsided.Closed := by decide
  have ha : InHeap lopsided (.object ⟨2⟩) := by decide
  have hb : InHeap lopsided (.object ⟨3⟩) := by decide
  have hout := hall lopsided (.object ⟨2⟩) (.object ⟨3⟩) unusedIgnored hc ha hb
    unusedIgnored_total (spares_lopsided _) (spares_lopsided _)
  obtain ⟨verdict, hv, hco, -⟩ := deepEqualExcept_iff_of_spares hc ha hb unusedIgnored_total
    (spares_lopsided _) (spares_lopsided _) rfl
  rw [hv, lopsided_equal] at hout
  -- the first array stands opposite itself and opposite the second one
  have hne := hco (Except.ok.inj hout) ⟨0⟩ ⟨1⟩ ⟨.array [], rfl, rfl⟩
    (.part .root rfl rfl rfl rfl (.property (.name "p") rfl rfl rfl rfl))
    (.part .root rfl rfl rfl rfl (.property (.name "q") rfl rfl rfl rfl))
  simp at hne

end Heap

end ValueGraph
