/-
  Equality without the excluded keys, declaratively.

  A comparison without excluded keys compares two separate copies.  What one
  traversal has met fits only what the other one has met, by a map of the
  objects met; everything else is shared with the source and compared as it
  is, by a map of its own.

  * `Pruning.Fits`: when two values that the traversals come to fit;
  * `Heap.PrunedCorrespondence`: what it is for two maps to explain that two
    values are equal without the excluded keys;
  * `deepEqualExcept_iff_prunedCorrespondence`: the verdict depends on the
    objects met and on what is kept of them, and on nothing else that the
    traversals do.
-/
import ValueGraph.Proofs.KeptContents

namespace ValueGraph

open Pruning

variable {ε : Type} {x : Exclusion ε} {h g : Heap} {a b v w : Value} {l r : Ref}
  {log log' : List Event} {c d f f₀ F : Ref → Option Ref}

/-- Two values that two traversals come to fit: objects met on both sides under
    one map, and values that stand for themselves under another. -/
inductive Pruning.Fits (log log' : List Event) (f f₀ : Ref → Option Ref) : Value → Value → Prop
  | copied {l r : Ref} : Met log l → Met log' r → f l = some r →
      Fits log log' f f₀ (.object l) (.object r)
  | shared {v w : Value} : Uncopied log v → Uncopied log' w → Matched f₀ v w →
      Fits log log' f f₀ v w

/-- Two partial maps of objects explain that two values are equal without the
    excluded keys: the values fit, what is kept of an object agrees with what is
    kept of its counterpart, and objects that are not copied agree with theirs
    as they are. -/
structure Heap.PrunedCorrespondence (h : Heap) (x : Exclusion ε) (log log' : List Event)
    (f f₀ : Ref → Option Ref) (a b : Value) : Prop where
  fits : Fits log log' f f₀ a b
  copied : ∀ l r o p, f l = some r → Kept h x log l o → Kept h x log' r p →
    o.Agree (Fits log log' f f₀) p
  shared : ∀ l r, f₀ l = some r → l ≠ r →
    ∃ o p, h.get? l = some o ∧ h.get? r = some p ∧ o.Agree (Matched f₀) p

namespace Pruning

/-- The part of a map that has to do with certain objects only. -/
noncomputable def restrict (P : Ref → Prop) (F : Ref → Option Ref) : Ref → Option Ref :=
  counterpart fun l r => F l = some r ∧ P l ∧ P r

theorem restrict_eq_some {P : Ref → Prop} : restrict P F l = some r ↔ F l = some r ∧ P l ∧ P r :=
  counterpart_eq_some fun _ _ _ h h' => Option.some.inj (h.1.symm.trans h'.1)

/-- What fits under a map fits under a part that has to do with the values. -/
theorem matched_restrict {P : Ref → Prop} (hm : Matched F v w) (hv : ∀ l, v = .object l → P l)
    (hw : ∀ r, w = .object r → P r) : Matched (restrict P F) v w := by
  refine Heap.matched_of_matched hm fun l r hl hr hne => restrict_eq_some.2 ⟨?_, hv l hl, hw r hr⟩
  subst hl hr
  exact hm.eq_some hne

/-! ## Images of what a traversal comes to -/

namespace Copies

variable (hc : Copies h x log c g)
include hc

theorem exists_copy (hm : Met log r) : ∃ s, c r = some s :=
  Option.isSome_iff_exists.1 ((hc.domain r).2 hm)

theorem met (hs : c r = some s) : Met log r := (hc.domain r).1 (by rw [hs]; rfl)

theorem eq_none (hn : ¬Met log r) : c r = none := by
  rw [← Option.not_isSome_iff_eq_none, hc.domain]
  exact hn

/-- Atomic objects are not copied. -/
theorem eq_none_of_atomic (hr : ¬h.Structural r) : c r = none :=
  Option.eq_none_iff_forall_ne_some.2 fun s hs => hr (hc.structural r s hs)

theorem image_of_uncopied (hv : Uncopied log v) : image c v = v := by
  cases v with
  | object r => rw [image, hc.eq_none (hv r rfl)]; rfl
  | _ => rfl

/-- What stands for a value that a traversal comes to is an array or a plain
    object just if the value is an object met. -/
theorem structural_image (ht : Traverses h x v log) (hcl : h.Closed) (hv : InHeap h v)
    (ho : Occurs h x log v (.object r)) : g.Structural ((c r).getD r) ↔ Met log r := by
  by_cases hm : Met log r
  · obtain ⟨s, hs⟩ := hc.exists_copy hm
    obtain ⟨o, ho, hstr⟩ := ht.structural hm
    obtain ⟨path, hmet⟩ := hm
    refine iff_of_true ?_ ⟨path, hmet⟩
    rw [hs]
    exact ⟨_, hc.get?_copy hmet hs ho, by rw [Object.isStructural_rebuild, hstr]⟩
  · refine iff_of_false (fun ⟨o, ho', hstr⟩ => hm (ht.met_of_occurs ho ⟨o, ?_, hstr⟩)) hm
    rwa [hc.eq_none hm, Option.getD_none, hc.old r (ht.inHeap_of_occurs hcl hv ho r rfl)] at ho'

/-- What is kept of an object, with the images of its values, is its copy. -/
theorem get?_of_kept {s : Ref} {p : Object} (hs : c r = some s) (hk : Kept h x log r p) :
    ∃ path o, p = rebuild x id path o ∧ o.isStructural = true ∧
      g.get? s = some (rebuild x (image c) path o) := by
  obtain ⟨path, o, hm, ho, rfl⟩ := hk
  have hr : h.Structural r := hc.structural r s hs
  exact ⟨path, o, rfl, hr.isStructural ho, hc.get?_copy hm hs ho⟩

end Copies

/-! ## From equal copies -/

/-- The copies of the objects are counterparts. -/
def CopiesPaired (c d F : Ref → Option Ref) (l r : Ref) : Prop :=
  ∃ t u, c l = some t ∧ d r = some u ∧ F t = some u

theorem copiesPaired_unique (hd : OneToOne d) (l r r' : Ref) (hr : CopiesPaired c d F l r)
    (hr' : CopiesPaired c d F l r') : r = r' := by
  obtain ⟨t, u, ht, hu, hF⟩ := hr
  obtain ⟨t', u', ht', hu', hF'⟩ := hr'
  rw [ht] at ht'
  cases ht'
  rw [hF] at hF'
  cases hF'
  exact hd r r' u hu hu'

section
variable (hs : SeparateCopies h x a b log log' c d g)
include hs

section
variable (hc : h.Closed) (ha : InHeap h a) (hb : InHeap h b)
  (hF : g.Correspondence F (image c a) (image d b))
include hc ha hb hF

theorem SeparateCopies.fits_of_images (hv : Occurs h x log a v) (hw : Occurs h x log' b w)
    (hm : Matched F (image c v) (image d w)) :
    Fits log log' (counterpart (CopiesPaired c d F)) (restrict (·.index < h.size) F) v w := by
  cases v with
  | object l =>
    cases w with
    | object r =>
      -- either both are met or neither is
      have hmet : Met log l ↔ Met log' r := by
        rw [← hs.copies.structural_image hs.left hc ha hv,
          ← hs.copies'.structural_image hs.right hc hb hw]
        exact hF.structural_iff hm
      by_cases hl : Met log l
      · obtain ⟨t, ht⟩ := hs.copies.exists_copy hl
        obtain ⟨u, hu⟩ := hs.copies'.exists_copy (hmet.1 hl)
        have htu : t ≠ u := by
          rintro rfl
          exact hs.apart l r t ht hu
        rw [image, image, ht, hu] at hm
        exact .copied hl (hmet.1 hl) ((counterpart_eq_some
          (copiesPaired_unique hs.copies'.injective)).2 ⟨t, u, ht, hu, hm.eq_some htu⟩)
      · have hl' : Uncopied log (.object l) := fun l' he => by cases he; exact hl
        have hr' : Uncopied log' (.object r) := fun r' he => by cases he; exact mt hmet.2 hl
        refine .shared hl' hr' ?_
        rw [hs.copies.image_of_uncopied hl', hs.copies'.image_of_uncopied hr'] at hm
        exact matched_restrict hm (hs.left.inHeap_of_occurs hc ha hv)
          (hs.right.inHeap_of_occurs hc hb hw)
    | _ => cases hm with | primitives hno => simp [image, Value.isObject] at hno
  | _ =>
    cases w with
    | object r => cases hm with | primitives _ hno => simp [image, Value.isObject] at hno
    | _ =>
      refine .shared (fun r he => by cases he) (fun r he => by cases he) ?_
      cases hm with
      | primitives hv hw he => exact .primitives hv hw he

/-- Equal copies are explained by their pairing, read at the originals. -/
theorem SeparateCopies.prunedCorrespondence_of_images :
    h.PrunedCorrespondence x log log' (counterpart (CopiesPaired c d F)) (restrict (·.index < h.size) F) a b := by
  refine ⟨hs.fits_of_images hc ha hb hF (Or.inl rfl) (Or.inl rfl) hF.matched,
    fun l r o p hlr ho hp => ?_, fun l r hlr hne => ?_⟩
  · obtain ⟨t, u, ht, hu, htu⟩ :=
      (counterpart_eq_some (copiesPaired_unique hs.copies'.injective)).1 hlr
    have hne : t ≠ u := by
      rintro rfl
      exact hs.apart l r t ht hu
    obtain ⟨o', p', ho', hp', hagree⟩ := hF.agree t u htu hne
    have hheld : ∀ v ∈ o.held, Occurs h x log a v := fun v hv => Or.inr ⟨l, o, ho, hv⟩
    have hheld' : ∀ w ∈ p.held, Occurs h x log' b w := fun w hw => Or.inr ⟨r, p, hp, hw⟩
    obtain ⟨path, o₀, rfl, hstr, hget⟩ := hs.copies.get?_of_kept ht ho
    obtain ⟨path', p₀, rfl, hstr', hget'⟩ := hs.copies'.get?_of_kept hu hp
    rw [hget] at ho'
    rw [hget'] at hp'
    cases ho'
    cases hp'
    refine ((Object.agree_rebuild hstr hstr').1 hagree).imp fun v w hbeside hm => ?_
    exact hs.fits_of_images hc ha hb hF (hheld v hbeside.held) (hheld' w hbeside.symm.held) hm
  · obtain ⟨hFlr, hl, hr⟩ := restrict_eq_some.1 hlr
    obtain ⟨o, p, ho, hp, hagree⟩ := hF.agree l r hFlr hne
    rw [hs.copies.old l hl] at ho
    rw [hs.copies.old r hr] at hp
    refine ⟨o, p, ho, hp, hagree.imp fun v w hbeside hm => ?_⟩
    exact matched_restrict hm (hc.held ho _ hbeside.held) (hc.held hp _ hbeside.symm.held)

end

/-! ## To equal copies -/

/-- Copies are counterparts as their originals are, and objects of the source
    keep theirs. -/
def Transferred (h : Heap) (c d f f₀ : Ref → Option Ref) (t u : Ref) : Prop :=
  (∃ l r, f l = some r ∧ c l = some t ∧ d r = some u) ∨ t.index < h.size ∧ f₀ t = some u

theorem SeparateCopies.transferred_unique (t u u' : Ref) (hu : Transferred h c d f f₀ t u)
    (hu' : Transferred h c d f f₀ t u') : u = u' := by
  rcases hu with ⟨l, r, hlr, ht, hr⟩ | ⟨hlt, hf⟩ <;>
    rcases hu' with ⟨l', r', hlr', ht', hr'⟩ | ⟨hlt', hf'⟩
  · obtain rfl := hs.copies.injective l l' t ht ht'
    rw [hlr] at hlr'
    cases hlr'
    rw [hr] at hr'
    exact Option.some.inj hr'
  · exact absurd hlt' (Nat.not_lt.2 (hs.copies.fresh l t ht))
  · exact absurd hlt (Nat.not_lt.2 (hs.copies.fresh l' t ht'))
  · rw [hf] at hf'
    exact Option.some.inj hf'

section
variable (hp : h.PrunedCorrespondence x log log' f f₀ a b)
include hp

theorem SeparateCopies.matched_of_shared (hm : Matched f₀ v w) :
    Matched (counterpart (Transferred h c d f f₀)) v w := by
  refine Heap.matched_of_matched hm fun l r hv hw hne => ?_
  subst hv hw
  obtain ⟨o, p, ho, -⟩ := hp.shared l r (hm.eq_some hne) hne
  exact (counterpart_eq_some hs.transferred_unique).2
    (Or.inr ⟨Heap.lt_of_get? ho, hm.eq_some hne⟩)

theorem SeparateCopies.matched_of_fits (hm : Fits log log' f f₀ v w) :
    Matched (counterpart (Transferred h c d f f₀)) (image c v) (image d w) := by
  cases hm with
  | @copied l r hl hr hlr =>
    obtain ⟨t, ht⟩ := hs.copies.exists_copy hl
    obtain ⟨u, hu⟩ := hs.copies'.exists_copy hr
    rw [image, image, ht, hu]
    exact .paired ((counterpart_eq_some hs.transferred_unique).2 (Or.inl ⟨l, r, hlr, ht, hu⟩))
  | shared hv hw hm =>
    rw [hs.copies.image_of_uncopied hv, hs.copies'.image_of_uncopied hw]
    exact hs.matched_of_shared hp hm

/-- What explains an equality without the excluded keys makes the copies
    equal. -/
theorem SeparateCopies.correspondence_of_pruned :
    g.Correspondence (counterpart (Transferred h c d f f₀)) (image c a) (image d b) := by
  refine ⟨hs.matched_of_fits hp hp.fits, fun t u htu hne => ?_⟩
  rcases (counterpart_eq_some hs.transferred_unique).1 htu with ⟨l, r, hlr, ht, hu⟩ | ⟨hlt, hf⟩
  · obtain ⟨o, ho⟩ := hs.left.exists_kept (hs.copies.met ht)
    obtain ⟨p, hpr⟩ := hs.right.exists_kept (hs.copies'.met hu)
    have hagree := hp.copied l r o p hlr ho hpr
    obtain ⟨path, o₀, rfl, hstr, hget⟩ := hs.copies.get?_of_kept ht ho
    obtain ⟨path', p₀, rfl, hstr', hget'⟩ := hs.copies'.get?_of_kept hu hpr
    exact ⟨_, _, hget, hget', (Object.agree_rebuild hstr hstr').2
      (hagree.mono fun v w => hs.matched_of_fits hp)⟩
  · obtain ⟨o, p, ho, hpr, hagree⟩ := hp.shared t u hf hne
    refine ⟨o, p, ?_, ?_, hagree.mono fun v w => hs.matched_of_shared hp⟩
    · rw [hs.copies.old t (Heap.lt_of_get? ho), ho]
    · rw [hs.copies.old u (Heap.lt_of_get? hpr), hpr]

end

end

end Pruning

/-! ## The verdict -/

namespace Heap

theorem exists_traverses (hx : x.Total) (v : Value) : ∃ log, Traverses h x v log := by
  obtain ⟨-, log, -, ht, -⟩ := traverses_run (h := h) hx v
  exact ⟨log, ht⟩

/-- **Equality without the excluded keys.**  There is a verdict, and it is
    positive iff two maps explain it by the objects that the traversals of the
    two values meet. -/
theorem deepEqualExcept_iff_prunedCorrespondence (hc : h.Closed) (ha : InHeap h a)
    (hb : InHeap h b) (hx : x.Total) (hne : x.isEmpty = false) (ht : Traverses h x a log)
    (ht' : Traverses h x b log') : ∃ verdict, (h.deepEqualExcept a b x).outcome = .ok verdict ∧
      (verdict = true ↔ ∃ f f₀, h.PrunedCorrespondence x log log' f f₀ a b) := by
  obtain ⟨log₁, log₂, c, d, g, hs, hout⟩ := exists_separateCopies (a := a) hc hb hx hne
  obtain rfl := hs.left.deterministic ht
  obtain rfl := hs.right.deterministic ht'
  refine ⟨_, hout, ?_⟩
  constructor
  · intro he
    obtain ⟨F, hF⟩ := exists_correspondence_of_deepEqual he
    exact ⟨_, _, hs.prunedCorrespondence_of_images hc ha hb hF⟩
  · rintro ⟨f, f₀, hp⟩
    exact (hs.correspondence_of_pruned hp).deepEqual

end Heap

end ValueGraph
