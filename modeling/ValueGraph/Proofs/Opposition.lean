/-
  Values that stand opposite each other.

  A comparison of two values comes to the values that two objects hold in the
  same place.  Whether it gets there through arrays and plain objects only, or
  through atomic objects as well, is told apart here: traversals stop at atomic
  objects, comparisons do not.

  * `Object.Beside`: two values are held in the same place of two objects;
  * `Heap.Outside`, `Heap.Inside`: the values that stand opposite each other,
    outside atomic objects and inside them;
  * `Outside.matched`, `Inside.matched`: a correspondence matches them;
  * `Heap.Coherent`: no object needs two counterparts, neither as itself nor as
    a copy.
-/
import ValueGraph.Proofs.ClosedHeaps
import ValueGraph.Proofs.Correspondence

namespace ValueGraph

open Pruning

/-! ## The same place of two objects -/

namespace Object

variable {M N : Value → Value → Prop} {o p : Object} {v w : Value}

/-- Two values that two objects of one kind hold in the same place: at one
    index, or under one enumerable key, or under one key of a map. -/
inductive Beside : Object → Object → Value → Value → Prop
  | element {xs ys : List Value} {v w : Value} (i : Nat) : xs[i]? = some v → ys[i]? = some w →
      Beside (.array xs) (.array ys) v w
  | property {p q : PlainObject} {v w : Value} (k : Key) : p.hasEnumerable k = true →
      q.hasEnumerable k = true → p.get? k = some v → q.get? k = some w →
      Beside (.plain p) (.plain q) v w
  | entry {m n : OrderedMap} {v w : Value} (k : Value) : m.get? k = some v → n.get? k = some w →
      Beside (.map m) (.map n) v w

theorem Beside.symm (hb : o.Beside p v w) : p.Beside o w v := by
  cases hb with
  | element i hv hw => exact .element i hw hv
  | property k hk hk' hv hw => exact .property k hk' hk hw hv
  | entry k hv hw => exact .entry k hw hv

/-- Beside itself an object holds each value once. -/
theorem Beside.eq (hb : o.Beside o v w) : v = w := by
  cases hb with
  | element i hv hw => rw [hv] at hw; exact Option.some.inj hw
  | property k _ _ hv hw => rw [hv] at hw; exact Option.some.inj hw
  | entry k hv hw => rw [hv] at hw; exact Option.some.inj hw

theorem Beside.held (hb : o.Beside p v w) : v ∈ o.held := by
  cases hb with
  | element i hv => exact List.mem_of_getElem? hv
  | property k _ _ hv =>
    obtain ⟨a, ha, -, rfl⟩ := PlainObject.get?_eq_some.1 hv
    exact List.mem_map.2 ⟨a, ha, rfl⟩
  | entry k hv =>
    obtain ⟨l, hl, -⟩ := OrderedMap.exists_entry hv
    exact List.mem_append_right _ (List.mem_map.2 ⟨_, hl, rfl⟩)

namespace Agree

theorem beside (h : o.Agree M p) (hb : o.Beside p v w) : M v w := by
  cases h with
  | arrays h => cases hb with
    | element i hv hw =>
      obtain ⟨hlt, hv⟩ := List.getElem?_eq_some_iff.1 hv
      obtain ⟨hlt', hw⟩ := List.getElem?_eq_some_iff.1 hw
      have hi := h.get hlt hlt'
      rwa [List.get_eq_getElem, List.get_eq_getElem, hv, hw] at hi
  | plains _ _ _ h => cases hb with
    | property k hk _ hv hw => exact h k v w hk hv hw
  | maps _ h => cases hb with
    | entry k hv hw => exact h k v w hv hw
  | _ => cases hb

/-- Agreement is a matter of the values in the same places. -/
theorem imp (h : o.Agree M p) (hMN : ∀ v w, o.Beside p v w → M v w → N v w) : o.Agree N p := by
  cases h with
  | arrays h =>
    refine .arrays (List.forall₂_iff_get.2 ⟨h.length_eq, fun i hi hi' => ?_⟩)
    refine hMN _ _ (.element i ?_ ?_) (h.get hi hi')
    · simp [hi]
    · simp [hi']
  | plains hp hq hk h =>
    exact .plains hp hq hk fun k v w he hv hw =>
      hMN v w (.property k he (by rw [← hk, he]) hv hw) (h k v w he hv hw)
  | maps hk h => exact .maps hk fun k v w hv hw => hMN v w (.entry k hv hw) (h k v w hv hw)
  | sets hk => exact .sets hk
  | dates millis => exact .dates millis
  | patterns hs hf => exact .patterns hs hf
  | boxes hb => exact .boxes hb
  | integers element items => exact .integers element items
  | floats element hx => exact .floats element hx
  | dataViews bytes => exact .dataViews bytes

/-- Objects that agree are both looked into, or neither is. -/
theorem isStructural_eq (h : o.Agree M p) : o.isStructural = p.isStructural := by
  cases h with
  | arrays => rfl
  | plains hp hq =>
    rw [(isStructural_iff _).2 (Or.inr ⟨_, rfl, hp⟩), (isStructural_iff _).2 (Or.inr ⟨_, rfl, hq⟩)]
  | @boxes a b h =>
    rw [Bool.eq_iff_iff, isStructural_iff, isStructural_iff]
    simp
  | _ => rfl

end Agree

end Object

/-! ## Opposite values -/

namespace Heap

variable {h : Heap} {a b v w : Value} {l r : Ref} {f F : Ref → Option Ref}

/-- The object is an array or a plain object that is not an instance of a class
    of the host; everything else is atomic. -/
def Structural (h : Heap) (r : Ref) : Prop := ∃ o, h.get? r = some o ∧ o.isStructural = true

theorem Structural.isStructural {o : Object} (hr : h.Structural r) (ho : h.get? r = some o) :
    o.isStructural = true := by
  obtain ⟨o', ho', hs⟩ := hr
  rw [ho] at ho'
  cases ho'
  exact hs

/-- Two values stand opposite each other outside atomic objects: they are the
    values compared, or two structural objects that stand so hold them in the
    same place. -/
inductive Outside (h : Heap) (a b : Value) : Value → Value → Prop
  | root : Outside h a b a b
  | part {l r : Ref} {o p : Object} {v w : Value} : Outside h a b (.object l) (.object r) →
      h.get? l = some o → h.get? r = some p → o.isStructural = true → p.isStructural = true →
      o.Beside p v w → Outside h a b v w

/-- Two values stand opposite each other inside atomic objects: two different
    atomic objects outside, or two different objects inside, hold them in the
    same place. -/
inductive Inside (h : Heap) (a b : Value) : Value → Value → Prop
  | enter {l r : Ref} {o p : Object} {v w : Value} : Outside h a b (.object l) (.object r) →
      l ≠ r → h.get? l = some o → h.get? r = some p → o.isStructural = false →
      p.isStructural = false → o.Beside p v w → Inside h a b v w
  | part {l r : Ref} {o p : Object} {v w : Value} : Inside h a b (.object l) (.object r) →
      l ≠ r → h.get? l = some o → h.get? r = some p → o.Beside p v w → Inside h a b v w

/-- No structural object stands outside atomic objects opposite itself and
    opposite another object. -/
def OutsideCoherent (h : Heap) (a b : Value) : Prop :=
  ∀ r s, h.Structural r → h.Outside a b (.object r) (.object r) →
    h.Outside a b (.object r) (.object s) → r = s

/-- No structural object stands opposite one other object outside atomic
    objects and opposite a different one inside them. -/
def InsideCoherent (h : Heap) (a b : Value) : Prop :=
  ∀ l r s, h.Structural l → h.Outside a b (.object l) (.object r) → l ≠ r →
    h.Inside a b (.object l) (.object s) → l ≠ s → r = s

/-- **Coherence** of two values: being copied or not makes no difference to the
    counterpart of any object. -/
structure Coherent (h : Heap) (a b : Value) : Prop where
  outside : h.OutsideCoherent a b
  inside : h.InsideCoherent a b

theorem Outside.symm (ho : h.Outside a b v w) : h.Outside b a w v := by
  induction ho with
  | root => exact .root
  | part _ hl hr hsl hsr hb ih => exact .part ih hr hl hsr hsl hb.symm

theorem Outside.inHeap (ho : h.Outside a b v w) (hc : h.Closed) (ha : InHeap h a) :
    InHeap h v := by
  cases ho with
  | root => exact ha
  | part _ hl _ _ _ hb => exact hc.held hl _ hb.held

theorem Inside.inHeap (hi : h.Inside a b v w) (hc : h.Closed) : InHeap h v ∧ InHeap h w := by
  cases hi with
  | enter _ _ hl hr _ _ hb => exact ⟨hc.held hl _ hb.held, hc.held hr _ hb.symm.held⟩
  | part _ _ hl hr hb => exact ⟨hc.held hl _ hb.held, hc.held hr _ hb.symm.held⟩

/-! ## Opposite values correspond -/

section
variable (hf : h.Correspondence f a b)
include hf

theorem Correspondence.structural_iff (hm : Matched f (.object l) (.object r)) :
    h.Structural l ↔ h.Structural r := by
  by_cases hlr : l = r
  · rw [hlr]
  · obtain ⟨o, p, ho, hp, hop⟩ := hf.agree l r (hm.eq_some hlr) hlr
    have heq := hop.isStructural_eq
    constructor
    · rintro ⟨o', ho', hs⟩
      rw [ho] at ho'
      cases ho'
      exact ⟨p, hp, heq ▸ hs⟩
    · rintro ⟨p', hp', hs⟩
      rw [hp] at hp'
      cases hp'
      exact ⟨o, ho, heq ▸ hs⟩

/-- A structural object agrees with its counterpart, be it the same one. -/
theorem Correspondence.agree_structural {o p : Object} (hm : Matched f (.object l) (.object r))
    (ho : h.get? l = some o) (hp : h.get? r = some p) (hs : o.isStructural = true) :
    o.Agree (Matched f) p := by
  by_cases hlr : l = r
  · subst hlr
    rw [ho] at hp
    cases hp
    exact Object.agree_self hs fun v => .refl v
  · obtain ⟨o', p', ho', hp', hop⟩ := hf.agree l r (hm.eq_some hlr) hlr
    rw [ho] at ho'
    rw [hp] at hp'
    cases ho'
    cases hp'
    exact hop

/-- What counterparts hold in the same place fits. -/
theorem Correspondence.matched_beside {o p : Object} (hm : Matched f (.object l) (.object r))
    (ho : h.get? l = some o) (hp : h.get? r = some p) (hb : o.Beside p v w) : Matched f v w := by
  by_cases hlr : l = r
  · subst hlr
    rw [ho] at hp
    cases hp
    rw [hb.eq]
    exact .refl w
  · obtain ⟨o', p', ho', hp', hop⟩ := hf.agree l r (hm.eq_some hlr) hlr
    rw [ho] at ho'
    rw [hp] at hp'
    cases ho'
    cases hp'
    exact hop.beside hb

theorem Outside.matched (ho : h.Outside a b v w) : Matched f v w := by
  induction ho with
  | root => exact hf.matched
  | part _ hl hr _ _ hb ih => exact hf.matched_beside ih hl hr hb

theorem Inside.matched (hi : h.Inside a b v w) : Matched f v w := by
  induction hi with
  | enter ho _ hl hr _ _ hb => exact hf.matched_beside (ho.matched hf) hl hr hb
  | part _ _ hl hr hb ih => exact hf.matched_beside ih hl hr hb

/-- **Equal values** ask of no object two counterparts inside and outside. -/
theorem insideCoherent_of_correspondence : h.InsideCoherent a b := by
  intro l r s _ ho hlr hi hls
  have hr := (ho.matched hf).eq_some hlr
  rw [(hi.matched hf).eq_some hls] at hr
  exact (Option.some.inj hr).symm

/-- What stands outside opposite an array or a plain object, if that never
    stands opposite itself and opposite another object. -/
theorem Outside.unique {s : Ref} (ho : h.Outside a b (.object l) (.object r))
    (ho' : h.Outside a b (.object l) (.object s)) (hco : h.OutsideCoherent a b)
    (hl : h.Structural l) : r = s := by
  by_cases hlr : l = r
  · subst hlr
    exact hco l s hl ho ho'
  · by_cases hls : l = s
    · subst hls
      exact (hco l r hl ho' ho).symm
    · have hr := (ho.matched hf).eq_some hlr
      rw [(ho'.matched hf).eq_some hls] at hr
      exact (Option.some.inj hr).symm

end

/-- Different objects that stand opposite each other, outside or inside. -/
def Opposed (h : Heap) (a b : Value) (l r : Ref) : Prop :=
  l ≠ r ∧ (h.Outside a b (.object l) (.object r) ∨ h.Inside a b (.object l) (.object r))

/-- What fits under one map fits under any map that has the different objects
    as counterparts, too. -/
theorem matched_of_matched (hm : Matched F v w)
    (hf : ∀ l r, v = .object l → w = .object r → l ≠ r → f l = some r) : Matched f v w := by
  cases hm with
  | primitives hv hw he => exact .primitives hv hw he
  | same r => exact .same r
  | @paired l r =>
    by_cases hlr : l = r
    · rw [hlr]
      exact .same r
    · exact .paired (hf l r rfl rfl hlr)

/-! ## Images -/

section
variable {c d : Ref → Option Ref}

theorem image_of_not_object (hv : v.isObject = false) : image c v = v := by
  cases v with
  | object r => simp [Value.isObject] at hv
  | _ => rfl

/-- A value and its image fit. -/
theorem matched_image (c : Ref → Option Ref) (v : Value) : Matched c v (image c v) := by
  cases v with
  | object l =>
    rw [image]
    cases hl : c l with
    | none => exact .same l
    | some r => exact .paired hl
  | _ => exact .refl _

/-- What fits by its images fits under any map that has the different objects
    as counterparts. -/
theorem matched_of_images (hm : Matched F (image c v) (image d w))
    (hf : ∀ l r, v = .object l → w = .object r → l ≠ r → f l = some r) : Matched f v w := by
  cases v with
  | object l =>
    cases w with
    | object r => exact matched_of_matched (F := fun _ => some r) (.paired rfl) hf
    | _ => cases hm with | primitives hno => simp [image, Value.isObject] at hno
  | _ =>
    cases w with
    | object r => cases hm with | primitives _ hno => simp [image, Value.isObject] at hno
    | _ => cases hm with | primitives hv hw he => exact .primitives hv hw he

end

end Heap

end ValueGraph
