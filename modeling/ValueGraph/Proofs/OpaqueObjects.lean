/-
  Which objects are opaque.

  Nothing looks into raw memory, into errors and other things without contents,
  into objects of the host, or into instances of its classes.  Classification,
  pruning, comparison and rendering decide by different data: by kind and tag,
  by constructor, by prototype.  A host object chooses its tag freely, and a
  class its name, but what they choose makes no difference.

  * `Object.Container`: what is rebuilt, and `Object.Opaque`: what is equal
    only to itself and has no document;
  * `Object.agreeByTag?`: agreement decided by kinds and tags first; it is the
    same as `Object.agree?` (`agreeByTag?_eq`);
  * `Heap.Rebuilds`, `Heap.Shares`: what pruning makes of an object;
  * `Heap.opaque_everywhere`: all four agree.
-/
import ValueGraph.Proofs.PrunedEquality
import ValueGraph.Proofs.Refusals

open Relation

namespace ValueGraph

open Pruning

/-! ## Kinds and tags -/

theorem TypedArray.tag_eq_of_eq {a b : TypedArray} (he : a.eq b = true) : a.tag = b.tag := by
  cases a <;> cases b <;> simp_all [TypedArray.eq, TypedArray.tag]

namespace Object

/-- Arrays, and plain objects whose class, if any, is not one of the host. -/
inductive Container : Object → Prop
  | array (items : List Value) : Container (.array items)
  | plain {p : PlainObject} : p.prototype.isBuiltin = false → Container (.plain p)

/-- Objects of the host, instances of its classes, raw memory, and objects that
    are known by their tag only. -/
inductive Opaque : Object → Prop
  | host (tag : String) : Opaque (.host tag)
  | instance {p : PlainObject} : p.prototype.isBuiltin = true → Opaque (.plain p)
  | buffer (bytes : List UInt8) (shared : Bool) : Opaque (.buffer bytes shared)
  | weakMap : Opaque .weakMap
  | weakSet : Opaque .weakSet
  | promise : Opaque .promise
  | error (name message : String) : Opaque (.error name message)

/-- What two views must have equal: everything that they show. -/
def viewsAgree? : Object → Object → Option (List (Value × Value))
  | dataView a, dataView b => if a = b then some [] else none
  | typedArray a, typedArray b => if a.eq b then some [] else none
  | _, _ => none

/-- Agreement decided by kinds and tags first: views agree with views of the
    same tag only, and other objects only with objects of the same tag. -/
def agreeByTag? (o p : Object) : Option (List (Value × Value)) :=
  if o.kind = .byteView ∨ p.kind = .byteView then
    if o.tag = p.tag then viewsAgree? o p else none
  else if o.tag ≠ p.tag then none
  else match o, p with
    | array xs, array ys => if xs.length = ys.length then some (xs.zip ys) else none
    | map m, map n => m.agree? n
    | set s, set t => if s.eq t then some [] else none
    | date (some a), date (some b) => if a = b then some [] else none
    | pattern p, pattern q => if p = q then some [] else none
    | boxed a, boxed b => if a.primitive.strictEq b.primitive then some [] else none
    | plain p, plain q =>
      if (plain p).isAtomic .plain || (plain q).isAtomic .plain then none else p.agree? q
    | _, _ => none

variable {M : Value → Value → Prop} {o p : Object}

theorem container_iff : o.isStructural = true ↔ o.Container := by
  rw [isStructural_iff]
  constructor
  · rintro (⟨items, rfl⟩ | ⟨p, rfl, hp⟩)
    · exact .array items
    · exact .plain hp
  · rintro (items | hp)
    · exact .inl ⟨items, rfl⟩
    · exact .inr ⟨_, rfl, hp⟩

/-- **Classification**: an object is no unit if and only if it is a
    container. -/
theorem isAtomic_kind_iff : o.isAtomic o.kind = false ↔ o.Container := by
  rw [← container_iff, isStructural, Bool.not_eq_true']

theorem Opaque.not_container (ho : o.Opaque) : ¬ o.Container := by
  intro hc
  cases ho with
  | «instance» hp => cases hc with
    | plain hp' => rw [hp] at hp'; cases hp'
  | _ => cases hc

/-- **An opaque object agrees with no other object.** -/
theorem Opaque.not_agree (ho : o.Opaque) : ¬ o.Agree M p := by
  cases ho with
  | «instance» hp => exact not_agree_of_builtin hp p
  | _ => rintro ⟨⟩

/-- **A tag decides nothing** that the objects themselves do not decide. -/
theorem agreeByTag?_eq (o p : Object) : o.agreeByTag? p = o.agree? p := by
  cases o with
  | array xs =>
    cases p with
    | array ys => simp [agreeByTag?, agree?, kind, tag]
    | _ => simp [agreeByTag?, agree?, kind, viewsAgree?]
  | plain o =>
    cases p with
    | plain p =>
      simp only [agreeByTag?, agree?, isStructural, kind, tag, ← Bool.not_or]
      by_cases hunit : ((plain o).isAtomic .plain || (plain p).isAtomic .plain) = true
      · simp [hunit]
      · rw [Bool.not_eq_true] at hunit
        simp [hunit]
    | _ => simp [agreeByTag?, agree?, kind, viewsAgree?]
  | map m =>
    cases p with
    | map n => simp [agreeByTag?, agree?, kind, tag]
    | _ => simp [agreeByTag?, agree?, kind, viewsAgree?]
  | set s =>
    cases p with
    | set t => simp [agreeByTag?, agree?, kind, tag]
    | _ => simp [agreeByTag?, agree?, kind, viewsAgree?]
  | date a =>
    cases p with
    | date b => cases a <;> cases b <;> simp [agreeByTag?, agree?, kind, tag]
    | _ => simp [agreeByTag?, agree?, kind, viewsAgree?]
  | pattern o =>
    cases p with
    | pattern p => simp [agreeByTag?, agree?, kind, tag]
    | _ => simp [agreeByTag?, agree?, kind, viewsAgree?]
  | boxed a =>
    cases p with
    | boxed b =>
      cases a <;> cases b <;>
        simp [agreeByTag?, agree?, kind, tag, Boxed.tag, Boxed.primitive, Value.strictEq]
    | _ => simp [agreeByTag?, agree?, kind, viewsAgree?]
  | typedArray a =>
    cases p with
    | typedArray b =>
      have htag : (typedArray a).tag = (typedArray b).tag ∨ a.eq b = false := by
        by_cases he : a.eq b = true
        · exact .inl (TypedArray.tag_eq_of_eq he)
        · exact .inr (Bool.eq_false_iff.2 he)
      rcases htag with htag | he
      · simp [agreeByTag?, agree?, kind, htag, viewsAgree?]
      · simp [agreeByTag?, agree?, kind, he, viewsAgree?]
    | _ => simp [agreeByTag?, agree?, kind, viewsAgree?]
  | dataView a =>
    cases p with
    | dataView b => simp [agreeByTag?, agree?, kind, tag, viewsAgree?]
    | _ => simp [agreeByTag?, agree?, kind, viewsAgree?]
  | _ => cases p <;> simp [agreeByTag?, agree?, kind, viewsAgree?]

theorem Opaque.agreeByTag? (ho : o.Opaque) :
    o.agreeByTag? p = none ∧ p.agreeByTag? o = none := by
  rw [agreeByTag?_eq, agreeByTag?_eq]
  constructor
  · refine Option.eq_none_iff_forall_ne_some.2 fun inner hinner => ?_
    exact ho.not_agree (M := fun _ _ => True) (agree?_iff.1 ⟨inner, hinner, fun _ _ => trivial⟩)
  · refine Option.eq_none_iff_forall_ne_some.2 fun inner hinner => ?_
    have hagree : p.Agree (fun _ _ => True) o :=
      agree?_iff.1 ⟨inner, hinner, fun _ _ => trivial⟩
    exact ho.not_agree hagree.symm

/-- **An opaque object has no document**; the error names its tag. -/
theorem Opaque.refusal? (ho : o.Opaque) : o.refusal? = some (.object o.tag) := by
  cases ho with
  | «instance» hp => simp [Object.refusal?, isStructural, isAtomic, hp]
  | _ => rfl

end Object

namespace Heap

variable {ε : Type} {h g : Heap} {x : Exclusion ε} {r : Ref} {o : Object} {v w : Value}
  {log : List Event} {c : Ref → Option Ref}

/-! ## Pruning -/

/-- Pruning makes a new container of the object. -/
def Rebuilds (h : Heap) (x : Exclusion ε) (r : Ref) : Prop :=
  ∃ copy s o, (h.prune (.object r) x).outcome = .ok copy ∧ copy.value = .object s ∧
    h.size ≤ s.index ∧ copy.heap.get? s = some o ∧ o.Container

/-- Pruning gives the object back. -/
def Shares (h : Heap) (x : Exclusion ε) (r : Ref) : Prop :=
  ∃ copy, (h.prune (.object r) x).outcome = .ok copy ∧ copy.value = .object r

section
variable (hc : Copies h x log c g) (ho : h.get? r = some o)
include hc ho

theorem exists_copy_of_container (ht : Traverses h x v log) (hv : Occurs h x log v (.object r))
    (hcont : o.Container) :
    ∃ s o', image c (.object r) = .object s ∧ h.size ≤ s.index ∧ g.get? s = some o' ∧
      o'.Container := by
  have hstr := Object.container_iff.2 hcont
  obtain ⟨path, hm⟩ := ht.met_of_occurs hv ⟨o, ho, hstr⟩
  obtain ⟨s, hs⟩ := hc.exists_copy ⟨path, hm⟩
  refine ⟨s, _, by rw [image, hs]; rfl, hc.fresh r s hs, hc.get?_copy hm hs ho, ?_⟩
  rw [← Object.container_iff, Object.isStructural_rebuild, hstr]

theorem image_of_not_container (hcont : ¬ o.Container) : image c (.object r) = .object r := by
  rw [← Object.container_iff, Bool.not_eq_true] at hcont
  exact hc.image_unit ho hcont

/-- **Wherever a traversal comes to an object**, it gives the object back if and
    only if that is no container. -/
theorem image_eq_self_iff (ht : Traverses h x v log) (hv : Occurs h x log v (.object r)) :
    image c (.object r) = .object r ↔ ¬ o.Container := by
  refine ⟨fun hsame hcont => ?_, image_of_not_container hc ho⟩
  obtain ⟨s, -, himage, hfresh, -⟩ := exists_copy_of_container hc ho ht hv hcont
  rw [himage] at hsame
  cases hsame
  exact Nat.not_lt_of_le hfresh (lt_of_get? ho)

end

theorem rebuilds_iff (hx : x.Total) (ho : h.get? r = some o) : h.Rebuilds x r ↔ o.Container := by
  obtain ⟨copy, log, c, hout, hvalue, ht, hc⟩ := exists_copies h (.object r) hx
  have hroot : Occurs h x log (.object r) (.object r) := .inl rfl
  constructor
  · rintro ⟨copy', s, -, hout', hvalue', hfresh, -⟩
    rw [hout] at hout'
    cases hout'
    by_contra hcont
    rw [hvalue, image_of_not_container hc ho hcont] at hvalue'
    cases hvalue'
    exact Nat.not_lt_of_le hfresh (lt_of_get? ho)
  · intro hcont
    obtain ⟨s, o', himage, hfresh, hget, hcont'⟩ := exists_copy_of_container hc ho ht hroot hcont
    exact ⟨copy, s, o', hout, hvalue.trans himage, hfresh, hget, hcont'⟩

theorem shares_iff (hx : x.Total) (ho : h.get? r = some o) : h.Shares x r ↔ ¬ o.Container := by
  obtain ⟨copy, log, c, hout, hvalue, ht, hc⟩ := exists_copies h (.object r) hx
  rw [← image_eq_self_iff hc ho ht (.inl rfl), ← hvalue]
  constructor
  · rintro ⟨copy', hout', hvalue'⟩
    rw [hout] at hout'
    cases hout'
    exact hvalue'
  · exact fun hsame => ⟨copy, hout, hsame⟩

/-! ## Comparing -/

theorem deepEqual_self (h : Heap) (v : Value) : h.deepEqual v v = true :=
  Correspondence.deepEqual (f := fun _ => none) ⟨.refl v, nofun⟩

/-- An object is equal to objects only. -/
theorem isObject_eq_of_deepEqual (he : h.deepEqual v w = true) : v.isObject = w.isObject := by
  obtain ⟨f, hf⟩ := exists_correspondence_of_deepEqual he
  cases hf.matched with
  | primitives hv hw => rw [hv, hw]
  | same => rfl
  | paired => rfl

/-- **An opaque object is equal to itself only**, on either side. -/
theorem deepEqual_opaque_iff (ho : h.get? r = some o) (hop : o.Opaque) :
    (h.deepEqual (.object r) v = true ↔ v = .object r) ∧
      (h.deepEqual v (.object r) = true ↔ v = .object r) := by
  constructor
  · refine ⟨fun he => ?_, fun hv => hv ▸ deepEqual_self h _⟩
    cases v with
    | object s =>
      by_contra hne
      have hrs : r ≠ s := fun hrs => hne (hrs ▸ rfl)
      obtain ⟨f, o', p, ho', -, hagree⟩ := exists_agree_of_deepEqual he hrs
      rw [ho] at ho'
      cases ho'
      exact hop.not_agree hagree
    | _ => cases isObject_eq_of_deepEqual he
  · refine ⟨fun he => ?_, fun hv => hv ▸ deepEqual_self h _⟩
    cases v with
    | object s =>
      by_contra hne
      have hsr : s ≠ r := fun hsr => hne (hsr ▸ rfl)
      obtain ⟨f, p, o', -, ho', hagree⟩ := exists_agree_of_deepEqual he hsr
      rw [ho] at ho'
      cases ho'
      exact hop.not_agree hagree.symm
    | _ => cases isObject_eq_of_deepEqual he

/-! ## Rendering -/

theorem refusal?_opaque_object (ho : h.get? r = some o) (hop : o.Opaque) :
    h.refusal? [] (.object r) = some (.object o.tag) := by
  rw [refusal?, if_neg List.not_mem_nil, ho]
  exact hop.refusal?

theorem render_opaque_object (ho : h.get? r = some o) (hop : o.Opaque) :
    h.render (.object r) = .error (.object o.tag) :=
  render_eq_error_iff.2 (.here (refusal?_opaque_object ho hop))

/-- **What contains an opaque object is not rendered.**  If there is nothing else
    to refuse, the error names the tag of the object. -/
theorem render_of_opaque_inside (ho : h.get? r = some o) (hop : o.Opaque)
    (hv : ReflTransGen h.Contains v (.object r)) :
    (∃ e, h.render v = .error e) ∧
    ((∀ w, ReflTransGen h.Contains v w →
      (w = .object r ∨ h.refusal? [] w = none) ∧ ¬ TransGen h.Contains w w) →
        h.render v = .error (.object o.tag)) := by
  have hrefusal := refusal?_opaque_object ho hop
  cases hout : h.render v with
  | ok j =>
    have hall := exists_unfolds_iff.1 (exists_render_iff.1 ⟨j, hout⟩) _ hv
    rw [hrefusal] at hall
    cases hall.1
  | error e =>
    refine ⟨⟨e, rfl⟩, fun honly => ?_⟩
    obtain ⟨place, he, -⟩ := render_eq_error_iff.1 hout
    obtain ⟨w, hw, hw'⟩ := he.reach (by simp)
    obtain ⟨hw'', hacyclic⟩ := honly w hw
    have he' := hw'.resolve_right hacyclic
    rcases hw'' with rfl | hnone
    · rw [hrefusal] at he'
      cases he'
      rfl
    · rw [hnone] at he'
      cases he'

/-! ## All four -/

/-- **Every part agrees on what is opaque**, whatever tag or class name an object
    has.  Classification says of containers only that they are no units; pruning
    makes new containers of them and gives everything else back, at the root and
    wherever else it comes.  Comparing two objects by kind and tag first finds
    no other object that an opaque one agrees with: an opaque object is equal to
    itself only, and neither it nor anything that contains it is rendered. -/
theorem opaque_everywhere (hx : x.Total) (ho : h.get? r = some o) :
    (o.isAtomic o.kind = false ↔ o.Container) ∧
    (h.Rebuilds x r ↔ o.Container) ∧ (h.Shares x r ↔ ¬ o.Container) ∧
    (∀ v, ∃ copy log c, (h.prune v x).outcome = .ok copy ∧ copy.value = image c v ∧
      Traverses h x v log ∧ Copies h x log c copy.heap ∧
      (Occurs h x log v (.object r) →
        (image c (.object r) = .object r ↔ ¬ o.Container))) ∧
    (o.Opaque →
      (∀ p, o.agreeByTag? p = none ∧ p.agreeByTag? o = none) ∧
      (∀ v, (h.deepEqual (.object r) v = true ↔ v = .object r) ∧
        (h.deepEqual v (.object r) = true ↔ v = .object r)) ∧
      h.render (.object r) = .error (.object o.tag) ∧
      ∀ v, ReflTransGen h.Contains v (.object r) →
        (∃ e, h.render v = .error e) ∧
        ((∀ w, ReflTransGen h.Contains v w →
          (w = .object r ∨ h.refusal? [] w = none) ∧ ¬ TransGen h.Contains w w) →
            h.render v = .error (.object o.tag))) := by
  refine ⟨Object.isAtomic_kind_iff, rebuilds_iff hx ho, shares_iff hx ho, fun v => ?_,
    fun hop => ⟨fun p => hop.agreeByTag?, fun v => deepEqual_opaque_iff ho hop, ?_,
      fun v => render_of_opaque_inside ho hop⟩⟩
  · obtain ⟨copy, log, c, hout, hvalue, ht, hc⟩ := exists_copies h v hx
    exact ⟨copy, log, c, hout, hvalue, ht, hc, image_eq_self_iff hc ho ht⟩
  · exact render_opaque_object ho hop

/-- An object of the host that claims to be an array, and an array that holds
    it. -/
def impostor : Heap := ⟨#[.host "Array", .array [.object ⟨0⟩]]⟩

theorem opaque_everywhere_impostor :
    secretIgnored.Total ∧ impostor.get? ⟨0⟩ = some (.host "Array") ∧
    (Object.host "Array").Opaque ∧ ReflTransGen impostor.Contains (.object ⟨1⟩) (.object ⟨0⟩) ∧
    impostor.Shares secretIgnored ⟨0⟩ ∧
    impostor.deepEqual (.object ⟨0⟩) (.object ⟨1⟩) = false ∧
    impostor.render (.object ⟨0⟩) = .error (.object "Array") ∧
    ∃ e, impostor.render (.object ⟨1⟩) = .error e := by
  have hx : secretIgnored.Total := Exclusion.Total.nothing.ignoreKey _
  have ho : impostor.get? ⟨0⟩ = some (.host "Array") := rfl
  have hop : (Object.host "Array").Opaque := .host "Array"
  have hholds : ReflTransGen impostor.Contains (.object ⟨1⟩) (.object ⟨0⟩) :=
    .single (show _ ∈ impostor.rendered (.object ⟨1⟩) from List.mem_singleton_self _)
  obtain ⟨-, -, hshares, -, hopaque⟩ := opaque_everywhere hx ho
  obtain ⟨-, hequal, hrender, hrender'⟩ := hopaque hop
  refine ⟨hx, ho, hop, hholds, hshares.2 (hop.not_container), ?_, hrender, (hrender' _ hholds).1⟩
  rw [Bool.eq_false_iff]
  intro he
  cases (hequal _).1.1 he

end Heap

end ValueGraph
