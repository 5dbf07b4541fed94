/-
  How far deep equality is symmetric.

  A left object has one counterpart, but one right object may be the
  counterpart of several left ones.  So a graph is equal to a graph in which
  some of its objects are merged, and not the other way round.

  * `Heap.Correspondence.converse`: a correspondence that is one-to-one can be
    turned round;
  * `oneToOne_of_both`: comparisons that succeed in both orders have pairings
    that are one-to-one;
  * `deepEqual_comm_iff`: the orders agree except where only correspondences
    that are not one-to-one explain the verdict, and `deepEqual_not_symmetric`
    is a pair of cycles where that happens.
-/
import ValueGraph.Proofs.Correspondence

namespace ValueGraph

/-! ## Turning a correspondence round -/

namespace Heap

variable {h : Heap} {a b : Value}

theorem Correspondence.converse {f : Ref → Option Ref} (hf : h.Correspondence f a b)
    (hinj : OneToOne f) : h.Correspondence (converse f) b a := by
  refine ⟨hf.matched.symm fun l r hl => (converse_eq_some hinj).2 hl, fun r l hr hrl => ?_⟩
  obtain ⟨o, p, ho, hp, hop⟩ := hf.agree l r ((converse_eq_some hinj).1 hr) (Ne.symm hrl)
  refine ⟨p, o, hp, ho, hop.symm.mono fun v w hm => ?_⟩
  exact hm.symm fun l r hl => (converse_eq_some hinj).2 hl

/-- What two correspondences, one for each order, have in common is one, too. -/
theorem Correspondence.meet {f g : Ref → Option Ref} (hf : h.Correspondence f a b)
    (hg : h.Correspondence g b a) :
    h.Correspondence (fun l => (f l).filter fun r => g r = some l) a b := by
  have hmeet : ∀ v w, Matched f v w ∧ Matched g w v →
      Matched (fun l => (f l).filter fun r => g r = some l) v w := by
    rintro v w ⟨hvw, hwv⟩
    cases hvw with
    | primitives hv hw he => exact .primitives hv hw he
    | same r => exact .same r
    | paired hl =>
      cases hwv with
      | primitives hv => simp [Value.isObject] at hv
      | same => exact .same _
      | paired hr => exact .paired (by simp [hl, hr])
  refine ⟨hmeet _ _ ⟨hf.matched, hg.matched⟩, fun l r hl hlr => ?_⟩
  obtain ⟨hfl, hgr⟩ := Option.filter_eq_some_iff.1 hl
  obtain ⟨o, p, ho, hp, hop⟩ := hf.agree l r hfl hlr
  obtain ⟨p', o', hp', ho', hpo⟩ := hg.agree r l (by simpa using hgr) (Ne.symm hlr)
  rw [hp] at hp'
  rw [ho] at ho'
  cases hp'
  cases ho'
  exact ⟨o, p, ho, hp, (hop.and hpo.symm).mono hmeet⟩

/-! ## Both orders -/

variable {t t' : IdentityMap h.size Ref}

/-- Comparisons that succeed in both orders pair the same objects: a pairing
    holds only what every correspondence holds. -/
theorem oneToOne_of_both (ht : h.compare? a b = some t) (ht' : h.compare? b a = some t') :
    OneToOne t.get? := by
  have hback : ∀ l r, t.get? l = some r → t'.get? r = some l := by
    intro l r hl
    have hmeet := (correspondence_of_compare? ht).meet (correspondence_of_compare? ht')
    have := compare?_within ht hmeet l r hl
    simpa using (Option.filter_eq_some_iff.1 this).2
  intro l l' r hl hl'
  have h1 := hback l r hl
  rw [hback l' r hl'] at h1
  exact (Option.some.inj h1).symm

/-- A one-to-one correspondence makes the values equal in both orders. -/
theorem deepEqual_of_oneToOne {f : Ref → Option Ref} (hf : h.Correspondence f a b)
    (hinj : OneToOne f) : h.deepEqual a b = true ∧ h.deepEqual b a = true := by
  obtain ⟨t, ht, -⟩ := compare?_of_correspondence hf
  obtain ⟨t', ht', -⟩ := compare?_of_correspondence (hf.converse hinj)
  exact ⟨by rw [deepEqual, ht]; rfl, by rw [deepEqual, ht']; rfl⟩

/-- **The two orders** give the same verdict iff the values are different in
    both or a one-to-one correspondence explains that they are equal. -/
theorem deepEqual_comm_iff (h : Heap) (a b : Value) :
    h.deepEqual a b = h.deepEqual b a ↔
      (h.deepEqual a b = true ∨ h.deepEqual b a = true →
        ∃ f, h.Correspondence f a b ∧ OneToOne f) := by
  constructor
  · intro he hone
    have hab : h.deepEqual a b = true := by
      rcases hone with hab | hba
      · exact hab
      · rw [he, hba]
    have hba : h.deepEqual b a = true := by rw [← he, hab]
    obtain ⟨t, ht⟩ := Option.isSome_iff_exists.1 hab
    obtain ⟨t', ht'⟩ := Option.isSome_iff_exists.1 hba
    exact ⟨t.get?, correspondence_of_compare? ht, oneToOne_of_both ht ht'⟩
  · intro hone
    by_cases hno : h.deepEqual a b = true ∨ h.deepEqual b a = true
    · obtain ⟨f, hf, hinj⟩ := hone hno
      obtain ⟨hab, hba⟩ := deepEqual_of_oneToOne hf hinj
      rw [hab, hba]
    · obtain ⟨hab, hba⟩ := not_or.1 hno
      rw [Bool.eq_false_iff.2 hab, Bool.eq_false_iff.2 hba]

/-! ## Cycles of different length -/

/-- A plain object whose only property leads to another object. -/
def link (next : Nat) : Object :=
  .plain ⟨.object, [⟨.name "next", .object ⟨next⟩, true⟩], by simp⟩

theorem agree_link {M : Value → Value → Prop} {i j : Nat} :
    (link i).Agree M (link j) ↔ M (.object ⟨i⟩) (.object ⟨j⟩) := by
  constructor
  · intro h
    cases h with
    | plains _ _ _ hv => exact hv (.name "next") _ _ rfl rfl rfl
  · intro h
    refine .plains rfl rfl (fun k => ?_) fun k v w _ hv hw => ?_
    · by_cases hk : Key.name "next" = k <;> simp [PlainObject.hasEnumerable, PlainObject.find?, hk]
    · obtain ⟨p, hp, -, rfl⟩ := PlainObject.get?_eq_some.1 hv
      obtain ⟨q, hq, -, rfl⟩ := PlainObject.get?_eq_some.1 hw
      rw [List.mem_singleton.1 hp, List.mem_singleton.1 hq]
      exact h

/-- A cycle of one object and a cycle of two. -/
def rings : Heap := ⟨#[link 0, link 2, link 1]⟩

/-- Both objects of the longer cycle have the object of the shorter one as
    their counterpart. -/
def merged (l : Ref) : Option Ref := if l = ⟨1⟩ ∨ l = ⟨2⟩ then some ⟨0⟩ else none

theorem rings_longer : rings.Correspondence merged (.object ⟨1⟩) (.object ⟨0⟩) := by
  refine ⟨.paired rfl, fun l r hl _ => ?_⟩
  rw [merged] at hl
  split at hl
  next hcase =>
    cases hl
    rcases hcase with rfl | rfl
    · exact ⟨link 2, link 0, rfl, rfl, agree_link.2 (.paired rfl)⟩
    · exact ⟨link 1, link 0, rfl, rfl, agree_link.2 (.paired rfl)⟩
  next => simp at hl

/-- The object of the shorter cycle would need both objects of the longer one
    as its counterpart. -/
theorem rings_shorter (f : Ref → Option Ref) :
    ¬rings.Correspondence f (.object ⟨0⟩) (.object ⟨1⟩) := by
  intro hf
  have hone := hf.matched.eq_some (by decide)
  obtain ⟨o, p, ho, hp, hop⟩ := hf.agree ⟨0⟩ ⟨1⟩ hone (by decide)
  obtain rfl : link 0 = o := Option.some.inj ho
  obtain rfl : link 2 = p := Option.some.inj hp
  have htwo := (agree_link.1 hop).eq_some (by decide)
  rw [hone] at htwo
  simp at htwo

/-- The longer cycle is equal to the shorter one, but not the shorter to the
    longer. -/
theorem deepEqual_not_symmetric :
    ¬∀ (h : Heap) (a b : Value), h.deepEqual a b = h.deepEqual b a := by
  intro hsymm
  obtain ⟨t, ht, -⟩ := compare?_of_correspondence rings_longer
  have hlong : rings.deepEqual (.object ⟨1⟩) (.object ⟨0⟩) = true := by rw [deepEqual, ht]; rfl
  rw [hsymm] at hlong
  obtain ⟨t', ht'⟩ := Option.isSome_iff_exists.1 hlong
  exact rings_shorter _ (correspondence_of_compare? ht')

end Heap

end ValueGraph
