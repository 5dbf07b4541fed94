/-
  The order of properties, entries and elements.

  Plain objects, maps and sets keep what they hold in the order of insertion.
  A comparison looks values up by key, so it sees no more of the order than
  that a key has one value.

  * `Object.Alike`: two objects agree with the same objects;
  * `Object.Reordered`, `Heap.Reordered`: the same content in another order,
    of one object and of every object of a heap;
  * `Object.Reordered.alike`: another order makes no difference to agreement;
  * `Heap.Correspondence.of_alike`: a map that explains an equality explains it
    in every heap with alike objects;
  * `Heap.deepEqual_reordered`: deep equality does not depend on the order.
-/
import ValueGraph.Proofs.Correspondence

namespace ValueGraph

/-! ## Alike objects -/

/-- Two objects agree with the same objects, whatever values fit. -/
def Object.Alike (o p : Object) : Prop :=
  ∀ (M : Value → Value → Prop) (q : Object), o.Agree M q ↔ p.Agree M q

namespace Object

variable {M : Value → Value → Prop} {o p o' p' : Object}

namespace Alike

theorem refl (o : Object) : o.Alike o := fun _ _ => Iff.rfl

theorem symm (h : o.Alike p) : p.Alike o := fun M q => (h M q).symm

/-- Two objects may be replaced by alike ones, one on each side. -/
theorem agree (h : o.Alike o') (h' : p.Alike p') (ha : o.Agree M p) : o'.Agree M p' :=
  ((h' _ _).1 ((h M p).1 ha).symm).symm

/-- It suffices that one agrees with what the other agrees with, and the other
    way round. -/
theorem of_imp (h : ∀ M q, o.Agree M q → p.Agree M q) (h' : ∀ M q, p.Agree M q → o.Agree M q) :
    o.Alike p := fun M q => ⟨h M q, h' M q⟩

end Alike

section
variable {a b : PlainObject}

theorem agree_of_lookups (hb : a.prototype.isBuiltin = b.prototype.isBuiltin)
    (hk : ∀ k, a.hasEnumerable k = b.hasEnumerable k)
    (hv : ∀ k, a.hasEnumerable k = true → a.get? k = b.get? k) {q : Object}
    (h : (plain a).Agree M q) : (plain b).Agree M q := by
  cases h with
  | plains ha hq hkq hvq =>
    refine .plains (hb ▸ ha) hq (fun k => (hk k).symm.trans (hkq k)) fun k v w he hbv hw => ?_
    have he' : a.hasEnumerable k = true := (hk k).trans he
    exact hvq k v w he' ((hv k he').trans hbv) hw

/-- Plain objects are alike if they have the same enumerable keys with the same
    values. -/
theorem alike_of_lookups (hb : a.prototype.isBuiltin = b.prototype.isBuiltin)
    (hk : ∀ k, a.hasEnumerable k = b.hasEnumerable k)
    (hv : ∀ k, a.hasEnumerable k = true → a.get? k = b.get? k) : (plain a).Alike (plain b) :=
  .of_imp (fun _ _ => agree_of_lookups hb hk hv) fun _ _ =>
    agree_of_lookups hb.symm (fun k => (hk k).symm) fun k he => (hv k ((hk k).trans he)).symm

theorem not_agree_of_builtin (hb : a.prototype.isBuiltin = true) (q : Object) :
    ¬(plain a).Agree M q := by
  intro h
  cases h with
  | plains ha => rw [hb] at ha; simp at ha

/-- Instances of classes of the host agree with nothing, so any two are
    alike. -/
theorem alike_of_builtin (ha : a.prototype.isBuiltin = true) (hb : b.prototype.isBuiltin = true) :
    (plain a).Alike (plain b) :=
  .of_imp (fun _ q h => absurd h (not_agree_of_builtin ha q))
    fun _ q h => absurd h (not_agree_of_builtin hb q)

end

end Object

/-! ## Another order -/

namespace PlainObject

variable {p q : PlainObject}

theorem find?_perm (h : p.properties.Perm q.properties) (k : Key) : p.find? k = q.find? k := by
  refine Option.ext fun a => ?_
  rw [find?_eq_some, find?_eq_some, h.mem_iff]

theorem get?_perm (h : p.properties.Perm q.properties) (k : Key) : p.get? k = q.get? k := by
  rw [get?, get?, find?_perm h]

theorem hasEnumerable_perm (h : p.properties.Perm q.properties) (k : Key) :
    p.hasEnumerable k = q.hasEnumerable k := by
  rw [hasEnumerable, hasEnumerable, find?_perm h]

end PlainObject

namespace OrderedMap

variable {m n : OrderedMap} {k v : Value}

theorem get?_eq_some : m.get? k = some v ↔ ∃ l, (l, v) ∈ m.entries ∧ l.sameValueZero k = true := by
  refine ⟨exists_entry, ?_⟩
  rintro ⟨l, hl, hlk⟩
  rw [← get?_congr hlk]
  exact get?_of_mem hl

theorem get?_perm (h : m.entries.Perm n.entries) (k : Value) : m.get? k = n.get? k := by
  refine Option.ext fun v => ?_
  rw [get?_eq_some, get?_eq_some]
  exact exists_congr fun l => and_congr_left' h.mem_iff

theorem contains_perm (h : m.entries.Perm n.entries) (k : Value) : m.contains k = n.contains k := by
  rw [Bool.eq_iff_iff, contains_iff, contains_iff, get?_perm h]

end OrderedMap

/-- The same object with the properties, entries or elements in another
    order. -/
inductive Object.Reordered : Object → Object → Prop
  | same (o : Object) : Reordered o o
  | properties {p q : PlainObject} : p.prototype = q.prototype → p.properties.Perm q.properties →
      Reordered (.plain p) (.plain q)
  | entries {m n : OrderedMap} : m.entries.Perm n.entries → Reordered (.map m) (.map n)
  | elements {s t : OrderedSet} : s.items.Perm t.items → Reordered (.set s) (.set t)

namespace Object.Reordered

variable {M : Value → Value → Prop} {o p q : Object}

theorem symm (h : o.Reordered p) : p.Reordered o := by
  cases h with
  | same => exact .same o
  | properties hp h => exact .properties hp.symm h.symm
  | entries h => exact .entries h.symm
  | elements h => exact .elements h.symm

theorem agree (h : o.Reordered p) (ha : o.Agree M q) : p.Agree M q := by
  cases h with
  | same => exact ha
  | properties hp h =>
    exact agree_of_lookups (by rw [hp]) (PlainObject.hasEnumerable_perm h)
      (fun k _ => PlainObject.get?_perm h k) ha
  | entries h =>
    cases ha with
    | maps hk hv =>
      refine .maps (fun k => (OrderedMap.contains_perm h k).symm.trans (hk k)) fun k v w hv' hw => ?_
      exact hv k v w ((OrderedMap.get?_perm h k).trans hv') hw
  | elements h =>
    cases ha with
    | sets hk => exact .sets fun v => (h.any_eq.symm).trans (hk v)

/-- **Another order** makes no difference to agreement. -/
theorem alike (h : o.Reordered p) : o.Alike p :=
  .of_imp (fun _ _ => h.agree) fun _ _ => h.symm.agree

end Object.Reordered

/-- The same heap with the properties, entries and elements of its objects in
    another order. -/
def Heap.Reordered (h g : Heap) : Prop :=
  List.Forall₂ Object.Reordered h.objects.toList g.objects.toList

namespace Heap

variable {h g : Heap} {a b : Value} {r : Ref} {o : Object}

theorem Reordered.symm (hg : h.Reordered g) : g.Reordered h :=
  hg.flip.imp fun _ _ => Object.Reordered.symm

theorem Reordered.size_eq (hg : h.Reordered g) : h.size = g.size := by
  simpa [size] using hg.length_eq

theorem Reordered.get? (hg : h.Reordered g) (ho : h.get? r = some o) :
    ∃ p, g.get? r = some p ∧ o.Reordered p := by
  obtain ⟨hlt, rfl⟩ := Array.getElem?_eq_some_iff.1 ho
  have hlt' : r.index < g.objects.size := Nat.lt_of_lt_of_eq hlt hg.size_eq
  exact ⟨g.objects[r.index], Array.getElem?_eq_some_iff.2 ⟨hlt', rfl⟩, hg.get hlt hlt'⟩

/-! ## Deep equality -/

/-- A map that explains an equality explains it in every heap that has alike
    objects in the same places. -/
theorem Correspondence.of_alike {f : Ref → Option Ref} (hf : h.Correspondence f a b)
    (halike : ∀ r o, h.get? r = some o → ∃ p, g.get? r = some p ∧ o.Alike p) :
    g.Correspondence f a b := by
  refine ⟨hf.matched, fun l r hl hlr => ?_⟩
  obtain ⟨o, p, ho, hp, hop⟩ := hf.agree l r hl hlr
  obtain ⟨o', ho', hoo⟩ := halike l o ho
  obtain ⟨p', hp', hpp⟩ := halike r p hp
  exact ⟨o', p', ho', hp', hoo.agree hpp hop⟩

theorem Correspondence.reordered {f : Ref → Option Ref} (hf : h.Correspondence f a b)
    (hg : h.Reordered g) : g.Correspondence f a b :=
  hf.of_alike fun _ _ ho => (hg.get? ho).imp fun _ hp => ⟨hp.1, hp.2.alike⟩

theorem Reordered.correspondence_iff {f : Ref → Option Ref} (hg : h.Reordered g) :
    g.Correspondence f a b ↔ h.Correspondence f a b :=
  ⟨fun hf => hf.reordered hg.symm, fun hf => hf.reordered hg⟩

theorem Reordered.deepEqual_iff (hg : h.Reordered g) :
    g.deepEqual a b = true ↔ h.deepEqual a b = true := by
  constructor
  · intro he
    obtain ⟨f, hf⟩ := exists_correspondence_of_deepEqual he
    exact (hg.correspondence_iff.1 hf).deepEqual
  · intro he
    obtain ⟨f, hf⟩ := exists_correspondence_of_deepEqual he
    exact (hg.correspondence_iff.2 hf).deepEqual

/-- **Deep equality does not depend on the order** of properties, entries and
    elements, of whatever objects and on whichever side. -/
theorem deepEqual_reordered (hg : h.Reordered g) (a b : Value) :
    g.deepEqual a b = h.deepEqual a b := by
  rw [Bool.eq_iff_iff]
  exact hg.deepEqual_iff

/-- From place `n` on: an object that holds itself and a map, a map that leads
    back to it and on to a set, and the set. -/
def knotAt (n : Nat) : List Object :=
  [.plain (.ofEntries .object [(.name "self", .object ⟨n⟩), (.name "seen", .object ⟨n + 1⟩)]),
    .map (.ofEntries [(.null, .object ⟨n⟩), (.bool true, .object ⟨n + 2⟩)]),
    .set (.ofItems [.null, .bool true])]

/-- `knotAt` in another order. -/
def turnedKnotAt (n : Nat) : List Object :=
  [.plain (.ofEntries .object [(.name "seen", .object ⟨n + 1⟩), (.name "self", .object ⟨n⟩)]),
    .map (.ofEntries [(.bool true, .object ⟨n + 2⟩), (.null, .object ⟨n⟩)]),
    .set (.ofItems [.bool true, .null])]

/-- Two knots in different order. -/
def knots : Heap := ⟨(knotAt 0 ++ turnedKnotAt 3).toArray⟩

/-- Two knots, each in the order of the other one of `knots`. -/
def turnedKnots : Heap := ⟨(turnedKnotAt 0 ++ knotAt 3).toArray⟩

theorem reordered_knots : knots.Reordered turnedKnots :=
  .cons (.properties rfl (by decide)) <| .cons (.entries (by decide)) <|
    .cons (.elements (by decide)) <| .cons (.properties rfl (by decide)) <|
      .cons (.entries (by decide)) <| .cons (.elements (by decide)) .nil

theorem deepEqual_reordered_knots : knots.Reordered turnedKnots ∧
    turnedKnots.deepEqual (.object ⟨0⟩) (.object ⟨3⟩) =
      knots.deepEqual (.object ⟨0⟩) (.object ⟨3⟩) :=
  ⟨reordered_knots, deepEqual_reordered reordered_knots _ _⟩

end Heap

end ValueGraph
