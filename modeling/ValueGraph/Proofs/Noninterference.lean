/-
  Ignored keys do not interfere.

  What stands under ignored keys has no influence on a comparison without them:
  the traversals keep the same whatever it is, be it cyclic, shared with the
  kept part or leading back into it.  Only the content of atomic objects is
  compared in full, so what they lead to has to stay as it is.

  * `Edit`, `Heap.editAll`: changes of properties, one after the other;
  * `Object.SameBut`, `Heap.SameBut`: the same but for the properties under
    some keys; one edit keeps to it (`sameBut_edit`), and so do all
    (`sameBut_editAll`);
  * `Heap.ReachesThroughAtomic`: what atomic objects lead to;
  * `Heap.SameBut.exists_verdict`, `Heap.deepEqualExcept_editAll`: edits under
    ignored keys leave the verdict.
-/
import ValueGraph.Proofs.SameContents

namespace ValueGraph

open Pruning

variable {ε : Type} {x : Exclusion ε}

/-! ## Edits -/

/-- A change of one property: it is inserted or redefined, or it is
    removed. -/
inductive Edit where
  | define (k : Key) (v : Value) (enumerable : Bool)
  | remove (k : Key)

namespace Edit

/-- The key of the property. -/
def key : Edit → Key
  | define k _ _ => k
  | remove k => k

/-- The value that the property gets. -/
def value? : Edit → Option Value
  | define _ v _ => some v
  | remove _ => none

/-- The object after the change. -/
def apply : Edit → PlainObject → PlainObject
  | define k v enumerable, p => (p.define k v enumerable).2
  | remove k, p => (p.remove k).2

theorem prototype_apply (e : Edit) (p : PlainObject) : (e.apply p).prototype = p.prototype := by
  cases e <;> rfl

end Edit

/-- Changes a property of a plain object; other objects stay as they are. -/
def Heap.edit (h : Heap) (r : Ref) (e : Edit) : Heap :=
  match h.get? r with
  | some (.plain p) => h.set r (.plain (e.apply p))
  | _ => h

/-- Changes properties, one after the other. -/
def Heap.editAll (h : Heap) (edits : List (Ref × Edit)) : Heap :=
  edits.foldl (fun h e => h.edit e.1 e.2) h

/-! ## The same but for some keys -/

namespace PlainObject

variable {keys : List Key} {p : PlainObject}

theorem mem_apply {e : Edit} {a : Property} (ha : a ∈ (e.apply p).properties) :
    e.value? = some a.value ∨ a ∈ p.properties := by
  cases e with
  | define k v enumerable => exact (mem_defineIn ha).imp_left fun h => by rw [h]; rfl
  | remove k => exact Or.inr (List.mem_of_mem_filter ha)

theorem filter_defineIn {new : Property} (hk : new.key ∈ keys) : ∀ ps : List Property,
    (defineIn new ps).filter (fun a => a.key ∉ keys) = ps.filter fun a => a.key ∉ keys
  | [] => by simp [defineIn, hk]
  | p :: ps => by
    rw [defineIn]
    split
    next hp => simp [hp, hk]
    next => rw [List.filter_cons, List.filter_cons, filter_defineIn hk ps]

theorem filter_apply {e : Edit} (hk : e.key ∈ keys) :
    ((e.apply p).properties.filter fun a => a.key ∉ keys) =
      p.properties.filter fun a => a.key ∉ keys := by
  cases e with
  | define k v enumerable => exact filter_defineIn hk p.properties
  | remove k =>
    refine List.filter_filter.trans (List.filter_congr fun a _ => ?_)
    have hne : a.key ∉ keys → a.key ≠ k := fun ha he => ha (he ▸ hk)
    by_cases ha : a.key ∈ keys <;> simp [ha, hne]

/-- Which entries have certain keys depends on the properties with these
    keys. -/
theorem filter_entries {q : PlainObject} (f : Key → Bool)
    (h : (p.properties.filter fun a => f a.key) = q.properties.filter fun a => f a.key) :
    (p.entries.filter fun e => f e.1) = q.entries.filter fun e => f e.1 := by
  have hcomm : ∀ (r : PlainObject) (kind : Property → Bool),
      (r.properties.filter kind).filter (fun a => f a.key) =
        (r.properties.filter fun a => f a.key).filter kind := fun r kind => by
    rw [List.filter_filter, List.filter_filter]
    simp only [Bool.and_comm]
  have hentries : ∀ r : PlainObject, (r.entries.filter fun e => f e.1) =
      ((r.names.filter fun a => f a.key) ++ r.symbols.filter fun a => f a.key).map
        fun a => (a.key, a.value) := fun r => by
    rw [entries, List.filter_map, List.filter_append]
    rfl
  rw [hentries, hentries, names, symbols, names, symbols]
  simp only [hcomm, h]

end PlainObject

/-- The same object but for the properties under some keys. -/
inductive Object.SameBut (keys : List Key) : Object → Object → Prop
  | same (o : Object) : SameBut keys o o
  | plain {p q : PlainObject} : p.prototype = q.prototype →
      ((p.properties.filter fun a => a.key ∉ keys) = q.properties.filter fun a => a.key ∉ keys) →
      SameBut keys (.plain p) (.plain q)

namespace Object.SameBut

variable {keys : List Key} {o p q : Object}

theorem symm (h : o.SameBut keys p) : p.SameBut keys o := by
  cases h with
  | same => exact .same o
  | plain hp h => exact .plain hp.symm h.symm

theorem trans (hop : o.SameBut keys p) (hpq : p.SameBut keys q) : o.SameBut keys q := by
  cases hop with
  | same => exact hpq
  | plain hp h =>
    cases hpq with
    | same => exact .plain hp h
    | plain hq h' => exact .plain (hp.trans hq) (h.trans h')

theorem of_edit {e : Edit} (hk : e.key ∈ keys) (p : PlainObject) :
    (Object.plain p).SameBut keys (.plain (e.apply p)) :=
  .plain (Edit.prototype_apply e p).symm (PlainObject.filter_apply hk).symm

theorem isStructural_eq (h : o.SameBut keys p) : o.isStructural = p.isStructural := by
  cases h with
  | same => rfl
  | plain hp => simp [isStructural, isAtomic, kind, hp]

/-- What is kept of an object without a predicate is the same. -/
theorem rebuild_eq (h : o.SameBut x.keys p) (hx : x.predicate = none) (path path' : KeyPath) :
    rebuild x id path o = rebuild x id path' p := by
  have hkeeps : ∀ path k, x.keeps k path = decide (k ∉ x.keys) := by
    intro path k
    by_cases hk : k ∈ x.keys <;> simp [Exclusion.keeps, Exclusion.excludes, hk, hx]
  have hplain : ∀ path (p : PlainObject), rebuild x id path (.plain p) =
      .plain (.ofEntries p.prototype ((p.entries.filter fun e => e.1 ∉ x.keys).map
        fun e => (e.1, e.2))) := by
    intro path p
    simp only [rebuild, hkeeps, id]
  cases h with
  | same => cases o with
    | plain p => rw [hplain, hplain]
    | _ => rfl
  | plain hp h =>
    rw [hplain, hplain, hp, PlainObject.filter_entries (fun k => decide (k ∉ x.keys)) h]

end Object.SameBut

/-! ## Heaps after edits -/

namespace Heap

variable {h g : Heap} {a b v w : Value} {r : Ref} {o : Object} {keys : List Key}
  {touched : Ref → Prop}

/-- The same heap but for the properties under some keys of some objects. -/
structure SameBut (keys : List Key) (touched : Ref → Prop) (h g : Heap) : Prop where
  size : h.size = g.size
  objects : ∀ r o, h.get? r = some o → ∃ p, g.get? r = some p ∧ o.SameBut keys p
  untouched : ∀ r, ¬touched r → h.get? r = g.get? r

namespace SameBut

theorem refl (h : Heap) : SameBut keys touched h h :=
  ⟨rfl, fun _ o ho => ⟨o, ho, .same o⟩, fun _ _ => rfl⟩

theorem trans {k : Heap} (hg : SameBut keys touched h g) (hk : SameBut keys touched g k) :
    SameBut keys touched h k := by
  refine ⟨hg.size.trans hk.size, fun r o ho => ?_, fun r hr => ?_⟩
  · obtain ⟨p, hp, hop⟩ := hg.objects r o ho
    obtain ⟨q, hq, hpq⟩ := hk.objects r p hp
    exact ⟨q, hq, hop.trans hpq⟩
  · rw [hg.untouched r hr, hk.untouched r hr]

theorem symm (hg : SameBut keys touched h g) : SameBut keys touched g h := by
  refine ⟨hg.size.symm, fun r p hp => ?_, fun r hr => (hg.untouched r hr).symm⟩
  obtain ⟨o, ho⟩ := exists_get? (hg.size ▸ lt_of_get? hp)
  obtain ⟨p', hp', hop⟩ := hg.objects r o ho
  rw [hp] at hp'
  cases hp'
  exact ⟨o, ho, hop.symm⟩

theorem inHeap (hg : SameBut keys touched h g) (hv : InHeap h v) : InHeap g v :=
  fun r hr => hg.size ▸ hv r hr

end SameBut

/-- **One edit** changes no more than a property of one object. -/
theorem sameBut_edit {e : Edit} (hk : e.key ∈ keys) (hr : touched r) :
    SameBut keys touched h (h.edit r e) := by
  unfold edit
  split
  next p hp =>
    have hself : (h.set r (.plain (e.apply p))).get? r = some (.plain (e.apply p)) := by
      simp only [get?, set]
      exact Array.getElem?_setIfInBounds_self_of_lt (lt_of_get? hp)
    have hother : ∀ s, s ≠ r → (h.set r (.plain (e.apply p))).get? s = h.get? s := fun s hs => by
      refine Array.getElem?_setIfInBounds_ne fun he => hs ?_
      cases r
      cases s
      exact congrArg Ref.mk he.symm
    refine ⟨by simp [size, set], fun s o ho => ?_, fun s hs => ?_⟩
    · by_cases hsr : s = r
      · subst hsr
        rw [hp] at ho
        cases ho
        exact ⟨_, hself, .of_edit hk p⟩
      · exact ⟨o, (hother s hsr).trans ho, .same o⟩
    · exact (hother s fun hsr => hs (hsr ▸ hr)).symm
  next => exact .refl h

theorem Closed.edit {e : Edit} (hc : h.Closed) (hv : ∀ v, e.value? = some v → InHeap h v) :
    (h.edit r e).Closed := by
  unfold Heap.edit
  split
  next p hp =>
    refine hc.set fun v hmem => ?_
    obtain ⟨a, ha, rfl⟩ := List.mem_map.1 hmem
    rcases PlainObject.mem_apply ha with hnew | hold
    · exact hv _ hnew
    · exact hc.held hp _ (List.mem_map.2 ⟨a, hold, rfl⟩)
  next => exact hc

/-- **All edits** change no more than properties under their keys of the objects
    that they are made to. -/
theorem sameBut_editAll : ∀ {edits : List (Ref × Edit)} {h : Heap}, h.Closed →
    (∀ e ∈ edits, touched e.1 ∧ e.2.key ∈ keys ∧ ∀ v, e.2.value? = some v → InHeap h v) →
      SameBut keys touched h (h.editAll edits) ∧ (h.editAll edits).Closed
  | [], h, hc, _ => ⟨.refl h, hc⟩
  | e :: edits, h, hc, hedits => by
    obtain ⟨hr, hk, hv⟩ := hedits e (List.mem_cons_self ..)
    have hstep := sameBut_edit (h := h) hk hr
    obtain ⟨hrest, hclosed⟩ := sameBut_editAll (hc.edit (r := e.1) hv) fun e' he' =>
      have ⟨hr', hk', hv'⟩ := hedits e' (List.mem_cons_of_mem _ he')
      ⟨hr', hk', fun v hv => hstep.inHeap (hv' v hv)⟩
    exact ⟨hstep.trans hrest, hclosed⟩

/-! ## Atomic objects -/

/-- A value reaches another one through an atomic object: it reaches the atomic
    object, which holds something that reaches the other value. -/
def ReachesThroughAtomic (h : Heap) (v w : Value) : Prop :=
  ∃ r o u, h.Reaches v (.object r) ∧ h.get? r = some o ∧ o.isStructural = false ∧ u ∈ o.held ∧
    h.Reaches u w

theorem ReachesThroughAtomic.shrink (hgh : ∀ r, r.index < h.size → g.get? r = h.get? r)
    (hc : h.Closed) (hv : InHeap h v) (hr : g.ReachesThroughAtomic v w) :
    h.ReachesThroughAtomic v w := by
  obtain ⟨r, o, u, hvr, ho, hs, hu, huw⟩ := hr
  obtain ⟨hvr, hin⟩ := hvr.shrink hgh hc hv
  rw [hgh r (hin r rfl)] at ho
  exact ⟨r, o, u, hvr, ho, hs, hu, (huw.shrink hgh hc (hc.held ho u hu)).1⟩

/-- What two values share with their copies: what they reach through atomic
    objects, these themselves, and primitives. -/
def SharedWithCopies (h : Heap) (a b w : Value) : Prop :=
  ∃ v, (v = a ∨ v = b) ∧
    (h.ReachesThroughAtomic v w ∨ h.Reaches v w ∧ ∀ r, w = .object r → ¬h.Structural r)

theorem sharedWithCopies_held (hS : h.SharedWithCopies a b (.object r)) (ho : h.get? r = some o)
    (hw : w ∈ o.held) : h.SharedWithCopies a b w := by
  obtain ⟨v, hv, ⟨q, p, u, hq, hp, hs, hu, hur⟩ | ⟨hr, hn⟩⟩ := hS
  · exact ⟨v, hv, Or.inl ⟨q, p, u, hq, hp, hs, hu, .step hur ho hw⟩⟩
  · have hs : o.isStructural = false := Bool.eq_false_iff.2 fun hs => hn r rfl ⟨o, ho, hs⟩
    exact ⟨v, hv, Or.inl ⟨r, o, w, hr, ho, hs, hw, .refl⟩⟩

section
variable (hg : SameBut keys touched h g)
  (htouched : ∀ r, touched r → ¬h.ReachesThroughAtomic a (.object r) ∧
    ¬h.ReachesThroughAtomic b (.object r))
include hg htouched

/-- Shared objects are the same in both heaps, or instances of classes of the
    host. -/
theorem SameBut.shared (hS : h.SharedWithCopies a b (.object r)) :
    h.get? r = g.get? r ∨ ∃ p q : PlainObject, h.get? r = some (.plain p) ∧
      g.get? r = some (.plain q) ∧ p.prototype.isBuiltin = true ∧ q.prototype.isBuiltin = true := by
  obtain ⟨v, hv, hthrough | ⟨-, hn⟩⟩ := hS
  · refine Or.inl (hg.untouched r fun hr => ?_)
    rcases hv with rfl | rfl
    · exact (htouched r hr).1 hthrough
    · exact (htouched r hr).2 hthrough
  · cases ho : h.get? r with
    | none =>
      cases hp : g.get? r with
      | none => exact Or.inl rfl
      | some p =>
        obtain ⟨o, ho', -⟩ := hg.symm.objects r p hp
        rw [ho] at ho'
        simp at ho'
    | some o =>
      obtain ⟨p, hp, hop⟩ := hg.objects r o ho
      cases hop with
      | same => exact Or.inl hp.symm
      | @plain p q hproto _ =>
        have hbuiltin : p.prototype.isBuiltin = true := by
          by_contra hno
          exact hn r rfl ⟨_, ho, (Object.isStructural_iff _).2
            (Or.inr ⟨p, rfl, Bool.eq_false_iff.2 hno⟩)⟩
        exact Or.inr ⟨p, q, rfl, hp, hbuiltin, hproto ▸ hbuiltin⟩

theorem SameBut.alongside : Alongside h g (h.SharedWithCopies a b) where
  alike r o hS ho := by
    rcases hg.shared htouched hS with he | ⟨p, q, hp, hq, hpb, hqb⟩
    · exact ⟨o, he ▸ ho, .refl o⟩
    · rw [ho] at hp
      cases hp
      exact ⟨_, hq, Object.alike_of_builtin hpb hqb⟩
  held r o _ _ hS ho _ v hv := sharedWithCopies_held hS ho hv

theorem SameBut.alongside_symm : Alongside g h (h.SharedWithCopies a b) where
  alike r o hS ho := by
    rcases hg.shared htouched hS with he | ⟨p, q, hp, hq, hpb, hqb⟩
    · exact ⟨o, he.trans ho, .refl o⟩
    · rw [ho] at hq
      cases hq
      exact ⟨_, hp, Object.alike_of_builtin hqb hpb⟩
  held r o p' M hS ho hagree v hv := by
    rcases hg.shared htouched hS with he | ⟨p, q, hp, hq, hpb, hqb⟩
    · exact sharedWithCopies_held hS (he.trans ho) hv
    · -- an instance of a class of the host agrees with nothing
      rw [ho] at hq
      cases hq
      exact absurd hagree (Object.not_agree_of_builtin hqb p')

end

/-! ## Non-interference -/

theorem SameBut.rebuiltAlike {log lg : List Event} (hg : SameBut x.keys touched h g)
    (hx : x.predicate = none) (ht : Traverses h x v log) :
    SameKept.RebuiltAlike h g x log lg := by
  intro r path o hm ho
  have hs := (ht.structural ⟨path, hm⟩).isStructural ho
  obtain ⟨p, hp, hop⟩ := hg.objects r o ho
  refine ⟨p, hp, hop.isStructural_eq ▸ hs, fun path' _ => ?_⟩
  rw [hop.rebuild_eq hx path path']
  exact .same _

/-- Heaps that are the same but for properties under ignored keys have one
    verdict if objects that are reached through atomic objects are the same. -/
theorem SameBut.exists_verdict (hg : SameBut x.keys touched h g) (hc : h.Closed) (hc' : g.Closed)
    (ha : InHeap h a) (hb : InHeap h b) (hx : x.predicate = none) (hkeys : x.keys ≠ [])
    (htouched : ∀ r, touched r → ¬h.ReachesThroughAtomic a (.object r) ∧
      ¬h.ReachesThroughAtomic b (.object r)) :
    ∃ verdict, (h.deepEqualExcept a b x).outcome = .ok verdict ∧
      (g.deepEqualExcept a b x).outcome = .ok verdict := by
  have htotal : x.Total := fun p hp => by simp [hx] at hp
  have hne : x.isEmpty = false := by simp [Exclusion.isEmpty, hkeys]
  obtain ⟨log, ht⟩ := exists_traverses (h := h) htotal a
  obtain ⟨log', ht'⟩ := exists_traverses (h := h) htotal b
  obtain ⟨lg, hgt⟩ := exists_traverses (h := g) htotal a
  obtain ⟨lg', hgt'⟩ := exists_traverses (h := g) htotal b
  have hshared : ∀ {v log}, v = a ∨ v = b → Traverses h x v log → ∀ w, Occurs h x log v w →
      Uncopied log w → h.SharedWithCopies a b w := by
    intro v log hv ht w ho hu
    refine ⟨v, hv, Or.inr ⟨ht.reaches_of_occurs ho, fun r hr hs => ?_⟩⟩
    subst hr
    exact hu r rfl (ht.met_of_occurs ho hs)
  exact exists_verdict_of_sameKept hc hc' ha hb (hg.inHeap ha) (hg.inHeap hb) htotal hne ht ht'
    hgt hgt' (.of_rebuilt ht hgt (hg.rebuiltAlike hx ht) (hg.symm.rebuiltAlike hx hgt))
    (.of_rebuilt ht' hgt' (hg.rebuiltAlike hx ht') (hg.symm.rebuiltAlike hx hgt'))
    (hg.alongside htouched) (hg.alongside_symm htouched) (hshared (Or.inl rfl) ht)
    (hshared (Or.inr rfl) ht')

/-- **Ignored keys do not interfere** with a comparison without them: whatever
    is inserted, redefined or removed under them, in plain objects that neither
    value reaches through an atomic object, the verdict is the same.  The edits
    may bring in objects that are new in `grown`. -/
theorem deepEqualExcept_editAll {grown : Heap} (hc : h.Closed) (ha : InHeap h a)
    (hb : InHeap h b) (hx : x.predicate = none) (hkeys : x.keys ≠ [])
    (hgrown : ∀ r, r.index < h.size → grown.get? r = h.get? r) (hc' : grown.Closed)
    (edits : List (Ref × Edit)) (hin : ∀ e ∈ edits, e.2.key ∈ x.keys)
    (hvalues : ∀ e ∈ edits, ∀ v, e.2.value? = some v → InHeap grown v)
    (htouched : ∀ e ∈ edits, ¬h.ReachesThroughAtomic a (.object e.1) ∧
      ¬h.ReachesThroughAtomic b (.object e.1)) :
    ∃ verdict, (h.deepEqualExcept a b x).outcome = .ok verdict ∧
      ((grown.editAll edits).deepEqualExcept a b x).outcome = .ok verdict := by
  have hinHeap : ∀ {v}, InHeap h v → InHeap grown v := fun hv r hr =>
    Nat.lt_of_lt_of_le (hv r hr) (size_le_of_old hgrown)
  obtain ⟨hg, hc''⟩ : SameBut x.keys (fun r => ∃ e ∈ edits, e.1 = r) grown
      (grown.editAll edits) ∧ (grown.editAll edits).Closed :=
    sameBut_editAll hc' fun e he => ⟨⟨e, he, rfl⟩, hin e he, hvalues e he⟩
  have hatomic : ∀ r, (∃ e ∈ edits, e.1 = r) → ¬grown.ReachesThroughAtomic a (.object r) ∧
      ¬grown.ReachesThroughAtomic b (.object r) := by
    rintro r ⟨e, he, rfl⟩
    exact ⟨fun hr => (htouched e he).1 (hr.shrink hgrown hc ha),
      fun hr => (htouched e he).2 (hr.shrink hgrown hc hb)⟩
  obtain ⟨verdict, hout, hgrow⟩ := exists_verdict_of_grow (x := x) hgrown hc hc' ha hb
    (fun p hp => by simp [hx] at hp) (by simp [Exclusion.isEmpty, hkeys])
  obtain ⟨verdict', hgrow', hedit⟩ :=
    hg.exists_verdict hc' hc'' (hinHeap ha) (hinHeap hb) hx hkeys hatomic
  rw [hgrow] at hgrow'
  cases hgrow'
  exact ⟨verdict, hout, hedit⟩

/-- Two objects, each holding itself and both holding a map, and what the map
    holds. -/
def ledger : Heap :=
  ⟨#[.plain (.ofEntries .object [(.name "self", .object ⟨0⟩), (.name "seen", .object ⟨1⟩)]),
    .map (.ofEntries [(.null, .object ⟨2⟩)]), .array [.bool true],
    .plain (.ofEntries .object [(.name "seen", .object ⟨1⟩), (.name "self", .object ⟨3⟩)])]⟩

/-- Ignores one key. -/
def stampIgnored : Exclusion Empty := Exclusion.nothing.ignoreKey (.name "stamp")

/-- The same with a new array that holds itself. -/
def grownLedger : Heap := ledger.alloc (.array [.object ⟨4⟩])

/-- Under the ignored key one object comes to hold the new array, and the other
    one for a while the old array, in the end the first object. -/
def stamps : List (Ref × Edit) :=
  [(⟨0⟩, .define (.name "stamp") (.object ⟨4⟩) true),
    (⟨3⟩, .define (.name "stamp") (.object ⟨2⟩) true), (⟨3⟩, .remove (.name "stamp")),
    (⟨3⟩, .define (.name "stamp") (.object ⟨0⟩) false)]

/-- Only the array is reached through the map. -/
theorem ledger_through_atomic (hr : ledger.ReachesThroughAtomic v (.object r)) :
    r.index = 2 := by
  obtain ⟨q, o, u, -, ho, hs, hu, hr⟩ := hr
  have hatomic : ∀ i : Fin 4, ledger.objects[i].isStructural = false →
      ∀ w ∈ ledger.objects[i].held, ∀ t ∈ w.ref?, t.index = 2 := by decide
  have harray : ∀ w ∈ ledger.objects[2].held, ∀ t ∈ w.ref?, t.index = 2 := by decide
  refine hr.closed (P := fun t => t.index = 2) (fun t ht => ?_) fun t p ht hp s hs => ?_
  · obtain ⟨hlt, rfl⟩ := Array.getElem?_eq_some_iff.1 ho
    exact hatomic ⟨q.index, hlt⟩ hs u hu t (by rw [ht]; rfl)
  · obtain ⟨hlt, rfl⟩ := Array.getElem?_eq_some_iff.1 hp
    simp only [ht] at hs
    exact harray _ hs s rfl

theorem deepEqualExcept_editAll_ledger : ledger.Closed ∧ InHeap ledger (.object ⟨0⟩) ∧
    InHeap ledger (.object ⟨3⟩) ∧ stampIgnored.predicate = none ∧ stampIgnored.keys ≠ [] ∧
    (∀ r, r.index < ledger.size → grownLedger.get? r = ledger.get? r) ∧ grownLedger.Closed ∧
    (∀ e ∈ stamps, e.2.key ∈ stampIgnored.keys) ∧
    (∀ e ∈ stamps, ∀ v, e.2.value? = some v → InHeap grownLedger v) ∧
    (∀ e ∈ stamps, ¬ledger.ReachesThroughAtomic (.object ⟨0⟩) (.object e.1) ∧
      ¬ledger.ReachesThroughAtomic (.object ⟨3⟩) (.object e.1)) ∧
    ∃ verdict,
      (ledger.deepEqualExcept (.object ⟨0⟩) (.object ⟨3⟩) stampIgnored).outcome = .ok verdict ∧
      ((grownLedger.editAll stamps).deepEqualExcept (.object ⟨0⟩) (.object ⟨3⟩)
        stampIgnored).outcome = .ok verdict := by
  have hc : ledger.Closed := by decide
  have ha : InHeap ledger (.object ⟨0⟩) := by decide
  have hb : InHeap ledger (.object ⟨3⟩) := by decide
  have hkeys : stampIgnored.keys ≠ [] := by decide
  have hgrown : ∀ r, r.index < ledger.size → grownLedger.get? r = ledger.get? r :=
    fun r => get?_alloc_of_lt
  have hc' : grownLedger.Closed := by decide
  have hin : ∀ e ∈ stamps, e.2.key ∈ stampIgnored.keys := by decide
  have hvalues : ∀ e ∈ stamps, ∀ v ∈ e.2.value?, InHeap grownLedger v := by decide
  have hplain : ∀ e ∈ stamps, e.1.index ≠ 2 := by decide
  have htouched : ∀ e ∈ stamps, ¬ledger.ReachesThroughAtomic (.object ⟨0⟩) (.object e.1) ∧
      ¬ledger.ReachesThroughAtomic (.object ⟨3⟩) (.object e.1) := fun e he =>
    ⟨fun hr => hplain e he (ledger_through_atomic hr),
      fun hr => hplain e he (ledger_through_atomic hr)⟩
  exact ⟨hc, ha, hb, rfl, hkeys, hgrown, hc', hin, hvalues, htouched,
    deepEqualExcept_editAll hc ha hb rfl hkeys hgrown hc' stamps hin hvalues htouched⟩

end Heap

end ValueGraph
