/-
  Comparing the trees of documents is comparing the documents.

  Two trees that lie apart are equal just if the documents are the same.  The
  sharing rules of deep equality never show on them: an object is met by one
  path, and its counterpart is what that path leads to on the other side.

  * `Json.Same`: documents are the same up to the order of members and the
    spelling of numbers;
  * `Heap.same_of_agree`: where a correspondence matches two trees, the
    documents are the same;
  * `Heap.alongPaths`: the correspondence of two trees with the same document;
  * `Heap.deepEqual_iff_same`: deep equality of two trees;
  * `Heap.deepEqualExcept_json_iff`: deep equality of two documents without the
    members that ignore rules name.
-/
import ValueGraph.Proofs.Correspondence
import ValueGraph.Proofs.Stripping

namespace ValueGraph

/-! ## The same document -/

/-- The same document: members in any order, and numbers by their 64-bit
    values.  A document that is read has no not-a-numbers. -/
inductive Json.Same : Json → Json → Prop
  | null : Same .null .null
  | bool (b : Bool) : Same (.bool b) (.bool b)
  | number {m n : JsonNumber} :
      (m.value.eq n.value = true ∨ m.value.isNaN = true ∧ n.value.isNaN = true) →
      Same (.number m) (.number n)
  | string (text : String) : Same (.string text) (.string text)
  | array {xs ys : List Json} : xs.length = ys.length →
      (∀ (i : Nat) x y, xs[i]? = some x → ys[i]? = some y → Same x y) →
      Same (.array xs) (.array ys)
  | object {ms ns : List (String × Json)} :
      (∀ k, k ∈ ms.map Prod.fst ↔ k ∈ ns.map Prod.fst) →
      (∀ k x y, (k, x) ∈ ms → (k, y) ∈ ns → Same x y) → Same (.object ms) (.object ns)

theorem forall₂_iff_getElem? {α β : Type} {R : α → β → Prop} : ∀ {xs : List α} {ys : List β},
    List.Forall₂ R xs ys ↔ xs.length = ys.length ∧
      ∀ (i : Nat) x y, xs[i]? = some x → ys[i]? = some y → R x y
  | [], [] => by simp
  | [], y :: ys => by simp
  | x :: xs, [] => by simp
  | x :: xs, y :: ys => by
    rw [List.forall₂_cons, forall₂_iff_getElem?]
    constructor
    · rintro ⟨hxy, hlen, hall⟩
      refine ⟨by simp [hlen], fun i u v hu hv => ?_⟩
      cases i with
      | zero => cases hu; cases hv; exact hxy
      | succ i => exact hall i u v hu hv
    · rintro ⟨hlen, hall⟩
      exact ⟨hall 0 x y rfl rfl, by simpa using hlen,
        fun i u v hu hv => hall (i + 1) u v hu hv⟩

theorem exists_getElem? {α β : Type} {xs : List α} {ys : List β} (hlen : xs.length = ys.length)
    {i : Nat} {y : β} (hy : ys[i]? = some y) : ∃ x, xs[i]? = some x := by
  obtain ⟨hlt, -⟩ := List.getElem?_eq_some_iff.1 hy
  exact ⟨xs[i], List.getElem?_eq_getElem (by omega)⟩

namespace Heap

/-! ## Members and entries -/

section
variable {p q : PlainObject} {ms ns : List (String × Json)}

/-- The members of a document are the enumerable properties of its object. -/
theorem mem_keys_iff (hp : p.entries.map Prod.fst = ms.map fun m => Key.name m.1) {k : String} :
    k ∈ ms.map Prod.fst ↔ p.hasEnumerable (.name k) = true := by
  rw [← PlainObject.mem_keys_entries, hp]
  simp

theorem exists_entry (hp : p.entries.map Prod.fst = ms.map fun m => Key.name m.1) {k : String}
    {j : Json} (hj : (k, j) ∈ ms) : ∃ v, (.name k, v) ∈ p.entries := by
  have hk := (mem_keys_iff hp).1 (List.mem_map.2 ⟨_, hj, rfl⟩)
  obtain ⟨v, hv⟩ := PlainObject.exists_get? hk
  exact ⟨v, PlainObject.mem_entries.2 ⟨hk, hv⟩⟩

theorem hasEnumerable_eq (hp : p.entries.map Prod.fst = ms.map fun m => Key.name m.1)
    (hq : q.entries.map Prod.fst = ns.map fun m => Key.name m.1)
    (hk : ∀ k, k ∈ ms.map Prod.fst ↔ k ∈ ns.map Prod.fst) (k : Key) :
    p.hasEnumerable k = q.hasEnumerable k := by
  cases k with
  | name text => rw [Bool.eq_iff_iff, ← mem_keys_iff hp, ← mem_keys_iff hq, hk]
  | symbol s =>
    have hno : ∀ {p : PlainObject} {ms : List (String × Json)},
        p.entries.map Prod.fst = ms.map (fun m => Key.name m.1) →
          p.hasEnumerable (.symbol s) = false := by
      intro p ms hp
      rw [Bool.eq_false_iff, Ne, ← PlainObject.mem_keys_entries, hp]
      simp
    rw [hno hp, hno hq]

end

variable {h : Heap} {place place' : Ref → Option KeyPath} {v w : Value} {a b : Json}

/-! ## From equal trees to the same document -/

/-- No object has a place in both maps. -/
def Apart (place place' : Ref → Option KeyPath) : Prop :=
  ∀ r path path', place r = some path → place' r ≠ some path'

theorem same_of_primitives {path path' : KeyPath} (hv : h.Holds place path v a)
    (hw : h.Holds place' path' w b) (hno : v.isObject = false) (hno' : w.isObject = false)
    (he : v.strictEq w = true ∨ v.isNaN = true ∧ w.isNaN = true) : a.Same b := by
  cases hv with
  | null =>
    cases hw with
    | null => exact .null
    | _ => simp_all [Value.strictEq, Value.isNaN, Value.isObject]
  | bool _ x =>
    cases hw with
    | bool _ y =>
      obtain rfl : x = y := by simpa [Value.strictEq, Value.isNaN] using he
      exact .bool x
    | _ => simp_all [Value.strictEq, Value.isNaN, Value.isObject]
  | number _ m =>
    cases hw with
    | number _ n => exact .number he
    | _ => simp_all [Value.strictEq, Value.isNaN, Value.isObject]
  | string _ x =>
    cases hw with
    | string _ y =>
      obtain rfl : x = y := by simpa [Value.strictEq, Value.isNaN] using he
      exact .string x
    | _ => simp_all [Value.strictEq, Value.isNaN, Value.isObject]
  | array => simp [Value.isObject] at hno
  | object => simp [Value.isObject] at hno

/-- **Trees that match** hold the same document. -/
theorem same_of_agree {f : Ref → Option Ref} {path : KeyPath} (hapart : Apart place place')
    (hagree : ∀ l r, f l = some r → l ≠ r →
      ∃ o p, h.get? l = some o ∧ h.get? r = some p ∧ o.Agree (Matched f) p)
    (hv : h.Holds place path v a) : ∀ {path' : KeyPath} {w : Value} {b : Json},
      h.Holds place' path' w b → Matched f v w → a.Same b := by
  -- two trees that lie apart have no object in common
  have hne : ∀ {l r path path' b}, place l = some path → h.Holds place' path' (.object r) b →
      l ≠ r := by
    rintro l r path path' b hl hr rfl
    exact hapart l path path' hl hr.place_eq
  induction hv with
  | @array path l values items hl ho hlen _ ih =>
    intro path' w b hw hm
    cases hm with
    | primitives hno => simp [Value.isObject] at hno
    | same => exact absurd rfl (hne hl hw)
    | @paired _ r hf =>
      obtain ⟨o, p, ho', hp, hop⟩ := hagree l r hf (hne hl hw)
      rw [ho] at ho'
      cases ho'
      cases hop with
      | @arrays _ values' hall =>
        obtain ⟨hlen', hall⟩ := forall₂_iff_getElem?.1 hall
        cases hw with
        | @array _ _ _ items' _ hp' hlen'' hws =>
          rw [hp] at hp'
          cases hp'
          refine .array (by omega) fun i x y hx hy => ?_
          obtain ⟨u, hu⟩ := exists_getElem? hlen hx
          obtain ⟨u', hu'⟩ := exists_getElem? hlen'' hy
          exact ih i u x hu hx (hws i u' y hu' hy) (hall i u u' hu hu')
        | object _ hp' => rw [hp] at hp'; simp at hp'
  | @object path l p ms hl ho hproto hnd hkeys _ ih =>
    intro path' w b hw hm
    cases hm with
    | primitives hno => simp [Value.isObject] at hno
    | same => exact absurd rfl (hne hl hw)
    | @paired _ r hf =>
      obtain ⟨o, p', ho', hp, hop⟩ := hagree l r hf (hne hl hw)
      rw [ho] at ho'
      cases ho'
      cases hop with
      | @plains _ q _ _ hk hall =>
        cases hw with
        | array _ hp' => rw [hp] at hp'; simp at hp'
        | @object _ _ _ ns _ hp' _ _ hkeys' hws =>
          rw [hp] at hp'
          cases hp'
          refine .object (fun k => ?_) fun k x y hx hy => ?_
          · rw [mem_keys_iff hkeys, mem_keys_iff hkeys', hk]
          · obtain ⟨u, hu⟩ := exists_entry hkeys hx
            obtain ⟨u', hu'⟩ := exists_entry hkeys' hy
            obtain ⟨he, hget⟩ := PlainObject.mem_entries.1 hu
            obtain ⟨-, hget'⟩ := PlainObject.mem_entries.1 hu'
            exact ih k u x hu hx (hws k u' y hu' hy) (hall _ u u' he hget hget')
  | _ =>
    intro path' w b hw hm
    cases hm with
    | primitives hno hno' he =>
      exact same_of_primitives (show h.Holds place .root _ _ by constructor) hw hno hno' he

/-! ## From the same document to equal trees -/

/-- The part of a value that a step leads to. -/
def part? (h : Heap) : Value → Segment → Option Value
  | .object r, .index i =>
    match h.get? r with
    | some (.array values) => values[i]?
    | _ => none
  | .object r, .key k =>
    match h.get? r with
    | some (.plain p) => p.get? k
    | _ => none
  | _, _ => none

/-- The value that a path leads to. -/
def follow? (h : Heap) (v : Value) : KeyPath → Option Value
  | .root => some v
  | .step path segment => (h.follow? v path).bind fun u => h.part? u segment

/-- An object of the left tree, and what its path leads to on the right, hold
    the same document. -/
def AlongPath (h : Heap) (place place' : Ref → Option KeyPath) (w : Value) (l r : Ref) : Prop :=
  ∃ path a b, h.Holds place path (.object l) a ∧ h.Holds place' path (.object r) b ∧
    h.follow? w path = some (.object r) ∧ a.Same b

theorem alongPath_unique (l r r' : Ref) (hr : AlongPath h place place' w l r)
    (hr' : AlongPath h place place' w l r') : r = r' := by
  obtain ⟨path, _, _, hl, -, hf, -⟩ := hr
  obtain ⟨path', _, _, hl', -, hf', -⟩ := hr'
  have hp := hl.place_eq
  rw [hl'.place_eq] at hp
  cases hp
  rw [hf] at hf'
  cases hf'
  rfl

/-- The counterparts along the paths. -/
noncomputable def alongPaths (h : Heap) (place place' : Ref → Option KeyPath) (w : Value) :
    Ref → Option Ref :=
  counterpart (AlongPath h place place' w)

theorem alongPaths_eq_some {l r : Ref} :
    alongPaths h place place' w l = some r ↔ AlongPath h place place' w l r := by
  rw [alongPaths]
  exact counterpart_eq_some alongPath_unique

/-- The map along the paths matches the values at the same path. -/
theorem matched_of_same {root : Value} {path : KeyPath} (hv : h.Holds place path v a)
    (hw : h.Holds place' path w b) (hf : h.follow? root path = some w) (hs : a.Same b) :
    Matched (alongPaths h place place' root) v w := by
  have hpaired : ∀ {l r}, v = .object l → w = .object r →
      Matched (alongPaths h place place' root) v w := by
    rintro l r rfl rfl
    exact .paired (alongPaths_eq_some.2 ⟨path, a, b, hv, hw, hf, hs⟩)
  cases hs with
  | null => cases hv; cases hw; exact .primitives rfl rfl (Or.inl rfl)
  | bool x => cases hv; cases hw; exact .primitives rfl rfl (Or.inl (by simp [Value.strictEq]))
  | number he => cases hv; cases hw; exact .primitives rfl rfl he
  | string x => cases hv; cases hw; exact .primitives rfl rfl (Or.inl (by simp [Value.strictEq]))
  | array => cases hv; cases hw; exact hpaired rfl rfl
  | object => cases hv; cases hw; exact hpaired rfl rfl

/-- **The map along the paths** is a correspondence. -/
theorem correspondence_of_same (hv : h.Holds place .root v a) (hw : h.Holds place' .root w b)
    (hs : a.Same b) : h.Correspondence (alongPaths h place place' w) v w := by
  refine ⟨matched_of_same hv hw rfl hs, fun l r hl _ => ?_⟩
  obtain ⟨path, a, b, hl, hr, hf, hs⟩ := alongPaths_eq_some.1 hl
  cases hs with
  | null => cases hl
  | bool => cases hl
  | number => cases hl
  | string => cases hl
  | @array xs ys hxy hall =>
    cases hl with
    | @array _ _ values _ _ ho hlen hvs =>
      cases hr with
      | @array _ _ values' _ _ ho' hlen' hws =>
        refine ⟨_, _, ho, ho', .arrays (forall₂_iff_getElem?.2 ⟨by omega, fun i u u' hu hu' => ?_⟩)⟩
        obtain ⟨x, hx⟩ := exists_getElem? hlen.symm hu
        obtain ⟨y, hy⟩ := exists_getElem? hlen'.symm hu'
        refine matched_of_same (hvs i u x hu hx) (hws i u' y hu' hy) ?_ (hall i x y hx hy)
        rw [follow?, hf, Option.bind_some, part?, ho']
        exact hu'
  | @object ms ns hk hall =>
    cases hl with
    | @object _ _ p _ _ ho hproto hnd hkeys hvs =>
      cases hr with
      | @object _ _ q _ _ ho' hproto' hnd' hkeys' hws =>
        refine ⟨_, _, ho, ho', .plains (by rw [hproto]; rfl) (by rw [hproto']; rfl)
          (hasEnumerable_eq hkeys hkeys' hk) fun k u u' he hu hu' => ?_⟩
        have hu := PlainObject.mem_entries.2 ⟨he, hu⟩
        have he' : q.hasEnumerable k = true := by rw [← hasEnumerable_eq hkeys hkeys' hk, he]
        have hu'' := PlainObject.mem_entries.2 ⟨he', hu'⟩
        obtain ⟨⟨key, x⟩, hx, hkey⟩ := exists_member hkeys hu
        simp only at hkey
        subst hkey
        obtain ⟨⟨key', y⟩, hy, hkey⟩ := List.mem_map.1 ((hk key).1 (List.mem_map.2 ⟨_, hx, rfl⟩))
        simp only at hkey
        subst hkey
        refine matched_of_same (hvs _ u x hu hx) (hws _ u' y hu'' hy) ?_ (hall _ x y hx hy)
        rw [follow?, hf, Option.bind_some, part?, ho']
        exact hu'

/-- **Deep equality of two trees** that lie apart: they hold the same
    document. -/
theorem deepEqual_iff_same (hv : h.Holds place .root v a) (hw : h.Holds place' .root w b)
    (hapart : Apart place place') : h.deepEqual v w = true ↔ a.Same b := by
  rw [deepEqual, Option.isSome_iff_exists]
  constructor
  · rintro ⟨t, ht⟩
    have hc := correspondence_of_compare? ht
    exact same_of_agree hapart hc.agree hv hw hc.matched
  · intro hs
    obtain ⟨t, ht, -⟩ := compare?_of_correspondence (correspondence_of_same hv hw hs)
    exact ⟨t, ht⟩

/-! ## Without ignored members -/

section
variable {ε : Type} {x : Exclusion ε} {drops : KeyPath → String → Bool} {h₀ h₁ : Heap}

/-- What is added later lies apart from what was added before. -/
theorem Added.apart (ha : Added h₀ h₁ place) (ha' : Added h₁ h place') : Apart place place' := by
  intro r path path' hr hr'
  have hlt := (ha.new r path hr).2
  have hle := (ha'.new r path' hr').1
  omega

/-- Deep equality of two trees without the members that an exclusion drops. -/
theorem deepEqualExcept_iff_same (ht : x.Total) (hx : x.Decides drops)
    (hv : h.Holds place .root v a) (hw : h.Holds place' .root w b) (hapart : Apart place place')
    (hin : ∀ r path, place' r = some path → r.index < h.size) :
    ∃ verdict, (h.deepEqualExcept v w x).outcome = .ok verdict ∧
      (verdict = true ↔ (a.strip drops .root).Same (b.strip drops .root)) := by
  by_cases he : x.isEmpty = true
  · refine ⟨h.deepEqual v w, by rw [deepEqualExcept, if_pos he], ?_⟩
    rw [Json.strip_eq_self (hx.drops_eq_false he), Json.strip_eq_self (hx.drops_eq_false he)]
    exact deepEqual_iff_same hv hw hapart
  · obtain ⟨left, pl, hl, hvl, hal⟩ := prune_holds ht hx hv
    have hwl : left.heap.Holds place' .root w b :=
      hw.mono fun r path hr => ⟨hr, hal.old r (hin r path hr)⟩
    obtain ⟨right, pr, hr, hwr, har⟩ := prune_holds ht hx hwl
    have hvr : right.heap.Holds pl .root left.value (a.strip drops .root) :=
      hvl.mono fun r path hp => ⟨hp, har.old r (hal.new r path hp).2⟩
    refine ⟨right.heap.deepEqual left.value right.value, ?_,
      deepEqual_iff_same hvr hwr (hal.apart har)⟩
    rw [deepEqualExcept, if_neg he]
    simp only [hl, hr]
    rfl

/-- **Comparing documents with ignore rules**, for any way of matching globs:
    two documents are equal without what the rules name iff they are the same
    after stripping it. -/
theorem deepEqualExcept_json_iff (isMatch : Glob → String → Bool) (r : IgnoreRules) (h : Heap)
    (ha : a.Distinct) (hb : b.Distinct) :
    ∃ verdict, (((h.addJson a).1.addJson b).1.deepEqualExcept (h.addJson a).2
        ((h.addJson a).1.addJson b).2 (r.exclusionBy isMatch : Exclusion ε)).outcome =
        .ok verdict ∧
      (verdict = true ↔
        (a.strip (r.ignores isMatch) .root).Same (b.strip (r.ignores isMatch) .root)) := by
  obtain ⟨place, hv, hadd⟩ := addJson_holds ha h .root
  obtain ⟨place', hw, hadd'⟩ := addJson_holds hb (h.addJson a).1 .root
  have hv' : ((h.addJson a).1.addJson b).1.Holds place .root (h.addJson a).2 a :=
    hv.mono fun r path hr => ⟨hr, hadd'.old r (hadd.new r path hr).2⟩
  exact deepEqualExcept_iff_same (r.exclusionBy_total isMatch) (r.exclusionBy_decides isMatch)
    hv' hw (hadd.apart hadd') fun r path hr => (hadd'.new r path hr).2

/-- The members of a record with a number of its own. -/
def record (id : Int) : List (String × Json) := [("id", .number (.integer id)), ("ok", .bool true)]

/-- Ignores the numbers of records. -/
def idIgnored : IgnoreRules := ⟨["id"], []⟩

theorem distinct_record (id : Int) {members : List (String × Json)}
    (hp : (record id).Perm members) : (Json.object members).Distinct := by
  have hnd : ((record id).map Prod.fst).Nodup := by simp [record]
  refine .object ((hp.map Prod.fst).nodup_iff.1 hnd) fun m hm => ?_
  rcases List.mem_pair.1 (hp.mem_iff.2 hm) with rfl | rfl
  · exact .number _
  · exact .bool _

theorem deepEqualExcept_json_records :
    (Json.object (record 1)).Distinct ∧ (Json.object (record 2).reverse).Distinct ∧
    ∃ verdict, (((empty.addJson (.object (record 1))).1.addJson
        (.object (record 2).reverse)).1.deepEqualExcept (empty.addJson (.object (record 1))).2
        ((empty.addJson (.object (record 1))).1.addJson (.object (record 2).reverse)).2
        (idIgnored.exclusionBy Glob.isMatch : Exclusion Empty)).outcome = .ok verdict ∧
      verdict = true := by
  have ha := distinct_record 1 (.refl _)
  have hb := distinct_record 2 (List.reverse_perm _).symm
  obtain ⟨verdict, hout, hiff⟩ := deepEqualExcept_json_iff Glob.isMatch idIgnored empty ha hb
  refine ⟨ha, hb, verdict, hout, hiff.2 ?_⟩
  have hstrip : ∀ members ∈ [record 1, (record 2).reverse],
      Json.strip (idIgnored.ignores Glob.isMatch) .root (.object members) =
        .object [("ok", .bool true)] := by
    simp [record, idIgnored, IgnoreRules.ignores, Json.strip, Json.stripMembers]
  rw [hstrip _ (by simp), hstrip _ (by simp)]
  refine .object (fun k => Iff.rfl) fun k x y hx hy => ?_
  cases List.mem_singleton.1 hx
  cases List.mem_singleton.1 hy
  exact .bool true

end

end Heap

end ValueGraph
