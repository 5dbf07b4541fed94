/-
  Normal documents tell the same documents from different ones.

  Rendering forgets the order of members and how numbers are spelt, and nothing
  else as long as the numbers are finite: a number that is not would come back
  as `null`.

  * `Json.Finite`: the numbers of a document are finite;
  * `Json.ofMembers_eq_iff`: objects that list their members by key;
  * `Json.normal_eq_iff`: documents have the same normal document iff they are
    the same.
-/
import Mathlib.Data.List.Nodup
import ValueGraph.Proofs.DocumentEquality
import ValueGraph.Proofs.DocumentRendering
import ValueGraph.Proofs.FiniteNumbers

namespace ValueGraph.Json

/-! ## Finite documents -/

/-- Every number of the document is finite. -/
inductive Finite : Json → Prop
  | null : Finite .null
  | bool (b : Bool) : Finite (.bool b)
  | number {n : JsonNumber} : n.value.isFinite = true → Finite (.number n)
  | string (text : String) : Finite (.string text)
  | array {items : List Json} : (∀ j ∈ items, Finite j) → Finite (.array items)
  | object {members : List (String × Json)} : (∀ m ∈ members, Finite m.2) →
      Finite (.object members)

theorem Finite.strip {drops : KeyPath → String → Bool} {j : Json} (hf : j.Finite) :
    ∀ path, (j.strip drops path).Finite := by
  induction hf with
  | null => intro path; rw [Json.strip]; exact .null
  | bool b => intro path; rw [Json.strip]; exact .bool b
  | number hn => intro path; rw [Json.strip]; exact .number hn
  | string text => intro path; rw [Json.strip]; exact .string text
  | @array items _ ih =>
    intro path
    rw [Json.strip]
    refine .array fun j hj => ?_
    obtain ⟨i, hi⟩ := List.mem_iff_getElem?.1 hj
    rw [getElem?_stripItems] at hi
    obtain ⟨j', hj', rfl⟩ := Option.map_eq_some_iff.1 hi
    exact ih j' (List.mem_of_getElem? hj') _
  | @object members _ ih =>
    intro path
    rw [Json.strip, stripMembers_eq]
    refine .object fun m hm => ?_
    obtain ⟨m', hm', rfl⟩ := List.mem_map.1 hm
    exact ih m' (List.mem_of_mem_filter hm') _

/-! ## Members by key -/

section
variable {ms ns : List (String × Json)}

theorem insertMember_perm {key : String} {j : Json} : ∀ {members : List (String × Json)},
    key ∉ members.map Prod.fst → (insertMember key j members).Perm ((key, j) :: members)
  | [], _ => .refl _
  | m :: members, hk => by
    obtain ⟨hm, hk⟩ := not_or.1 (mt List.mem_cons.2 hk)
    rw [insertMember]
    by_cases hlt : key < m.1
    · rw [if_pos hlt]
    · rw [if_neg hlt, if_neg hm]
      exact ((insertMember_perm hk).cons m).trans (.swap ..)

theorem insertMembers_perm : ∀ (ms : List (String × Json)) {acc : List (String × Json)},
    ((ms ++ acc).map Prod.fst).Nodup →
      (ms.foldl (fun acc m => insertMember m.1 m.2 acc) acc).Perm (ms ++ acc)
  | [], _, _ => .refl _
  | m :: ms, acc, hnd => by
    obtain ⟨hm, hnd'⟩ := List.nodup_cons.1 hnd
    have hacc : m.1 ∉ acc.map Prod.fst := fun h => hm (by simp [List.map_append, h])
    have hperm : (insertMember m.1 m.2 acc).Perm (m :: acc) := insertMember_perm hacc
    have hmove : (ms ++ insertMember m.1 m.2 acc).Perm (m :: (ms ++ acc)) :=
      (hperm.append_left ms).trans List.perm_middle
    exact (insertMembers_perm ms ((hmove.map Prod.fst).nodup_iff.2 hnd)).trans hmove

/-- **Objects that list their members by key** are the same iff they have the
    same members. -/
theorem ofMembers_eq_iff (hms : (ms.map Prod.fst).Nodup) (hns : (ns.map Prod.fst).Nodup) :
    ofMembers ms = ofMembers ns ↔ ∀ m, m ∈ ms ↔ m ∈ ns := by
  have hperm : ∀ {ms : List (String × Json)}, (ms.map Prod.fst).Nodup →
      (ms.foldl (fun acc m => insertMember m.1 m.2 acc) []).Perm ms := fun {ms} h => by
    simpa using @insertMembers_perm ms [] (by simpa using h)
  rw [ofMembers, ofMembers, object.injEq]
  constructor
  · intro h m
    rw [← (hperm hms).mem_iff, h, (hperm hns).mem_iff]
  · intro h
    have hsame : ms.Perm ns :=
      (List.perm_ext_iff_of_nodup (List.Nodup.of_map _ hms) (List.Nodup.of_map _ hns)).2 h
    refine ((hperm hms).trans (hsame.trans (hperm hns).symm)).eq_of_pairwise ?_
      (insertMembers_sorted ms .nil) (insertMembers_sorted ns .nil)
    exact fun m n _ _ hmn hnm => absurd (String.lt_trans hmn hnm) (String.lt_irrefl _)

end

/-! ## Normal documents -/

theorem normalItems_eq : ∀ items : List Json, normalItems items = items.map normal
  | [] => by rw [normalItems, List.map_nil]
  | j :: items => by rw [normalItems, normalItems_eq items, List.map_cons]

theorem normalMembers_eq (members : List (String × Json)) :
    normalMembers members = members.map fun m => (m.1, m.2.normal) := by
  induction members with
  | nil => rw [normalMembers, List.map_nil]
  | cons m members ih => rw [normalMembers, ih, List.map_cons]

theorem normalItems_eq_iff {xs ys : List Json} : normalItems xs = normalItems ys ↔
    xs.length = ys.length ∧
      ∀ (i : Nat) x y, xs[i]? = some x → ys[i]? = some y → x.normal = y.normal := by
  rw [normalItems_eq, normalItems_eq, ← forall₂_iff_getElem?, ← List.forall₂_eq_eq_eq,
    List.forall₂_map_left_iff, List.forall₂_map_right_iff]

theorem mem_normalMembers {m : String × Json} {members : List (String × Json)} :
    m ∈ normalMembers members ↔ ∃ j, (m.1, j) ∈ members ∧ m.2 = j.normal := by
  rw [normalMembers_eq]
  constructor
  · intro hm
    obtain ⟨⟨key, j⟩, hj, rfl⟩ := List.mem_map.1 hm
    exact ⟨j, hj, rfl⟩
  · rintro ⟨j, hj, hm⟩
    exact List.mem_map.2 ⟨_, hj, by rw [← hm]⟩

theorem keys_normalMembers (members : List (String × Json)) :
    (normalMembers members).map Prod.fst = members.map Prod.fst := by
  rw [normalMembers_eq, List.map_map]
  rfl

/-- Objects have the same normal document iff their keys are the same, and so
    are the normal documents under them. -/
theorem normalMembers_eq_iff {ms ns : List (String × Json)} (hms : (ms.map Prod.fst).Nodup)
    (hns : (ns.map Prod.fst).Nodup) :
    ofMembers (normalMembers ms) = ofMembers (normalMembers ns) ↔
      (∀ k, k ∈ ms.map Prod.fst ↔ k ∈ ns.map Prod.fst) ∧
        ∀ k x y, (k, x) ∈ ms → (k, y) ∈ ns → x.normal = y.normal := by
  rw [ofMembers_eq_iff (by rwa [keys_normalMembers]) (by rwa [keys_normalMembers])]
  constructor
  · intro h
    refine ⟨fun k => ?_, fun k x y hx hy => ?_⟩
    · rw [← keys_normalMembers ms, ← keys_normalMembers ns, List.mem_map, List.mem_map]
      exact exists_congr fun m => and_congr_left' (h m)
    · obtain ⟨y', hy', he⟩ := mem_normalMembers.1
        ((h (k, x.normal)).1 (mem_normalMembers.2 ⟨x, hx, rfl⟩))
      cases List.inj_on_of_nodup_map hns hy hy' rfl
      exact he
  · rintro ⟨hk, hv⟩ m
    rw [mem_normalMembers, mem_normalMembers]
    constructor
    · rintro ⟨x, hx, hm⟩
      obtain ⟨⟨k, y⟩, hy, hky⟩ := List.mem_map.1 ((hk m.1).1 (List.mem_map.2 ⟨_, hx, rfl⟩))
      cases hky
      exact ⟨y, hy, hm.trans (hv _ x y hx hy)⟩
    · rintro ⟨y, hy, hm⟩
      obtain ⟨⟨k, x⟩, hx, hkx⟩ := List.mem_map.1 ((hk m.1).2 (List.mem_map.2 ⟨_, hy, rfl⟩))
      cases hkx
      exact ⟨x, hx, hm.trans (hv _ x y hx hy).symm⟩

/-- The kinds of documents. -/
inductive Kind where
  | null | bool | number | string | array | object

/-- The kind of a document. -/
def kind : Json → Kind
  | null => .null
  | bool _ => .bool
  | number _ => .number
  | string _ => .string
  | array _ => .array
  | object _ => .object

/-- A finite document and its normal document are of one kind. -/
theorem kind_normal {a : Json} (ha : a.Finite) : a.normal.kind = a.kind := by
  cases ha with
  | number hn =>
    obtain ⟨m, hm⟩ := Binary64.render_of_isFinite hn
    rw [normal, hm]
    rfl
  | _ => rfl

theorem Same.normal_eq {a b : Json} (hs : a.Same b) :
    a.Finite → b.Finite → a.Distinct → b.Distinct → a.normal = b.normal := by
  induction hs with
  | null | bool | string => intros; rfl
  | @number m n he =>
    rintro (⟨⟩ | ⟨⟩ | hm) (⟨⟩ | ⟨⟩ | hn) - -
    refine (Binary64.render_eq_iff hm hn).2 (he.resolve_right fun hnan => ?_)
    rw [Binary64.isNaN_of_isFinite hm] at hnan
    simp at hnan
  | @array xs ys hlen _ ih =>
    intro ha hb hda hdb
    cases ha with | array hxs => cases hb with | array hys =>
    cases hda with | array hdx => cases hdb with | array hdy =>
    rw [normal, normal, array.injEq, normalItems_eq_iff]
    refine ⟨hlen, fun i x y hx hy => ?_⟩
    have hx' := List.mem_of_getElem? hx
    have hy' := List.mem_of_getElem? hy
    exact ih i x y hx hy (hxs x hx') (hys y hy') (hdx x hx') (hdy y hy')
  | @object ms ns hk _ ih =>
    intro ha hb hda hdb
    cases ha with | object hms => cases hb with | object hns =>
    cases hda with | object hnd hdx => cases hdb with | object hnd' hdy =>
    rw [normal, normal, normalMembers_eq_iff hnd hnd']
    exact ⟨hk, fun k x y hx hy => ih k x y hx hy (hms _ hx) (hns _ hy) (hdx _ hx) (hdy _ hy)⟩

theorem kind_eq_of_normal_eq {a b : Json} (ha : a.Finite) (hb : b.Finite)
    (h : a.normal = b.normal) : a.kind = b.kind := by
  rw [← kind_normal ha, ← kind_normal hb, h]

theorem same_of_normal_eq {a : Json} (ha : a.Finite) : ∀ {b : Json}, b.Finite → a.Distinct →
    b.Distinct → a.normal = b.normal → a.Same b := by
  induction ha with
  | null =>
    intro b hb _ _ h
    have hk := kind_eq_of_normal_eq .null hb h
    cases hb with
    | null => exact .null
    | _ => cases hk
  | bool x =>
    intro b hb _ _ h
    have hk := kind_eq_of_normal_eq (.bool x) hb h
    cases hb with
    | bool y =>
      obtain rfl : x = y := by simpa [normal] using h
      exact .bool x
    | _ => cases hk
  | @number n hn =>
    intro b hb _ _ h
    have hk := kind_eq_of_normal_eq (.number hn) hb h
    cases hb with
    | number hm => exact .number (Or.inl ((Binary64.render_eq_iff hn hm).1 h))
    | _ => cases hk
  | string x =>
    intro b hb _ _ h
    have hk := kind_eq_of_normal_eq (.string x) hb h
    cases hb with
    | string y =>
      obtain rfl : x = y := by simpa [normal] using h
      exact .string x
    | _ => cases hk
  | @array xs hxs ih =>
    intro b hb hda hdb h
    have hk := kind_eq_of_normal_eq (.array hxs) hb h
    cases hb with
    | @array ys hys =>
      cases hda with | array hdx => cases hdb with | array hdy =>
      obtain ⟨hlen, hall⟩ := normalItems_eq_iff.1 (by simpa [normal] using h)
      refine .array hlen fun i x y hx hy => ?_
      have hx' := List.mem_of_getElem? hx
      have hy' := List.mem_of_getElem? hy
      exact ih x hx' (hys y hy') (hdx x hx') (hdy y hy') (hall i x y hx hy)
    | _ => cases hk
  | @object ms hms ih =>
    intro b hb hda hdb h
    have hk := kind_eq_of_normal_eq (.object hms) hb h
    cases hb with
    | @object ns hns =>
      cases hda with | object hnd hdx => cases hdb with | object hnd' hdy =>
      obtain ⟨hkeys, hall⟩ := (normalMembers_eq_iff hnd hnd').1 (by simpa [normal] using h)
      exact .object hkeys fun k x y hx hy =>
        ih _ hx (hns _ hy) (hdx _ hx) (hdy _ hy) (hall k x y hx hy)
    | _ => cases hk

/-- **Normal documents** are the same iff the documents are. -/
theorem normal_eq_iff {a b : Json} (ha : a.Finite) (hb : b.Finite) (hda : a.Distinct)
    (hdb : b.Distinct) : a.normal = b.normal ↔ a.Same b :=
  ⟨same_of_normal_eq ha hb hda hdb, fun hs => hs.normal_eq ha hb hda hdb⟩

end ValueGraph.Json
