/-
  Documents whose objects have distinct keys.

  A document that is read lists the members of each object in the order of
  their keys, each key once.

  * `Json.Distinct`: no object of a document has two members with one key;
  * `Json.State.Distinct`: what has been read of a document so far has distinct
    keys, and `Json.State.next?_distinct` says that it stays so;
  * `Json.distinct_of_read?`: the documents that are read.
-/
import ValueGraph.Json.Reading

namespace ValueGraph.Json

/-- No object of the document has two members with the same key. -/
inductive Distinct : Json → Prop
  | null : Distinct .null
  | bool (b : Bool) : Distinct (.bool b)
  | number (n : JsonNumber) : Distinct (.number n)
  | string (text : String) : Distinct (.string text)
  | array {items : List Json} : (∀ j ∈ items, Distinct j) → Distinct (.array items)
  | object {members : List (String × Json)} : (members.map Prod.fst).Nodup →
      (∀ m ∈ members, Distinct m.2) → Distinct (.object members)

/-! ## Members in the order of their keys -/

/-- The members are in the order of their keys, each key once. -/
def Sorted (members : List (String × Json)) : Prop := members.Pairwise fun m n => m.1 < n.1

theorem mem_insertMember {key : String} {j : Json} {m : String × Json} :
    ∀ {members : List (String × Json)}, m ∈ insertMember key j members →
      m = (key, j) ∨ m ∈ members
  | [], hm => Or.inl (List.mem_singleton.1 hm)
  | n :: members, hm => by
    rw [insertMember] at hm
    split at hm
    next => exact (List.mem_cons.1 hm)
    next =>
      split at hm
      next => exact (List.mem_cons.1 hm).imp_right (List.mem_cons_of_mem _)
      next =>
        rcases List.mem_cons.1 hm with rfl | hm
        · exact Or.inr (List.mem_cons_self ..)
        · exact (mem_insertMember hm).imp_right (List.mem_cons_of_mem _)

theorem Sorted.insertMember {key : String} {j : Json} : ∀ {members : List (String × Json)},
    Sorted members → Sorted (insertMember key j members)
  | [], _ => List.pairwise_singleton _ _
  | n :: members, hs => by
    obtain ⟨hn, hms⟩ := List.pairwise_cons.1 hs
    rw [Json.insertMember]
    split
    next hlt =>
      refine List.pairwise_cons.2 ⟨fun m hm => ?_, hs⟩
      rcases List.mem_cons.1 hm with rfl | hm
      · exact hlt
      · exact String.lt_trans hlt (hn m hm)
    next hnlt =>
      split
      next heq => exact List.pairwise_cons.2 ⟨fun m hm => heq ▸ hn m hm, hms⟩
      next hne =>
        -- neither before `n` nor in its place, so the new key comes later
        have hgt : n.1 < key := Decidable.of_not_not fun hngt =>
          hne (String.le_antisymm (String.not_lt.1 hngt) (String.not_lt.1 hnlt))
        refine List.pairwise_cons.2 ⟨fun m hm => ?_, Sorted.insertMember hms⟩
        rcases mem_insertMember hm with rfl | hm
        · exact hgt
        · exact hn m hm

theorem insertMembers_sorted : ∀ (ms : List (String × Json)) {acc : List (String × Json)},
    Sorted acc → Sorted (ms.foldl (fun acc m => insertMember m.1 m.2 acc) acc)
  | [], _, hs => hs
  | _ :: ms, _, hs => insertMembers_sorted ms hs.insertMember

/-- Adding members one after the other gives no members but those. -/
theorem mem_of_foldl {add : String → Json → List (String × Json) → List (String × Json)}
    (hadd : ∀ {key j m acc}, m ∈ add key j acc → m = (key, j) ∨ m ∈ acc) {m : String × Json}
    {ms acc : List (String × Json)}
    (hm : m ∈ ms.foldl (fun acc m => add m.1 m.2 acc) acc) : m ∈ ms ∨ m ∈ acc := by
  induction ms generalizing acc with
  | nil => exact Or.inr hm
  | cons n ms ih =>
    rcases ih hm with hm | hm
    · exact Or.inl (List.mem_cons_of_mem _ hm)
    · rcases hadd hm with rfl | hm
      · exact Or.inl (List.mem_cons_self ..)
      · exact Or.inr hm

/-- Members that are listed by key are distinct. -/
theorem distinct_ofMembers {members : List (String × Json)} (hm : ∀ m ∈ members, m.2.Distinct) :
    (ofMembers members).Distinct := by
  have hs : Sorted (members.foldl (fun acc m => insertMember m.1 m.2 acc) []) :=
    insertMembers_sorted members .nil
  refine .object (List.pairwise_map.2 (hs.imp fun hlt heq => ?_)) fun m hmem => ?_
  · rw [heq] at hlt
    exact String.lt_irrefl _ hlt
  · exact hm m ((mem_of_foldl mem_insertMember hmem).resolve_right List.not_mem_nil)

/-! ## Documents that are read -/

/-- What an open container holds so far has distinct keys. -/
def Open.Distinct : Open → Prop
  | .array items => ∀ j ∈ items, j.Distinct
  | .object members _ => ∀ m ∈ members, m.2.Distinct

namespace State

/-- What has been read so far has distinct keys. -/
structure Distinct (s : State) : Prop where
  containers : ∀ c ∈ s.containers, c.Distinct
  done : ∀ j, s.focus = .done j → j.Distinct

variable {s t : State} {containers : List Open}

theorem complete_distinct {j : Json} (hj : j.Distinct) :
    ∀ {containers : List Open}, (∀ c ∈ containers, c.Distinct) → (complete j containers).Distinct
  | [], _ => ⟨by simp [complete], fun j' hj' => by cases hj'; exact hj⟩
  | .array items :: outer, hc => by
    obtain ⟨hitems, houter⟩ := List.forall_mem_cons.1 hc
    refine ⟨List.forall_mem_cons.2 ⟨?_, houter⟩, fun j' hj' => by cases hj'⟩
    exact List.forall_mem_cons.2 ⟨hj, hitems⟩
  | .object members key :: outer, hc => by
    obtain ⟨hmembers, houter⟩ := List.forall_mem_cons.1 hc
    refine ⟨List.forall_mem_cons.2 ⟨?_, houter⟩, fun j' hj' => by cases hj'⟩
    exact List.forall_mem_cons.2 ⟨hj, hmembers⟩

theorem enter?_distinct {c : Open} {focus : Focus} (hc : c.Distinct)
    (hf : ∀ j, focus ≠ .done j) (ho : ∀ c ∈ containers, c.Distinct)
    (ht : enter? c focus containers = some t) : t.Distinct := by
  rw [enter?] at ht
  split at ht
  next => cases ht; exact ⟨List.forall_mem_cons.2 ⟨hc, ho⟩, fun j hj => absurd hj (hf j)⟩
  next => simp at ht

theorem closeArray?_distinct (hc : ∀ c ∈ containers, c.Distinct)
    (ht : closeArray? containers = some t) : t.Distinct := by
  unfold closeArray? at ht
  split at ht
  next items outer =>
    cases ht
    obtain ⟨hitems, houter⟩ := List.forall_mem_cons.1 hc
    exact complete_distinct (.array fun j hj => hitems j (List.mem_reverse.1 hj)) houter
  next => simp at ht

theorem closeObject?_distinct (hc : ∀ c ∈ containers, c.Distinct)
    (ht : closeObject? containers = some t) : t.Distinct := by
  unfold closeObject? at ht
  split at ht
  next members key outer =>
    cases ht
    obtain ⟨hmembers, houter⟩ := List.forall_mem_cons.1 hc
    exact complete_distinct
      (distinct_ofMembers fun m hm => hmembers m (List.mem_reverse.1 hm)) houter
  next => simp at ht

theorem value?_distinct {token : Token} (hc : ∀ c ∈ containers, c.Distinct)
    (ht : value? containers token = some t) : t.Distinct := by
  cases token with
  | openArray => exact enter?_distinct (by simp [Open.Distinct]) (by simp) hc ht
  | openObject => exact enter?_distinct (by simp [Open.Distinct]) (by simp) hc ht
  | null => cases ht; exact complete_distinct .null hc
  | bool b => cases ht; exact complete_distinct (.bool b) hc
  | number n => cases ht; exact complete_distinct (.number n) hc
  | string text => cases ht; exact complete_distinct (.string text) hc
  | _ => simp [value?] at ht

/-- **One more token** leaves distinct keys. -/
theorem next?_distinct {token : Token} (hs : s.Distinct) (ht : s.next? token = some t) :
    t.Distinct := by
  obtain ⟨containers, focus⟩ := s
  have hc := hs.containers
  unfold next? at ht
  split at ht
  next => exact closeArray?_distinct hc ht
  next => exact value?_distinct hc ht
  next => exact closeObject?_distinct hc ht
  next hf =>
    cases hf
    cases ht
    obtain ⟨hmembers, houter⟩ := List.forall_mem_cons.1 hc
    exact ⟨List.forall_mem_cons.2 ⟨hmembers, houter⟩, fun j hj => by cases hj⟩
  next => cases ht; exact ⟨hc, fun j hj => by cases hj⟩
  next hf => cases hf; cases ht; exact ⟨hc, fun j hj => by cases hj⟩
  next hf => cases hf; cases ht; exact ⟨hc, fun j hj => by cases hj⟩
  next => exact closeArray?_distinct hc ht
  next => exact closeObject?_distinct hc ht
  next => simp at ht

theorem foldlM_distinct : ∀ {tokens : List Token} {s t : State}, s.Distinct →
    tokens.foldlM next? s = some t → t.Distinct
  | [], _, _, hs, ht => by cases ht; exact hs
  | token :: tokens, s, t, hs, ht => by
    rw [List.foldlM_cons] at ht
    obtain ⟨s', hs', ht⟩ := Option.bind_eq_some_iff.1 ht
    exact foldlM_distinct (next?_distinct hs hs') ht

end State

/-- **Every document that is read** has distinct keys. -/
theorem distinct_of_read? {text : String} {j : Json} (h : read? text = some j) : j.Distinct := by
  obtain ⟨tokens, -, h⟩ := Option.bind_eq_some_iff.1 h
  obtain ⟨s, hs, h⟩ := Option.bind_eq_some_iff.1 h
  have hstart : State.start.Distinct := ⟨by simp [State.start], fun j hj => by cases hj⟩
  split at h
  next document hf =>
    cases h
    exact (State.foldlM_distinct hstart hs).done _ hf
  next => simp at h

end ValueGraph.Json
