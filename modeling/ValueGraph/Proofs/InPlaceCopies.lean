/-
  What is in the containers copied in place.

  The copy of the `i`-th object met lies `i` places after the end of the heap,
  where `Heap.prune` puts it.  When all its parts have been visited it is the
  object that `Heap.prune` builds.

  * `Object.fill_blank`: parts written one after the other rebuild an object;
  * `Fills.contents`: what is in the copies when the parts have been visited;
  * `Makes.prune`: what the calls leave is what `Heap.prune` gives.
-/
import ValueGraph.Proofs.CopyTraversal
import ValueGraph.Proofs.InPlaceCalls

namespace ValueGraph

open Pruning

/-! ## Parts written one after the other -/

/-- A container with parts put in their places. -/
def Object.fill (o : Object) (parts : List (Segment × Value)) : Object :=
  parts.foldl (fun o part => o.write part.1 part.2) o

theorem Object.fill_plain : ∀ (es : List (Key × Value)) (p : PlainObject),
    (plain p).fill (es.map fun e => (.key e.1, e.2)) =
      plain (es.foldl (fun p e => (p.insert e.1 e.2).2) p)
  | [], _ => rfl
  | e :: es, p => fill_plain es (p.insert e.1 e.2).2

/-- Elements written from the `k`-th place on, in order. -/
theorem Object.fill_array (g : Value → Value) : ∀ (items front back : List Value),
    back.length = items.length →
      (array (front ++ back)).fill
        ((items.zipIdx front.length).map fun part => (.index part.2, g part.1)) =
      array (front ++ items.map g)
  | [], front, back, hlen => by
    rw [List.length_eq_zero_iff.1 hlen]
    rfl
  | v :: items, front, u :: back, hlen => by
    have hset : (front ++ u :: back).set front.length (g v) = (front ++ [g v]) ++ back := by
      rw [List.set_append_right _ _ (Nat.le_refl _), Nat.sub_self, List.set_cons_zero,
        List.append_assoc]
      rfl
    have ih := fill_array g items (front ++ [g v]) back (Nat.succ.inj hlen)
    rw [← hset, List.length_append, List.append_assoc] at ih
    exact ih

/-- **A container filled** with what stands for the kept parts is the rebuilt
    object. -/
theorem Object.fill_blank {ε : Type} {x : Exclusion ε} {o : Object} {path : KeyPath}
    {parts : List (Segment × Value)} (ho : o.parts? = some parts) (f : Ref → Option Ref) :
    o.blank.fill (imageParts f (keptParts x path parts)) = rebuild x (image f) path o := by
  cases o with
  | array items =>
    cases ho
    have hkept : keptParts x path (items.zipIdx.map fun part => (.index part.2, part.1)) =
        items.zipIdx.map fun part => (.index part.2, part.1) :=
      List.filter_eq_self.2 fun part hp => by
        obtain ⟨_, -, rfl⟩ := List.mem_map.1 hp
        rfl
    rw [hkept, imageParts, List.map_map]
    exact fill_array (image f) items [] _ (List.length_replicate ..)
  | plain p =>
    rw [parts?] at ho
    split at ho
    next =>
      cases ho
      have hkept : imageParts f (keptParts x path (p.entries.map fun e => (.key e.1, e.2))) =
          ((p.entries.filter fun e => x.keeps e.1 path).map fun e => (e.1, image f e.2)).map
            fun e => (.key e.1, e.2) := by
        rw [keptParts, List.filter_map, imageParts, List.map_map, List.map_map]
        rfl
      rw [hkept]
      exact fill_plain _ _
    next => cases ho
  | _ => cases ho

namespace Pruning

variable {ε : Type} {x : Exclusion ε} {path : KeyPath} {c : Ref} {segment : Segment} {v u : Value}

/-! ## What is in the copies -/

/-- Only the container that is filled and new ones change. -/
theorem Fills.frame {n : Nat} {parts : List (Segment × Value)} {w w' : Workspace n}
    {out : Option ε} (hf : Fills x path c parts w out w') : w.heap.size ≤ w'.heap.size ∧
      ∀ s, s.index < w.heap.size → s ≠ c → w'.heap.get? s = w.heap.get? s := by
  induction hf with
  | nil => exact ⟨Nat.le_refl _, fun _ _ _ => rfl⟩
  | reject => simp
  | skip _ _ ih => simpa using ih
  | @stand _ c segment v u rest w out w' _ _ _ ih =>
    have hsize := Heap.size_modify w.heap c fun o => o.write segment u
    simp only [Workspace.write, Workspace.heap_ask, hsize] at ih
    exact ⟨ih.1, fun s hs hsc => (ih.2 s hs hsc).trans (Heap.get?_modify_of_ne hsc)⟩
  | @enter path c segment r o parts rest w w₀ w₁ w' out _ hw₀ _ _ _ _ ih₁ ih₂ =>
    subst hw₀
    have hsize := Heap.size_modify w₁.heap c fun o =>
      o.write segment (.object (w.ask x path segment).heap.next)
    simp only [Workspace.write, hsize] at ih₂
    simp only [Workspace.enter, Heap.size_alloc, Workspace.heap_ask] at ih₁
    refine ⟨by omega, fun s hs hsc => ?_⟩
    rw [ih₂.2 s (by omega) hsc, Heap.get?_modify_of_ne hsc,
      ih₁.2 s (by omega) (Heap.ne_next hs), Heap.get?_alloc_of_lt hs]
  | @abandon path c segment r o parts rest w w₀ w₁ reason _ hw₀ _ _ _ ih =>
    subst hw₀
    simp only [Workspace.enter, Heap.size_alloc, Workspace.heap_ask] at ih
    refine ⟨by omega, fun s hs _ => ?_⟩
    rw [ih.2 s (by omega) (Heap.ne_next hs), Heap.get?_alloc_of_lt hs]

/-- Objects copied stay on the list. -/
theorem Fills.suffix {n : Nat} {parts : List (Segment × Value)} {w w' : Workspace n}
    {out : Option ε} (hf : Fills x path c parts w out w') : w.copied <:+ w'.copied := by
  induction hf with
  | nil => exact List.suffix_refl _
  | reject => rw [Workspace.copied_ask]
  | skip _ _ ih => rwa [Workspace.copied_ask] at ih
  | stand _ _ _ ih => rwa [Workspace.copied_write, Workspace.copied_ask] at ih
  | enter _ hw₀ _ _ _ _ ih₁ ih₂ =>
    subst hw₀
    simpa [Workspace.enter] using (List.suffix_cons _ _).trans (ih₁.trans ih₂)
  | abandon _ hw₀ _ _ _ ih =>
    subst hw₀
    simpa [Workspace.enter] using (List.suffix_cons _ _).trans ih

theorem getElem?_reverse_of_suffix {α : Type} {l l' : List α} (hl : l <:+ l') {i : Nat}
    (hi : i < l.length) : l'.reverse[i]? = l.reverse[i]? := by
  obtain ⟨front, rfl⟩ := hl
  rw [List.reverse_append, List.getElem?_append_left (by simpa using hi)]

section
variable {h : Heap} {place : IdentityMap h.size Nat} {w w₁ w' : Workspace h.size} {r : Ref}
  {o : Object} {parts : List (Segment × Value)} {out : Option ε} {f : Ref → Option Ref} {k : Nat}

/-- The copies from the `k`-th one on are the rebuilt objects. -/
def Complete (h : Heap) (x : Exclusion ε) (f : Ref → Option Ref) (k : Nat)
    (w : Workspace h.size) : Prop :=
  ∀ i r path o, k ≤ i → w.copied.reverse[i]? = some (r, path) → h.get? r = some o →
    w.heap.get? ⟨h.size + i⟩ = some (rebuild x (image f) path o)

theorem complete_length (w : Workspace h.size) : Complete h x f w.copied.length w := by
  intro i r path o hi hr
  rw [List.getElem?_eq_none (by simpa using hi)] at hr
  cases hr

/-- Copies that are complete stay so, and later ones become complete. -/
theorem Complete.append (hk : Complete h x f k w₁) (hw' : Complete h x f w₁.copied.length w')
    (hsuffix : w₁.copied <:+ w'.copied)
    (hsame : ∀ i, k ≤ i → i < w₁.copied.length →
      w'.heap.get? ⟨h.size + i⟩ = w₁.heap.get? ⟨h.size + i⟩) :
    Complete h x f k w' := by
  intro i r path o hi hr ho
  rcases Nat.lt_or_ge i w₁.copied.length with hlt | hge
  · rw [getElem?_reverse_of_suffix hsuffix hlt] at hr
    rw [hsame i hi hlt]
    exact hk i r path o hi hr ho
  · exact hw' i r path o hge hr ho

/-- A container that has been filled is complete, if the copies after it are. -/
theorem Complete.of_filled (ha : Accounts h place w) (hs : w.source? r = some (o, parts))
    (hsuffix : (w.enter r o path).copied <:+ w₁.copied)
    (hfilled : w₁.heap.get? w.heap.next = ((w.enter r o path).heap.get? w.heap.next).map
      (Object.fill · (imageParts f (keptParts x path parts))))
    (hlater : Complete h x f (w.enter r o path).copied.length w₁) :
    Complete h x f w.copied.length w₁ := by
  obtain ⟨ho, hop⟩ := ha.source?.1 hs
  intro i r' path' o' hi hr' ho'
  rcases Nat.eq_or_lt_of_le hi with rfl | hi
  · have hlast : w₁.copied.reverse[w.copied.length]? = some (r, path) := by
      rw [getElem?_reverse_of_suffix hsuffix (Nat.lt_succ_self _), Workspace.enter,
        List.reverse_cons, List.getElem?_append_right (by simp)]
      simp
    rw [hlast] at hr'
    cases hr'
    rw [ho] at ho'
    cases ho'
    rw [← ha.next_eq, hfilled, Workspace.enter, Heap.get?_alloc_next, Option.map_some,
      Object.fill_blank hop]
  · exact hlater i r' path' o' hi hr' ho'

/-- **What is in the copies** when the parts have been visited: the container
    has what stands for the kept parts, by any table that extends the one left,
    and the copies made on the way are complete. -/
theorem Fills.contents (hf : Fills x path c parts w out w') (hunits : ∀ r, h.parts? r = none →
    f r = none) : ∀ {place}, Accounts h place w → h.size ≤ c.index → c.index < w.heap.size →
      out = none → (∀ r s, w'.copies.get? r = some s → f r = some s) →
      w'.heap.get? c =
        (w.heap.get? c).map (Object.fill · (imageParts f (keptParts x path parts))) ∧
      Complete h x f w.copied.length w' := by
  induction hf with
  | @nil path c w =>
    refine fun _ _ _ _ _ => ⟨?_, complete_length w⟩
    exact Option.map_id'.symm
  | reject => intro place _ _ _ hout; cases hout
  | abandon => intro place _ _ _ hout; cases hout
  | @skip path c segment v rest w out w' he _ ih =>
    intro place ha hc hlt hout hcopies
    have hskip := ih (ha.ask x path segment) hc (by simpa using hlt) hout hcopies
    rw [keptParts_cons_of_not_keeps (keepsPart_of_excludes he)]
    simpa using hskip
  | @stand path c segment v u rest w out w' he hu hrest ih =>
    intro place ha hc hlt hout hcopies
    have ha₀ := ha.ask x path segment
    obtain ⟨hcontents, hcomplete⟩ := ih (ha₀.write hc segment u) hc
      (by simpa [Workspace.write, Heap.size_modify] using hlt) hout hcopies
    have huv : u = image f v :=
      ha₀.image_of_stands hu (fun r s hr => hcopies r s (hrest.grows r s hr)) hunits
    refine ⟨?_, by simpa using hcomplete⟩
    rw [hcontents, keptParts_cons_of_keeps (keepsPart_iff.2 he), Workspace.write,
      Workspace.heap_ask, Heap.get?_modify_self, Option.map_map, huv]
    rfl
  | @enter path c segment r o parts rest w w₀ w₁ w' out he hw₀ hr hs hin hrest ih₁ ih₂ =>
    intro place ha hc hlt hout hcopies
    have ha₀ : Accounts h place w₀ := hw₀ ▸ ha.ask x path segment
    have hheap : w₀.heap = w.heap := by rw [hw₀, Workspace.heap_ask]
    have hcopied : w₀.copied = w.copied := by rw [hw₀, Workspace.copied_ask]
    have hnew : w₀.heap.next.index < (w₀.enter r o (path.step segment)).heap.size := by
      show w₀.heap.size < (w₀.heap.alloc o.blank).size
      rw [Heap.size_alloc]
      exact Nat.lt_succ_self _
    have ha₂ := ha₀.enter hr hs (path.step segment)
    obtain ⟨place₁, ha₁, -⟩ := hin.run ha₂ ha₀.next_le
    have hcopies₁ : ∀ r s, w₁.copies.get? r = some s → f r = some s :=
      fun r s hr => hcopies r s (hrest.grows r s hr)
    obtain ⟨hinner, hcomplete₁⟩ := ih₁ ha₂ ha₀.next_le hnew rfl hcopies₁
    have hsize₁ : c.index < w₁.heap.size ∧ w.heap.size < w₁.heap.size := by
      have hgrown := hin.frame.1
      rw [Workspace.enter, Heap.size_alloc, hheap] at hgrown
      omega
    obtain ⟨hcontents, hcomplete'⟩ := ih₂ (ha₁.write hc segment _) hc
      (by rw [Workspace.write, Heap.size_modify]; exact hsize₁.1) hout hcopies
    constructor
    · -- the container itself: nothing inside writes to it, so its first part is the new copy
      have hfr : f r = some w₀.heap.next :=
        hcopies₁ _ _ (hin.grows _ _
          (IdentityMap.get?_record_self (lt_of_parts? (ha₀.parts?_of_source? hs)) hr))
      rw [← hheap] at hlt
      have hold : w₁.heap.get? c = w.heap.get? c := by
        rw [hin.frame.2 c (Nat.lt_trans hlt hnew) (Heap.ne_next hlt), Workspace.enter,
          Heap.get?_alloc_of_lt hlt, hheap]
      rw [hcontents, keptParts_cons_of_keeps (keepsPart_iff.2 he), Workspace.write,
        Heap.get?_modify_self, hold, Option.map_map]
      show _ = (w.heap.get? c).map
        (Object.fill · ((segment, image f (.object r)) :: imageParts f (keptParts x path rest)))
      rw [image, hfr]
      rfl
    · have hcomplete := Complete.of_filled ha₀ hs hin.suffix hinner hcomplete₁
      rw [hcopied] at hcomplete
      refine hcomplete.append (by simpa using hcomplete') (by simpa using hrest.suffix) ?_
      intro i hi hi₁
      have hic : (⟨h.size + i⟩ : Ref) ≠ c := by
        rintro rfl
        rw [ha.size] at hlt
        simp only at hlt
        omega
      rw [hrest.frame.2 _ _ hic, Workspace.write, Heap.get?_modify_of_ne hic]
      rw [Workspace.write, Heap.size_modify, ha₁.size]
      simpa using hi₁

/-! ## Values -/

theorem Makes.grows {copy : Except ε Value} (hm : Makes x path v w copy w') :
    w.copies.Grows w'.copies := by
  cases hm with
  | stand => exact .refl _
  | enter _ _ hf | abandon _ _ hf => exact (IdentityMap.grows_record _ _ _).trans hf.grows

theorem Makes.accounts {copy : Except ε Value} (hm : Makes x path v w copy w')
    (ha : Accounts h place w) : ∃ place', Accounts h place' w' := by
  cases hm with
  | stand => exact ⟨place, ha⟩
  | enter hr hs hf | abandon hr hs hf =>
    obtain ⟨place', ha', -⟩ := hf.run (ha.enter hr hs path) ha.next_le
    exact ⟨place', ha'⟩

/-- After the end of the heap from the start, `Heap.prune` puts the objects met,
    rebuilt, in the order in which they were met. -/
theorem Accounts.get?_copies (ha : Accounts h place w) (frames : List Frame) (k : Nat) :
    (⟨h.objects ++ (h.copies x (w.state place frames)).toArray⟩ : Heap).get? ⟨h.size + k⟩ =
      w.copied.reverse[k]?.bind fun visit =>
        (h.get? visit.1).map (rebuild x (relocate h.size place) visit.2) := by
  show (h.objects ++ (h.copies x (w.state place frames)).toArray)[h.objects.size + k]? = _
  rw [Array.getElem?_append_right (Nat.le_add_right ..), Nat.add_sub_cancel_left,
    List.getElem?_toArray, Heap.copies]
  refine getElem?_filterMap ?_ k
  rintro ⟨r, path⟩ hv
  obtain ⟨o, ho, -⟩ := Heap.parts?_isSome.1 (ha.numbered.parts r path (List.mem_reverse.1 hv))
  simp [ho]

/-- The heap is the one from the start with the rebuilt objects after it. -/
theorem Accounts.heap_eq (ha : Accounts h place w)
    (hc : Complete h x (copyOf h place) 0 w) (frames : List Frame) :
    w.heap = ⟨h.objects ++ (h.copies x (w.state place frames)).toArray⟩ := by
  refine Heap.ext_get? fun r => ?_
  rcases Nat.lt_or_ge r.index h.size with hlt | hge
  · rw [ha.old r hlt]
    exact (Array.getElem?_append_left hlt).symm
  · obtain ⟨k, hk⟩ := Nat.exists_eq_add_of_le hge
    obtain rfl : r = ⟨h.size + k⟩ := by rw [← hk]
    rw [ha.get?_copies]
    cases hvisit : w.copied.reverse[k]? with
    | none =>
      have hlen : w.copied.length ≤ k := by simpa using List.getElem?_eq_none_iff.1 hvisit
      have hsize : w.heap.size ≤ h.size + k := by rw [ha.size]; omega
      exact Array.getElem?_eq_none hsize
    | some visit =>
      obtain ⟨r, path⟩ := visit
      have hmem := List.mem_reverse.1 (List.mem_of_getElem? hvisit)
      obtain ⟨o, ho, -⟩ := Heap.parts?_isSome.1 (ha.numbered.parts r path hmem)
      rw [hc k r path o (Nat.zero_le k) hvisit ho, Option.bind_some, ho, relocate_eq_image]
      rfl

/-- **What the calls leave** is what `Heap.prune` gives: the same questions, and
    the same copy in the same heap or the same reason. -/
theorem Makes.prune {copy : Except ε Value} (hm : Makes x .root v (.start h) copy w) :
    h.prune v x = ⟨w.asked.reverse, copy.map fun u => ⟨w.heap, u⟩⟩ := by
  have ha := accounts_start h
  have hstart : State.start h v =
      ((Workspace.start h).state (.empty h.size Nat) []).visit (h := h) v .root := rfl
  cases hm with
  | stand hu =>
    have hrun : (State.start h v).run x =
        (none, (Workspace.start h).state (.empty h.size Nat) []) := by
      rw [hstart, visit_of_stands ha hu]
      exact run_finished rfl
    have hcopies := funext ha.copies
    have hv := ha.image_of_stands hu (fun _ _ hr => hr) (fun r hr => by
      simp [Workspace.start, IdentityMap.get?_empty])
    have hheap := ha.heap_eq (x := x) (complete_length (.start h)) []
    rw [Heap.prune, hrun, hv, hcopies, ← relocate_eq_image]
    exact congrArg _ (congrArg Except.ok (congrArg (Copy.mk · _) hheap.symm))
  | @enter r o parts _ _ hr hs hf =>
    obtain ⟨place', ha', hrun⟩ := hf.run (ha.enter hr hs .root) ha.next_le
    have hrun : (State.start h (.object r)).run x = (none, w.state place' []) := by
      rw [hstart, visit_of_source? ha hr hs, hrun]
      exact run_finished rfl
    have hunits : ∀ r, h.parts? r = none → copyOf h place' r = none := by
      intro r hp
      by_contra hne
      rw [copyOf, Option.map_eq_none_iff, ← ne_eq, ha'.numbered.get?_ne_none] at hne
      obtain ⟨path, hm⟩ := hne
      have hsome := ha'.numbered.parts r path hm
      rw [hp] at hsome
      cases hsome
    have hcopies : ∀ r s, w.copies.get? r = some s → copyOf h place' r = some s :=
      fun r s hrs => (ha'.copies r) ▸ hrs
    obtain ⟨hfilled, hlater⟩ := hf.contents hunits (ha.enter hr hs .root) ha.next_le
      (by rw [Workspace.enter, Heap.size_alloc]; exact Nat.lt_succ_self _) rfl hcopies
    have hheap := ha'.heap_eq (Complete.of_filled ha hs hf.suffix hfilled hlater) []
    have hself : copyOf h place' r = some (Workspace.start h).heap.next :=
      hcopies _ _ (hf.grows _ _
        (IdentityMap.get?_record_self (lt_of_parts? (ha.parts?_of_source? hs)) hr))
    rw [Heap.prune, hrun]
    refine congrArg _ (congrArg Except.ok ?_)
    rw [hheap]
    show Copy.mk _ (relocate h.size place' (.object r)) = _
    rw [relocate_eq_image, image, hself]
    rfl
  | abandon hr hs hf =>
    obtain ⟨place', ha', hrun⟩ := hf.run (ha.enter hr hs .root) ha.next_le
    obtain ⟨frames, hrun⟩ := hrun []
    rw [Heap.prune, hstart, visit_of_source? ha hr hs, hrun]
    rfl

end

end Pruning

end ValueGraph
