/-
  Containers copied in place, call by call.

  While containers are copied the heap only grows at its end, and only what was
  put there is written to.  The walk of `Heap.prune` meets the same objects and
  asks the same questions.

  * `Fills`, `Makes`: what copying the parts of an object, and copying a value,
    can do;
  * `Accounts`: what the table, the list of copied objects and the heap say of
    each other at any time;
  * `Fills.run`: the walk does what the calls do.
-/
import ValueGraph.Pruning.InPlace
import ValueGraph.Proofs.Copying
import ValueGraph.Proofs.Extent

namespace ValueGraph

open Pruning

/-! ## Changes of a heap -/

namespace Heap

variable {h : Heap} {r s : Ref} {f : Object → Object}

/-- Heaps with the same objects are the same. -/
theorem ext_get? {g : Heap} (hgh : ∀ r, g.get? r = h.get? r) : g = h := by
  obtain ⟨objects⟩ := g
  obtain ⟨objects'⟩ := h
  exact congrArg Heap.mk (Array.ext_getElem? fun i => hgh ⟨i⟩)

theorem ne_next (hr : r.index < h.size) : r ≠ h.next := by
  rintro rfl
  exact Nat.lt_irrefl _ hr

theorem size_modify (h : Heap) (r : Ref) (f : Object → Object) : (h.modify r f).size = h.size := by
  rw [modify]
  split
  · exact Array.size_setIfInBounds
  · rfl

theorem get?_modify (h : Heap) (r s : Ref) (f : Object → Object) :
    (h.modify r f).get? s = if r = s then (h.get? s).map f else h.get? s := by
  rw [modify]
  split
  next o ho =>
    have hlt : r.index < h.objects.size := lt_of_get? ho
    simp only [get?, set, Array.getElem?_setIfInBounds, hlt, if_true]
    by_cases hrs : r = s
    · subst hrs
      rw [get?] at ho
      simp [ho]
    · have hne : r.index ≠ s.index := fun he => hrs (by cases r; cases s; cases he; rfl)
      simp [hrs, hne]
  next hnone =>
    split
    next hrs =>
      subst hrs
      rw [hnone]
      rfl
    next => rfl

theorem get?_modify_of_ne (hrs : s ≠ r) : (h.modify r f).get? s = h.get? s := by
  rw [get?_modify, if_neg hrs.symm]

theorem get?_modify_self : (h.modify r f).get? r = (h.get? r).map f := by
  rw [get?_modify, if_pos rfl]

end Heap

namespace Pruning

variable {ε : Type} {x : Exclusion ε} {path : KeyPath} {c : Ref} {segment : Segment} {v u : Value}

/-! ## Calls -/

section
variable {n : Nat}

/-- What stands for a value that is not copied by a call: the value itself, or
    the copy that is in the table. -/
inductive Workspace.Stands (w : Workspace n) : Value → Value → Prop
  | primitive {v : Value} : v.isObject = false → Stands w v v
  | unit {r : Ref} : w.copies.get? r = none → w.source? r = none → Stands w (.object r) (.object r)
  | known {r c : Ref} : w.copies.get? r = some c → Stands w (.object r) (.object c)

/-- **Copying the parts** of the object at a path into a container: which
    workspace it leaves, and the reason if a part is rejected. -/
inductive Fills (x : Exclusion ε) : KeyPath → Ref → List (Segment × Value) → Workspace n →
    Option ε → Workspace n → Prop
  | nil {path c w} : Fills x path c [] w none w
  | reject {path c segment v rest w reason} :
      State.excludes x path segment = .error reason →
      Fills x path c ((segment, v) :: rest) w (some reason) (w.ask x path segment)
  | skip {path c segment v rest w out w'} :
      State.excludes x path segment = .ok true →
      Fills x path c rest (w.ask x path segment) out w' →
      Fills x path c ((segment, v) :: rest) w out w'
  | stand {path c segment v u rest w out w'} :
      State.excludes x path segment = .ok false → (w.ask x path segment).Stands v u →
      Fills x path c rest ((w.ask x path segment).write c segment u) out w' →
      Fills x path c ((segment, v) :: rest) w out w'
  | enter {path c segment r o parts rest} {w w₀ w₁ w' : Workspace n} {out} :
      State.excludes x path segment = .ok false → w₀ = w.ask x path segment →
      w₀.copies.get? r = none → w₀.source? r = some (o, parts) →
      Fills x (path.step segment) w₀.heap.next parts (w₀.enter r o (path.step segment)) none w₁ →
      Fills x path c rest (w₁.write c segment (.object w₀.heap.next)) out w' →
      Fills x path c ((segment, .object r) :: rest) w out w'
  | abandon {path c segment r o parts rest} {w w₀ w₁ : Workspace n} {reason} :
      State.excludes x path segment = .ok false → w₀ = w.ask x path segment →
      w₀.copies.get? r = none → w₀.source? r = some (o, parts) →
      Fills x (path.step segment) w₀.heap.next parts (w₀.enter r o (path.step segment))
        (some reason) w₁ →
      Fills x path c ((segment, .object r) :: rest) w (some reason) w₁

/-- **Copying a value** that was met at a path. -/
inductive Makes (x : Exclusion ε) :
    KeyPath → Value → Workspace n → Except ε Value → Workspace n → Prop
  | stand {path v u w} : w.Stands v u → Makes x path v w (.ok u) w
  | enter {path r o parts} {w w' : Workspace n} : w.copies.get? r = none →
      w.source? r = some (o, parts) →
      Fills x path w.heap.next parts (w.enter r o path) none w' →
      Makes x path (.object r) w (.ok (.object w.heap.next)) w'
  | abandon {path r o parts} {w w' : Workspace n} {reason} : w.copies.get? r = none →
      w.source? r = some (o, parts) →
      Fills x path w.heap.next parts (w.enter r o path) (some reason) w' →
      Makes x path (.object r) w (.error reason) w'

/-- If the calls for values do what `Makes` says, copying parts does what
    `Fills` says. -/
theorem fills_of_copyParts
    {copy : KeyPath → Value → Workspace n → Option (Except ε Value × Workspace n)}
    (hcopy : ∀ {path v w out w'}, copy path v w = some (out, w') → Makes x path v w out w') :
    ∀ {parts w out w'}, copyParts copy x path c parts w = some (out, w') →
      Fills x path c parts w out w'
  | [], w, out, w', hc => by
    cases hc
    exact .nil
  | (segment, v) :: parts, w, out, w', hc => by
    rw [copyParts] at hc
    split at hc
    next reason he =>
      cases hc
      exact .reject he
    next he => exact .skip he (fills_of_copyParts hcopy hc)
    next he =>
      split at hc
      next => cases hc
      next reason w₁ hv =>
        cases hc
        cases hcopy hv with
        | abandon hnew hsource hfills => exact .abandon he rfl hnew hsource hfills
      next u w₁ hv =>
        have hrest := fills_of_copyParts hcopy hc
        cases hcopy hv with
        | stand hu => exact .stand he hu hrest
        | enter hnew hsource hfills => exact .enter he rfl hnew hsource hfills hrest

theorem makes_of_copyValue : ∀ {depth path v} {w : Workspace n} {out w'},
    copyValue x depth path v w = some (out, w') → Makes x path v w out w'
  | 0, _, _, _, _, _, hc => by cases hc
  | depth + 1, path, v, w, out, w', hc => by
    cases v with
    | object r =>
      rw [copyValue] at hc
      split at hc
      next c hr =>
        cases hc
        exact .stand (.known hr)
      next hr =>
        split at hc
        next hsource =>
          cases hc
          exact .stand (.unit hr hsource)
        next o parts hsource =>
          split at hc
          next => cases hc
          next reason w₁ hparts =>
            cases hc
            exact .abandon hr hsource (fills_of_copyParts makes_of_copyValue hparts)
          next w₁ hparts =>
            cases hc
            exact .enter hr hsource (fills_of_copyParts makes_of_copyValue hparts)
    | _ =>
      cases hc
      exact .stand (.primitive rfl)

/-! ## Workspaces -/

namespace Workspace

variable (w : Workspace n)

@[simp] theorem heap_ask (x : Exclusion ε) (path : KeyPath) (segment : Segment) :
    (w.ask x path segment).heap = w.heap := by
  cases segment with
  | key k => rw [ask]; split <;> rfl
  | index i => rfl

@[simp] theorem copies_ask (x : Exclusion ε) (path : KeyPath) (segment : Segment) :
    (w.ask x path segment).copies = w.copies := by
  cases segment with
  | key k => rw [ask]; split <;> rfl
  | index i => rfl

@[simp] theorem copied_ask (x : Exclusion ε) (path : KeyPath) (segment : Segment) :
    (w.ask x path segment).copied = w.copied := by
  cases segment with
  | key k => rw [ask]; split <;> rfl
  | index i => rfl

/-- The questions are those of the walk. -/
theorem asked_ask (x : Exclusion ε) (path : KeyPath) (segment : Segment) :
    (w.ask x path segment).asked =
      (questions x path segment).filterMap Event.asked? ++ w.asked := by
  cases segment with
  | key k => simp only [ask, questions]; split <;> rfl
  | index i => rfl

@[simp] theorem copies_write (c : Ref) (segment : Segment) (v : Value) :
    (w.write c segment v).copies = w.copies := rfl

@[simp] theorem copied_write (c : Ref) (segment : Segment) (v : Value) :
    (w.write c segment v).copied = w.copied := rfl

@[simp] theorem asked_write (c : Ref) (segment : Segment) (v : Value) :
    (w.write c segment v).asked = w.asked := rfl

end Workspace

/-- The table only grows. -/
theorem Fills.grows {parts : List (Segment × Value)} {w w' : Workspace n} {out : Option ε}
    (hf : Fills x path c parts w out w') : w.copies.Grows w'.copies := by
  induction hf with
  | nil => exact .refl _
  | reject => rw [Workspace.copies_ask]; exact .refl _
  | skip _ _ ih => rwa [Workspace.copies_ask] at ih
  | stand _ _ _ ih => rwa [Workspace.copies_write, Workspace.copies_ask] at ih
  | enter _ hw₀ _ _ _ _ ih₁ ih₂ =>
    subst hw₀
    simpa [Workspace.enter] using (IdentityMap.grows_record _ _ _).trans (ih₁.trans ih₂)
  | abandon _ hw₀ _ _ _ ih =>
    subst hw₀
    simpa [Workspace.enter] using (IdentityMap.grows_record _ _ _).trans ih

end

/-! ## What holds at any time -/

section
variable {h : Heap} {place : IdentityMap h.size Nat} {w w' : Workspace h.size} {r : Ref}
  {o : Object} {parts : List (Segment × Value)} {out : Option ε}

/-- **The accounts of a traversal.**  The objects from the start are as they
    were, after them come the copies and nothing else, and the table has the
    copy of an object at the place at which the object was met. -/
structure Accounts (h : Heap) (place : IdentityMap h.size Nat) (w : Workspace h.size) : Prop where
  old : ∀ r, r.index < h.size → w.heap.get? r = h.get? r
  size : w.heap.size = h.size + w.copied.length
  numbered : Numbered h place w.copied
  copies : ∀ r, w.copies.get? r = copyOf h place r

theorem accounts_start (h : Heap) : Accounts h (.empty h.size Nat) (.start h) where
  old _ _ := rfl
  size := rfl
  numbered := .empty
  copies r := by simp [Workspace.start, copyOf, IdentityMap.get?_empty]

namespace Accounts

theorem ask (ha : Accounts h place w) (x : Exclusion ε) (path : KeyPath) (segment : Segment) :
    Accounts h place (w.ask x path segment) := by
  refine ⟨?_, ?_, ?_, ?_⟩
  · simpa using ha.old
  · simpa using ha.size
  · simpa using ha.numbered
  · simpa using ha.copies

/-- Writing to a copy does not change the objects from the start. -/
theorem write (ha : Accounts h place w) (hc : h.size ≤ c.index) (segment : Segment) (v : Value) :
    Accounts h place (w.write c segment v) where
  old r hr := by
    have hne : r ≠ c := fun hrc => Nat.not_lt.2 hc (hrc ▸ hr)
    exact (Heap.get?_modify_of_ne hne).trans (ha.old r hr)
  size := (Heap.size_modify ..).trans ha.size
  numbered := ha.numbered
  copies := ha.copies

theorem get?_eq_none (ha : Accounts h place w) :
    w.copies.get? r = none ↔ place.get? r = none := by
  rw [ha.copies, copyOf, Option.map_eq_none_iff]

/-- What is copied was there at the start. -/
theorem source? (ha : Accounts h place w) : w.source? r = some (o, parts) ↔
    h.get? r = some o ∧ o.parts? = some parts := by
  rw [Workspace.source?]
  split
  next hlt =>
    rw [ha.old r hlt]
    cases h.get? r with
    | none => simp
    | some p => cases hp : p.parts? <;> grind
  next hge =>
    have hnone : h.get? r = none := Array.getElem?_eq_none (Nat.not_lt.1 hge)
    simp [hnone]

theorem parts?_of_source? (ha : Accounts h place w) (hs : w.source? r = some (o, parts)) :
    h.parts? r = some parts := by
  obtain ⟨ho, hp⟩ := ha.source?.1 hs
  rw [Heap.parts?, ho]
  exact hp

theorem parts?_eq_none (ha : Accounts h place w) (hs : w.source? r = none) :
    h.parts? r = none := by
  rw [Heap.parts?]
  cases ho : h.get? r with
  | none => rfl
  | some o =>
    cases hp : o.parts? with
    | none => exact hp
    | some parts =>
      rw [ha.source?.2 ⟨ho, hp⟩] at hs
      cases hs

theorem next_eq (ha : Accounts h place w) : w.heap.next = ⟨h.size + w.copied.length⟩ := by
  rw [Heap.next, ha.size]

theorem next_le (ha : Accounts h place w) : h.size ≤ w.heap.next.index := by
  rw [ha.next_eq]
  exact Nat.le_add_right ..

/-- A new copy comes after the end. -/
theorem enter (ha : Accounts h place w) (hr : w.copies.get? r = none)
    (hs : w.source? r = some (o, parts)) (path : KeyPath) :
    Accounts h (place.record r w.copied.length) (w.enter r o path) where
  old s hlt := by
    have hs : s.index < w.heap.size := by rw [ha.size]; omega
    exact (Heap.get?_alloc_of_lt hs).trans (ha.old s hlt)
  size := by
    show (w.heap.alloc o.blank).size = h.size + (w.copied.length + 1)
    rw [Heap.size_alloc, ha.size, Nat.add_assoc]
  numbered := ha.numbered.record (ha.parts?_of_source? hs) (ha.get?_eq_none.1 hr) path
  copies s := by
    show (w.copies.record r w.heap.next).get? s = _
    rw [IdentityMap.get?_record, copyOf, IdentityMap.get?_record, apply_ite (Option.map _),
      ha.next_eq, ha.copies s, copyOf]
    simp only [hr, ha.get?_eq_none.1 hr, Option.map_some]

/-- What stands for a value is its image under the table. -/
theorem image_of_stands (ha : Accounts h place w) (hu : w.Stands v u) {f : Ref → Option Ref}
    (hcopies : ∀ r s, w.copies.get? r = some s → f r = some s)
    (hunits : ∀ r, h.parts? r = none → f r = none) : u = image f v := by
  cases hu with
  | primitive hv => cases v <;> first | rfl | cases hv
  | unit _ hs => rw [image, hunits _ (ha.parts?_eq_none hs)]; rfl
  | known hr => rw [image, hcopies _ _ hr]; rfl

end Accounts

/-! ## The walk does what the calls do -/

/-- The walk that has met and asked the same. -/
def Workspace.state {n : Nat} (w : Workspace n) (place : IdentityMap n Nat) (frames : List Frame) :
    State n :=
  ⟨place, w.copied, w.asked, frames⟩

theorem run_rejected {s t : State h.size} {reason : ε} (hs : s.next x = .rejected reason t) :
    s.run x = (some reason, t) := by
  rw [State.run]; split <;> simp_all

theorem next_state (rest : List (Segment × Value)) (frames : List Frame) :
    (w.state place (⟨path, (segment, v) :: rest⟩ :: frames)).next x =
      match State.excludes x path segment with
      | .error reason =>
        .rejected reason ((w.ask x path segment).state place (⟨path, rest⟩ :: frames))
      | .ok true => .running ((w.ask x path segment).state place (⟨path, rest⟩ :: frames))
      | .ok false =>
        .running (((w.ask x path segment).state place (⟨path, rest⟩ :: frames)).visit (h := h) v
          (path.step segment)) := by
  have hask : { (w.state place (⟨path, (segment, v) :: rest⟩ :: frames)).ask x path segment with
      frames := ⟨path, rest⟩ :: frames } =
      (w.ask x path segment).state place (⟨path, rest⟩ :: frames) := by
    rw [ask_eq, Workspace.state, Workspace.state, Workspace.asked_ask, Workspace.copied_ask]
  rw [State.next, ← hask]
  rfl

theorem run_skip (he : State.excludes x path segment = .ok true) (rest : List (Segment × Value))
    (frames : List Frame) :
    (w.state place (⟨path, (segment, v) :: rest⟩ :: frames)).run x =
      ((w.ask x path segment).state place (⟨path, rest⟩ :: frames)).run x :=
  run_running (by rw [next_state, he])

theorem run_keep (he : State.excludes x path segment = .ok false) (rest : List (Segment × Value))
    (frames : List Frame) :
    (w.state place (⟨path, (segment, v) :: rest⟩ :: frames)).run x =
      (((w.ask x path segment).state place (⟨path, rest⟩ :: frames)).visit (h := h) v
        (path.step segment)).run x :=
  run_running (by rw [next_state, he])

theorem visit_of_stands (ha : Accounts h place w) (hu : w.Stands v u) (frames : List Frame) :
    (w.state place frames).visit (h := h) v path = w.state place frames := by
  cases hu with
  | primitive hv => cases v <;> first | rfl | cases hv
  | @unit r _ hs =>
    rw [State.visit, ha.parts?_eq_none hs]
    cases (w.state place frames).place.get? r <;> rfl
  | @known r c hr =>
    cases hp : place.get? r with
    | none =>
      rw [ha.get?_eq_none.2 hp] at hr
      cases hr
    | some i => simp only [State.visit, Workspace.state, hp]

theorem visit_of_source? (ha : Accounts h place w) (hr : w.copies.get? r = none)
    (hs : w.source? r = some (o, parts)) (frames : List Frame) :
    (w.state place frames).visit (h := h) (.object r) path =
      (w.enter r o path).state (place.record r w.copied.length) (⟨path, parts⟩ :: frames) := by
  simp only [State.visit, Workspace.state, ha.get?_eq_none.1 hr, ha.parts?_of_source? hs]
  rfl

/-- **The walk does what the calls do**: it comes to the end of the parts with
    the same objects met and the same questions asked, or ends with the same
    reason. -/
theorem Fills.run (hf : Fills x path c parts w out w') : ∀ {place}, Accounts h place w →
    h.size ≤ c.index → ∃ place', Accounts h place' w' ∧ ∀ frames,
      match out with
      | none => (w.state place (⟨path, parts⟩ :: frames)).run x = (w'.state place' frames).run x
      | some reason => ∃ frames', (w.state place (⟨path, parts⟩ :: frames)).run x =
          (some reason, w'.state place' frames') := by
  induction hf with
  | nil => exact fun ha _ => ⟨_, ha, fun frames => run_running rfl⟩
  | @reject path c segment v rest w reason he =>
    refine fun ha _ => ⟨_, ha.ask x path segment, fun frames => ⟨⟨path, rest⟩ :: frames, ?_⟩⟩
    exact run_rejected (by rw [next_state, he])
  | @skip path c segment v rest w out w' he _ ih =>
    intro place ha hc
    obtain ⟨place', ha', hrun⟩ := ih (ha.ask x path segment) hc
    refine ⟨place', ha', fun frames => ?_⟩
    rw [run_skip he]
    exact hrun frames
  | @stand path c segment v u rest w out w' he hu _ ih =>
    intro place ha hc
    obtain ⟨place', ha', hrun⟩ := ih ((ha.ask x path segment).write hc segment u) hc
    refine ⟨place', ha', fun frames => ?_⟩
    rw [run_keep he, visit_of_stands (ha.ask x path segment) hu]
    exact hrun frames
  | @enter path c segment r o parts rest w w₀ w₁ w' out he hw₀ hr hs _ _ ih₁ ih₂ =>
    intro place ha hc
    have ha₀ : Accounts h place w₀ := hw₀ ▸ ha.ask x path segment
    obtain ⟨place₁, ha₁, hrun₁⟩ := ih₁ (ha₀.enter hr hs _) ha₀.next_le
    obtain ⟨place', ha', hrun'⟩ := ih₂ (ha₁.write hc segment _) hc
    refine ⟨place', ha', fun frames => ?_⟩
    rw [run_keep he, ← hw₀, visit_of_source? ha₀ hr hs, hrun₁]
    exact hrun' frames
  | @abandon path c segment r o parts rest w w₀ w₁ reason he hw₀ hr hs _ ih =>
    intro place ha hc
    have ha₀ : Accounts h place w₀ := hw₀ ▸ ha.ask x path segment
    obtain ⟨place₁, ha₁, hrun₁⟩ := ih (ha₀.enter hr hs _) ha₀.next_le
    refine ⟨place₁, ha₁, fun frames => ?_⟩
    rw [run_keep he, ← hw₀, visit_of_source? ha₀ hr hs]
    exact hrun₁ _

end

end Pruning

end ValueGraph
