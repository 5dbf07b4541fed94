/-
  The depth-first traversal of a value, declaratively.

  A traversal leaves a log, the latest event first: which object it met first
  by which path, and what it asked the predicate.  `Visits` is the traversal
  of the parts of one object in order; it enters a part that is kept, has
  parts of its own and has not been met before, and comes back to the next
  part with the log that this leaves.

  * `Visits` and `Traverses` are the traversal;
  * `Visits.deterministic`, `Traverses.deterministic`: there is one log;
  * `Visits.forall_met`: what holds of every object that is entered;
  * `Visits.closed`, `Traverses.exhausts`: no kept part is forgotten;
  * `traverses_run`: the walk of `Heap.prune` is this traversal.
-/
import ValueGraph.Pruning

namespace ValueGraph

/-- The predicate, if there is one, rejects nothing. -/
def Exclusion.Total {ε : Type} (x : Exclusion ε) : Prop :=
  ∀ p, x.predicate = some p → ∀ k parent, ∃ excluded, p k parent = .ok excluded

theorem Exclusion.Total.exists_excludes {ε : Type} {x : Exclusion ε} (hx : x.Total) (k : Key)
    (parent : KeyPath) : ∃ excluded, x.excludes k parent = .ok excluded := by
  rw [excludes]
  split
  next => exact ⟨true, rfl⟩
  next =>
    split
    next p hp => exact hx p hp k parent
    next => exact ⟨false, rfl⟩

namespace Exclusion.Total

variable {ε : Type} {x : Exclusion ε}

theorem nothing : (Exclusion.nothing : Exclusion ε).Total := by rintro p ⟨⟩

theorem ignoreKey (hx : x.Total) (k : Key) : (x.ignoreKey k).Total := by
  rw [Exclusion.ignoreKey]
  split
  · exact hx
  · exact hx

/-- A predicate that is a function to booleans rejects nothing. -/
theorem withPredicate (x : Exclusion ε) (f : Key → KeyPath → Bool) :
    (x.withPredicate fun k path => .ok (f k path)).Total := by
  rintro p ⟨⟩ k path
  exact ⟨f k path, rfl⟩

end Exclusion.Total

namespace Pruning

variable {ε : Type}

/-! ## Logs -/

/-- What a traversal does: it meets an object for the first time, or it puts a
    question to the predicate. -/
inductive Event where
  | met (r : Ref) (path : KeyPath)
  | asked (k : Key) (path : KeyPath)

/-- The object met, with its path. -/
def Event.met? : Event → Option (Ref × KeyPath)
  | met r path => some (r, path)
  | asked _ _ => none

/-- The question put. -/
def Event.asked? : Event → Option (Key × KeyPath)
  | met _ _ => none
  | asked k path => some (k, path)

/-- An object has been met. -/
def Met (log : List Event) (r : Ref) : Prop := ∃ path, Event.met r path ∈ log

theorem not_met_nil (r : Ref) : ¬Met [] r := by
  rintro ⟨path, hm⟩
  simp at hm

/-- The question about a part, if the predicate decides it. -/
def questions (x : Exclusion ε) (path : KeyPath) : Segment → List Event
  | .key k => if x.asks k then [.asked k path] else []
  | .index _ => []

theorem met_mem_questions (x : Exclusion ε) (path path' : KeyPath) (segment : Segment) (r : Ref) :
    Event.met r path' ∉ questions x path segment := by
  cases segment with
  | key k => rw [questions]; split <;> simp
  | index i => simp [questions]

theorem mem_questions_append {x : Exclusion ε} {path path' : KeyPath} {segment : Segment}
    {log : List Event} {r : Ref} :
    Event.met r path' ∈ questions x path segment ++ log ↔ Event.met r path' ∈ log := by
  simp [met_mem_questions]

/-! ## The traversal -/

/-- A value that is not entered: it has no parts to visit, or it has been met
    before. -/
def Stops (h : Heap) (log : List Event) (v : Value) : Prop :=
  ∀ r, v = .object r → h.parts? r = none ∨ Met log r

/-- The visit of parts of the object at a path, in order, from the log before to
    the log after. -/
inductive Visits (h : Heap) (x : Exclusion ε) :
    KeyPath → List (Segment × Value) → List Event → List Event → Prop
  | nil (path log) : Visits h x path [] log log
  | skip {path segment v rest log log'} :
      State.excludes x path segment = .ok true →
      Visits h x path rest (questions x path segment ++ log) log' →
      Visits h x path ((segment, v) :: rest) log log'
  | stop {path segment v rest log log'} :
      State.excludes x path segment = .ok false → Stops h log v →
      Visits h x path rest (questions x path segment ++ log) log' →
      Visits h x path ((segment, v) :: rest) log log'
  | enter {path segment r parts rest log log₁ log'} :
      State.excludes x path segment = .ok false → h.parts? r = some parts → ¬Met log r →
      Visits h x (path.step segment) parts
        (.met r (path.step segment) :: (questions x path segment ++ log)) log₁ →
      Visits h x path rest log₁ log' →
      Visits h x path ((segment, .object r) :: rest) log log'

/-- The traversal of a value from the root on. -/
inductive Traverses (h : Heap) (x : Exclusion ε) : Value → List Event → Prop
  | stop {v} : Stops h [] v → Traverses h x v []
  | enter {r parts log} : h.parts? r = some parts →
      Visits h x .root parts [.met r .root] log → Traverses h x (.object r) log

section
variable {h : Heap} {x : Exclusion ε} {path : KeyPath} {parts : List (Segment × Value)}
  {log log' : List Event}

theorem Stops.met {r : Ref} (hs : Stops h log (.object r)) (hp : h.parts? r = some parts) :
    Met log r := by
  rcases hs r rfl with hn | hm
  · rw [hp] at hn
    simp at hn
  · exact hm

theorem Visits.subset (hv : Visits h x path parts log log') : log ⊆ log' := by
  induction hv with
  | nil => exact List.Subset.refl _
  | skip _ _ ih => exact fun e he => ih (List.mem_append_right _ he)
  | stop _ _ _ ih => exact fun e he => ih (List.mem_append_right _ he)
  | enter _ _ _ _ _ ih₁ ih₂ =>
    exact fun e he => ih₂ (ih₁ (List.mem_cons_of_mem _ (List.mem_append_right _ he)))

theorem Visits.deterministic (hv : Visits h x path parts log log') :
    ∀ {log''}, Visits h x path parts log log'' → log' = log'' := by
  induction hv with
  | nil => intro log'' hv'; cases hv'; rfl
  | skip he _ ih =>
    intro log'' hv'
    cases hv' with
    | skip _ hrest => exact ih hrest
    | stop he' => rw [he] at he'; simp at he'
    | enter he' => rw [he] at he'; simp at he'
  | stop he hs _ ih =>
    intro log'' hv'
    cases hv' with
    | skip he' => rw [he] at he'; simp at he'
    | stop _ _ hrest => exact ih hrest
    | enter _ hp hn => exact absurd (hs.met hp) hn
  | enter he hp hn _ _ ih₁ ih₂ =>
    intro log'' hv'
    cases hv' with
    | skip he' => rw [he] at he'; simp at he'
    | stop _ hs => exact absurd (hs.met hp) hn
    | enter _ hp' _ hin hrest =>
      rw [hp] at hp'
      cases hp'
      obtain rfl := ih₁ hin
      exact ih₂ hrest

theorem Traverses.deterministic {v : Value} (ht : Traverses h x v log)
    (ht' : Traverses h x v log') : log = log' := by
  cases ht with
  | stop hs =>
    cases ht' with
    | stop => rfl
    | enter hp => exact absurd (hs.met hp) (not_met_nil _)
  | enter hp hv =>
    cases ht' with
    | stop hs => exact absurd (hs.met hp) (not_met_nil _)
    | enter hp' hv' =>
      rw [hp] at hp'
      cases hp'
      exact hv.deterministic hv'

/-- A part that is kept and leads to an object with parts. -/
def Leads (h : Heap) (x : Exclusion ε) (path : KeyPath) (parts : List (Segment × Value))
    (segment : Segment) (r : Ref) : Prop :=
  (segment, .object r) ∈ parts ∧ State.excludes x path segment = .ok false ∧
    (h.parts? r).isSome = true

/-- **What holds of every object met**: it holds of those met before and of the
    kept parts, and passes from an object to its kept parts. -/
theorem Visits.forall_met {P : Ref → KeyPath → Prop}
    (hstep : ∀ r path parts, P r path → h.parts? r = some parts →
      ∀ segment s, Leads h x path parts segment s → P s (path.step segment))
    (hv : Visits h x path parts log log') (hlog : ∀ r p, .met r p ∈ log → P r p)
    (hparts : ∀ segment s, Leads h x path parts segment s → P s (path.step segment)) :
    ∀ r p, .met r p ∈ log' → P r p := by
  induction hv with
  | nil => exact hlog
  | skip _ _ ih =>
    refine ih (fun r p hm => hlog r p (mem_questions_append.1 hm)) fun segment s hl => ?_
    exact hparts segment s ⟨List.mem_cons_of_mem _ hl.1, hl.2⟩
  | stop _ _ _ ih =>
    refine ih (fun r p hm => hlog r p (mem_questions_append.1 hm)) fun segment s hl => ?_
    exact hparts segment s ⟨List.mem_cons_of_mem _ hl.1, hl.2⟩
  | @enter path segment r parts rest log log₁ log' he hp hn _ _ ih₁ ih₂ =>
    have hr : P r (path.step segment) := hparts segment r ⟨by simp, he, by simp [hp]⟩
    refine ih₂ (ih₁ (fun s p hm => ?_) (hstep r _ parts hr hp)) fun segment s hl => ?_
    · rcases List.mem_cons.1 hm with hm | hm
      · cases hm; exact hr
      · exact hlog s p (mem_questions_append.1 hm)
    · exact hparts segment s ⟨List.mem_cons_of_mem _ hl.1, hl.2⟩

/-- **No kept part is forgotten**: the kept parts with parts of their own are
    met, and so are those of the objects met on the way. -/
theorem Visits.closed (hv : Visits h x path parts log log') :
    (∀ segment s, Leads h x path parts segment s → Met log' s) ∧
      ∀ r p, .met r p ∈ log' → .met r p ∈ log ∨
        ∀ ps, h.parts? r = some ps → ∀ segment s, Leads h x p ps segment s → Met log' s := by
  induction hv with
  | nil => exact ⟨fun segment s hl => by simp [Leads] at hl, fun r p hm => Or.inl hm⟩
  | skip he _ ih =>
    refine ⟨fun segment s ⟨hl, hk, hs⟩ => ?_, fun r p hm => ?_⟩
    · rcases List.mem_cons.1 hl with hl | hl
      · cases hl; rw [he] at hk; simp at hk
      · exact ih.1 segment s ⟨hl, hk, hs⟩
    · exact (ih.2 r p hm).imp_left mem_questions_append.1
  | stop he hst hv ih =>
    refine ⟨fun segment s ⟨hl, hk, hs⟩ => ?_, fun r p hm => ?_⟩
    · rcases List.mem_cons.1 hl with hl | hl
      · cases hl
        obtain ⟨parts, hp⟩ := Option.isSome_iff_exists.1 hs
        obtain ⟨p, hm⟩ := hst.met hp
        exact ⟨p, hv.subset (List.mem_append_right _ hm)⟩
      · exact ih.1 segment s ⟨hl, hk, hs⟩
    · exact (ih.2 r p hm).imp_left mem_questions_append.1
  | @enter path segment r parts rest log log₁ log' he hp hn hin hrest ih₁ ih₂ =>
    have hmono : ∀ s, Met log₁ s → Met log' s := fun s ⟨p, hm⟩ => ⟨p, hrest.subset hm⟩
    refine ⟨fun segment s ⟨hl, hk, hs⟩ => ?_, fun s p hm => ?_⟩
    · rcases List.mem_cons.1 hl with hl | hl
      · cases hl
        exact ⟨_, hrest.subset (hin.subset (List.mem_cons_self ..))⟩
      · exact ih₂.1 segment s ⟨hl, hk, hs⟩
    · rcases ih₂.2 s p hm with hm | hc
      · rcases ih₁.2 s p hm with hm | hc
        · rcases List.mem_cons.1 hm with hm | hm
          · cases hm
            refine Or.inr fun ps hps segment s hl => ?_
            rw [hp] at hps
            cases hps
            exact hmono s (ih₁.1 segment s hl)
          · exact Or.inl (mem_questions_append.1 hm)
        · exact Or.inr fun ps hps segment s hl => hmono s (hc ps hps segment s hl)
      · exact Or.inr hc

/-- Nothing that is kept and has parts is missing from a log: not the value
    itself, and no kept part of an object met. -/
structure Exhausts (h : Heap) (x : Exclusion ε) (v : Value) (log : List Event) : Prop where
  root : ∀ r, v = .object r → (h.parts? r).isSome = true → Met log r
  parts : ∀ r path ps, .met r path ∈ log → h.parts? r = some ps →
    ∀ segment s, Leads h x path ps segment s → Met log s

theorem Traverses.exhausts {v : Value} (ht : Traverses h x v log) : Exhausts h x v log := by
  cases ht with
  | stop hs =>
    refine ⟨fun r hr hp => ?_, fun r path ps hm => by simp at hm⟩
    rcases hs r hr with hp' | hm
    · simp [hp'] at hp
    · exact hm
  | @enter r₀ ps₀ log hp₀ hv =>
    refine ⟨fun r hr _ => ?_, fun r path ps hm hp => ?_⟩
    · cases hr
      exact ⟨.root, hv.subset (List.mem_cons_self ..)⟩
    · rcases hv.closed.2 r path hm with hm | hc
      · obtain ⟨rfl, rfl⟩ : r = r₀ ∧ path = .root := by simpa using hm
        rw [hp₀] at hp
        cases hp
        exact hv.closed.1
      · exact hc ps hp

end

/-! ## The walk is the traversal -/

/-- The visits of the objects whose parts are left, the innermost first. -/
inductive VisitsAll (h : Heap) (x : Exclusion ε) : List Frame → List Event → List Event → Prop
  | nil (log) : VisitsAll h x [] log log
  | cons {frame frames log log₁ log'} : Visits h x frame.path frame.rest log log₁ →
      VisitsAll h x frames log₁ log' → VisitsAll h x (frame :: frames) log log'

section
variable {h : Heap} {x : Exclusion ε}

/-- What visiting the next part of a walk can come to. -/
inductive Step (h : Heap) (x : Exclusion ε) : State h.size → Progress ε h.size → Prop
  | done (place met asked) :
      Step h x ⟨place, met, asked, []⟩ (.finished ⟨place, met, asked, []⟩)
  | leave (place met asked path frames) :
      Step h x ⟨place, met, asked, ⟨path, []⟩ :: frames⟩ (.running ⟨place, met, asked, frames⟩)
  | reject {place met asked path segment v rest frames reason s} :
      State.excludes x path segment = .error reason →
      Step h x ⟨place, met, asked, ⟨path, (segment, v) :: rest⟩ :: frames⟩ (.rejected reason s)
  | skip {place met asked path segment v rest frames} :
      State.excludes x path segment = .ok true →
      Step h x ⟨place, met, asked, ⟨path, (segment, v) :: rest⟩ :: frames⟩
        (.running ⟨place, met, (questions x path segment).filterMap Event.asked? ++ asked,
          ⟨path, rest⟩ :: frames⟩)
  | stop {place met asked path segment v rest frames} :
      State.excludes x path segment = .ok false →
      (∀ r, v = .object r → h.parts? r = none ∨ place.get? r ≠ none) →
      Step h x ⟨place, met, asked, ⟨path, (segment, v) :: rest⟩ :: frames⟩
        (.running ⟨place, met, (questions x path segment).filterMap Event.asked? ++ asked,
          ⟨path, rest⟩ :: frames⟩)
  | enter {place met asked path segment r parts rest frames} :
      State.excludes x path segment = .ok false → h.parts? r = some parts → place.get? r = none →
      Step h x ⟨place, met, asked, ⟨path, (segment, .object r) :: rest⟩ :: frames⟩
        (.running ⟨place.record r met.length, (r, path.step segment) :: met,
          (questions x path segment).filterMap Event.asked? ++ asked,
          ⟨path.step segment, parts⟩ :: ⟨path, rest⟩ :: frames⟩)

theorem ask_eq {n : Nat} (s : State n) (path : KeyPath) (segment : Segment) :
    s.ask x path segment =
      { s with asked := (questions x path segment).filterMap Event.asked? ++ s.asked } := by
  cases segment with
  | key k => simp only [State.ask, questions]; split <;> rfl
  | index i => rfl

theorem step_next (s : State h.size) : Step h x s (s.next x) := by
  obtain ⟨place, met, asked, frames⟩ := s
  unfold State.next
  split
  next hf => cases hf; exact .done ..
  next path frames hf => cases hf; exact .leave ..
  next path segment v rest frames hf =>
    cases hf
    simp only [ask_eq]
    split
    next reason he => exact .reject he
    next he => exact .skip he
    next he =>
      unfold State.visit
      split
      next r =>
        split
        next parts hr hp => exact .enter he hp hr
        next hno =>
          refine .stop he fun r' hr' => ?_
          cases hr'
          cases hp : h.parts? r with
          | none => exact Or.inl rfl
          | some parts => exact Or.inr fun hr => hno parts hr hp
      next hno => exact .stop he fun r hr => absurd hr (hno r)

theorem run_finished {s t : State h.size} (hs : s.next x = .finished t) : s.run x = (none, t) := by
  rw [State.run]; split <;> simp_all

theorem run_running {s t : State h.size} (hs : s.next x = .running t) : s.run x = t.run x := by
  rw [State.run]; split <;> simp_all

/-- The numbering of the objects met by a walk follows the order in which they
    were met, and they have parts. -/
structure Numbered (h : Heap) (place : IdentityMap h.size Nat) (met : List (Ref × KeyPath)) :
    Prop where
  place_iff : ∀ r i, place.get? r = some i ↔ ∃ path, met.reverse[i]? = some (r, path)
  parts : ∀ r path, (r, path) ∈ met → (h.parts? r).isSome = true

theorem Numbered.empty : Numbered h (.empty h.size Nat) [] :=
  ⟨fun r i => by simp [IdentityMap.get?_empty], by simp⟩

theorem Numbered.get?_ne_none {place : IdentityMap h.size Nat} {met : List (Ref × KeyPath)}
    (hn : Numbered h place met) {r : Ref} : place.get? r ≠ none ↔ ∃ path, (r, path) ∈ met := by
  rw [Option.ne_none_iff_exists']
  constructor
  · rintro ⟨i, hi⟩
    obtain ⟨path, hp⟩ := (hn.place_iff r i).1 hi
    exact ⟨path, List.mem_reverse.1 (List.mem_of_getElem? hp)⟩
  · rintro ⟨path, hm⟩
    obtain ⟨i, hi⟩ := List.mem_iff_getElem?.1 (List.mem_reverse.2 hm)
    exact ⟨i, (hn.place_iff r i).2 ⟨path, hi⟩⟩

theorem Numbered.record {place : IdentityMap h.size Nat} {met : List (Ref × KeyPath)}
    (hn : Numbered h place met) {r : Ref} {parts : List (Segment × Value)}
    (hp : h.parts? r = some parts) (hr : place.get? r = none) (path : KeyPath) :
    Numbered h (place.record r met.length) ((r, path) :: met) := by
  have hfresh : ∀ path, (r, path) ∉ met := fun path hm => hn.get?_ne_none.2 ⟨path, hm⟩ hr
  refine ⟨fun s i => ?_, fun s path' hm => ?_⟩
  · -- the new object is the last one, so the places of the others stay
    rw [IdentityMap.get?_record, List.reverse_cons]
    by_cases hrs : r = s
    · subst hrs
      simp only [hr, lt_of_parts? hp, and_self, if_true, Option.some.injEq]
      constructor
      · rintro rfl
        exact ⟨path, by simp⟩
      · rintro ⟨path', hi⟩
        rw [List.getElem?_append] at hi
        split at hi
        next => exact absurd (List.mem_reverse.1 (List.mem_of_getElem? hi)) (hfresh path')
        next hlt =>
          obtain ⟨hone, -⟩ := List.getElem?_eq_some_iff.1 hi
          simp only [List.length_reverse, List.length_singleton] at hone hlt
          omega
    · rw [if_neg fun h => hrs h.1, hn.place_iff]
      refine exists_congr fun path' => ?_
      rw [List.getElem?_append]
      split
      next => rfl
      next hlt =>
        constructor
        · intro hi
          rw [List.getElem?_eq_none (by omega)] at hi
          simp at hi
        · intro hi
          have := List.mem_of_getElem? hi
          simp only [List.mem_singleton, Prod.mk.injEq] at this
          exact absurd this.1.symm hrs
  · rcases List.mem_cons.1 hm with hm | hm
    · cases hm; simp [hp]
    · exact hn.parts s path' hm

/-- The state of a walk that has left the log behind. -/
structure Behind (h : Heap) (s : State h.size) (log : List Event) : Prop where
  met : s.met = log.filterMap Event.met?
  asked : s.asked = log.filterMap Event.asked?
  numbered : Numbered h s.place s.met

theorem mem_met {log : List Event} {r : Ref} {path : KeyPath} :
    (r, path) ∈ log.filterMap Event.met? ↔ .met r path ∈ log := by
  rw [List.mem_filterMap]
  constructor
  · rintro ⟨e, he, hm⟩
    cases e <;> simp [Event.met?] at hm
    obtain ⟨rfl, rfl⟩ := hm
    exact he
  · exact fun he => ⟨_, he, rfl⟩

theorem Behind.get?_ne_none {s : State h.size} {log : List Event} (hb : Behind h s log) {r : Ref} :
    s.place.get? r ≠ none ↔ Met log r := by
  rw [hb.numbered.get?_ne_none, hb.met]
  simp only [mem_met, Met]

theorem met?_questions (x : Exclusion ε) (path : KeyPath) (segment : Segment) :
    (questions x path segment).filterMap Event.met? = [] := by
  cases segment with
  | key k => rw [questions]; split <;> rfl
  | index i => rfl

section
variable {place : IdentityMap h.size Nat} {met : List (Ref × KeyPath)}
  {asked : List (Key × KeyPath)} {frames : List Frame} {log : List Event}

theorem Behind.ask (hb : Behind h ⟨place, met, asked, frames⟩ log) (path : KeyPath)
    (segment : Segment) (frames' : List Frame) :
    Behind h ⟨place, met, (questions x path segment).filterMap Event.asked? ++ asked, frames'⟩
      (questions x path segment ++ log) := by
  refine ⟨?_, ?_, hb.numbered⟩
  · rw [List.filterMap_append, met?_questions]
    exact hb.met
  · rw [List.filterMap_append]
    exact congrArg _ hb.asked

theorem Behind.meet {r : Ref} {parts : List (Segment × Value)}
    (hb : Behind h ⟨place, met, asked, frames⟩ log) (hp : h.parts? r = some parts)
    (hr : place.get? r = none) (path : KeyPath) (frames' : List Frame) :
    Behind h ⟨place.record r met.length, (r, path) :: met, asked, frames'⟩
      (.met r path :: log) := by
  refine ⟨?_, hb.asked, hb.numbered.record hp hr path⟩
  rw [List.filterMap_cons_some (show Event.met? (.met r path) = some (r, path) from rfl)]
  exact congrArg _ hb.met

end

/-- **A walk whose predicate rejects nothing** visits all parts that are left
    and ends with the log that they leave. -/
theorem visitsAll_run (hx : x.Total) (s : State h.size) : ∀ log, Behind h s log →
    ∃ t log', s.run x = (none, t) ∧ VisitsAll h x s.frames log log' ∧ Behind h t log' := by
  induction s using State.run.induct x with
  | case1 s t hs =>
    intro log hb
    have hstep := step_next (x := x) s
    rw [hs] at hstep
    cases hstep
    exact ⟨_, log, run_finished hs, .nil log, hb⟩
  | case2 s reason t hs =>
    have hstep := step_next (x := x) s
    rw [hs] at hstep
    cases hstep with
    | @reject _ _ _ path segment _ _ _ _ _ he =>
      cases segment with
      | key k =>
        obtain ⟨excluded, hk⟩ := hx.exists_excludes k path
        rw [State.excludes, hk] at he
        simp at he
      | index i => simp [State.excludes] at he
  | case3 s s' hs ih =>
    intro log hb
    rw [run_running hs]
    have hstep := step_next (x := x) s
    rw [hs] at hstep
    cases hstep with
    | leave place met asked path frames =>
      obtain ⟨t, log', ht, hv, hb'⟩ := ih log ⟨hb.met, hb.asked, hb.numbered⟩
      exact ⟨t, log', ht, .cons (.nil path log) hv, hb'⟩
    | @skip place met asked path segment v rest frames he =>
      obtain ⟨t, log', ht, hv, hb'⟩ := ih _ (hb.ask path segment _)
      cases hv with
      | cons hv hvs => exact ⟨t, log', ht, .cons (.skip he hv) hvs, hb'⟩
    | @stop place met asked path segment v rest frames he hst =>
      obtain ⟨t, log', ht, hv, hb'⟩ := ih _ (hb.ask path segment _)
      cases hv with
      | cons hv hvs =>
        have hst' : Stops h log v := fun r hr => (hst r hr).imp_right hb.get?_ne_none.1
        exact ⟨t, log', ht, .cons (.stop he hst' hv) hvs, hb'⟩
    | @enter place met asked path segment r parts rest frames he hp hr =>
      obtain ⟨t, log', ht, hv, hb'⟩ := ih _ ((hb.ask path segment frames).meet hp hr _ _)
      -- the parts of `r` are the innermost frame, the other parts of its owner the next one
      cases hv with
      | cons hin hvs =>
        cases hvs with
        | cons hrest hvs =>
          have hfresh : ¬Met log r := fun hm => hb.get?_ne_none.2 hm hr
          exact ⟨t, log', ht, .cons (.enter he hp hfresh hin hrest) hvs, hb'⟩

/-- **The walk from a value** is the traversal of the value. -/
theorem traverses_run (hx : x.Total) (v : Value) : ∃ t log,
    (State.start h v).run x = (none, t) ∧ Traverses h x v log ∧ Behind h t log := by
  have hempty : Behind h ⟨.empty h.size Nat, [], [], []⟩ [] := ⟨rfl, rfl, Numbered.empty⟩
  by_cases hv : ∃ r parts, v = .object r ∧ h.parts? r = some parts
  · obtain ⟨r, parts, rfl, hp⟩ := hv
    have hr : (IdentityMap.empty h.size Nat).get? r = none := IdentityMap.get?_empty r
    have hstart : State.start h (.object r) =
        ⟨(IdentityMap.empty h.size Nat).record r 0, [(r, .root)], [], [⟨.root, parts⟩]⟩ := by
      simp [State.start, State.visit, hp, hr]
    rw [hstart]
    obtain ⟨t, log, ht, hv, hb⟩ := visitsAll_run hx _ _ (hempty.meet hp hr .root [⟨.root, parts⟩])
    cases hv with
    | cons hv hvs =>
      cases hvs
      exact ⟨t, log, ht, .enter hp hv, hb⟩
  · have hno : ∀ r, v = .object r → h.parts? r = none := by
      intro r hr
      cases hp : h.parts? r with
      | none => rfl
      | some parts => exact absurd ⟨r, parts, hr, hp⟩ hv
    have hstart : State.start h v = ⟨.empty h.size Nat, [], [], []⟩ := by
      unfold State.start State.visit
      split
      next r => simp [hno r rfl]
      next => rfl
    rw [hstart]
    obtain ⟨t, log, ht, hv, hb⟩ := visitsAll_run hx _ _ hempty
    cases hv
    exact ⟨t, [], ht, .stop fun r hr => Or.inl (hno r hr), hb⟩

end

end Pruning

end ValueGraph
