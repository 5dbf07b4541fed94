/-
  Traversals leave their inputs as they were.

  What a traversal writes to it has made itself.  The containers that it empties
  are the objects after the end of the heap from the start, all of them and
  nothing else, wherever a rejection has stopped it.

  * `Exclusion.Answered`: a rejection is the answer to the last question;
  * `Heap.Leaves`: a heap with the objects of another one, and nothing else but
    empty containers;
  * `Heap.tracked_of_omitTracked`: what pruning in place leaves, with whatever
    limit to its calls;
  * `Heap.leaves_of_exceptWithin`: what comparing in place leaves;
  * `Heap.inputs_unchanged`: no traversal changes what was there before.
-/
import ValueGraph.Proofs.BoundedCalls

namespace ValueGraph

open Pruning

/-! ## Questions and answers -/

namespace Exclusion

variable {ε α β : Type} {x : Exclusion ε} {questions : List (Key × KeyPath)}

/-- What the predicate says to a question. -/
def answer? (x : Exclusion ε) (question : Key × KeyPath) : Option (Except ε Bool) :=
  x.predicate.map fun p => p question.1 question.2

/-- The predicate decides about all the keys. -/
def Decided (x : Exclusion ε) (questions : List (Key × KeyPath)) : Prop :=
  ∀ question ∈ questions, ∃ excluded, x.answer? question = some (.ok excluded)

/-- **Answers to the questions** of a traversal.  If it comes through, the
    predicate has decided about all the keys.  If it is rejected, the reason is
    the answer to the last question, and the predicate has decided about all
    the keys before. -/
def Answered (x : Exclusion ε) (questions : List (Key × KeyPath)) : Except ε α → Prop
  | .ok _ => x.Decided questions
  | .error reason => ∃ before last, questions = before ++ [last] ∧ x.Decided before ∧
      x.answer? last = some (.error reason)

theorem Answered.map {outcome : Except ε α} (ha : x.Answered questions outcome) (f : α → β) :
    x.Answered questions (outcome.map f) := by
  cases outcome with
  | ok a => exact ha
  | error reason => exact ha

theorem Decided.append {later : List (Key × KeyPath)} (hd : x.Decided questions)
    (hl : x.Decided later) : x.Decided (questions ++ later) :=
  fun question hq => (List.mem_append.1 hq).elim (hd question) (hl question)

theorem Decided.answered_append {later : List (Key × KeyPath)} {outcome : Except ε α}
    (hd : x.Decided questions) (ha : x.Answered later outcome) :
    x.Answered (questions ++ later) outcome := by
  cases outcome with
  | ok a => exact hd.append ha
  | error reason =>
    obtain ⟨before, last, rfl, hbefore, hlast⟩ := ha
    exact ⟨questions ++ before, last, (List.append_assoc ..).symm, hd.append hbefore, hlast⟩

/-- The decision about a key that takes the predicate is its answer. -/
theorem answer?_of_asks {k : Key} (ha : x.asks k = true) (path : KeyPath) :
    x.answer? (k, path) = some (x.excludes k path) := by
  rw [asks, Bool.and_eq_true, decide_eq_true_eq, Option.isSome_iff_exists] at ha
  obtain ⟨hk, p, hp⟩ := ha
  rw [answer?, excludes, if_neg hk, hp]
  rfl

end Exclusion

namespace Pruning

variable {ε : Type} {x : Exclusion ε} {path : KeyPath} {segment : Segment} {c : Ref}
  {parts : List (Segment × Value)}

/-- The question about a part that is decided has a decision for an answer. -/
theorem decided_questions {excluded : Bool}
    (he : State.excludes x path segment = .ok excluded) :
    x.Decided ((questions x path segment).filterMap Event.asked?).reverse := by
  intro question hq
  rw [List.mem_reverse] at hq
  cases segment with
  | index i => cases hq
  | key k =>
    rw [questions] at hq
    split at hq
    next ha =>
      obtain rfl : question = (k, path) := by simpa [Event.asked?] using hq
      exact ⟨excluded, (Exclusion.answer?_of_asks ha path).trans (congrArg some he)⟩
    next => cases hq

/-- A part that is rejected is asked about. -/
theorem questions_of_rejected {reason : ε} (he : State.excludes x path segment = .error reason) :
    ∃ question, (questions x path segment).filterMap Event.asked? = [question] ∧
      x.answer? question = some (.error reason) := by
  cases segment with
  | index i => cases he
  | key k =>
    cases ha : x.asks k with
    | false =>
      rw [State.excludes, Exclusion.excludes_of_not_asks path ha] at he
      cases he
    | true =>
      refine ⟨(k, path), by rw [questions, if_pos ha]; rfl, ?_⟩
      rw [Exclusion.answer?_of_asks ha]
      exact congrArg some he

section
variable {n : Nat} {w w' : Workspace n}

/-- What parts are asked about is added to the questions, and answered. -/
theorem Fills.answered {out : Option ε} (hf : Fills x path c parts w out w') :
    ∃ asked, w'.asked = asked ++ w.asked ∧
      x.Answered asked.reverse (out.elim (.ok ()) .error) := by
  induction hf with
  | nil => exact ⟨[], rfl, fun question hq => by cases hq⟩
  | @reject path c segment v rest w reason he =>
    obtain ⟨question, hq, ha⟩ := questions_of_rejected he
    refine ⟨[question], by rw [Workspace.asked_ask, hq], [], question, rfl, ?_, ha⟩
    exact fun question hq => by cases hq
  | @skip path c segment v rest w out w' he _ ih =>
    obtain ⟨asked, hasked, ha⟩ := ih
    refine ⟨asked ++ (questions x path segment).filterMap Event.asked?, ?_, ?_⟩
    · rw [hasked, Workspace.asked_ask, List.append_assoc]
    · rw [List.reverse_append]
      exact (decided_questions he).answered_append ha
  | @stand path c segment v u rest w out w' he _ _ ih =>
    obtain ⟨asked, hasked, ha⟩ := ih
    refine ⟨asked ++ (questions x path segment).filterMap Event.asked?, ?_, ?_⟩
    · rw [hasked, Workspace.asked_write, Workspace.asked_ask, List.append_assoc]
    · rw [List.reverse_append]
      exact (decided_questions he).answered_append ha
  | @enter path c segment r o parts rest w w₀ w₁ w' out he hw₀ _ _ _ _ ih₁ ih₂ =>
    obtain ⟨inner, hinner, ha₁⟩ := ih₁
    obtain ⟨asked, hasked, ha⟩ := ih₂
    refine ⟨asked ++ (inner ++ (questions x path segment).filterMap Event.asked?), ?_, ?_⟩
    · rw [hasked, Workspace.asked_write, hinner, Workspace.enter, hw₀, Workspace.asked_ask]
      simp only [List.append_assoc]
    · rw [List.reverse_append, List.reverse_append]
      exact ((decided_questions he).append ha₁).answered_append ha
  | @abandon path c segment r o parts rest w w₀ w₁ reason he hw₀ _ _ _ ih =>
    obtain ⟨inner, hinner, ha⟩ := ih
    refine ⟨inner ++ (questions x path segment).filterMap Event.asked?, ?_, ?_⟩
    · rw [hinner, Workspace.enter, hw₀, Workspace.asked_ask, List.append_assoc]
    · rw [List.reverse_append]
      exact (decided_questions he).answered_append ha

end

/-- The questions about a value are answered. -/
theorem Makes.answered {h : Heap} {v : Value} {copy : Except ε Value} {w : Workspace h.size}
    (hm : Makes x path v (.start h) copy w) : x.Answered w.asked.reverse copy := by
  cases hm with
  | stand => exact fun question hq => by cases hq
  | enter _ _ hf | abandon _ _ hf =>
    obtain ⟨asked, hasked, ha⟩ := hf.answered
    have hasked : w.asked = asked := by simpa [Workspace.enter, Workspace.start] using hasked
    rw [hasked]
    exact ha

end Pruning

/-! ## Emptied containers -/

theorem Object.clear_clear (o : Object) : o.clear.clear = o.clear := by
  cases o <;> rfl

theorem IdentityMap.mem_values {n : Nat} {α : Type} {t : IdentityMap n α} {a : α} :
    a ∈ t.values ↔ ∃ r, t.get? r = some a := by
  rw [values, List.mem_filterMap]
  constructor
  · rintro ⟨slot, hslot, rfl⟩
    obtain ⟨i, hi, hget⟩ := List.mem_iff_getElem.1 hslot
    have hlt : i < n := by simpa using hi
    refine ⟨⟨i⟩, ?_⟩
    rw [get?, Vector.getElem?_eq_getElem hlt]
    simpa using hget
  · rintro ⟨r, hr⟩
    rw [get?, Option.join_eq_some_iff] at hr
    exact ⟨some a, by simpa using Vector.mem_of_getElem? hr, rfl⟩

namespace Heap

variable {h g k : Heap}

/-- The containers at the references are emptied, and nothing else is. -/
theorem get?_clearAll : ∀ (refs : List Ref) (h : Heap) (r : Ref), (h.clearAll refs).get? r =
    if r ∈ refs then (h.get? r).map Object.clear else h.get? r
  | [], _, _ => rfl
  | s :: refs, h, r => by
    show ((h.modify s Object.clear).clearAll refs).get? r = _
    rw [get?_clearAll refs, get?_modify]
    by_cases hsr : s = r
    · subst hsr
      have hclear : Object.clear ∘ Object.clear = Object.clear := funext Object.clear_clear
      simp [hclear]
    · simp [hsr, Ne.symm hsr]

/-- The objects of the first heap are as they were in the second one. -/
def Preserves (h g : Heap) : Prop := ∀ r, r.index < h.size → g.get? r = h.get? r

/-- **What a traversal leaves** in the end: the objects from the start as they
    were, and after them nothing but empty containers. -/
structure Leaves (h g : Heap) : Prop where
  preserves : h.Preserves g
  emptied : ∀ r o, h.size ≤ r.index → g.get? r = some o → o.clear = o

theorem leaves_self (h : Heap) : h.Leaves h where
  preserves _ _ := rfl
  emptied _ _ hr ho := absurd (lt_of_get? ho) (Nat.not_lt.2 hr)

/-- Emptying what lies after the end leaves nothing but what was there. -/
theorem leaves_clearAll {refs : List Ref} (hpreserves : h.Preserves g)
    (hrefs : ∀ r, r ∈ refs → h.size ≤ r.index)
    (hall : ∀ r o, h.size ≤ r.index → g.get? r = some o → r ∉ refs → o.clear = o) :
    h.Leaves (g.clearAll refs) where
  preserves r hr := by
    rw [get?_clearAll, if_neg fun hmem => Nat.not_lt.2 (hrefs r hmem) hr]
    exact hpreserves r hr
  emptied r o hr ho := by
    rw [get?_clearAll] at ho
    split at ho
    next =>
      obtain ⟨o', -, rfl⟩ := Option.map_eq_some_iff.1 ho
      exact o'.clear_clear
    next hmem => exact hall r o hr ho hmem

end Heap

/-! ## Pruning in place -/

namespace Pruning

variable {ε : Type} {h : Heap} {place : IdentityMap h.size Nat} {w : Workspace h.size}

/-- The copies in the table are the objects after the end. -/
theorem Accounts.mem_values (ha : Accounts h place w) {r : Ref} :
    r ∈ w.copies.values ↔ h.size ≤ r.index ∧ r.index < w.heap.size := by
  rw [IdentityMap.mem_values, ha.size]
  constructor
  · rintro ⟨s, hs⟩
    rw [ha.copies, copyOf] at hs
    obtain ⟨i, hi, rfl⟩ := Option.map_eq_some_iff.1 hs
    obtain ⟨path, hp⟩ := (ha.numbered.place_iff s i).1 hi
    obtain ⟨hlt, -⟩ := List.getElem?_eq_some_iff.1 hp
    rw [List.length_reverse] at hlt
    exact ⟨Nat.le_add_right .., Nat.add_lt_add_left hlt _⟩
  · rintro ⟨hge, hlt⟩
    obtain ⟨i, hi⟩ := Nat.exists_eq_add_of_le hge
    have hlen : i < w.copied.reverse.length := by rw [List.length_reverse]; omega
    have hplace : place.get? w.copied.reverse[i].1 = some i :=
      (ha.numbered.place_iff _ i).2 ⟨_, List.getElem?_eq_getElem hlen⟩
    refine ⟨w.copied.reverse[i].1, ?_⟩
    rw [ha.copies, copyOf, hplace, Option.map_some, ← hi]

/-- Emptying all copies leaves nothing but what was there at the start. -/
theorem Accounts.leaves (ha : Accounts h place w) :
    h.Leaves (w.heap.clearAll w.copies.values) :=
  Heap.leaves_clearAll ha.old (fun _ hr => (ha.mem_values.1 hr).1)
    fun _ _ hr ho hmem => absurd (ha.mem_values.2 ⟨hr, Heap.lt_of_get? ho⟩) hmem

end Pruning

namespace Heap

variable {ε : Type} {h : Heap} {x : Exclusion ε}

/-- **What pruning in place leaves**: the objects from the start as they were;
    after them the copies that it gives back, or after a rejection nothing but
    empty containers. -/
structure Tracked (h : Heap) (x : Exclusion ε) (e : Effect ε (Value × List Ref)) : Prop where
  answered : x.Answered e.questions e.outcome
  preserves : h.Preserves e.heap
  copies : ∀ copy refs, e.outcome = .ok (copy, refs) →
    ∀ r, r ∈ refs ↔ h.size ≤ r.index ∧ r.index < e.heap.size
  rejected : ∀ reason, e.outcome = .error reason → h.Leaves e.heap

theorem tracked_of_omitTracked {depth : Nat} {v : Value} {e : Effect ε (Value × List Ref)}
    (he : h.omitTracked depth v x = some e) : h.Tracked x e := by
  rw [omitTracked] at he
  obtain ⟨⟨copy, w⟩, hw, rfl⟩ := Option.map_eq_some_iff.1 he
  have hmakes := makes_of_copyValue hw
  obtain ⟨place, ha⟩ := hmakes.accounts (accounts_start h)
  have hanswered := hmakes.answered
  cases copy with
  | ok u =>
    refine ⟨hanswered, ha.old, ?_, ?_⟩
    · rintro copy refs ⟨⟩ r
      exact ha.mem_values
    · rintro reason ⟨⟩
  | error reason =>
    refine ⟨hanswered, ha.leaves.preserves, ?_, fun _ _ => ha.leaves⟩
    rintro copy refs ⟨⟩

/-! ## Comparing in place -/

/-- **What comparing in place leaves**: nothing but what was there at the start,
    and empty containers. -/
theorem leaves_of_exceptWithin {bound : Heap → Value → Nat} {a b : Value} {e : Effect ε Bool}
    (he : h.exceptWithin bound a b x = some e) :
    x.Answered e.questions e.outcome ∧ h.Leaves e.heap := by
  rw [exceptWithin] at he
  split at he
  next =>
    obtain ⟨equal, -, rfl⟩ := Option.map_eq_some_iff.1 he
    exact ⟨fun question hq => absurd hq List.not_mem_nil, leaves_self h⟩
  next =>
    obtain ⟨left, hleft, he⟩ := Option.bind_eq_some_iff.1 he
    have hl := tracked_of_omitTracked hleft
    have hsize := size_le_of_old hl.preserves
    split at he
    next reason hout =>
      cases he
      have hanswered := hl.answered
      rw [hout] at hanswered
      exact ⟨hanswered, hl.rejected reason hout⟩
    next l leftCopies hout =>
      have hdecided := hl.answered
      rw [hout] at hdecided
      have hcopies := hl.copies l leftCopies hout
      have hbefore : ∀ r, r ∈ leftCopies → h.size ≤ r.index := fun r hr => ((hcopies r).1 hr).1
      obtain ⟨right, hright, he⟩ := Option.bind_eq_some_iff.1 he
      have hr := tracked_of_omitTracked hright
      -- what is neither from the start nor a left copy lies after the left heap
      have hafter : ∀ r : Ref, h.size ≤ r.index → r ∉ leftCopies → left.heap.size ≤ r.index :=
        fun r hge hmem => Nat.not_lt.1 fun hlt => hmem ((hcopies r).2 ⟨hge, hlt⟩)
      split at he
      next reason hout' =>
        cases he
        have hleaves := hr.rejected reason hout'
        have hanswered := hr.answered
        rw [hout'] at hanswered
        refine ⟨Exclusion.Decided.answered_append hdecided hanswered, ?_⟩
        exact leaves_clearAll (old_trans hl.preserves hleaves.preserves) hbefore
          fun r o hge ho hmem => hleaves.emptied r o (hafter r hge hmem) ho
      next u rightCopies hout' =>
        obtain ⟨equal, -, he⟩ := Option.bind_eq_some_iff.1 he
        cases he
        have hanswered := hr.answered
        rw [hout'] at hanswered
        have hleaves : left.heap.Leaves (right.heap.clearAll rightCopies) :=
          leaves_clearAll hr.preserves (fun r hmem => ((hr.copies _ _ hout' r).1 hmem).1)
            fun r o hge ho hmem =>
              absurd ((hr.copies _ _ hout' r).2 ⟨hge, lt_of_get? ho⟩) hmem
        refine ⟨Exclusion.Decided.answered_append hdecided hanswered, ?_⟩
        exact leaves_clearAll (old_trans hl.preserves hleaves.preserves) hbefore
          fun r o hge ho hmem => hleaves.emptied r o (hafter r hge hmem) ho

/-! ## Inputs -/

theorem extent_lt_size_succ (h : Heap) (v : Value) : h.extent v < h.size + 1 :=
  Nat.lt_succ_of_le (h.extent_le_size v)

/-- **No traversal changes what was there before**, whatever the predicate says
    and wherever it rejects.  Pruning and comparing in place give what
    `Heap.prune` and `Heap.deepEqualExcept` give; the objects from the start
    are in the end as they were; after a rejection, and after every
    comparison, all new containers are empty.  The reason of a rejection is
    what the predicate said to the last question. -/
theorem inputs_unchanged (h : Heap) (a b : Value) (x : Exclusion ε) :
    (∃ e, h.omitWithin (h.size + 1) a x = some e ∧
      h.prune a x = ⟨e.questions, e.outcome.map fun copy => ⟨e.heap, copy⟩⟩ ∧
      h.Preserves e.heap ∧ x.Answered e.questions e.outcome ∧
      ∀ reason, e.outcome = .error reason → h.Leaves e.heap) ∧
    ∃ e, h.exceptWithin (fun g _ => g.size + 1) a b x = some e ∧
      h.deepEqualExcept a b x = e.toTraced ∧ h.Leaves e.heap ∧ x.Answered e.questions e.outcome := by
  constructor
  · obtain ⟨e, he, hprune⟩ := exists_omitTracked (h.extent_lt_size_succ a) x
    have htracked := tracked_of_omitTracked he
    refine ⟨⟨⟨e.questions, e.outcome.map Prod.fst⟩, e.heap⟩, by rw [omitWithin, he]; rfl, ?_,
      htracked.preserves, htracked.answered.map _, ?_⟩
    · rw [hprune]
      cases e.outcome <;> rfl
    · intro reason hout
      cases hmade : e.outcome with
      | ok made =>
        rw [hmade] at hout
        cases hout
      | error reason => exact htracked.rejected reason hmade
  · obtain ⟨e, he, hexcept⟩ := exists_exceptWithin extent_lt_size_succ h a b x
    obtain ⟨hanswered, hleaves⟩ := leaves_of_exceptWithin he
    exact ⟨e, he, hexcept, hleaves, hanswered⟩

end Heap

end ValueGraph
