/-
  Which questions a traversal puts to the predicate, and when.

  The predicate is asked about each own enumerable key of each plain object that
  the traversal goes into, unless the key is ignored anyway: once, with the path
  by which the traversal went in, and before the traversal goes into the value
  under the key.

  * `Heap.AsksInOrder`: the questions in depth-first order;
  * `AsksInOrder.unique`: there is one such list;
  * `Pruning.Traverses.asksInOrder`: a traversal puts these questions;
  * `Pruning.copyValueAlong_matches`: calls that share one path leave it as they
    find it, so each question is asked with the path of the object;
  * `Heap.questions_in_order`: the questions of pruning and comparing.
-/
import ValueGraph.Proofs.BoundedCalls
import ValueGraph.Proofs.FirstVisits
import ValueGraph.Pruning.SharedPath

namespace ValueGraph

open Pruning

/-! ## Questions in order -/

namespace Heap

variable {ε : Type} {h : Heap} {x : Exclusion ε} {v : Value}
  {entered entered' : Ref → KeyPath → Prop} {questions questions' : List (Key × KeyPath)}

/-- **The questions** of a traversal that goes into objects by the paths by which
    they are `entered`: one about each own enumerable key of each plain object
    among them for which it takes the predicate, with the path of the object.
    They are in the depth-first order of the properties. -/
structure AsksInOrder (h : Heap) (x : Exclusion ε) (v : Value) (entered : Ref → KeyPath → Prop)
    (questions : List (Key × KeyPath)) : Prop where
  first : h.EntersFirst x v entered
  mem : ∀ k path, (k, path) ∈ questions ↔ ∃ r p, entered r path ∧ h.get? r = some (.plain p) ∧
    p.hasEnumerable k = true ∧ x.asks k = true
  sorted : questions.Pairwise fun q q' =>
    h.Sooner v (q.2.step (.key q.1)) (q'.2.step (.key q'.1))

/-- No question is put twice. -/
theorem AsksInOrder.nodup (ha : h.AsksInOrder x v entered questions) : questions.Nodup := by
  refine ha.sorted.imp fun hs heq => ?_
  subst heq
  exact hs.asymm hs

/-- **There is one list** of questions. -/
theorem AsksInOrder.unique (ha : h.AsksInOrder x v entered questions)
    (ha' : h.AsksInOrder x v entered' questions') : questions = questions' := by
  have hperm : questions.Perm questions' := by
    rw [List.perm_ext_iff_of_nodup ha.nodup ha'.nodup]
    rintro ⟨k, path⟩
    rw [ha.mem, ha'.mem]
    simp only [ha.first.unique ha'.first]
  refine hperm.eq_of_pairwise (fun q q' _ _ hs hs' => ?_) ha.sorted ha'.sorted
  exact absurd hs' hs.asymm

end Heap

namespace Pruning

open Heap

variable {ε : Type} {h : Heap} {x : Exclusion ε} {v w : Value} {path : KeyPath}
  {place : List Nat} {parts : List (Segment × Value)} {r : Ref} {segment : Segment}
  {log log' : List Event} {k : Key}

/-! ## The questions of a traversal -/

/-- A part with a key, about which it takes the predicate to decide. -/
def Questioned (x : Exclusion ε) (parts : List (Segment × Value)) (k : Key) : Prop :=
  x.asks k = true ∧ ∃ w, (.key k, w) ∈ parts

theorem Questioned.cons (hq : Questioned x parts k) (part : Segment × Value) :
    Questioned x (part :: parts) k := by
  obtain ⟨ha, w, hw⟩ := hq
  exact ⟨ha, w, List.mem_cons_of_mem _ hw⟩

theorem asked_mem_questions {p : KeyPath} :
    .asked k p ∈ questions x path segment ↔ segment = .key k ∧ p = path ∧ x.asks k = true := by
  cases segment with
  | key l =>
    rw [questions]
    by_cases hl : x.asks l = true
    · rw [if_pos hl, List.mem_singleton]
      constructor
      · intro he
        cases he
        exact ⟨rfl, rfl, hl⟩
      · rintro ⟨⟨⟩, rfl, -⟩
        rfl
    · rw [if_neg hl]
      refine iff_of_false List.not_mem_nil ?_
      rintro ⟨⟨⟩, -, hk⟩
      exact hl hk
  | index i => simp [questions]

/-- The keys of an object that has parts. -/
theorem exists_mem_parts_iff (hp : h.parts? r = some parts) :
    (∃ w, (.key k, w) ∈ parts) ↔ ∃ p, h.get? r = some (.plain p) ∧ p.hasEnumerable k = true := by
  obtain ⟨o, ho, hparts⟩ := Option.bind_eq_some_iff.1 hp
  rw [ho]
  cases o with
  | array items =>
    cases hparts
    simp
  | plain p =>
    rw [Object.parts?] at hparts
    split at hparts
    next =>
      cases hparts
      simp [← PlainObject.mem_keys_entries]
    next => cases hparts
  | _ => cases hparts

/-- What is asked about is a part of the object, or of an object that is met. -/
theorem Visits.asked_came (hv : Visits h x path parts log log') : ∀ k p, .asked k p ∈ log' →
    .asked k p ∈ log ∨ (p = path ∧ Questioned x parts k) ∨
      ∃ r ps, .met r p ∈ log' ∧ h.parts? r = some ps ∧ Questioned x ps k := by
  induction hv with
  | nil => exact fun k p hm => .inl hm
  | @skip path segment v rest log log' _ _ ih | @stop path segment v rest log log' _ _ _ ih =>
    intro k p hm
    rcases ih k p hm with hm | ⟨rfl, hq⟩ | hm
    · rcases List.mem_append.1 hm with hm | hm
      · obtain ⟨rfl, rfl, hk⟩ := asked_mem_questions.1 hm
        exact .inr (.inl ⟨rfl, hk, v, List.mem_cons_self ..⟩)
      · exact .inl hm
    · exact .inr (.inl ⟨rfl, hq.cons _⟩)
    · exact .inr (.inr hm)
  | @enter path segment r parts rest log log₁ log' _ hp _ hin hrest ih₁ ih₂ =>
    intro k p hm
    rcases ih₂ k p hm with hm | ⟨rfl, hq⟩ | hm
    · rcases ih₁ k p hm with hm | ⟨rfl, hq⟩ | ⟨s, ps, hs, hps, hq⟩
      · rcases List.mem_cons.1 hm with hm | hm
        · cases hm
        · rcases List.mem_append.1 hm with hm | hm
          · obtain ⟨rfl, rfl, hk⟩ := asked_mem_questions.1 hm
            exact .inr (.inl ⟨rfl, hk, _, List.mem_cons_self ..⟩)
          · exact .inl hm
      · refine .inr (.inr ⟨r, parts, ?_, hp, hq⟩)
        exact hrest.subset (hin.subset (List.mem_cons_self ..))
      · exact .inr (.inr ⟨s, ps, hrest.subset hs, hps, hq⟩)
    · exact .inr (.inl ⟨rfl, hq.cons _⟩)
    · exact .inr (.inr hm)

/-- **No question is forgotten**: neither about a key of the object, nor about one
    of an object met on the way. -/
theorem Visits.asked_all (hv : Visits h x path parts log log') :
    (∀ k, Questioned x parts k → .asked k path ∈ log') ∧
      ∀ r p, .met r p ∈ log' → .met r p ∈ log ∨
        ∀ ps, h.parts? r = some ps → ∀ k, Questioned x ps k → .asked k p ∈ log' := by
  induction hv with
  | nil => exact ⟨fun k hq => absurd hq.2.choose_spec List.not_mem_nil, fun r p hm => .inl hm⟩
  | skip _ hv ih | stop _ _ hv ih =>
    refine ⟨fun k hq => ?_, fun r p hm => (ih.2 r p hm).imp_left mem_questions_append.1⟩
    obtain ⟨hk, w, hw⟩ := hq
    rcases List.mem_cons.1 hw with hw | hw
    · cases hw
      exact hv.subset (List.mem_append_left _ (asked_mem_questions.2 ⟨rfl, rfl, hk⟩))
    · exact ih.1 k ⟨hk, w, hw⟩
  | @enter path segment r parts rest log log₁ log' _ hp _ hin hrest ih₁ ih₂ =>
    refine ⟨fun k hq => ?_, fun s p hm => ?_⟩
    · obtain ⟨hk, w, hw⟩ := hq
      rcases List.mem_cons.1 hw with hw | hw
      · cases hw
        refine hrest.subset (hin.subset (List.mem_cons_of_mem _ (List.mem_append_left _ ?_)))
        exact asked_mem_questions.2 ⟨rfl, rfl, hk⟩
      · exact ih₂.1 k ⟨hk, w, hw⟩
    · rcases ih₂.2 s p hm with hm | hall
      · rcases ih₁.2 s p hm with hm | hall
        · rcases List.mem_cons.1 hm with hm | hm
          · cases hm
            refine .inr fun ps hps k hq => ?_
            rw [hp] at hps
            cases hps
            exact hrest.subset (ih₁.1 k hq)
          · exact .inl (mem_questions_append.1 hm)
        · exact .inr fun ps hps k hq => hrest.subset (hall ps hps k hq)
      · exact .inr hall

/-- The questions of a log, the latest first, are in order. -/
def InOrder (h : Heap) (v : Value) (log : List Event) : Prop :=
  (log.filterMap Event.asked?).Pairwise fun q q' =>
    h.Sooner v (q'.2.step (.key q'.1)) (q.2.step (.key q.1))

theorem mem_asked {p : KeyPath} : (k, p) ∈ log.filterMap Event.asked? ↔ .asked k p ∈ log := by
  rw [List.mem_filterMap]
  constructor
  · rintro ⟨e, he, hm⟩
    cases e with
    | met => cases hm
    | asked => cases hm; exact he
  · exact fun he => ⟨_, he, rfl⟩

theorem InOrder.ask (hs : InOrder h v log) (hpast : Past h v log place)
    (hw : h.Placed v (path.step segment) place w) (x : Exclusion ε) :
    InOrder h v (questions x path segment ++ log) := by
  cases segment with
  | index i => exact hs
  | key k =>
    rw [questions]
    split
    next =>
      refine List.pairwise_cons.2 ⟨?_, hs⟩
      rintro ⟨l, p⟩ hm
      obtain ⟨place', w', hp, hb⟩ := hpast _ (mem_asked.1 hm)
      exact ⟨place', place, w', w, hp, hw, hb⟩
    next => exact hs

theorem Visits.inOrder (hv : Visits h x path parts log log') : ∀ {place i},
    PartsLeft h v path place i parts → Past h v log (place ++ [i]) → InOrder h v log →
      InOrder h v log' := by
  induction hv with
  | nil => exact fun _ _ hs => hs
  | skip _ _ ih | stop _ _ _ ih =>
    intro place i hl hpast hs
    exact ih hl.tail (hpast.next hl.placed x) (hs.ask hpast hl.placed x)
  | enter _ hp _ hin _ ih₁ ih₂ =>
    intro place i hl hpast hs
    have hstart := partsLeft_zero hl.placed hp
    have hpast₀ := hpast.enter hl.placed x
    exact ih₂ hl.tail (hin.past hstart hpast₀).leave
      (ih₁ hstart hpast₀ (hs.ask hpast hl.placed x))

/-- A traversal asks about the keys of the objects that it meets. -/
theorem Traverses.asked_iff (ht : Traverses h x v log) {p : KeyPath} : .asked k p ∈ log ↔
    ∃ r o, .met r p ∈ log ∧ h.get? r = some (.plain o) ∧ o.hasEnumerable k = true ∧
      x.asks k = true := by
  have hkeys : ∀ {r ps}, h.parts? r = some ps → (Questioned x ps k ↔
      ∃ o, h.get? r = some (.plain o) ∧ o.hasEnumerable k = true ∧ x.asks k = true) := by
    intro r ps hps
    rw [Questioned, exists_mem_parts_iff hps, and_comm]
    simp only [← and_assoc, exists_and_right]
  constructor
  · intro hm
    suffices hq : ∃ r ps, .met r p ∈ log ∧ h.parts? r = some ps ∧ Questioned x ps k by
      obtain ⟨r, ps, hr, hps, hq⟩ := hq
      obtain ⟨o, ho⟩ := (hkeys hps).1 hq
      exact ⟨r, o, hr, ho⟩
    cases ht with
    | stop => cases hm
    | @enter r parts log hp hv =>
      rcases hv.asked_came k p hm with hm | ⟨rfl, hq⟩ | hm
      · cases List.mem_singleton.1 hm
      · exact ⟨r, parts, hv.subset (List.mem_cons_self ..), hp, hq⟩
      · exact hm
  · rintro ⟨r, o, hr, ho⟩
    obtain ⟨ps, hps⟩ := Option.isSome_iff_exists.1 (ht.isSome_parts? ⟨p, hr⟩)
    have hq : Questioned x ps k := (hkeys hps).2 ⟨o, ho⟩
    cases ht with
    | stop => cases hr
    | @enter r₀ parts log hp hv =>
      rcases hv.asked_all.2 r p hr with hm | hall
      · cases List.mem_singleton.1 hm
        rw [hp] at hps
        cases hps
        exact hv.asked_all.1 k hq
      · exact hall ps hps k hq

/-- **A traversal puts the right questions**, in depth-first order. -/
theorem Traverses.asksInOrder (ht : Traverses h x v log) (hx : x.Total) :
    h.AsksInOrder x v (fun r p => .met r p ∈ log) (log.filterMap Event.asked?).reverse where
  first := ht.entersFirst hx
  mem k p := by rw [List.mem_reverse, mem_asked, ht.asked_iff]
  sorted := by
    rw [List.pairwise_reverse]
    cases ht with
    | stop => exact .nil
    | enter hp hv => exact hv.inOrder (partsLeft_zero .root hp) (past_root _) .nil

/-! ## Calls that share a path -/

section
variable {n : Nat} {α : Type}

/-- A result with a walker is one with a workspace, and if the call has come to
    its end the walker has the path with which the call was made. -/
inductive Matches (ended : α → Prop) (path : KeyPath) :
    Option (α × Walker n) → Option (α × Workspace n) → Prop
  | stuck : Matches ended path none none
  | done {a : α} {w : Walker n} : (ended a → w.path = path) →
      Matches ended path (some (a, w)) (some (a, w.toWorkspace))

/-- The copy of a value is there. -/
def Copied (copy : Except ε Value) : Prop := ∃ u, copy = .ok u

/-- If the calls for values leave the path as it was, so does copying parts. -/
theorem copyPartsAlong_matches (x : Exclusion ε)
    {along : Value → Walker n → Option (Except ε Value × Walker n)}
    {copy : KeyPath → Value → Workspace n → Option (Except ε Value × Workspace n)}
    (hcopy : ∀ v w, Matches Copied w.path (along v w) (copy w.path v w.toWorkspace)) (c : Ref) :
    ∀ (parts : List (Segment × Value)) (w : Walker n),
      Matches (· = none) w.path (copyPartsAlong along x c parts w)
        (copyParts copy x w.path c parts w.toWorkspace)
  | [], w => .done fun _ => rfl
  | (segment, v) :: rest, w => by
    have hpath : (w.ask x segment).path = w.path := rfl
    simp only [copyPartsAlong, copyParts, hpath]
    cases State.excludes x w.path segment with
    | error reason => exact .done (fun hnone => by cases hnone)
    | ok excluded =>
      cases excluded with
      | true => exact copyPartsAlong_matches x hcopy c rest (w.ask x segment)
      | false =>
        -- the call is made with one more step on the path, which is taken off when it ends
        have hcall : Matches Copied (w.path.step segment)
            (along v ((w.ask x segment).push segment))
            (copy (w.path.step segment) v (w.toWorkspace.ask x w.path segment)) :=
          hcopy v ((w.ask x segment).push segment)
        generalize along v ((w.ask x segment).push segment) = result at hcall ⊢
        generalize copy (w.path.step segment) v (w.toWorkspace.ask x w.path segment) =
          result' at hcall ⊢
        cases hcall with
        | stuck => exact .stuck
        | @done out w' hended =>
          cases out with
          | error reason => exact .done (fun hnone => by cases hnone)
          | ok u =>
            have hpop : (w'.pop.write c segment u).path = w.path := by
              simp only [Walker.write, Walker.pop, hended ⟨u, rfl⟩, KeyPath.parent]
            have hrest := copyPartsAlong_matches x hcopy c rest (w'.pop.write c segment u)
            rw [hpop] at hrest
            exact hrest

/-- **A call leaves the path as it was**, whatever the value is: a value that
    stands for itself, one that has been copied before, or a new copy. -/
theorem copyValueAlong_matches (x : Exclusion ε) : ∀ (depth : Nat) (v : Value) (w : Walker n),
    Matches Copied w.path (copyValueAlong x depth v w) (copyValue x depth w.path v w.toWorkspace)
  | 0, _, _ => .stuck
  | depth + 1, v, w => by
    cases v with
    | object r =>
      rw [copyValueAlong, copyValue]
      cases w.copies.get? r with
      | some c => exact .done fun _ => rfl
      | none =>
        cases w.source? r with
        | none => exact .done fun _ => rfl
        | some source =>
          obtain ⟨o, parts⟩ := source
          have hparts : Matches (· = none) w.path
              (copyPartsAlong (copyValueAlong x depth) x w.heap.next parts (w.enter r o))
              (copyParts (copyValue x depth) x w.path w.heap.next parts
                (w.toWorkspace.enter r o w.path)) :=
            copyPartsAlong_matches x (copyValueAlong_matches x depth) _ parts (w.enter r o)
          simp only
          generalize copyPartsAlong (copyValueAlong x depth) x w.heap.next parts (w.enter r o) =
            result at hparts ⊢
          generalize copyParts (copyValue x depth) x w.path w.heap.next parts
            (w.toWorkspace.enter r o w.path) = result' at hparts ⊢
          cases hparts with
          | stuck => exact .stuck
          | @done out w' hended =>
            cases out with
            | some reason =>
              refine .done ?_
              rintro ⟨u, ⟨⟩⟩
            | none => exact .done fun _ => hended rfl
    | _ => exact .done fun _ => rfl

end

end Pruning

/-! ## Pruning and comparing -/

namespace Heap

variable {ε : Type} {h : Heap} {x : Exclusion ε} {a b v : Value} {depth : Nat}
  {questions : List (Key × KeyPath)}

theorem exists_traverses_asked (h : Heap) (v : Value) (hx : x.Total) : ∃ log, Traverses h x v log ∧
    (h.prune v x).questions = (log.filterMap Event.asked?).reverse := by
  obtain ⟨t, log, ht, hv, hb⟩ := traverses_run hx v
  refine ⟨log, hv, ?_⟩
  rw [prune, ht, ← hb.asked]

/-- Pruning puts these questions and no others. -/
theorem questions_prune_iff (h : Heap) (v : Value) (hx : x.Total) :
    (h.prune v x).questions = questions ↔ ∃ entered, h.AsksInOrder x v entered questions := by
  obtain ⟨log, ht, hq⟩ := exists_traverses_asked h v hx
  rw [hq]
  constructor
  · rintro rfl
    exact ⟨_, ht.asksInOrder hx⟩
  · rintro ⟨entered, ha⟩
    exact (ht.asksInOrder hx).unique ha

/-- Copying along one path comes back to the root, with the questions of
    `Heap.prune`. -/
theorem exists_copyAlong (hd : h.extent v < depth) (hx : x.Total) : ∃ copy w,
    h.copyAlong depth v x = some (.ok copy, w) ∧ w.path = .root ∧
      w.asked.reverse = (h.prune v x).questions := by
  obtain ⟨copy, w, hw, hprune, -⟩ := exists_copyWithin hd x
  obtain ⟨made, -, -, hout, -⟩ := exists_copies h v hx
  have hmatches : Matches Copied .root (h.copyAlong depth v x) (h.copyWithin depth v x) :=
    copyValueAlong_matches x depth v (Walker.start h)
  rw [hw] at hmatches
  cases copy with
  | error reason =>
    rw [hprune] at hout
    cases hout
  | ok u =>
    generalize h.copyAlong depth v x = result at hmatches ⊢
    cases hmatches with
    | @done _ w' hended => exact ⟨u, w', rfl, hended ⟨u, rfl⟩, by rw [hprune]⟩

/-- The left copies do not show in the questions about the right value. -/
theorem questions_deepEqualExcept (hc : h.Closed) (hb : InHeap h b) (hx : x.Total) :
    (h.deepEqualExcept a b x).questions =
      if x.isEmpty then [] else (h.prune a x).questions ++ (h.prune b x).questions := by
  rw [deepEqualExcept]
  cases x.isEmpty with
  | true => rfl
  | false =>
    obtain ⟨left, log, c, hleft, -, -, hcopies⟩ := exists_copies h a hx
    obtain ⟨log, ht, hq⟩ := exists_traverses_asked h b hx
    obtain ⟨log', ht', hq'⟩ := exists_traverses_asked left.heap b hx
    obtain rfl := (ht.grow hcopies.old hc hb).deterministic ht'
    simp only [Bool.false_eq_true, if_false, hleft, hq', hq]

/-- **The predicate is asked the right questions**, if it rejects nothing.
    Pruning puts the questions that there are, in depth-first order, each with
    the path by which the traversal went into the object first.  They are the
    same when all calls share one path, which is back at the root in the end.
    Comparing values of a heap puts the questions about the left value and then
    those about the right one, or none if nothing is excluded. -/
theorem questions_in_order (h : Heap) (a b : Value) (hx : x.Total) :
    (∀ questions, (h.prune a x).questions = questions ↔
      ∃ entered, h.AsksInOrder x a entered questions) ∧
    (∀ depth, h.extent a < depth → ∃ copy w, h.copyAlong depth a x = some (.ok copy, w) ∧
      w.path = .root ∧ w.asked.reverse = (h.prune a x).questions) ∧
    (h.Closed → InHeap h b → (h.deepEqualExcept a b x).questions =
      if x.isEmpty then [] else (h.prune a x).questions ++ (h.prune b x).questions) :=
  ⟨fun _ => questions_prune_iff h a hx, fun _ hd => exists_copyAlong hd hx,
    fun hc hb => questions_deepEqualExcept hc hb hx⟩

/-- An object with another one under two keys, which leads back to it, and a
    third one under a third key. -/
def ring : Heap :=
  ⟨#[.plain (.ofEntries .object [(.name "left", .object ⟨1⟩), (.name "secret", .object ⟨2⟩),
      (.name "right", .object ⟨1⟩)]),
    .plain (.ofEntries .object [(.name "id", .null), (.name "up", .object ⟨0⟩)]),
    .plain (.ofEntries .object [(.name "hidden", .null)])]⟩

/-- Ignores one key, and has a predicate that leaves out another one. -/
def secretDropped : Exclusion Empty :=
  (Exclusion.nothing.ignoreKey (.name "id")).withPredicate fun k _ => .ok (k == .name "secret")

theorem questions_in_order_ring : ring.Closed ∧ InHeap ring (.object ⟨1⟩) ∧ secretDropped.Total ∧
    ring.extent (.object ⟨0⟩) < 4 ∧
    (ring.prune (.object ⟨0⟩) secretDropped).questions =
      [(.name "left", .root), (.name "up", .step .root (.key (.name "left"))),
        (.name "secret", .root), (.name "right", .root)] ∧
    (ring.deepEqualExcept (.object ⟨0⟩) (.object ⟨1⟩) secretDropped).questions =
      (ring.prune (.object ⟨0⟩) secretDropped).questions ++
        (ring.prune (.object ⟨1⟩) secretDropped).questions := by
  have hc : ring.Closed := by decide
  have hb : InHeap ring (.object ⟨1⟩) := by decide
  have hx : secretDropped.Total := Exclusion.Total.withPredicate _ _
  have hd : ring.extent (.object ⟨0⟩) < 4 := Nat.lt_succ_of_le (ring.extent_le_size (.object ⟨0⟩))
  obtain ⟨-, halong, hexcept⟩ := questions_in_order ring (.object ⟨0⟩) (.object ⟨1⟩) hx
  obtain ⟨copy, w, hw, -, hquestions⟩ := halong 4 hd
  have hasked : (ring.copyAlong 4 (.object ⟨0⟩) secretDropped).map (·.2.asked.reverse) =
      some [(.name "left", .root), (.name "up", .step .root (.key (.name "left"))),
        (.name "secret", .root), (.name "right", .root)] := by
    decide
  rw [hw, Option.map_some, Option.some.injEq, hquestions] at hasked
  exact ⟨hc, hb, hx, hd, hasked, hexcept hc hb⟩

end Heap

end ValueGraph
