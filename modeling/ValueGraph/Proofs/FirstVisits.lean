/-
  By which path a traversal enters an object.

  A traversal goes into an object when it first comes to it, and into no object
  a second time.  What it leaves out below an object depends on the path by
  which it went in, so which objects it goes into, and by which paths, depend on
  each other.  In depth-first order they are determined all the same.

  * `Heap.Placed`: what a path leads to, and its place among all paths;
  * `Heap.Sooner`: the depth-first order of paths;
  * `Heap.Comes`, `Heap.EntersFirst`: the paths of a traversal that goes into
    objects by some paths, and goes in where it comes first;
  * `EntersFirst.unique`: there is one choice of such paths;
  * `Pruning.Past`, `Pruning.MetBy`: what has been met before a place, and by a
    path;
  * `Pruning.Traverses.entersFirst`: the traversal makes the choice.
-/
import Mathlib.Data.List.Lex
import Mathlib.Data.Set.Finite.Lattice
import Mathlib.Data.Set.Finite.Lemmas
import ValueGraph.Proofs.KeptContents
import ValueGraph.Proofs.Refusals

namespace ValueGraph

open Pruning

namespace Heap

variable {ε : Type} {h : Heap} {x : Exclusion ε} {v w w' : Value} {path path' : KeyPath}
  {place place' place'' : List Nat} {parts : List (Segment × Value)} {r : Ref}

/-! ## Places -/

theorem Before.trans (hb : Before place place') (hb' : Before place' place'') :
    Before place place'' :=
  List.lt_trans hb hb'

theorem before_append {i : Nat} (rest : List Nat) : Before place (place ++ i :: rest) := by
  induction place with
  | nil => exact .nil
  | cons j place ih => exact .cons ih

theorem before_append_of_lt {i j : Nat} (hij : i < j) (rest : List Nat) :
    Before (place ++ i :: rest) (place ++ [j]) :=
  List.Lex.append_left _ (.rel hij) place

theorem before_trichotomy (place place' : List Nat) :
    place = place' ∨ Before place place' ∨ Before place' place := by
  rcases lt_trichotomy place place' with hlt | heq | hgt
  · exact .inr (.inl hlt)
  · exact .inl heq
  · exact .inr (.inr hgt)

/-- What a path from `v` leads to, and the place of the path: which of the parts
    of each object on the way it goes to, from `v` on. -/
inductive Placed (h : Heap) (v : Value) : KeyPath → List Nat → Value → Prop
  | root : Placed h v .root [] v
  | step {path : KeyPath} {place : List Nat} {r : Ref} {parts : List (Segment × Value)} {i : Nat}
      {segment : Segment} {w : Value} : Placed h v path place (.object r) →
      h.parts? r = some parts → parts[i]? = some (segment, w) →
      Placed h v (path.step segment) (place ++ [i]) w

/-- No two parts of an object are the same step away. -/
theorem nodup_segments (hp : h.parts? r = some parts) : (parts.map Prod.fst).Nodup := by
  obtain ⟨o, -, ho⟩ := Option.bind_eq_some_iff.1 hp
  cases o with
  | array items =>
    cases ho
    have hsteps : (items.zipIdx.map Prod.snd).Nodup := by
      rw [List.zipIdx_map_snd]
      exact List.nodup_range'
    have hindices := hsteps.map (f := Segment.index) fun _ _ hi => Segment.index.inj hi
    rw [List.map_map] at hindices ⊢
    exact hindices
  | plain p =>
    rw [Object.parts?] at ho
    split at ho
    next =>
      cases ho
      rw [List.map_map]
      have hkeys := p.nodup_entries.map (f := Segment.key) fun _ _ hk => Segment.key.inj hk
      rwa [List.map_map] at hkeys
    next => cases ho
  | _ => cases ho

theorem Placed.unique (hw : h.Placed v path place w) :
    ∀ {place' w'}, h.Placed v path place' w' → place = place' ∧ w = w' := by
  induction hw with
  | root =>
    rintro place' w' ⟨⟩
    exact ⟨rfl, rfl⟩
  | @step path place r parts i segment w _ hp hi ih =>
    intro place' w' hw'
    cases hw' with
    | @step _ place' r' parts' j _ _ hr' hp' hj =>
      obtain ⟨rfl, hr⟩ := ih hr'
      cases hr
      rw [hp] at hp'
      cases hp'
      have hseg : (parts.map Prod.fst)[i]? = (parts.map Prod.fst)[j]? := by
        rw [List.getElem?_map, List.getElem?_map, hi, hj]
        rfl
      have hlt : i < (parts.map Prod.fst).length := by
        rw [List.length_map]
        exact (List.getElem?_eq_some_iff.1 hi).1
      obtain rfl := (List.getElem?_inj hlt (nodup_segments hp)).1 hseg
      rw [hi] at hj
      cases hj
      exact ⟨rfl, rfl⟩

/-- There is one path to a place. -/
theorem Placed.path_unique (hw : h.Placed v path place w) :
    ∀ {path' w'}, h.Placed v path' place w' → path = path' ∧ w = w' := by
  induction hw with
  | root =>
    intro path' w' hw'
    generalize hnil : ([] : List Nat) = place at hw'
    cases hw' with
    | root => exact ⟨rfl, rfl⟩
    | step => exact absurd hnil.symm (by simp)
  | @step path place r parts i segment w _ hp hi ih =>
    intro path' w' hw'
    generalize hplace : place ++ [i] = place' at hw'
    cases hw' with
    | root => exact absurd hplace (by simp)
    | @step path' place' r' parts' j _ _ hr' hp' hj =>
      obtain ⟨rfl, hij⟩ := List.append_inj' hplace rfl
      obtain ⟨rfl, hr⟩ := ih hr'
      cases hij
      cases hr
      rw [hp] at hp'
      cases hp'
      rw [hi] at hj
      cases hj
      exact ⟨rfl, rfl⟩

/-- A depth-first traversal of `v` comes by the first path before it comes by the
    second one. -/
def Sooner (h : Heap) (v : Value) (path path' : KeyPath) : Prop :=
  ∃ place place' w w', h.Placed v path place w ∧ h.Placed v path' place' w' ∧ Before place place'

theorem Sooner.before (hs : h.Sooner v path path') (hw : h.Placed v path place w)
    (hw' : h.Placed v path' place' w') : Before place place' := by
  obtain ⟨_, _, _, _, hp, hp', hb⟩ := hs
  obtain ⟨rfl, -⟩ := hw.unique hp
  obtain ⟨rfl, -⟩ := hw'.unique hp'
  exact hb

theorem Sooner.asymm (hs : h.Sooner v path path') : ¬ h.Sooner v path' path := by
  intro hs'
  obtain ⟨_, _, _, _, hp, hp', hb⟩ := hs
  exact hb.asymm (hs'.before hp' hp)

/-! ## First visits -/

/-- What a traversal comes to, and by which paths, if it goes into objects by the
    paths by which they are `entered`: the value itself, and the kept parts of
    those objects. -/
inductive Comes (h : Heap) (x : Exclusion ε) (v : Value) (entered : Ref → KeyPath → Prop) :
    KeyPath → Value → Prop
  | root : Comes h x v entered .root v
  | part {r : Ref} {path : KeyPath} {parts : List (Segment × Value)} {segment : Segment}
      {w : Value} : entered r path → h.parts? r = some parts → (segment, w) ∈ parts →
      State.excludes x path segment = .ok false → Comes h x v entered (path.step segment) w

/-- **First visits**: a traversal goes into an object if and only if it comes to
    it and the object is one that it looks into, and it goes in by the path by
    which it comes there first. -/
def EntersFirst (h : Heap) (x : Exclusion ε) (v : Value) (entered : Ref → KeyPath → Prop) : Prop :=
  ∀ r path, entered r path ↔ h.Comes x v entered path (.object r) ∧
    (∃ o, h.get? r = some o ∧ o.isStructural = true) ∧
    ∀ path', h.Comes x v entered path' (.object r) → path = path' ∨ h.Sooner v path path'

variable {entered entered' : Ref → KeyPath → Prop}

namespace EntersFirst

/-- The paths by which a traversal comes to values lead to these values. -/
theorem placed (he : h.EntersFirst x v entered) : ∀ {path w}, h.Comes x v entered path w →
    ∃ place, h.Placed v path place w := by
  intro path
  induction path with
  | root =>
    rintro w ⟨⟩
    exact ⟨[], .root⟩
  | step path segment ih =>
    intro w hw
    cases hw with
    | part hr hp hmem _ =>
      obtain ⟨place, hplace⟩ := ih ((he _ _).1 hr).1
      obtain ⟨i, hi⟩ := List.mem_iff_getElem?.1 hmem
      exact ⟨place ++ [i], .step hplace hp hi⟩

theorem entered_unique (he : h.EntersFirst x v entered) (hr : entered r path)
    (hr' : entered r path') : path = path' := by
  obtain ⟨hcomes, -, hfirst⟩ := (he r path).1 hr
  obtain ⟨hcomes', -, hfirst'⟩ := (he r path').1 hr'
  rcases hfirst path' hcomes' with heq | hs
  · exact heq
  · rcases hfirst' path hcomes with heq | hs'
    · exact heq.symm
    · exact absurd hs' hs.asymm

theorem lt_size (he : h.EntersFirst x v entered) (hr : entered r path) : r.index < h.size := by
  obtain ⟨-, ⟨o, ho, -⟩, -⟩ := (he r path).1 hr
  exact lt_of_get? ho

/-- Up to a place a traversal comes to the same values when it goes into the same
    objects before that place. -/
theorem comes_of_agree (he : h.EntersFirst x v entered)
    (hagree : ∀ s path' place', h.Placed v path' place' (.object s) → Before place' place →
      entered s path' → entered' s path')
    (hw : h.Comes x v entered path w) (hp : h.Placed v path place' w)
    (hle : place' = place ∨ Before place' place) : h.Comes x v entered' path w := by
  cases hw with
  | root => exact .root
  | @part r path parts segment w hr hparts hmem hkept =>
    obtain ⟨place₀, hp₀⟩ := he.placed ((he r path).1 hr).1
    obtain ⟨i, hi⟩ := List.mem_iff_getElem?.1 hmem
    obtain ⟨rfl, -⟩ := hp.unique (.step hp₀ hparts hi)
    have hb : Before place₀ place := by
      rcases hle with rfl | hb
      · exact before_append []
      · exact (before_append []).trans hb
    exact .part (hagree r path place₀ hp₀ hb hr) hparts hmem hkept

/-- One choice makes the other one at a place if they agree before it. -/
theorem entered_of_agree (he : h.EntersFirst x v entered) (he' : h.EntersFirst x v entered')
    (hagree : ∀ s path' place', h.Placed v path' place' (.object s) → Before place' place →
      (entered s path' ↔ entered' s path'))
    (hp : h.Placed v path place (.object r)) (hr : entered r path) : entered' r path := by
  obtain ⟨hcomes, hstructural, hfirst⟩ := (he r path).1 hr
  refine (he' r path).2 ⟨?_, hstructural, fun path' hcomes' => ?_⟩
  · exact he.comes_of_agree (fun s path' place' hs hb => (hagree s path' place' hs hb).1) hcomes hp
      (.inl rfl)
  · obtain ⟨place', hp'⟩ := he'.placed hcomes'
    rcases before_trichotomy place place' with rfl | hb | hb
    · exact .inl (hp.path_unique hp').1
    · exact .inr ⟨place, place', _, _, hp, hp', hb⟩
    · -- the other traversal would come there sooner, and so would this one
      have hsooner : h.Comes x v entered path' (.object r) :=
        he'.comes_of_agree (fun s path' place' hs hb => (hagree s path' place' hs hb).2) hcomes' hp'
          (.inr hb)
      rcases hfirst path' hsooner with rfl | hs
      · exact .inl rfl
      · exact .inr hs

/-- The places at which a traversal goes into objects are as few as the objects. -/
theorem finite_places (he : h.EntersFirst x v entered) :
    {place | ∃ r path, h.Placed v path place (.object r) ∧ entered r path}.Finite := by
  have hone (r : Ref) :
      {place | ∃ path, h.Placed v path place (.object r) ∧ entered r path}.Finite := by
    refine Set.Subsingleton.finite ?_
    rintro place ⟨path, hp, hr⟩ place' ⟨path', hp', hr'⟩
    obtain rfl := he.entered_unique hr hr'
    exact (hp.unique hp').1
  refine ((Set.finite_lt_nat h.size).biUnion fun i _ => hone ⟨i⟩).subset ?_
  rintro place ⟨r, path, hp, hr⟩
  exact Set.mem_biUnion (he.lt_size hr) ⟨path, hp, hr⟩

/-- Two choices that are different are different at a first place. -/
theorem exists_first_difference (he : h.EntersFirst x v entered)
    (he' : h.EntersFirst x v entered') (hne : ¬ (entered r path ↔ entered' r path)) :
    ∃ s path' place, h.Placed v path' place (.object s) ∧ ¬ (entered s path' ↔ entered' s path') ∧
      ∀ t path'' place', h.Placed v path'' place' (.object t) → Before place' place →
        (entered t path'' ↔ entered' t path'') := by
  have hfinite : {place | ∃ s path', h.Placed v path' place (.object s) ∧
      ¬ (entered s path' ↔ entered' s path')}.Finite := by
    refine (he.finite_places.union he'.finite_places).subset ?_
    rintro place ⟨s, path', hp, hs⟩
    by_cases hr : entered s path'
    · exact .inl ⟨s, path', hp, hr⟩
    · exact .inr ⟨s, path', hp, by tauto⟩
  obtain ⟨place, hp⟩ : ∃ place, h.Placed v path place (.object r) := by
    by_cases hr : entered r path
    · exact he.placed ((he r path).1 hr).1
    · exact he'.placed ((he' r path).1 (by tauto)).1
  obtain ⟨place, ⟨s, path', hp, hs⟩, hleast⟩ :=
    Set.exists_min_image _ id hfinite ⟨place, r, path, hp, hne⟩
  refine ⟨s, path', place, hp, hs, fun t path'' place' hp' hb => ?_⟩
  by_contra ht
  exact not_lt_of_ge (hleast place' ⟨t, path'', hp', ht⟩) hb

/-- **There is one choice** of paths. -/
theorem unique (he : h.EntersFirst x v entered) (he' : h.EntersFirst x v entered') (r : Ref)
    (path : KeyPath) : entered r path ↔ entered' r path := by
  by_contra hne
  obtain ⟨s, path', place, hp, hs, hagree⟩ := he.exists_first_difference he' hne
  refine hs ⟨he.entered_of_agree he' hagree hp, he'.entered_of_agree he ?_ hp⟩
  exact fun t path'' place' hp' hb => (hagree t path'' place' hp' hb).symm

end EntersFirst

end Heap

/-! ## The traversal -/

namespace Pruning

open Heap

variable {ε : Type} {h : Heap} {x : Exclusion ε} {v w : Value} {path : KeyPath}
  {place place' : List Nat} {parts rest : List (Segment × Value)} {r : Ref} {segment : Segment}
  {log log' : List Event} {i : Nat}

/-- Where a traversal is at an event: at the object that it meets, or at the
    property about which it asks. -/
def Event.location : Event → KeyPath
  | met _ path => path
  | asked k path => path.step (.key k)

theorem location_of_mem_questions {e : Event} (he : e ∈ questions x path segment) :
    e.location = path.step segment := by
  cases segment with
  | key k =>
    rw [questions] at he
    split at he
    next => rw [List.mem_singleton.1 he]; rfl
    next => cases he
  | index i => cases he

/-- The parts of the object at a path that are left from the `i`-th one on. -/
def PartsLeft (h : Heap) (v : Value) (path : KeyPath) (place : List Nat) (i : Nat)
    (parts : List (Segment × Value)) : Prop :=
  ∃ r all, h.Placed v path place (.object r) ∧ h.parts? r = some all ∧ all.drop i = parts

theorem partsLeft_zero (hr : h.Placed v path place (.object r)) (hp : h.parts? r = some parts) :
    PartsLeft h v path place 0 parts :=
  ⟨r, parts, hr, hp, rfl⟩

theorem PartsLeft.placed (hl : PartsLeft h v path place i ((segment, w) :: rest)) :
    h.Placed v (path.step segment) (place ++ [i]) w := by
  obtain ⟨r, all, hr, hp, hdrop⟩ := hl
  have hi : all[i]? = some (segment, w) := by
    rw [← List.head?_drop, hdrop]
    rfl
  exact .step hr hp hi

theorem PartsLeft.tail (hl : PartsLeft h v path place i ((segment, w) :: rest)) :
    PartsLeft h v path place (i + 1) rest := by
  obtain ⟨r, all, hr, hp, hdrop⟩ := hl
  refine ⟨r, all, hr, hp, ?_⟩
  rw [← List.tail_drop, hdrop]
  rfl

/-- All events of a log are before a place. -/
def Past (h : Heap) (v : Value) (log : List Event) (place : List Nat) : Prop :=
  ∀ e ∈ log, ∃ place' w, h.Placed v e.location place' w ∧ Before place' place

namespace Past

theorem mono (hl : Past h v log place) (hb : Before place place') : Past h v log place' := by
  intro e he
  obtain ⟨_, w, hp, hbefore⟩ := hl e he
  exact ⟨_, w, hp, hbefore.trans hb⟩

theorem ask (hl : Past h v log place) (hw : h.Placed v (path.step segment) place w)
    (hb : Before place place') (x : Exclusion ε) :
    Past h v (questions x path segment ++ log) place' := by
  intro e he
  rcases List.mem_append.1 he with he | he
  · rw [location_of_mem_questions he]
    exact ⟨place, w, hw, hb⟩
  · exact hl.mono hb e he

/-- On to the next part. -/
theorem next (hl : Past h v log (place ++ [i]))
    (hw : h.Placed v (path.step segment) (place ++ [i]) w) (x : Exclusion ε) :
    Past h v (questions x path segment ++ log) (place ++ [i + 1]) :=
  hl.ask hw (before_append_of_lt (Nat.lt_succ_self i) []) x

/-- On to the parts of the object that is the next part. -/
theorem enter (hl : Past h v log place) (hr : h.Placed v (path.step segment) place (.object r))
    (x : Exclusion ε) :
    Past h v (.met r (path.step segment) :: (questions x path segment ++ log)) (place ++ [0]) := by
  refine List.forall_mem_cons.2 ⟨⟨place, _, hr, before_append []⟩, ?_⟩
  exact hl.ask hr (before_append []) x

/-- Back from the parts of a part. -/
theorem leave {n : Nat} (hl : Past h v log (place ++ [i] ++ [n])) :
    Past h v log (place ++ [i + 1]) := by
  rw [List.append_assoc] at hl
  exact hl.mono (before_append_of_lt (Nat.lt_succ_self i) [n])

end Past

/-- At the start the root has been met. -/
theorem past_root (r : Ref) : Past h (.object r) [.met r .root] ([] ++ [0]) :=
  List.forall_mem_singleton.2 ⟨[], _, .root, .nil⟩

theorem Visits.past (hv : Visits h x path parts log log') : ∀ {place i},
    PartsLeft h v path place i parts → Past h v log (place ++ [i]) →
      Past h v log' (place ++ [i + parts.length]) := by
  induction hv with
  | nil => exact fun _ hpast => hpast
  | @skip path segment v rest log log' _ _ ih | @stop path segment v rest log log' _ _ _ ih =>
    intro place i hl hpast
    have hrest := ih hl.tail (hpast.next hl.placed x)
    rwa [Nat.add_assoc, Nat.add_comm 1] at hrest
  | @enter path segment r parts rest log log₁ log' _ hp _ _ _ ih₁ ih₂ =>
    intro place i hl hpast
    have hinner := ih₁ (partsLeft_zero hl.placed hp) (hpast.enter hl.placed x)
    have hrest := ih₂ hl.tail hinner.leave
    rwa [Nat.add_assoc, Nat.add_comm 1] at hrest

/-! ### Visits and first visits -/

/-- An object is met no later than by a path. -/
def MetBy (h : Heap) (v : Value) (log : List Event) (r : Ref) (path : KeyPath) : Prop :=
  ∃ p, .met r p ∈ log ∧ (p = path ∨ h.Sooner v p path)

theorem MetBy.subset (hm : MetBy h v log r path) (hsub : log ⊆ log') : MetBy h v log' r path := by
  obtain ⟨p, hp, hle⟩ := hm
  exact ⟨p, hsub hp, hle⟩

theorem Past.metBy (hl : Past h v log place) (hw : h.Placed v path place w) (hm : Met log r) :
    MetBy h v log r path := by
  obtain ⟨p, hm⟩ := hm
  obtain ⟨place', w', hp, hb⟩ := hl _ hm
  exact ⟨p, hm, .inr ⟨place', place, w', w, hp, hw, hb⟩⟩

/-- **No object is met too late**: the kept parts of the object are met when the
    traversal comes to them if not before, and so are those of the objects met
    on the way. -/
theorem Visits.metBy (hv : Visits h x path parts log log') : ∀ {place i},
    PartsLeft h v path place i parts → Past h v log (place ++ [i]) →
      (∀ segment s, Leads h x path parts segment s → MetBy h v log' s (path.step segment)) ∧
      ∀ r p, .met r p ∈ log' → .met r p ∈ log ∨ ∀ ps, h.parts? r = some ps →
        ∀ segment s, Leads h x p ps segment s → MetBy h v log' s (p.step segment) := by
  induction hv with
  | nil =>
    exact fun _ _ => ⟨fun segment s hl => absurd hl.1 List.not_mem_nil, fun r p hm => .inl hm⟩
  | skip he _ ih =>
    intro place i hl hpast
    obtain ⟨hparts, hmet⟩ := ih hl.tail (hpast.next hl.placed x)
    refine ⟨fun segment s hlead => ?_, fun r p hm => (hmet r p hm).imp_left mem_questions_append.1⟩
    rcases List.mem_cons.1 hlead.1 with heq | hmem
    · cases heq
      have hkept := hlead.2.1
      rw [he] at hkept
      cases hkept
    · exact hparts segment s ⟨hmem, hlead.2⟩
  | stop he hst hv ih =>
    intro place i hl hpast
    obtain ⟨hparts, hmet⟩ := ih hl.tail (hpast.next hl.placed x)
    refine ⟨fun segment s hlead => ?_, fun r p hm => (hmet r p hm).imp_left mem_questions_append.1⟩
    rcases List.mem_cons.1 hlead.1 with heq | hmem
    · cases heq
      obtain ⟨ps, hp⟩ := Option.isSome_iff_exists.1 hlead.2.2
      refine (hpast.metBy hl.placed (hst.met hp)).subset fun e he => ?_
      exact hv.subset (List.mem_append_right _ he)
    · exact hparts segment s ⟨hmem, hlead.2⟩
  | @enter path segment r parts rest log log₁ log' he hp hn hin hrest ih₁ ih₂ =>
    intro place i hl hpast
    have hpast₀ := hpast.enter hl.placed x
    obtain ⟨hparts₁, hmet₁⟩ := ih₁ (partsLeft_zero hl.placed hp) hpast₀
    obtain ⟨hparts₂, hmet₂⟩ :=
      ih₂ hl.tail (hin.past (partsLeft_zero hl.placed hp) hpast₀).leave
    refine ⟨fun segment' s hlead => ?_, fun s p hm => ?_⟩
    · rcases List.mem_cons.1 hlead.1 with heq | hmem
      · cases heq
        exact ⟨_, hrest.subset (hin.subset (List.mem_cons_self ..)), .inl rfl⟩
      · exact hparts₂ segment' s ⟨hmem, hlead.2⟩
    · rcases hmet₂ s p hm with hm | hall
      · rcases hmet₁ s p hm with hm | hall
        · rcases List.mem_cons.1 hm with hm | hm
          · cases hm
            refine .inr fun ps hps segment' t hlead => ?_
            rw [hp] at hps
            cases hps
            exact (hparts₁ segment' t hlead).subset hrest.subset
          · exact .inl (mem_questions_append.1 hm)
        · refine .inr fun ps hps segment' t hlead => ?_
          exact (hall ps hps segment' t hlead).subset hrest.subset
      · exact .inr hall

section
variable (ht : Traverses h x v log)
include ht

/-- What is met is what the traversal comes to. -/
theorem Traverses.comes {p : KeyPath} (hm : .met r p ∈ log) :
    h.Comes x v (fun r p => .met r p ∈ log) p (.object r) := by
  rcases ht.origin hm with ⟨rfl, rfl⟩ | ⟨s, q, ps, segment, hs, hps, hl, rfl⟩
  · exact .root
  · exact .part hs hps hl.1 hl.2.1

/-- What the traversal comes to is met by then. -/
theorem Traverses.metBy {p : KeyPath} (hc : h.Comes x v (fun r p => .met r p ∈ log) p (.object r))
    (hr : (h.parts? r).isSome = true) : MetBy h v log r p := by
  cases ht with
  | stop hs =>
    cases hc with
    | root =>
      obtain ⟨ps, hp⟩ := Option.isSome_iff_exists.1 hr
      exact absurd (hs.met hp) (not_met_nil r)
    | part hm => cases hm
  | @enter r₀ parts log hp hv =>
    have hroot : .met r₀ .root ∈ log := hv.subset (List.mem_cons_self ..)
    obtain ⟨hparts, hmet⟩ := hv.metBy (partsLeft_zero .root hp) (past_root r₀)
    cases hc with
    | root => exact ⟨.root, hroot, .inl rfl⟩
    | @part s q ps segment _ hs hps hmem hkept =>
      have hl : Leads h x q ps segment r := ⟨hmem, hkept, hr⟩
      rcases hmet s q hs with hs | hall
      · cases List.mem_singleton.1 hs
        rw [hp] at hps
        cases hps
        exact hparts segment r hl
      · exact hall ps hps segment r hl

/-- **The traversal goes into objects where it comes to them first.** -/
theorem Traverses.entersFirst (hx : x.Total) :
    h.EntersFirst x v fun r p => .met r p ∈ log := by
  intro r p
  constructor
  · intro hm
    have hr := ht.isSome_parts? ⟨p, hm⟩
    refine ⟨ht.comes hm, Heap.parts?_isSome.1 hr, fun p' hc => ?_⟩
    obtain ⟨q, hq, hle⟩ := ht.metBy hc hr
    rwa [ht.path_unique hx hm hq]
  · rintro ⟨hc, hr, hfirst⟩
    obtain ⟨q, hq, hle⟩ := ht.metBy hc (Heap.parts?_isSome.2 hr)
    rcases hle with rfl | hsooner
    · exact hq
    · rcases hfirst q (ht.comes hq) with rfl | hsooner'
      · exact hq
      · exact absurd hsooner' hsooner.asymm

end

end Pruning
end ValueGraph
