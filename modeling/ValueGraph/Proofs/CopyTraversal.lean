/-
  The traversal of a copy.

  Which objects a traversal meets, and by which paths, depends on the kept
  parts only.  So a traversal of one heap follows a traversal of another one,
  object by object, where both keep the same parts of objects that stand for
  each other.  In particular a traversal of a pruned copy follows one of the
  source that leaves out whatever either of the two leaves out.

  * `keptParts`: the kept ones of the parts of an object, in order;
  * `Tracks`: in two heaps the same parts are kept of objects and their copies;
  * `Follows`: the second log meets the copies of what the first one meets;
  * `Visits.follow`, `Traverses.follow`: a traversal follows another one;
  * `Staged`: a copy under one exclusion, to be pruned under another one;
    `Staged.exists_follows`: the traversal of the copy.
-/
import ValueGraph.Proofs.PrunedEquality

namespace ValueGraph

open Pruning

variable {ε : Type}

theorem Exclusion.Total.keeps_eq_false {x : Exclusion ε} (hx : x.Total) {k : Key}
    {path : KeyPath} : x.keeps k path = false ↔ x.excludes k path = .ok true := by
  obtain ⟨excluded, he⟩ := hx.exists_excludes k path
  rw [keeps, he]
  simp

/-! ## Kept parts -/

namespace Pruning

/-- Whether a part of the object at a path is definitely kept. -/
def keepsPart (x : Exclusion ε) (path : KeyPath) : Segment → Bool
  | .key k => x.keeps k path
  | .index _ => true

/-- The kept ones of the parts of the object at a path. -/
def keptParts (x : Exclusion ε) (path : KeyPath) (parts : List (Segment × Value)) :
    List (Segment × Value) :=
  parts.filter fun part => keepsPart x path part.1

/-- Parts with what stands for their values. -/
def imageParts (c : Ref → Option Ref) (parts : List (Segment × Value)) : List (Segment × Value) :=
  parts.map fun part => (part.1, image c part.2)

variable {x y : Exclusion ε} {h g : Heap} {c : Ref → Option Ref} {path : KeyPath}
  {segment : Segment} {parts qs : List (Segment × Value)} {v : Value} {r s : Ref}
  {log log' lg : List Event}

theorem keepsPart_iff : keepsPart x path segment = true ↔
    State.excludes x path segment = .ok false := by
  cases segment with
  | key k => exact Exclusion.keeps_iff
  | index i => simp [keepsPart, State.excludes]

theorem keepsPart_of_excludes (he : State.excludes x path segment = .ok true) :
    keepsPart x path segment = false := by
  rw [← Bool.not_eq_true, keepsPart_iff, he]
  simp

theorem excludes_of_not_keepsPart (hx : x.Total) (hk : keepsPart x path segment = false) :
    State.excludes x path segment = .ok true := by
  cases segment with
  | key k => exact hx.keeps_eq_false.1 hk
  | index i => simp [keepsPart] at hk

theorem keptParts_cons_of_keeps (hk : keepsPart x path segment = true) :
    keptParts x path ((segment, v) :: parts) = (segment, v) :: keptParts x path parts :=
  List.filter_cons_of_pos hk

theorem keptParts_cons_of_not_keeps (hk : keepsPart x path segment = false) :
    keptParts x path ((segment, v) :: parts) = keptParts x path parts :=
  List.filter_cons_of_neg (by rw [hk]; simp)

/-! ## Logs that follow -/

/-- The second log meets the copies of the objects that the first one meets, by
    the same paths, and nothing else. -/
def Follows (c : Ref → Option Ref) (log lg : List Event) : Prop :=
  ∀ s path, .met s path ∈ lg ↔ ∃ r, c r = some s ∧ .met r path ∈ log

/-- Nothing is met. -/
def Unmet (events : List Event) : Prop := ∀ r path, .met r path ∉ events

theorem unmet_questions (x : Exclusion ε) (path : KeyPath) (segment : Segment) :
    Unmet (questions x path segment) := fun r path' => met_mem_questions x path path' segment r

namespace Follows

variable {events : List Event}

theorem append_left (hf : Follows c log lg) (he : Unmet events) :
    Follows c (events ++ log) lg := by
  intro s path
  simp only [List.mem_append, he _ path, false_or]
  exact hf s path

theorem append_right (hf : Follows c log lg) (he : Unmet events) :
    Follows c log (events ++ lg) := by
  intro s path
  simp only [List.mem_append, he s path, false_or]
  exact hf s path

theorem meet (hf : Follows c log lg) (hs : c r = some s) (path : KeyPath) :
    Follows c (.met r path :: log) (.met s path :: lg) := by
  intro t p
  rw [List.mem_cons, hf t p]
  constructor
  · rintro (he | ⟨q, hq, hm⟩)
    · cases he
      exact ⟨r, hs, List.mem_cons_self ..⟩
    · exact ⟨q, hq, List.mem_cons_of_mem _ hm⟩
  · rintro ⟨q, hq, hm⟩
    rcases List.mem_cons.1 hm with he | hm
    · cases he
      rw [hs] at hq
      cases hq
      exact Or.inl rfl
    · exact Or.inr ⟨q, hq, hm⟩

theorem met_iff (hf : Follows c log lg) (hc : OneToOne c) (hs : c r = some s) :
    Met lg s ↔ Met log r := by
  constructor
  · rintro ⟨path, hm⟩
    obtain ⟨q, hq, hm⟩ := (hf s path).1 hm
    exact ⟨path, hc r q s hs hq ▸ hm⟩
  · rintro ⟨path, hm⟩
    exact ⟨path, (hf s path).2 ⟨r, hs, hm⟩⟩

end Follows

/-! ## Traversals that follow -/

/-- Parts that are left out come to nothing but questions. -/
theorem exists_visits_append (hy : y.Total) : ∀ skipped : List (Segment × Value),
    (∀ part ∈ skipped, keepsPart y path part.1 = false) → ∃ asked, Unmet asked ∧
      ∀ log rest log', Visits g y path rest (asked ++ log) log' →
        Visits g y path (skipped ++ rest) log log'
  | [], _ => ⟨[], by simp [Unmet], fun _ _ _ hv => hv⟩
  | (segment, v) :: skipped, hs => by
    obtain ⟨asked, hasked, hrest⟩ := exists_visits_append hy skipped fun part hp =>
      hs part (List.mem_cons_of_mem _ hp)
    have he := excludes_of_not_keepsPart hy (hs (segment, v) (List.mem_cons_self ..))
    refine ⟨asked ++ questions y path segment, fun r p hm => ?_, fun log rest log' hv => ?_⟩
    · rcases List.mem_append.1 hm with hm | hm
      · exact hasked r p hm
      · exact unmet_questions y path segment r p hm
    · exact .skip he (hrest _ rest log' (by rwa [← List.append_assoc]))

/-- Of the objects of `h` that a log meets under `x`, the heap `g` holds copies
    of which `y` keeps, at the same path, the images of the parts that `x`
    keeps.  What has no parts in `h` has none in `g`. -/
structure Tracks (h g : Heap) (x y : Exclusion ε) (c : Ref → Option Ref) (log : List Event) :
    Prop where
  closed : h.Closed
  injective : OneToOne c
  parts : ∀ r path ps, .met r path ∈ log → h.parts? r = some ps → ∃ s qs, c r = some s ∧
    g.parts? s = some qs ∧ keptParts y path qs = imageParts c (keptParts x path ps)
  units : ∀ r, r.index < h.size → h.parts? r = none → g.parts? ((c r).getD r) = none

/-- A value that one traversal does not enter is not entered by the one that
    follows. -/
theorem Tracks.stops {full : List Event} (htr : Tracks h g x y c full) (hf : Follows c log lg)
    (hfull : log ⊆ full) (hs : Stops h log v) (hv : InHeap h v) : Stops g lg (image c v) := by
  intro s he
  cases v with
  | object r =>
    cases he
    cases hp : h.parts? r with
    | none => exact Or.inl (htr.units r (hv r rfl) hp)
    | some ps =>
      obtain ⟨path, hm⟩ := hs.met hp
      obtain ⟨s, -, hcs, -⟩ := htr.parts r path ps (hfull hm) hp
      rw [hcs]
      exact Or.inr ((hf.met_iff htr.injective hcs).2 ⟨path, hm⟩)
  | _ => simp [image] at he

section
variable (hy : y.Total)
include hy

/-- What is left to visit on both sides starts with a part and its image, after
    parts that are left out. -/
theorem exists_visits_cons (hk : keepsPart x path segment = true)
    (hq : keptParts y path qs = imageParts c (keptParts x path ((segment, v) :: parts))) :
    ∃ rest asked, Unmet asked ∧ State.excludes y path segment = .ok false ∧
      keptParts y path rest = imageParts c (keptParts x path parts) ∧ ∀ log log',
        Visits g y path ((segment, image c v) :: rest) (asked ++ log) log' →
          Visits g y path qs log log' := by
  rw [keptParts_cons_of_keeps hk, imageParts, List.map_cons, keptParts,
    List.filter_eq_cons_iff] at hq
  obtain ⟨skipped, rest, rfl, hskipped, hseg, hrest⟩ := hq
  obtain ⟨asked, hasked, happend⟩ := exists_visits_append (g := g) hy skipped fun part hp =>
    Bool.not_eq_true _ ▸ hskipped part hp
  exact ⟨rest, asked, hasked, keepsPart_iff.1 hseg, hrest, fun log log' => happend log _ log'⟩

/-- **A visit follows another one** that keeps the same parts.  The induction is
    on the visit that is followed; before every part the other visit passes
    over those that it leaves out. -/
theorem Visits.follow {full : List Event} (htr : Tracks h g x y c full)
    (hv : Visits h x path parts log log') : log' ⊆ full → (∀ part ∈ parts, InHeap h part.2) →
      ∀ qs, keptParts y path qs = imageParts c (keptParts x path parts) →
        ∀ lg, Follows c log lg → ∃ lg', Visits g y path qs lg lg' ∧ Follows c log' lg' := by
  induction hv with
  | nil path log =>
    intro _ _ qs hq lg hf
    obtain ⟨asked, hasked, happend⟩ := exists_visits_append (g := g) hy qs
      fun part hp => by simpa using List.filter_eq_nil_iff.1 hq part hp
    have hvisits := happend lg [] _ (.nil path _)
    rw [List.append_nil] at hvisits
    exact ⟨asked ++ lg, hvisits, hf.append_right hasked⟩
  | @skip path segment v rest log log' he _ ih =>
    intro hfull hin qs hq lg hf
    rw [keptParts_cons_of_not_keeps (keepsPart_of_excludes he)] at hq
    exact ih hfull (fun part hp => hin part (.tail _ hp)) qs hq lg
      (hf.append_left (unmet_questions x path segment))
  | @stop path segment v rest log log' he hs hrest ih =>
    intro hfull hin qs hq lg hf
    obtain ⟨rest', asked, hasked, hseg, hq', hvisits⟩ :=
      exists_visits_cons (g := g) hy (keepsPart_iff.2 he) hq
    have hf' := hf.append_right hasked
    obtain ⟨lg', hv', hfollows⟩ := ih hfull (fun part hp => hin part (.tail _ hp)) rest' hq' _
      ((hf'.append_right (unmet_questions y path segment)).append_left
        (unmet_questions x path segment))
    have hlog : log ⊆ full := fun e he => hfull (hrest.subset (List.mem_append_right _ he))
    have hstops := htr.stops hf' hlog hs (hin (segment, v) (.head _))
    exact ⟨lg', hvisits lg lg' (.stop hseg hstops hv'), hfollows⟩
  | @enter path segment r ps rest log log₁ log' he hp hn hin' hrest ih₁ ih₂ =>
    intro hfull hin qs hq lg hf
    obtain ⟨rest', asked, hasked, hseg, hq', hvisits⟩ :=
      exists_visits_cons (g := g) hy (keepsPart_iff.2 he) hq
    have hlog₁ : log₁ ⊆ full := fun e he => hfull (hrest.subset he)
    obtain ⟨s, qs', hcs, hps, hkept⟩ :=
      htr.parts r (path.step segment) ps (hlog₁ (hin'.subset (List.mem_cons_self ..))) hp
    have hf' := hf.append_right hasked
    have hmet := ((hf'.append_right (unmet_questions y path segment)).append_left
      (unmet_questions x path segment)).meet hcs (path.step segment)
    obtain ⟨lg₁, hv₁, hf₁⟩ := ih₁ hlog₁ (htr.closed.parts hp) qs' hkept _ hmet
    obtain ⟨lg', hv', hfollows⟩ := ih₂ hfull (fun part hp => hin part (.tail _ hp)) rest' hq' _ hf₁
    have hfresh := mt (hf'.met_iff htr.injective hcs).1 hn
    refine ⟨lg', hvisits lg lg' ?_, hfollows⟩
    rw [image, hcs]
    exact .enter hseg hps hfresh hv₁ hv'

/-- **A traversal follows another one** that keeps the same parts. -/
theorem Traverses.follow (htr : Tracks h g x y c log) (hv : InHeap h v)
    (ht : Traverses h x v log) : ∃ lg, Traverses g y (image c v) lg ∧ Follows c log lg := by
  have hempty : Follows c [] [] := fun s path => by simp
  cases ht with
  | stop hs => exact ⟨[], .stop (htr.stops hempty (List.Subset.refl _) hs hv), hempty⟩
  | @enter r ps log hp hvs =>
    obtain ⟨s, qs, hcs, hqs, hkept⟩ :=
      htr.parts r .root ps (hvs.subset (List.mem_cons_self ..)) hp
    obtain ⟨lg, hvisits, hf⟩ := hvs.follow hy htr (List.Subset.refl _) (htr.closed.parts hp) qs
      hkept _ (hempty.meet hcs .root)
    refine ⟨lg, ?_, hf⟩
    rw [image, hcs]
    exact .enter hqs hvisits

end

end Pruning

/-! ## Parts of copies -/

theorem PlainObject.entries_rebuilt {p : PlainObject} {x : Exclusion ε} {f : Value → Value}
    {path : KeyPath} : (p.rebuilt x f path).entries =
      (p.entries.filter fun e => x.keeps e.1 path).map fun e => (e.1, f e.2) := by
  -- string keys come before symbol keys already
  have hsplit : ((p.entries.filter fun e => x.keeps e.1 path).map fun e => (e.1, f e.2)) =
      ((p.names.filter fun a => x.keeps a.key path).map fun a => (a.key, f a.value)) ++
        (p.symbols.filter fun a => x.keeps a.key path).map fun a => (a.key, f a.value) := by
    rw [entries, List.filter_map, List.filter_append, List.map_map, List.map_append]
    rfl
  rw [hsplit]
  refine entries_eq_append ?_ (fun e he => ?_) fun e he => ?_
  · rw [← hsplit, properties_rebuilt, List.map_map]
    rfl
  · obtain ⟨a, ha, rfl⟩ := List.mem_map.1 he
    exact (mem_names.1 (List.mem_map_of_mem (List.mem_of_mem_filter ha))).2
  · obtain ⟨a, ha, rfl⟩ := List.mem_map.1 he
    exact (mem_symbols.1 (List.mem_map_of_mem (List.mem_of_mem_filter ha))).2

/-- The parts of a copy are the images of the kept parts. -/
theorem Object.parts?_rebuild {o : Object} {x : Exclusion ε} {c : Ref → Option Ref}
    {path : KeyPath} : (rebuild x (image c) path o).parts? =
      o.parts?.map fun parts => imageParts c (keptParts x path parts) := by
  cases o with
  | array items =>
    have hkept : ∀ parts : List (Value × Nat),
        keptParts x path (parts.map fun part => (.index part.2, part.1)) =
          parts.map fun part => (.index part.2, part.1) := fun parts =>
      List.filter_eq_self.2 fun part hp => by
        obtain ⟨_, -, rfl⟩ := List.mem_map.1 hp
        rfl
    simp only [rebuild, parts?, Option.map_some, hkept, imageParts, List.zipIdx_map, List.map_map]
    rfl
  | plain p =>
    have hs : (plain (p.rebuilt x (image c) path)).isStructural = (plain p).isStructural :=
      isStructural_rebuild (o := plain p)
    show (plain (p.rebuilt x (image c) path)).parts? = _
    rw [parts?, parts?, hs, PlainObject.entries_rebuilt]
    split
    next =>
      rw [Option.map_some, imageParts, keptParts, List.filter_map, List.map_map, List.map_map]
      rfl
    next => rfl
  | _ => rfl

/-- An exclusion keeps, at a path, what two others keep both, each at a path of
    its own. -/
def Exclusion.KeepsBoth (x x₁ x₂ : Exclusion ε) (path path₁ path₂ : KeyPath) : Prop :=
  ∀ k, x.keeps k path = (x₁.keeps k path₁ && x₂.keeps k path₂)

namespace Pruning

variable {x x₁ x₂ : Exclusion ε} {h g : Heap} {c : Ref → Option Ref} {path path₁ : KeyPath}
  {parts : List (Segment × Value)} {v : Value} {r s : Ref} {log log₁ lg : List Event}

theorem keepsPart_both (hb : x.KeepsBoth x₁ x₂ path path₁ path) (segment : Segment) :
    keepsPart x path segment = (keepsPart x₁ path₁ segment && keepsPart x₂ path segment) := by
  cases segment with
  | key k => exact hb k
  | index i => rfl

/-- Parts of a copy are kept as those of the original are by both exclusions. -/
theorem keptParts_both (hb : x.KeepsBoth x₁ x₂ path path₁ path) :
    keptParts x₂ path (imageParts c (keptParts x₁ path₁ parts)) =
      imageParts c (keptParts x path parts) := by
  rw [keptParts, imageParts, List.filter_map, imageParts, keptParts, keptParts, List.filter_filter]
  simp only [keepsPart_both hb, Bool.and_comm]
  rfl

/-- A value that is to be pruned in two stages: its copy under the first
    exclusion, and the traversal of the value that leaves out what either of the
    two leaves out. -/
structure Staged (h : Heap) (x x₁ x₂ : Exclusion ε) (v : Value) (log log₁ : List Event)
    (c : Ref → Option Ref) (g : Heap) : Prop where
  closed : h.Closed
  inHeap : InHeap h v
  first : Traverses h x₁ v log₁
  copies : Copies h x₁ log₁ c g
  both : Traverses h x v log
  keeps : ∀ r path₁ path, .met r path₁ ∈ log₁ → .met r path ∈ log →
    x.KeepsBoth x₁ x₂ path path₁ path

namespace Staged

variable (hs : Staged h x x₁ x₂ v log log₁ c g)
include hs

/-- What is left out later is met earlier. -/
theorem met (hm : Met log r) : Met log₁ r := by
  obtain ⟨path, hm⟩ := hm
  refine hs.both.met_induction (P := fun r _ => Met log₁ r) (fun r hr hm => ?_) ?_ path r hm
  · exact hs.first.exhausts.root r hr (hs.both.isSome_parts? ⟨.root, hm⟩)
  · rintro r q ps segment s hm ⟨q₁, hm₁⟩ hp ⟨hl, hkeep, hstr⟩ -
    rw [← keepsPart_iff, keepsPart_both (hs.keeps r q₁ q hm₁ hm), Bool.and_eq_true] at hkeep
    exact hs.first.exhausts.parts r q₁ ps hm₁ hp segment s ⟨hl, keepsPart_iff.1 hkeep.1, hstr⟩

/-- The copy has the parts that the first exclusion keeps. -/
theorem tracks : Tracks h g x x₂ c log where
  closed := hs.closed
  injective := hs.copies.injective
  parts r path ps hm hp := by
    obtain ⟨path₁, hm₁⟩ := hs.met ⟨path, hm⟩
    obtain ⟨s, hcs⟩ := hs.copies.exists_copy ⟨path₁, hm₁⟩
    obtain ⟨o, ho, hop⟩ := Option.bind_eq_some_iff.1 hp
    refine ⟨s, imageParts c (keptParts x₁ path₁ ps), hcs, ?_,
      keptParts_both (hs.keeps r path₁ path hm₁ hm)⟩
    rw [Heap.parts?, hs.copies.get?_copy hm₁ hcs ho, Option.bind_some, Object.parts?_rebuild, hop]
    rfl
  units r hr hp := by
    have hno : ¬h.Structural r := mt Heap.parts?_isSome.2 (by rw [hp]; simp)
    rw [hs.copies.eq_none_of_atomic hno, Option.getD_none, parts?_grow hs.copies.old hr, hp]

/-- **The traversal of a copy** under the second exclusion follows the traversal
    of the source that leaves out what either exclusion leaves out. -/
theorem exists_follows (hx₂ : x₂.Total) :
    ∃ lg, Traverses g x₂ (image c v) lg ∧ Follows c log lg :=
  hs.both.follow hx₂ hs.tracks hs.inHeap

end Staged

end Pruning

end ValueGraph
