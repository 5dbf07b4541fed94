/-
  The flags of a pattern as a set.

  A flag text is scanned from the left, and each letter is counted in the whole
  text.  What passes the scan is a set of letters, and a pattern keeps it in
  one fixed order.  So the order of the letters decides which of two faults is
  reported, but not whether there is one, nor which pattern results.

  * `Flag.Faulty`: what is wrong with a letter of a flag text;
  * `Flag.Proper`: flag texts without a fault;
  * `Pattern.Refused`: why a pattern is refused, in the order of the checks;
  * `Flag.listed_eq_iff`: when two proper texts have the same flags;
  * `Heap.deepEqual_patterns`: when two patterns of a heap are equal;
  * `Pattern.flags_form_set`: which patterns there are, what they keep, and
    when two of them are equal.
-/
import ValueGraph.Object.Pattern.Matching
import ValueGraph.Proofs.Correspondence
import ValueGraph.Proofs.FirstFaults
import Mathlib.Data.List.Nodup
import Mathlib.Data.List.Perm.Basic

namespace ValueGraph

/-! ## Flag texts -/

namespace Flag

/-- The letters of all flags, in the order in which a pattern keeps them. -/
def letters : List Char := "dgimsuvy".toList

variable {text text' cs : List Char} {c : Char} {e : PatternError}

theorem map_letter_all : all.map letter = letters := by decide

theorem nodup_letters : letters.Nodup := by decide

theorem mem_all (f : Flag) : f ∈ all := by cases f <;> decide

theorem isNone_ofLetter? : (ofLetter? c).isNone = true ↔ c ∉ letters := by
  rw [Option.isNone_iff_eq_none, ofLetter?, List.find?_eq_none, ← map_letter_all, List.mem_map]
  simp

/-- What is wrong with a letter of a flag text: it is no flag, or it is one
    that occurs more than once. -/
inductive Faulty (text : List Char) (c : Char) : PatternError → Prop
  | unknown : c ∉ letters → Faulty text c (.unknownFlag c)
  | duplicate : c ∈ letters → 1 < text.count c → Faulty text c (.duplicateFlag c)

theorem faulty_of_unknown (hc : c ∉ letters) : Faulty text c e ↔ e = .unknownFlag c := by
  constructor
  · intro he
    cases he with
    | unknown => rfl
    | duplicate hmem => exact absurd hmem hc
  · rintro rfl
    exact .unknown hc

theorem faulty_of_duplicate (hc : c ∈ letters) (hcount : 1 < text.count c) :
    Faulty text c e ↔ e = .duplicateFlag c := by
  constructor
  · intro he
    cases he with
    | unknown hnot => exact absurd hc hnot
    | duplicate => rfl
  · rintro rfl
    exact .duplicate hc hcount

theorem not_faulty_iff : (∀ e, ¬ Faulty text c e) ↔ c ∈ letters ∧ text.count c ≤ 1 := by
  constructor
  · intro hnone
    by_cases hc : c ∈ letters
    · refine ⟨hc, ?_⟩
      by_contra hcount
      exact hnone _ (.duplicate hc (Nat.lt_of_not_le hcount))
    · exact absurd (.unknown hc) (hnone _)
  · rintro ⟨hc, hcount⟩ e he
    cases he with
    | unknown hnot => exact hnot hc
    | duplicate _ hlt => omega

/-- **The scan** stops at the first faulty letter. -/
theorem firstBad?_eq_some : firstBad? text cs = some e ↔ FirstFault (Faulty text) cs e := by
  induction cs with
  | nil => exact iff_of_false (by simp [firstBad?]) not_firstFault_nil
  | cons c cs ih =>
    rw [firstBad?]
    by_cases hc : c ∈ letters
    · rw [if_neg (mt isNone_ofLetter?.1 (not_not_intro hc))]
      by_cases hcount : 1 < text.count c
      · rw [if_pos hcount, firstFault_cons_of_fault fun e => faulty_of_duplicate hc hcount,
          Option.some.injEq, eq_comm]
      · have hnone := not_faulty_iff.2 ⟨hc, Nat.le_of_not_lt hcount⟩
        rw [if_neg hcount, firstFault_cons_of_none hnone, ih]
    · rw [if_pos (isNone_ofLetter?.2 hc), firstFault_cons_of_fault fun e => faulty_of_unknown hc,
        Option.some.injEq, eq_comm]

/-- The scan passes a text whose letters are flags, each once. -/
theorem firstBad?_eq_none :
    firstBad? text text = none ↔ (∀ c ∈ text, c ∈ letters) ∧ text.Nodup := by
  have hnone : firstBad? text text = none ↔ ∀ c ∈ text, c ∈ letters ∧ text.count c ≤ 1 := by
    simp only [← not_faulty_iff, Option.eq_none_iff_forall_ne_some, ne_eq, firstBad?_eq_some]
    rw [← not_exists, exists_firstFault_iff]
    simp
  rw [hnone, List.nodup_iff_count_le_one]
  constructor
  · intro hall
    refine ⟨fun c hc => (hall c hc).1, fun c => ?_⟩
    by_cases hc : c ∈ text
    · exact (hall c hc).2
    · rw [List.count_eq_zero_of_not_mem hc]
      exact Nat.zero_le 1
  · exact fun ⟨hletters, hcount⟩ c hc => ⟨hletters c hc, hcount c⟩

/-- A flag text without a fault: a set of flags that does not have both unicode
    modes. -/
structure Proper (text : List Char) : Prop where
  known : ∀ c ∈ text, c ∈ letters
  nodup : text.Nodup
  compatible : ¬ ('u' ∈ text ∧ 'v' ∈ text)

/-- The flags with the letters of a text, in the fixed order. -/
def listed (text : List Char) : List Flag := all.filter fun f => f.letter ∈ text

theorem mem_listed {f : Flag} : f ∈ listed text ↔ f.letter ∈ text := by
  simp [listed, mem_all]

theorem map_letter_listed (text : List Char) :
    (listed text).map letter = letters.filter fun c => c ∈ text := by
  rw [listed, ← map_letter_all, List.filter_map]
  rfl

/-- **A flag text is accepted** if it has no fault. -/
theorem read?_eq_ok {flags : String} {fs : List Flag} :
    read? flags = .ok fs ↔ Proper flags.toList ∧ fs = listed flags.toList := by
  rw [read?]
  cases hbad : firstBad? flags.toList flags.toList with
  | some e =>
    refine iff_of_false (by rintro ⟨⟩) ?_
    rintro ⟨hproper, -⟩
    rw [firstBad?_eq_none.2 ⟨hproper.known, hproper.nodup⟩] at hbad
    cases hbad
  | none =>
    obtain ⟨hknown, hnodup⟩ := firstBad?_eq_none.1 hbad
    dsimp only
    split
    next hmodes =>
      refine iff_of_false (by rintro ⟨⟩) ?_
      rintro ⟨hproper, -⟩
      exact hproper.compatible hmodes
    next hmodes =>
      rw [Except.ok.injEq, and_iff_right ⟨hknown, hnodup, hmodes⟩, eq_comm]
      rfl

/-- **A flag text is refused** for its first faulty letter, or else for its two
    unicode modes. -/
theorem read?_eq_error {flags : String} : read? flags = .error e ↔
    FirstFault (Faulty flags.toList) flags.toList e ∨
      ((∀ c ∈ flags.toList, c ∈ letters) ∧ flags.toList.Nodup) ∧
        ('u' ∈ flags.toList ∧ 'v' ∈ flags.toList) ∧ e = .conflictingFlags := by
  rw [← firstBad?_eq_some, ← firstBad?_eq_none, read?]
  cases hbad : firstBad? flags.toList flags.toList with
  | some e' => simp
  | none =>
    dsimp only
    split
    next hmodes => simp [hmodes, eq_comm]
    next hmodes => simp [hmodes]

/-! ## Another order -/

theorem Faulty.perm (hp : text'.Perm text) (he : Faulty text c e) : Faulty text' c e := by
  cases he with
  | unknown hc => exact .unknown hc
  | duplicate hc hcount => exact .duplicate hc (by rwa [hp.count_eq])

theorem Proper.perm (hp : text'.Perm text) (ht : Proper text) : Proper text' where
  known c hc := ht.known c (hp.mem_iff.1 hc)
  nodup := hp.nodup_iff.2 ht.nodup
  compatible := by
    rw [hp.mem_iff, hp.mem_iff]
    exact ht.compatible

theorem listed_perm (hp : text'.Perm text) : listed text' = listed text := by
  simp only [listed, hp.mem_iff]

/-- **Two flag texts without faults** list the same flags just when one is the
    other in another order. -/
theorem listed_eq_iff (ht : Proper text) (ht' : Proper text') :
    listed text = listed text' ↔ text.Perm text' := by
  constructor
  · intro heq
    refine (List.perm_ext_iff_of_nodup ht.nodup ht'.nodup).2 fun c => ?_
    have hletters := congrArg (c ∈ ·.map letter) heq
    simp only [map_letter_listed, List.mem_filter, decide_eq_true_eq, eq_iff_iff] at hletters
    constructor
    · exact fun hc => (hletters.1 ⟨ht.known c hc, hc⟩).2
    · exact fun hc => (hletters.2 ⟨ht'.known c hc, hc⟩).2
  · exact listed_perm

/-- The fixed order of a flag text without faults is one of its orders. -/
theorem listed_perm_self (ht : Proper text) : ((listed text).map letter).Perm text := by
  rw [map_letter_listed]
  refine (List.perm_ext_iff_of_nodup (nodup_letters.filter _) ht.nodup).2 fun c => ?_
  simp only [List.mem_filter, decide_eq_true_eq]
  exact and_iff_right_of_imp (ht.known c)

end Flag

/-! ## Patterns -/

/-- The check at which a pattern is refused. -/
inductive PatternError.Check where
  | letters | modes | source
deriving DecidableEq

/-- The check that an error comes from. -/
def PatternError.check : PatternError → Check
  | unknownFlag _ | duplicateFlag _ => .letters
  | conflictingFlags => .modes
  | source => .source

namespace Pattern

section
variable (engine : String → Bool → Bool → Bool → Bool)

/-- Whether an engine accepts a source under flags.  Of the flags the engine
    sees the ones for case, for lines and for the point. -/
def acceptedBy (source : String) (flags : List Flag) : Bool :=
  engine source (flags.contains .ignoreCase) (flags.contains .multiLine) (flags.contains .dotAll)

/-- Whether an engine accepts a source under the flags of a text. -/
def AcceptedUnder (source : String) (text : List Char) : Prop :=
  engine source ('i' ∈ text) ('m' ∈ text) ('s' ∈ text) = true

/-- **Why a pattern is refused**: a faulty letter, both unicode modes, or the
    source, in this order. -/
inductive Refused (source : String) (text : List Char) : PatternError → Prop
  | letter {e : PatternError} : FirstFault (Flag.Faulty text) text e → Refused source text e
  | modes : (∀ c ∈ text, c ∈ Flag.letters) → text.Nodup → 'u' ∈ text → 'v' ∈ text →
      Refused source text .conflictingFlags
  | source : Flag.Proper text → ¬ AcceptedUnder engine source text → Refused source text .source

variable {engine} {source source' flags flags' : String} {p : Pattern} {e : PatternError}
  {text text' : List Char}

theorem acceptedBy_listed :
    acceptedBy engine source (Flag.listed text) = true ↔ AcceptedUnder engine source text := by
  have hflag : ∀ f : Flag, (Flag.listed text).contains f = decide (f.letter ∈ text) := fun f => by
    rw [Bool.eq_iff_iff, List.contains_iff_mem, Flag.mem_listed, decide_eq_true_iff]
  rw [acceptedBy, hflag, hflag, hflag]
  rfl

/-- **A pattern is made** of a flag text without faults and a source that the
    engine accepts. -/
theorem compile_eq_ok : compile (acceptedBy engine) source flags = .ok p ↔
    Flag.Proper flags.toList ∧ AcceptedUnder engine source flags.toList ∧
      p = ⟨source, Flag.listed flags.toList⟩ := by
  rw [compile]
  cases hread : Flag.read? flags with
  | error e =>
    refine iff_of_false (by rintro ⟨⟩) ?_
    rintro ⟨hproper, -⟩
    rw [Flag.read?_eq_ok.2 ⟨hproper, rfl⟩] at hread
    cases hread
  | ok fs =>
    obtain ⟨hproper, rfl⟩ := Flag.read?_eq_ok.1 hread
    rw [and_iff_right hproper, ← acceptedBy_listed]
    change (if _ then _ else _) = _ ↔ _
    split
    next haccepts => simp [haccepts, eq_comm]
    next haccepts => simp [haccepts]

/-- **A pattern is refused** for the first reason there is. -/
theorem compile_eq_error : compile (acceptedBy engine) source flags = .error e ↔
    Refused engine source flags.toList e := by
  rw [compile]
  cases hread : Flag.read? flags with
  | error e' =>
    constructor
    · rintro ⟨⟩
      rcases Flag.read?_eq_error.1 hread with hfirst | ⟨⟨hknown, hnodup⟩, ⟨hu, hv⟩, rfl⟩
      · exact .letter hfirst
      · exact .modes hknown hnodup hu hv
    · intro href
      cases href with
      | letter hfirst =>
        rw [Flag.read?_eq_error.2 (.inl hfirst)] at hread
        cases hread
        rfl
      | modes hknown hnodup hu hv =>
        rw [Flag.read?_eq_error.2 (.inr ⟨⟨hknown, hnodup⟩, ⟨hu, hv⟩, rfl⟩)] at hread
        cases hread
        rfl
      | source hproper =>
        rw [Flag.read?_eq_ok.2 ⟨hproper, rfl⟩] at hread
        cases hread
  | ok fs =>
    obtain ⟨hproper, rfl⟩ := Flag.read?_eq_ok.1 hread
    change (if _ then _ else _) = _ ↔ _
    split
    next haccepts =>
      refine iff_of_false (by rintro ⟨⟩) fun href => ?_
      cases href with
      | letter hfirst =>
        rw [Flag.read?_eq_error.2 (.inl hfirst)] at hread
        cases hread
      | modes _ _ hu hv => exact hproper.compatible ⟨hu, hv⟩
      | source _ hnot => exact hnot (acceptedBy_listed.1 haccepts)
    next haccepts =>
      constructor
      · rintro ⟨⟩
        exact .source hproper (mt acceptedBy_listed.2 haccepts)
      · intro href
        cases href with
        | letter hfirst =>
          rw [Flag.read?_eq_error.2 (.inl hfirst)] at hread
          cases hread
        | modes _ _ hu hv => exact absurd ⟨hu, hv⟩ hproper.compatible
        | source => rfl

theorem acceptedUnder_perm (hp : text'.Perm text) :
    AcceptedUnder engine source text' ↔ AcceptedUnder engine source text := by
  simp only [AcceptedUnder, hp.mem_iff]

theorem check_of_firstFault (he : FirstFault (Flag.Faulty text) text e) : e.check = .letters := by
  obtain ⟨_, _, _, -, -, he⟩ := he
  cases he <;> rfl

/-- The error may depend on the order of the flags, but not the check that it
    comes from. -/
theorem Refused.perm (hp : text'.Perm text) (he : Refused engine source text e) :
    ∃ e', Refused engine source text' e' ∧ e'.check = e.check := by
  cases he with
  | letter hfirst =>
    obtain ⟨c, hc, e', he'⟩ := exists_firstFault_iff.1 ⟨e, hfirst⟩
    obtain ⟨e'', hfirst'⟩ := exists_firstFault_iff.2 ⟨c, hp.mem_iff.2 hc, e', he'.perm hp⟩
    exact ⟨e'', .letter hfirst', by rw [check_of_firstFault hfirst, check_of_firstFault hfirst']⟩
  | modes hknown hnodup hu hv =>
    exact ⟨_, .modes (fun c hc => hknown c (hp.mem_iff.1 hc)) (hp.nodup_iff.2 hnodup)
      (hp.mem_iff.2 hu) (hp.mem_iff.2 hv), rfl⟩
  | source hproper hnot =>
    exact ⟨_, .source (hproper.perm hp) (mt (acceptedUnder_perm hp).1 hnot), rfl⟩

/-- **Another order of the flags** gives the same pattern, or an error of the
    same check. -/
theorem compile_perm (hp : flags'.toList.Perm flags.toList) :
    (compile (acceptedBy engine) source flags').mapError PatternError.check =
      (compile (acceptedBy engine) source flags).mapError PatternError.check := by
  cases hout : compile (acceptedBy engine) source flags with
  | error e =>
    obtain ⟨e', he', hcheck⟩ := (compile_eq_error.1 hout).perm hp
    rw [compile_eq_error.2 he']
    exact congrArg Except.error hcheck
  | ok p =>
    obtain ⟨hproper, haccepts, rfl⟩ := compile_eq_ok.1 hout
    rw [compile_eq_ok.2 ⟨hproper.perm hp, (acceptedUnder_perm hp).2 haccepts, rfl⟩,
      Flag.listed_perm hp]

/-- A pattern can be made again of what it keeps. -/
theorem compile_again (hout : compile (acceptedBy engine) source flags = .ok p) :
    compile (acceptedBy engine) p.source p.flagText = .ok p := by
  obtain ⟨hproper, haccepts, rfl⟩ := compile_eq_ok.1 hout
  have hp : (flagText ⟨source, Flag.listed flags.toList⟩).toList.Perm flags.toList := by
    rw [flagText, String.toList_ofList]
    exact Flag.listed_perm_self hproper
  rw [compile_eq_ok, Flag.listed_perm hp]
  exact ⟨hproper.perm hp, (acceptedUnder_perm hp).2 haccepts, rfl⟩

end

end Pattern

/-- **Two patterns of a heap are equal** if they have the same source and the
    same flags. -/
theorem Heap.deepEqual_patterns {h : Heap} {l r : Ref} {p q : Pattern}
    (hl : h.get? l = some (.pattern p)) (hr : h.get? r = some (.pattern q)) :
    h.deepEqual (.object l) (.object r) = true ↔ p = q := by
  constructor
  · intro he
    by_cases hlr : l = r
    · subst hlr
      rw [hl] at hr
      cases hr
      rfl
    · obtain ⟨f, o, o', ho, ho', hagree⟩ := exists_agree_of_deepEqual he hlr
      rw [hl] at ho
      rw [hr] at ho'
      cases ho
      cases ho'
      cases hagree with
      | patterns hsource hflags =>
        cases p
        cases q
        congr
  · rintro rfl
    refine Correspondence.deepEqual (f := fun s => if s = l then some r else none)
      ⟨.paired (if_pos rfl), fun s t hst _ => ?_⟩
    split at hst
    next hs =>
      cases hst
      subst hs
      exact ⟨_, _, hl, hr, .patterns rfl rfl⟩
    next => cases hst

namespace Pattern

/-- **The flags of a pattern form a set.**  Which patterns there are, why the
    others are refused, what a pattern keeps, and when two are equal, where the
    order of the flags is of no account. -/
theorem flags_form_set (engine : String → Bool → Bool → Bool → Bool) (source flags : String) :
    ((∃ p, compile (acceptedBy engine) source flags = .ok p) ↔
      Flag.Proper flags.toList ∧ AcceptedUnder engine source flags.toList) ∧
    (∀ e, compile (acceptedBy engine) source flags = .error e ↔
      Refused engine source flags.toList e) ∧
    (∀ flags', flags'.toList.Perm flags.toList →
      (compile (acceptedBy engine) source flags').mapError PatternError.check =
        (compile (acceptedBy engine) source flags).mapError PatternError.check) ∧
    ∀ p, compile (acceptedBy engine) source flags = .ok p →
      p.source = source ∧ p.flagText.toList = Flag.letters.filter (fun c => c ∈ flags.toList) ∧
      compile (acceptedBy engine) p.source p.flagText = .ok p ∧
      ∀ source' flags' q, compile (acceptedBy engine) source' flags' = .ok q →
        ∀ (h : Heap) l r, h.get? l = some (.pattern p) → h.get? r = some (.pattern q) →
          (h.deepEqual (.object l) (.object r) = true ↔
            source = source' ∧ flags.toList.Perm flags'.toList) := by
  refine ⟨?_, fun e => compile_eq_error, fun flags' => compile_perm, fun p hp => ?_⟩
  · constructor
    · rintro ⟨p, hp⟩
      obtain ⟨hproper, haccepts, -⟩ := compile_eq_ok.1 hp
      exact ⟨hproper, haccepts⟩
    · rintro ⟨hproper, haccepts⟩
      exact ⟨_, compile_eq_ok.2 ⟨hproper, haccepts, rfl⟩⟩
  · have hagain := compile_again hp
    obtain ⟨hproper, -, rfl⟩ := compile_eq_ok.1 hp
    refine ⟨rfl, ?_, hagain, fun source' flags' q hq h l r hl hr => ?_⟩
    · rw [flagText, String.toList_ofList, Flag.map_letter_listed]
    · obtain ⟨hproper', -, rfl⟩ := compile_eq_ok.1 hq
      rw [Heap.deepEqual_patterns hl hr, Pattern.mk.injEq, Flag.listed_eq_iff hproper hproper']

/-- The engine that patterns are made with. -/
def engine (source : String) (ignoreCase multiLine dotAll : Bool) : Bool :=
  (Regex.read? ignoreCase multiLine dotAll source).isSome

theorem read?_eq_compile : read? = compile (acceptedBy engine) := rfl

/-- Two equal patterns. -/
def twoWords : Heap :=
  ⟨#[.pattern ⟨"a+b", [.global, .ignoreCase, .sticky]⟩,
    .pattern ⟨"a+b", [.global, .ignoreCase, .sticky]⟩]⟩

theorem flags_form_set_words :
    "gyi".toList.Perm "yig".toList ∧
    read? "a+b" "yig" = .ok ⟨"a+b", [.global, .ignoreCase, .sticky]⟩ ∧
    read? "a+b" "gyi" = .ok ⟨"a+b", [.global, .ignoreCase, .sticky]⟩ ∧
    twoWords.deepEqual (.object ⟨0⟩) (.object ⟨1⟩) = true ∧
    "ggx".toList.Perm "xgg".toList ∧
    (read? "a+b" "ggx").mapError PatternError.check =
      (read? "a+b" "xgg").mapError PatternError.check := by
  have hp : "gyi".toList.Perm "yig".toList := by decide
  have hp' : "ggx".toList.Perm "xgg".toList := by decide
  have hyig : read? "a+b" "yig" = .ok ⟨"a+b", [.global, .ignoreCase, .sticky]⟩ := by decide +kernel
  have hgyi : read? "a+b" "gyi" = .ok ⟨"a+b", [.global, .ignoreCase, .sticky]⟩ := by decide +kernel
  rw [read?_eq_compile] at hyig hgyi ⊢
  obtain ⟨-, -, -, hequal⟩ := (flags_form_set engine "a+b" "yig").2.2.2 _ hyig
  have hdeep := hequal "a+b" "gyi" _ hgyi twoWords ⟨0⟩ ⟨1⟩ rfl rfl
  exact ⟨hp, hyig, hgyi, hdeep.2 ⟨rfl, hp.symm⟩, hp',
    (flags_form_set engine "a+b" "xgg").2.2.1 "ggx" hp'⟩

end Pattern

end ValueGraph
