/-
  How layers of ignore rules combine.

  Rules come from a configuration, from one of its profiles, and from any
  number of later layers.  A malformed glob makes a configuration fail; of a
  later layer with a malformed glob all names and the globs in front count.

  * `Glob.Malformed`: what is wrong with a text that is no glob;
  * `RuleSet.readable`: the globs of a layer in front of the first malformed one;
  * `Configuration.Refused`: why a configuration gives no rules;
  * `IgnoreRules.Covers`: what names and globs leave out;
  * `Joins.extend`, `Joins.extendAll`: one more layer, and any number of them;
  * `IgnoreRules.combines_layers`: the rules after any series of layers, what
    is refused on the way, and what they leave out.
-/
import ValueGraph.Proofs.FirstFaults
import ValueGraph.Proofs.Stripping

namespace ValueGraph

/-! ## The globs of a layer -/

namespace Glob

variable {path : String} {glob : Glob} {fault : GlobError}

/-- Whether a text is a well-formed glob. -/
def isGlob (path : String) : Bool := (read? path).isOk

theorem isGlob_of_ok (hg : read? path = .ok glob) : isGlob path = true := by
  rw [isGlob, hg]
  rfl

theorem isGlob_of_error (hf : read? path = .error fault) : isGlob path = false := by
  rw [isGlob, hf]
  rfl

theorem text_of_read? (hg : read? path = .ok glob) : glob.text = path := by
  rw [read?] at hg
  cases ht : readTokens? 0 true path.toList with
  | error e => simp [ht, bind, Except.bind] at hg
  | ok tokens =>
    rw [ht] at hg
    cases hg
    rfl

end Glob

/-- What is wrong with a text that is no glob. -/
def Glob.Malformed (path : String) (e : RuleError) : Prop :=
  ∃ fault, read? path = .error fault ∧ e = .badPath path fault

/-- The globs of a layer in front of the first malformed one. -/
def RuleSet.readable (layer : RuleSet) : List String := layer.paths.takeWhile Glob.isGlob

namespace Glob

variable {path : String} {paths : List String} {glob : Glob} {fault : GlobError} {e : RuleError}

theorem not_malformed_of_ok (hg : read? path = .ok glob) : ¬ Malformed path e := by
  rintro ⟨fault, hf, -⟩
  rw [hg] at hf
  cases hf

theorem malformed_of_error (hf : read? path = .error fault) :
    Malformed path e ↔ e = .badPath path fault := by
  constructor
  · rintro ⟨fault', hf', rfl⟩
    rw [hf] at hf'
    cases hf'
    rfl
  · rintro rfl
    exact ⟨fault, hf, rfl⟩

theorem isGlob_iff_not_malformed : isGlob path = true ↔ ∀ e, ¬ Malformed path e := by
  cases hread : read? path with
  | error fault =>
    refine iff_of_false (by simp [isGlob_of_error hread]) fun hnone => ?_
    exact hnone _ ⟨fault, hread, rfl⟩
  | ok glob => exact iff_of_true (isGlob_of_ok hread) fun e => not_malformed_of_ok hread

/-- Nothing is reported of a list of globs. -/
theorem not_firstFault_of_isGlob (hglobs : ∀ path ∈ paths, isGlob path = true) :
    ¬ FirstFault Malformed paths e := by
  intro he
  obtain ⟨path, hpath, e', he'⟩ := exists_firstFault_iff.1 ⟨e, he⟩
  exact isGlob_iff_not_malformed.1 (hglobs path hpath) e' he'

end Glob

namespace IgnoreRules

section
variable {path : String} {paths : List String} {glob : Glob} {fault : GlobError} {e : RuleError}

theorem readGlobs_cons_of_ok (hg : Glob.read? path = .ok glob) :
    readGlobs (path :: paths) = (glob :: (readGlobs paths).1, (readGlobs paths).2) := by
  rw [readGlobs, hg]

theorem readGlobs_cons_of_error (hf : Glob.read? path = .error fault) :
    readGlobs (path :: paths) = ([], some (.badPath path fault)) := by
  rw [readGlobs, hf]

/-- What is read are the globs in front of the first malformed one. -/
theorem texts_readGlobs (paths : List String) :
    (readGlobs paths).1.map Glob.text = paths.takeWhile Glob.isGlob := by
  induction paths with
  | nil => rfl
  | cons path paths ih =>
    cases hread : Glob.read? path with
    | error fault =>
      have hbad : ¬ Glob.isGlob path = true := by simp [Glob.isGlob_of_error hread]
      rw [readGlobs_cons_of_error hread, List.takeWhile_cons_of_neg hbad]
      rfl
    | ok glob =>
      rw [readGlobs_cons_of_ok hread, List.takeWhile_cons_of_pos (Glob.isGlob_of_ok hread),
        List.map_cons, ih, Glob.text_of_read? hread]

theorem read?_readGlobs (paths : List String) :
    ∀ glob ∈ (readGlobs paths).1, Glob.read? glob.text = .ok glob := by
  induction paths with
  | nil => simp [readGlobs]
  | cons path paths ih =>
    cases hread : Glob.read? path with
    | error fault => simp [readGlobs_cons_of_error hread]
    | ok glob =>
      rw [readGlobs_cons_of_ok hread]
      refine List.forall_mem_cons.2 ⟨?_, ih⟩
      rw [Glob.text_of_read? hread, hread]

/-- **The error that is reported** is that of the first malformed glob. -/
theorem error_readGlobs : (readGlobs paths).2 = some e ↔ FirstFault Glob.Malformed paths e := by
  induction paths with
  | nil => exact iff_of_false (by simp [readGlobs]) not_firstFault_nil
  | cons path paths ih =>
    cases hread : Glob.read? path with
    | error fault =>
      rw [readGlobs_cons_of_error hread,
        firstFault_cons_of_fault fun e => Glob.malformed_of_error hread, Option.some.injEq, eq_comm]
    | ok glob =>
      rw [readGlobs_cons_of_ok hread,
        firstFault_cons_of_none fun e => Glob.not_malformed_of_ok hread, ih]

/-- A list without a malformed glob is read as a whole. -/
theorem error_readGlobs_eq_none :
    (readGlobs paths).2 = none ↔ ∀ path ∈ paths, Glob.isGlob path = true := by
  have hnone : (readGlobs paths).2 = none ↔ ¬ ∃ e, FirstFault Glob.Malformed paths e := by
    rw [Option.eq_none_iff_forall_ne_some, not_exists]
    exact forall_congr' fun e => not_congr error_readGlobs
  rw [hnone, exists_firstFault_iff]
  simp [Glob.isGlob_iff_not_malformed]

theorem extend?_eq_ok {r s : IgnoreRules} {layer : RuleSet} : r.extend? layer = .ok s ↔
    (r.extend layer).1 = s ∧ ∀ path ∈ layer.paths, Glob.isGlob path = true := by
  rw [← error_readGlobs_eq_none, extend?, extend]
  dsimp only
  split
  next _ error hpair => simp_all
  next rules hpair => simp_all

theorem extend?_eq_error {r : IgnoreRules} {layer : RuleSet} :
    r.extend? layer = .error e ↔ FirstFault Glob.Malformed layer.paths e := by
  rw [← error_readGlobs, extend?, extend]
  dsimp only
  split
  next _ error hpair => simp_all
  next rules hpair => simp_all

end

end IgnoreRules

/-! ## Configurations -/

namespace Configuration

variable {c : Configuration} {name : String} {p : Profile}

/-- The profile is the first one with this name. -/
def FirstNamed (c : Configuration) (name : String) (p : Profile) : Prop :=
  ∃ before after, c.profiles = before ++ p :: after ∧ p.name = name ∧ ∀ q ∈ before, q.name ≠ name

theorem profile?_eq_some : c.profile? name = some p ↔ c.FirstNamed name p := by
  rw [profile?, List.find?_eq_some_iff_append, FirstNamed]
  simp only [beq_iff_eq, Bool.not_eq_true', beq_eq_false_iff_ne]
  constructor
  · rintro ⟨hname, before, after, hprofiles, hbefore⟩
    exact ⟨before, after, hprofiles, hname, hbefore⟩
  · rintro ⟨before, after, hprofiles, hname, hbefore⟩
    exact ⟨hname, before, after, hprofiles, hbefore⟩

theorem profile?_eq_none : c.profile? name = none ↔ ∀ p ∈ c.profiles, p.name ≠ name := by
  rw [profile?, List.find?_eq_none]
  simp

/-- The layers of a configuration: its own rules, and those of the profile that
    is named. -/
def layers (c : Configuration) (profile : Option String) : List RuleSet :=
  c.rules :: ((profile.bind c.profile?).map Profile.rules).toList

/-- **Why a configuration gives no rules**: a malformed glob among its own, an
    unknown profile, or a malformed glob of the profile, in this order. -/
inductive Refused (c : Configuration) : Option String → RuleError → Prop
  | general {profile : Option String} {e : RuleError} :
      FirstFault Glob.Malformed c.rules.paths e → Refused c profile e
  | unknown {name : String} : (∀ path ∈ c.rules.paths, Glob.isGlob path = true) →
      (∀ p ∈ c.profiles, p.name ≠ name) → Refused c (some name) (.unknownProfile name)
  | ofProfile {name : String} {p : Profile} {e : RuleError} :
      (∀ path ∈ c.rules.paths, Glob.isGlob path = true) → c.FirstNamed name p →
      FirstFault Glob.Malformed p.rules.paths e → Refused c (some name) e

end Configuration

namespace IgnoreRules

section
variable {c : Configuration} {profile : Option String} {name : String} {p : Profile}
  {r : IgnoreRules} {e : RuleError}

theorem ofConfiguration_of_error (hr : empty.extend? c.rules = .error e) :
    ofConfiguration c profile = .error e := by
  rw [ofConfiguration, ofRuleSet, hr]
  rfl

theorem ofConfiguration_none (hr : empty.extend? c.rules = .ok r) :
    ofConfiguration c none = .ok r := by
  rw [ofConfiguration, ofRuleSet, hr]
  rfl

theorem ofConfiguration_unknown (hr : empty.extend? c.rules = .ok r)
    (hp : c.profile? name = none) :
    ofConfiguration c (some name) = .error (.unknownProfile name) := by
  simp only [ofConfiguration, ofRuleSet, hr, hp]
  rfl

theorem ofConfiguration_some (hr : empty.extend? c.rules = .ok r)
    (hp : c.profile? name = some p) :
    ofConfiguration c (some name) = r.extend? p.rules := by
  simp only [ofConfiguration, ofRuleSet, hr, hp]
  rfl

/-- **A configuration fails** if and only if it is refused, and says why. -/
theorem ofConfiguration_eq_error : ofConfiguration c profile = .error e ↔ c.Refused profile e := by
  cases hrules : empty.extend? c.rules with
  | error fault =>
    have hfault := extend?_eq_error.1 hrules
    rw [ofConfiguration_of_error hrules]
    constructor
    · rintro ⟨⟩
      exact .general hfault
    · rintro (hf | ⟨hglobs, -⟩ | ⟨hglobs, -, -⟩)
      · have hsame := hrules.symm.trans (extend?_eq_error.2 hf)
        cases hsame
        rfl
      · exact absurd hfault (Glob.not_firstFault_of_isGlob hglobs)
      · exact absurd hfault (Glob.not_firstFault_of_isGlob hglobs)
  | ok rules =>
    obtain ⟨-, hglobs⟩ := extend?_eq_ok.1 hrules
    cases profile with
    | none =>
      rw [ofConfiguration_none hrules]
      refine iff_of_false (by rintro ⟨⟩) ?_
      rintro ⟨hf⟩
      exact Glob.not_firstFault_of_isGlob hglobs hf
    | some name =>
      cases hprofile : c.profile? name with
      | none =>
        rw [ofConfiguration_unknown hrules hprofile]
        constructor
        · rintro ⟨⟩
          exact .unknown hglobs (Configuration.profile?_eq_none.1 hprofile)
        · rintro (hf | - | ⟨-, hfirst, -⟩)
          · exact absurd hf (Glob.not_firstFault_of_isGlob hglobs)
          · rfl
          · rw [← Configuration.profile?_eq_some, hprofile] at hfirst
            cases hfirst
      | some p =>
        rw [ofConfiguration_some hrules hprofile, extend?_eq_error]
        constructor
        · exact fun hf => .ofProfile hglobs (Configuration.profile?_eq_some.1 hprofile) hf
        · rintro (hf | ⟨-, hnone⟩ | ⟨-, hfirst, hf⟩)
          · exact absurd hf (Glob.not_firstFault_of_isGlob hglobs)
          · rw [← Configuration.profile?_eq_none, hprofile] at hnone
            cases hnone
          · rw [← Configuration.profile?_eq_some, hprofile] at hfirst
            cases hfirst
            exact hf

end

/-! ## Layer upon layer -/

/-- All globs are what their texts denote. -/
def Faithful (r : IgnoreRules) : Prop := ∀ glob ∈ r.globs, Glob.read? glob.text = .ok glob

/-- The texts of the globs. -/
def patterns (r : IgnoreRules) : List String := r.globs.map Glob.text

/-- The rules with more layers, whatever is malformed in them. -/
def extendAll (r : IgnoreRules) (more : List RuleSet) : IgnoreRules :=
  more.foldl (fun r layer => (r.extend layer).1) r

/-- The rules hold the names of all layers, and of each layer the globs in
    front of the first malformed one. -/
structure Joins (r : IgnoreRules) (layers : List RuleSet) : Prop where
  keys : r.keys = layers.flatMap RuleSet.keys
  patterns : r.patterns = layers.flatMap RuleSet.readable
  faithful : r.Faithful

section
variable {r : IgnoreRules} {layers : List RuleSet}

theorem joins_empty : empty.Joins [] where
  keys := rfl
  patterns := rfl
  faithful := by simp [Faithful, empty]

/-- **One more layer.** -/
theorem Joins.extend (hr : r.Joins layers) (layer : RuleSet) :
    (r.extend layer).1.Joins (layers ++ [layer]) where
  keys := by simp [IgnoreRules.extend, hr.keys]
  patterns := by
    have hpatterns := hr.patterns
    rw [IgnoreRules.patterns] at hpatterns ⊢
    simp [IgnoreRules.extend, hpatterns, texts_readGlobs, RuleSet.readable]
  faithful := by
    intro glob hglob
    rcases List.mem_append.1 hglob with hold | hnew
    · exact hr.faithful glob hold
    · exact read?_readGlobs _ glob hnew

/-- **Any number of layers**, by induction on them. -/
theorem Joins.extendAll (more : List RuleSet) :
    ∀ {r : IgnoreRules} {layers : List RuleSet}, r.Joins layers →
      (r.extendAll more).Joins (layers ++ more) := by
  induction more with
  | nil =>
    intro r layers hr
    rwa [List.append_nil]
  | cons layer more ih =>
    intro r layers hr
    rw [List.append_cons]
    exact ih (hr.extend layer)

theorem joins_ofConfiguration {c : Configuration} {profile : Option String}
    (hr : ofConfiguration c profile = .ok r) : r.Joins (c.layers profile) := by
  cases hrules : empty.extend? c.rules with
  | error fault =>
    rw [ofConfiguration_of_error hrules] at hr
    cases hr
  | ok rules =>
    obtain ⟨rfl, -⟩ := extend?_eq_ok.1 hrules
    have hown := joins_empty.extend c.rules
    cases profile with
    | none =>
      rw [ofConfiguration_none hrules] at hr
      cases hr
      exact hown
    | some name =>
      cases hprofile : c.profile? name with
      | none =>
        rw [ofConfiguration_unknown hrules hprofile] at hr
        cases hr
      | some p =>
        rw [ofConfiguration_some hrules hprofile] at hr
        obtain ⟨rfl, -⟩ := extend?_eq_ok.1 hr
        have hlayers : c.layers (some name) = [c.rules] ++ [p.rules] := by
          simp [Configuration.layers, hprofile]
        rw [hlayers]
        exact hown.extend p.rules

end

/-! ## What is left out -/

section
variable (isMatch : Glob → String → Bool)

/-- Names and globs leave out a key of the object at `parent`: it is one of the
    names, or one of the globs matches its dotted path.  A symbol is no name. -/
def Covers (names paths : List String) (key : Key) (parent : KeyPath) : Prop :=
  (∃ name ∈ names, key = .name name) ∨
    ∃ path ∈ paths, ∃ glob, Glob.read? path = .ok glob ∧ isMatch glob (parent.textWith key) = true

variable {isMatch} {ε : Type} {r s : IgnoreRules} {layers : List RuleSet}

/-- Names and globs leave out what any part of them does. -/
theorem covers_flatMap {key : Key} {parent : KeyPath} :
    Covers isMatch (layers.flatMap RuleSet.keys) (layers.flatMap RuleSet.readable) key parent ↔
      ∃ layer ∈ layers, Covers isMatch layer.keys layer.readable key parent := by
  constructor
  · rintro (⟨name, hname, hkey⟩ | ⟨path, hpath, hmatch⟩)
    · obtain ⟨layer, hlayer, hname⟩ := List.mem_flatMap.1 hname
      exact ⟨layer, hlayer, .inl ⟨name, hname, hkey⟩⟩
    · obtain ⟨layer, hlayer, hpath⟩ := List.mem_flatMap.1 hpath
      exact ⟨layer, hlayer, .inr ⟨path, hpath, hmatch⟩⟩
  · rintro ⟨layer, hlayer, ⟨name, hname, hkey⟩ | ⟨path, hpath, hmatch⟩⟩
    · exact .inl ⟨name, List.mem_flatMap.2 ⟨layer, hlayer, hname⟩, hkey⟩
    · exact .inr ⟨path, List.mem_flatMap.2 ⟨layer, hlayer, hpath⟩, hmatch⟩

theorem mem_keys_exclusionBy {key : Key} :
    key ∈ (r.exclusionBy isMatch : Exclusion ε).keys ↔ ∃ name ∈ r.keys, key = .name name := by
  have hkeys : (r.exclusionBy isMatch : Exclusion ε).keys =
      (Exclusion.nothing.ignoreKeys (r.keys.map Key.name) : Exclusion ε).keys := by
    rw [exclusionBy]
    split <;> rfl
  rw [hkeys, Exclusion.mem_ignoreKeys]
  simp [Exclusion.nothing, eq_comm]

theorem matchesPathBy_iff_patterns (hr : r.Faithful) {key : Key} {parent : KeyPath} :
    r.matchesPathBy isMatch key parent = true ↔ ∃ path ∈ r.patterns, ∃ glob,
      Glob.read? path = .ok glob ∧ isMatch glob (parent.textWith key) = true := by
  rw [matchesPathBy, List.any_eq_true]
  constructor
  · rintro ⟨glob, hglob, hmatch⟩
    exact ⟨glob.text, List.mem_map_of_mem hglob, glob, hr glob hglob, hmatch⟩
  · rintro ⟨path, hpath, glob, hread, hmatch⟩
    obtain ⟨glob', hglob', rfl⟩ := List.mem_map.1 hpath
    rw [hr glob' hglob'] at hread
    cases hread
    exact ⟨glob, hglob', hmatch⟩

open Classical in
/-- **What rules leave out**: what their names and globs cover, and nothing
    else. -/
theorem excludes_exclusionBy (hr : r.Faithful) (key : Key) (parent : KeyPath) :
    (r.exclusionBy isMatch : Exclusion ε).excludes key parent =
      .ok (decide (Covers isMatch r.keys r.patterns key parent)) := by
  rw [Exclusion.excludes]
  by_cases hkey : ∃ name ∈ r.keys, key = .name name
  · rw [if_pos (mem_keys_exclusionBy.2 hkey), decide_eq_true (.inl hkey)]
  · rw [if_neg (mt mem_keys_exclusionBy.1 hkey), predicate_exclusionBy]
    have hcovers : Covers isMatch r.keys r.patterns key parent ↔
        r.matchesPathBy isMatch key parent = true := by
      rw [Covers, or_iff_right hkey, matchesPathBy_iff_patterns hr]
    by_cases hglobs : r.globs.isEmpty = true
    · have hno : r.matchesPathBy isMatch key parent = false := by
        rw [matchesPathBy, List.isEmpty_iff.1 hglobs, List.any_nil]
      rw [if_pos hglobs, decide_eq_false (by rw [hcovers, hno]; simp)]
    · rw [if_neg hglobs]
      dsimp only
      congr 1
      rw [Bool.eq_iff_iff, decide_eq_true_iff, hcovers]

theorem isEmpty_exclusionBy :
    (r.exclusionBy isMatch : Exclusion ε).isEmpty = r.isEmpty := by
  have hkeys : (r.exclusionBy isMatch : Exclusion ε).keys = [] ↔ r.keys = [] := by
    rw [List.eq_nil_iff_forall_not_mem, List.eq_nil_iff_forall_not_mem]
    simp only [mem_keys_exclusionBy, not_exists, not_and]
    constructor
    · exact fun hnone name hname => hnone _ name hname rfl
    · exact fun hnone key name hname _ => hnone name hname
  rw [Exclusion.isEmpty, isEmpty, predicate_exclusionBy, Bool.eq_iff_iff]
  simp only [Bool.and_eq_true, List.isEmpty_iff, hkeys]
  split
  next hglobs => simp_all
  next hglobs => simp_all

theorem isEmpty_iff : r.isEmpty = true ↔ r.keys = [] ∧ r.patterns = [] := by
  simp [isEmpty, patterns]

/-- Rules that stand for some layers. -/
structure Combines (ε : Type) (isMatch : Glob → String → Bool) (r : IgnoreRules)
    (layers : List RuleSet) : Prop where
  /-- The names are those of the layers, one after the other. -/
  keys : r.keys = layers.flatMap RuleSet.keys
  /-- The globs are those of each layer up to its first malformed one. -/
  patterns : r.patterns = layers.flatMap RuleSet.readable
  /-- What is left out is what names and globs cover. -/
  excludes (key : Key) (parent : KeyPath) :
    (r.exclusionBy isMatch : Exclusion ε).excludes key parent = .ok true ↔
      Covers isMatch r.keys r.patterns key parent
  /-- Everything else is kept; no question is rejected. -/
  keeps (key : Key) (parent : KeyPath) :
    (r.exclusionBy isMatch : Exclusion ε).excludes key parent = .ok false ↔
      ¬ Covers isMatch r.keys r.patterns key parent
  /-- What is left out is what any of the layers covers. -/
  union (key : Key) (parent : KeyPath) : Covers isMatch r.keys r.patterns key parent ↔
    ∃ layer ∈ layers, Covers isMatch layer.keys layer.readable key parent
  /-- There is nothing to leave out if there are neither names nor globs. -/
  isEmpty : (r.exclusionBy isMatch : Exclusion ε).isEmpty = r.isEmpty ∧
    (r.isEmpty = true ↔ r.keys = [] ∧ r.patterns = [])

theorem Joins.combines (hr : r.Joins layers) : r.Combines ε isMatch layers where
  keys := hr.keys
  patterns := hr.patterns
  excludes key parent := by simp [excludes_exclusionBy hr.faithful]
  keeps key parent := by simp [excludes_exclusionBy hr.faithful]
  union key parent := by rw [hr.keys, hr.patterns, covers_flatMap]
  isEmpty := ⟨isEmpty_exclusionBy, isEmpty_iff⟩

/-- The same names and the same globs leave out the same keys, in whatever order
    they come and however often. -/
theorem excludes_congr (hr : r.Faithful) (hs : s.Faithful)
    (hkeys : ∀ name, name ∈ r.keys ↔ name ∈ s.keys)
    (hpatterns : ∀ path, path ∈ r.patterns ↔ path ∈ s.patterns) (key : Key) (parent : KeyPath) :
    (r.exclusionBy isMatch : Exclusion ε).excludes key parent =
      (s.exclusionBy isMatch : Exclusion ε).excludes key parent := by
  have hcovers : Covers isMatch r.keys r.patterns key parent ↔
      Covers isMatch s.keys s.patterns key parent := by
    simp only [Covers, hkeys, hpatterns]
  rw [excludes_exclusionBy hr, excludes_exclusionBy hs, decide_eq_decide.2 hcovers]

end

/-- **Rules in layers.**  A configuration fails for the first reason there is,
    and a later layer reports its first malformed glob.  In between the rules
    stand for all layers so far; neither the order of names and globs nor their
    number matters to what is left out. -/
theorem combines_layers {ε : Type} (isMatch : Glob → String → Bool) (c : Configuration)
    (profile : Option String) :
    (∀ e, ofConfiguration c profile = .error e ↔ c.Refused profile e) ∧
    (∀ (r : IgnoreRules) (layer : RuleSet) e,
      (r.extend layer).2 = some e ↔ FirstFault Glob.Malformed layer.paths e) ∧
    ∀ r, ofConfiguration c profile = .ok r → ∀ more : List RuleSet,
      (r.extendAll more).Combines ε isMatch (c.layers profile ++ more) ∧
      ∀ c' profile' r' more', ofConfiguration c' profile' = .ok r' →
        (∀ name, name ∈ (r.extendAll more).keys ↔ name ∈ (r'.extendAll more').keys) →
        (∀ path, path ∈ (r.extendAll more).patterns ↔ path ∈ (r'.extendAll more').patterns) →
        ∀ key parent, ((r.extendAll more).exclusionBy isMatch : Exclusion ε).excludes key parent =
          ((r'.extendAll more').exclusionBy isMatch : Exclusion ε).excludes key parent := by
  refine ⟨fun e => ofConfiguration_eq_error, fun r layer e => error_readGlobs, fun r hr more => ?_⟩
  have hjoins := (joins_ofConfiguration hr).extendAll more
  refine ⟨hjoins.combines, fun c' profile' r' more' hr' hkeys hpatterns => ?_⟩
  have hjoins' := (joins_ofConfiguration hr').extendAll more'
  exact excludes_congr hjoins.faithful hjoins'.faithful hkeys hpatterns

/-- A configuration with two profiles of one name; the second one is malformed. -/
def audited : Configuration :=
  ⟨⟨["id"], ["meta.at"]⟩, [⟨"audit", ⟨["by"], []⟩⟩, ⟨"audit", ⟨["on"], ["["]⟩⟩]⟩

/-- Two later layers; the first one has a malformed glob. -/
def auditedMore : List RuleSet := [⟨["tmp"], ["log.*", "[", "on"]⟩, ⟨["id"], ["meta.at"]⟩]

/-- The same names and globs otherwise. -/
def regrouped : Configuration := ⟨⟨["tmp", "id", "by"], ["log.*", "meta.at"]⟩, []⟩

/-- The rules of the first configuration with its first profile. -/
def auditedRules : IgnoreRules := ⟨["id", "by"], [⟨"meta.at", "meta.at".toList.map .literal⟩]⟩

/-- The rules of the second configuration. -/
def regroupedRules : IgnoreRules :=
  ⟨["tmp", "id", "by"], [⟨"log.*", "log.".toList.map .literal ++ [.anyRun]⟩,
    ⟨"meta.at", "meta.at".toList.map .literal⟩]⟩

theorem combines_layers_audited :
    ofConfiguration audited (some "audit") = .ok auditedRules ∧
    ofConfiguration regrouped none = .ok regroupedRules ∧
    (auditedRules.extendAll auditedMore).Combines Empty Glob.isMatch
      (audited.layers (some "audit") ++ auditedMore) ∧
    ∀ key parent, ((auditedRules.extendAll auditedMore).exclusionBy Glob.isMatch :
      Exclusion Empty).excludes key parent = ((regroupedRules.extendAll []).exclusionBy
        Glob.isMatch : Exclusion Empty).excludes key parent := by
  have hr : ofConfiguration audited (some "audit") = .ok auditedRules := by decide +kernel
  have hr' : ofConfiguration regrouped none = .ok regroupedRules := by decide +kernel
  have hkeys : (auditedRules.extendAll auditedMore).keys = ["id", "by", "tmp", "id"] := rfl
  have hkeys' : (regroupedRules.extendAll []).keys = ["tmp", "id", "by"] := rfl
  have hpatterns : (auditedRules.extendAll auditedMore).patterns =
      ["meta.at", "log.*", "meta.at"] := by
    decide +kernel
  have hpatterns' : (regroupedRules.extendAll []).patterns = ["log.*", "meta.at"] := rfl
  obtain ⟨hcombines, hsame⟩ := (combines_layers Glob.isMatch audited (some "audit")).2.2
    auditedRules hr auditedMore
  refine ⟨hr, hr', hcombines, hsame regrouped none regroupedRules [] hr' ?_ ?_⟩
  · intro name
    simp only [hkeys, hkeys', List.mem_cons, List.not_mem_nil]
    tauto
  · intro path
    simp only [hpatterns, hpatterns', List.mem_cons, List.not_mem_nil]
    tauto

end IgnoreRules

end ValueGraph
