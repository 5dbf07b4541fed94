/-
  Comparing and pruning from the command line.

  The two commands take the same flags, up to `--json`, so flags that complete
  a line for pruning one file complete a line for comparing two.  Both read the
  rules first and the documents next; pruning a document that could be read
  never fails.

  * `Line.about`: the flags of a line, for other files;
  * `Line.read?_about`: flags are read alike whatever files and whichever
    command they stand with;
  * `Command.run_prune`, `Command.run_compare`: when a command comes through,
    and with what;
  * `compare_agrees_with_prune`: a comparison fails iff pruning one of the two
    files fails, and finds them equal iff both prunings print the same.
-/
import ValueGraph.CommandLine
import ValueGraph.Proofs.LoadedDocuments

namespace ValueGraph

namespace CommandLine

/-! ## Flags for other files -/

/-- A text that names a file where it stands among the arguments. -/
def NamesFile (text : String) : Prop := Argument.isValue text = true ∧ text ≠ ""

instance {text : String} : Decidable (NamesFile text) := inferInstanceAs (Decidable (_ ∧ _))

theorem Argument.ofString_eq_word {text : String} (h : isValue text = true) :
    ofString text = .word text := by
  rw [isValue] at h
  split at h
  next name hname =>
    rw [hname]
    rw [ofString] at hname
    split at hname <;> simp_all
  next => simp at h

namespace Flag

variable {flag : Flag}

/-- The flags for pruning are flags of either command, and `--json` is not one
    of them. -/
theorem ofName?_prune (verb : Verb) {name : String} (h : ofName? .prune name = some flag) :
    flag ≠ .asJson ∧ ofName? verb name = some flag := by
  rw [ofName?.eq_def] at h ⊢
  split at h <;> simp_all
  all_goals subst h; simp

theorem ofLetter?_ne {letter : Char} (h : ofLetter? letter = some flag) : flag ≠ .asJson := by
  rw [ofLetter?.eq_def] at h
  split at h <;> simp_all
  all_goals subst h; simp

end Flag

namespace Line

/-- The flags of a line, for other files. -/
def about (l : Line) (names : List String) (asJson : Bool) : Line := { l with names, asJson }

section
variable {l l' : Line} {flag : Flag} {mode mode' : Mode} {names : List String} {asJson : Bool}
  {verb : Verb}

theorem set?_about {value : String} (h : l.set? flag value = some l') :
    l'.names = l.names ∧ (l.about names asJson).set? flag value = some (l'.about names asJson) := by
  cases flag with
  | key | path => cases h; exact ⟨rfl, rfl⟩
  | profile | configuration =>
    rw [set?] at h ⊢
    split at h
    next hfree =>
      cases h
      exact ⟨rfl, if_pos hfree⟩
    next => cases h
  | noConfiguration | asJson | help => cases h

theorem turnOn?_about (hf : flag ≠ .asJson) (h : l.turnOn? flag = some l') :
    l'.names = l.names ∧ (l.about names asJson).turnOn? flag = some (l'.about names asJson) := by
  cases flag with
  | noConfiguration =>
    rw [turnOn?] at h ⊢
    split at h
    next => cases h
    next hfree =>
      cases h
      exact ⟨rfl, if_neg hfree⟩
  | asJson => exact absurd rfl hf
  | key | path | profile | configuration | help => cases h

/-- What changes a line alike for other files leads on alike. -/
theorem going_about (change : Line → Option Line)
    (hchange : ∀ {m}, change l = some m →
      m.names = l.names ∧ change (l.about names asJson) = some (m.about names asJson))
    (h : (change l).map (Progress.going · .any) = some (.going l' mode)) :
    l'.names = l.names ∧ (change (l.about names asJson)).map (Progress.going · .any) =
      some (.going (l'.about names asJson) mode) := by
  obtain ⟨m, hm, he⟩ := Option.map_eq_some_iff.1 h
  cases he
  obtain ⟨hnames, hsame⟩ := hchange hm
  exact ⟨hnames, by rw [hsame, Option.map_some]⟩

theorem give?_about {value : Option String} (hf : flag ≠ .asJson)
    (h : l.give? flag value = some (.going l' mode)) :
    l'.names = l.names ∧
      (l.about names asJson).give? flag value = some (.going (l'.about names asJson) mode) := by
  cases value with
  | some value =>
    rw [give?] at h ⊢
    split at h
    next hvalue =>
      rw [if_pos hvalue]
      exact going_about (·.set? flag value) set?_about h
    next => cases h
  | none =>
    rw [give?] at h ⊢
    split at h
    next hvalue =>
      cases h
      exact ⟨rfl, if_pos hvalue⟩
    next hvalue =>
      rw [if_neg hvalue]
      split at h
      next => cases h
      next hhelp =>
        rw [if_neg hhelp]
        exact going_about (·.turnOn? flag) (turnOn?_about hf) h

/-- A line for pruning takes only one name. -/
theorem addName?_full {name : String} (hn : l.names.length = 1) :
    l.addName? .prune name = none := by
  simp [addName?, hn]

/-- An argument is taken alike on a line for other files. -/
theorem next?_about (verb : Verb) {arg : String} (hn : l.names.length = 1)
    (h : l.next? .prune mode arg = some (.going l' mode')) :
    l'.names = l.names ∧ (l.about names asJson).next? verb mode arg =
      some (.going (l'.about names asJson) mode') := by
  cases mode with
  | name => simp [next?, addName?_full hn] at h
  | value flag =>
    rw [next?] at h ⊢
    split at h
    next hvalue =>
      rw [if_pos hvalue]
      exact going_about (·.set? flag arg) set?_about h
    next => cases h
  | any =>
    rw [next?] at h ⊢
    split at h
    next => cases h; exact ⟨rfl, rfl⟩
    next => simp [addName?_full hn] at h
    next =>
      obtain ⟨flag, hflag, hgive⟩ := Option.bind_eq_some_iff.1 h
      obtain ⟨hf, hflag⟩ := Flag.ofName?_prune verb hflag
      rw [hflag]
      exact give?_about hf hgive
    next => cases h
    next =>
      obtain ⟨flag, hflag, hgive⟩ := Option.bind_eq_some_iff.1 h
      rw [hflag]
      exact give?_about (Flag.ofLetter?_ne hflag) hgive

theorem give?_done {value : Option String} {request : Request}
    (h : l.give? flag value = some (.done request)) : request = .help := by
  cases value with
  | some value =>
    rw [give?] at h
    split at h <;> simp at h
  | none =>
    rw [give?] at h
    split at h
    next => cases h
    next =>
      split at h
      next => cases h; rfl
      next => simp at h

/-- Nothing but a call for help ends a line early. -/
theorem next?_done {arg : String} {request : Request}
    (h : l.next? verb mode arg = some (.done request)) : request = .help := by
  rw [next?.eq_def] at h
  split at h
  next => simp at h
  next => split at h <;> simp at h
  next =>
    split at h
    next => cases h
    next => simp at h
    next => exact give?_done (Option.bind_eq_some_iff.1 h).choose_spec.2
    next => cases h; rfl
    next => exact give?_done (Option.bind_eq_some_iff.1 h).choose_spec.2

/-- **Flags are read alike** whatever files they stand with: if they complete a
    line for pruning to the command `c`, they complete the line for other files
    to `c'`, where `c'` is what the same flags make of those files. -/
theorem read?_about {c c' : Command} {args : List String} (hn : l.names.length = 1)
    (hc : ∀ last : Line, last.command? .prune = some c →
      (last.about names asJson).command? verb = some c')
    (h : l.read? .prune mode args = some (.run c)) :
    (l.about names asJson).read? verb mode args = some (.run c') := by
  induction args generalizing l mode with
  | nil =>
    cases mode with
    | value flag => cases h
    | any | name =>
      obtain ⟨d, hd, he⟩ := Option.map_eq_some_iff.1 h
      cases he
      exact Option.map_eq_some_iff.2 ⟨c', hc l hd, rfl⟩
  | cons arg args ih =>
    rw [read?] at h ⊢
    split at h
    next => cases h
    next request hdone =>
      cases h
      cases next?_done hdone
    next l' mode' hgoing =>
      obtain ⟨hnames, hgoing⟩ := next?_about verb hn hgoing
      rw [hgoing]
      exact ih (hnames ▸ hn) h

end

section
variable {l : Line} {name left right : String} {choice : RuleChoice} {asJson : Bool}

theorem command?_prune (h : l.command? .prune = some (.prune name choice)) :
    l.choice? = some choice := by
  obtain ⟨choice', hchoice, h⟩ := Option.bind_eq_some_iff.1 h
  split at h
  next heq _ => cases heq
  next =>
    cases h
    exact hchoice
  next => cases h

theorem command?_about_prune (h : l.command? .prune = some (.prune name choice)) :
    (l.about [right] asJson).command? .prune = some (.prune right choice) :=
  Option.bind_eq_some_iff.2 ⟨choice, (command?_prune h :), rfl⟩

theorem command?_about_compare (h : l.command? .prune = some (.prune name choice)) :
    (l.about [left, right] asJson).command? .compare =
      some (.compare left right choice asJson) :=
  Option.bind_eq_some_iff.2 ⟨choice, (command?_prune h :), rfl⟩

end

end Line

/-! ## Requests -/

namespace Request

variable {name left right : String} {choice : RuleChoice} {asJson : Bool} {flags : List String}

theorem next?_name {l : Line} {verb : Verb} (h : NamesFile name) :
    l.next? verb .any name = (l.addName? verb name).map (.going · .any) := by
  rw [Line.next?, Argument.ofString_eq_word h.1]

theorem read?_omit (h : NamesFile name) : read? ("omit" :: name :: flags) =
    (Line.empty.about [name] false).read? .prune .any flags := by
  have hstep : Line.empty.next? .prune .any name =
      some (.going (Line.empty.about [name] false) .any) := by
    rw [next?_name h, Line.addName?, if_pos ⟨Nat.zero_lt_one, h.2⟩]
    rfl
  show Line.empty.read? .prune .any (name :: flags) = _
  rw [Line.read?, hstep]

theorem read?_compare (hl : NamesFile left) (hr : NamesFile right) :
    read? ("compare" :: left :: right :: flags) =
      (Line.empty.about [left, right] false).read? .compare .any flags := by
  have hfirst : Line.empty.next? .compare .any left =
      some (.going (Line.empty.about [left] false) .any) := by
    rw [next?_name hl, Line.addName?, if_pos ⟨Nat.zero_lt_two, hl.2⟩]
    rfl
  have hsecond : (Line.empty.about [left] false).next? .compare .any right =
      some (.going (Line.empty.about [left, right] false) .any) := by
    rw [next?_name hr, Line.addName?, if_pos ⟨Nat.one_lt_two, hr.2⟩]
    rfl
  show Line.empty.read? .compare .any (left :: right :: flags) = _
  rw [Line.read?, hfirst]
  dsimp only
  rw [Line.read?, hsecond]

/-- Flags that complete a line for pruning one file do so for any other file. -/
theorem read?_omit_other (hl : NamesFile left) (hr : NamesFile right)
    (h : read? ("omit" :: left :: flags) = some (.run (.prune left choice))) :
    read? ("omit" :: right :: flags) = some (.run (.prune right choice)) := by
  rw [read?_omit hl] at h
  rw [read?_omit hr]
  exact (Line.read?_about rfl (fun _ => Line.command?_about_prune) h :)

/-- Flags that complete a line for pruning do so for comparing. -/
theorem read?_compare_of_omit (hl : NamesFile left) (hr : NamesFile right)
    (h : read? ("omit" :: left :: flags) = some (.run (.prune left choice))) :
    read? ("compare" :: left :: right :: if asJson then "--json" :: flags else flags) =
      some (.run (.compare left right choice asJson)) := by
  rw [read?_omit hl] at h
  have habout : (Line.empty.about [left, right] asJson).read? .compare .any flags =
      some (.run (.compare left right choice asJson)) :=
    (Line.read?_about rfl (fun _ => Line.command?_about_compare) h :)
  rw [read?_compare hl hr, ← habout]
  cases asJson <;> rfl

end Request

end CommandLine

/-! ## Commands -/

namespace Command

variable {files : String → File} {usual : Option String} {left right name : String}
  {choice : RuleChoice} {asJson : Bool}

/-- Pruning a file: a document that could be read is pruned without fail. -/
theorem run_prune : (prune name choice).run files usual =
    match choice.rules files usual, Document.load name (files name) with
    | .error e, _ => .error e
    | .ok _, .error e => .error (.document name e)
    | .ok rules, .ok d =>
      .ok (.pruned (d.tree.strip (rules.ignores Glob.isMatch) .root).normal) := by
  rw [run]
  cases choice.rules files usual with
  | error e => rfl
  | ok rules =>
    rw [document]
    cases hd : Document.load name (files name) with
    | error e => rfl
    | ok d =>
      show (rules.prunedDocument d).mapError Failure.rendering >>= _ = _
      rw [IgnoreRules.prunedDocument_eq (Document.distinct_of_load hd)]
      rfl

theorem run_compare : (compare left right choice asJson).run files usual =
    match choice.rules files usual, Document.load left (files left),
      Document.load right (files right) with
    | .error e, _, _ => .error e
    | .ok _, .error e, _ => .error (.document left e)
    | .ok _, .ok _, .error e => .error (.document right e)
    | .ok rules, .ok a, .ok b =>
      .ok (.compared ⟨left, right, rules.sameDocuments a b, rules⟩ asJson) := by
  rw [run, document, document]
  cases choice.rules files usual with
  | error e => rfl
  | ok rules =>
    cases Document.load left (files left) with
    | error e => rfl
    | ok a => cases Document.load right (files right) <;> rfl

theorem outcome_of_error {c : Command} {e : Failure} (h : c.run files usual = .error e) :
    c.outcome files usual = .ofFailure e := by rw [outcome, h]

theorem outcome_of_ok {c : Command} {r : Result} (h : c.run files usual = .ok r) :
    c.outcome files usual = .ofResult r := by rw [outcome, h]

/-- Comparing two files with finite documents goes through the same steps as
    pruning each of them: it fails with one of the two, or finds the documents
    equal iff pruning gives the same for both. -/
theorem run_compare_cases (asJson : Bool)
    (hfl : ∀ d, Document.load left (files left) = .ok d → d.Finite)
    (hfr : ∀ d, Document.load right (files right) = .ok d → d.Finite) :
    (∃ e, (compare left right choice asJson).run files usual = .error e ∧
      ((prune left choice).run files usual = .error e ∨
        (prune right choice).run files usual = .error e)) ∨
    (∃ rules p q equal, choice.rules files usual = .ok rules ∧
      (prune left choice).run files usual = .ok (.pruned p) ∧
      (prune right choice).run files usual = .ok (.pruned q) ∧ (equal = true ↔ p = q) ∧
      (compare left right choice asJson).run files usual =
        .ok (.compared ⟨left, right, equal, rules⟩ asJson)) := by
  simp only [run_compare, run_prune]
  cases choice.rules files usual with
  | error e => exact Or.inl ⟨e, rfl, Or.inl rfl⟩
  | ok rules =>
    cases ha : Document.load left (files left) with
    | error e => exact Or.inl ⟨_, rfl, Or.inl rfl⟩
    | ok a =>
      cases hb : Document.load right (files right) with
      | error e => exact Or.inl ⟨_, rfl, Or.inr rfl⟩
      | ok b =>
        have hda := Document.distinct_of_load ha
        have hdb := Document.distinct_of_load hb
        have hsame : rules.sameDocuments a b = true ↔ _ :=
          IgnoreRules.sameDocuments_iff_pruned hda hdb (hfl a ha) (hfr b hb)
        rw [IgnoreRules.prunedDocument_eq hda, IgnoreRules.prunedDocument_eq hdb,
          Except.ok.injEq] at hsame
        exact Or.inr ⟨rules, _, _, _, rfl, rfl, rfl, hsame, rfl⟩

end Command

/-! ## Comparing and pruning -/

namespace CommandLine

variable {files : String → File} {left right : String} {choice : RuleChoice} {flags : List String}

theorem outcome_of_read? {usual : Option String} {args : List String} {c : Command}
    (h : Request.read? args = some (.run c)) :
    outcome files usual args = c.outcome files usual := by
  rw [outcome, h]
  rfl

/-- **The two commands agree.**  For two files whose documents, if there are
    any, are finite, and for the same flags, a comparison fails iff pruning one
    of the files fails, and then it prints nothing.  Otherwise it finds the
    files equal iff pruning them gives the same document, and its code and what
    it prints say so. -/
theorem compare_agrees_with_prune (usual : Option String) (asJson : Bool) (hl : NamesFile left)
    (hr : NamesFile right)
    (hflags : Request.read? ("omit" :: left :: flags) = some (.run (.prune left choice)))
    (hfl : ∀ d, Document.load left (files left) = .ok d → d.Finite)
    (hfr : ∀ d, Document.load right (files right) = .ok d → d.Finite) :
    let compared := outcome files usual
      ("compare" :: left :: right :: if asJson then "--json" :: flags else flags)
    let prunedLeft := outcome files usual ("omit" :: left :: flags)
    let prunedRight := outcome files usual ("omit" :: right :: flags)
    (compared.code = 1 ↔ prunedLeft.code = 1 ∨ prunedRight.code = 1) ∧
      (compared.code = 1 → compared.output = "") ∧
      (compared.code ≠ 1 → ∃ rules p q, choice.rules files usual = .ok rules ∧
        (Command.prune left choice).run files usual = .ok (.pruned p) ∧
        (Command.prune right choice).run files usual = .ok (.pruned q) ∧
        prunedLeft = ⟨0, p.pretty ++ "\n", none⟩ ∧ prunedRight = ⟨0, q.pretty ++ "\n", none⟩ ∧
        (compared.code = 0 ↔ p = q) ∧ (compared.code = 2 ↔ p ≠ q) ∧
        compared.output = (if asJson then
            (Report.toJson ⟨left, right, compared.code = 0, rules⟩).pretty
          else if compared.code = 0 then "equal" else "different") ++ "\n") := by
  intro compared prunedLeft prunedRight
  have hc : compared = (Command.compare left right choice asJson).outcome files usual :=
    outcome_of_read? (Request.read?_compare_of_omit hl hr hflags)
  have hp : prunedLeft = (Command.prune left choice).outcome files usual := outcome_of_read? hflags
  have hq : prunedRight = (Command.prune right choice).outcome files usual :=
    outcome_of_read? (Request.read?_omit_other hl hr hflags)
  rcases Command.run_compare_cases asJson hfl hfr with
    ⟨e, hrun, hprune⟩ | ⟨rules, p, q, equal, hrules, hrunl, hrunr, hsame, hrun⟩
  · rw [Command.outcome_of_error hrun] at hc
    have hfails : prunedLeft.code = 1 ∨ prunedRight.code = 1 := by
      rw [hp, hq]
      exact hprune.imp (fun h => by rw [Command.outcome_of_error h]; rfl)
        fun h => by rw [Command.outcome_of_error h]; rfl
    have hcode : compared.code = 1 := by rw [hc]; rfl
    exact ⟨iff_of_true hcode hfails, fun _ => by rw [hc]; rfl, absurd hcode⟩
  · rw [Command.outcome_of_ok hrun] at hc
    rw [Command.outcome_of_ok hrunl] at hp
    rw [Command.outcome_of_ok hrunr] at hq
    have hcode : compared.code = if equal then 0 else 2 := by rw [hc]; rfl
    have houtput : compared.output = (if asJson then
        (Report.toJson ⟨left, right, equal, rules⟩).pretty
      else if equal then "equal" else "different") ++ "\n" := by rw [hc]; rfl
    have hnot : compared.code ≠ 1 := by rw [hcode]; split <;> simp
    have hzero : compared.code = 0 ↔ equal = true := by rw [hcode]; split <;> simp_all
    have htwo : compared.code = 2 ↔ equal ≠ true := by rw [hcode]; split <;> simp_all
    refine ⟨iff_of_false hnot ?_, fun h => absurd h hnot, fun _ =>
      ⟨rules, p, q, hrules, hrunl, hrunr, hp, hq, hzero.trans hsame, htwo.trans hsame.not, ?_⟩⟩
    · rw [hp, hq]
      simp [Outcome.ofResult]
    · rw [houtput]
      simp only [hzero, Bool.decide_eq_true]

/-- Two records that differ in their numbers only. -/
def records : String → File
  | "left.json" => .bytes "\x7b\"id\": 1, \"on\": true\x7d".toUTF8
  | "right.json" => .bytes "\x7b\"on\": true, \"id\": 2\x7d".toUTF8
  | _ => .missing

/-- The record with this number. -/
def numbered (i : Int) : Json := .object [("id", .number (.integer i)), ("on", .bool true)]

theorem load_left : Document.load "left.json" (records "left.json") = .ok (.json (numbered 1)) := by
  with_unfolding_all rfl

theorem load_right :
    Document.load "right.json" (records "right.json") = .ok (.json (numbered 2)) := by
  with_unfolding_all rfl

/-- Numbers are ignored, and no configuration is read. -/
def unnumbered : RuleChoice := ⟨.none, none, ⟨["id"], []⟩⟩

section
variable {name : String} {i : Int}

theorem finite_numbered (hload : Document.load name (records name) = .ok (.json (numbered i)))
    (hi : (Binary64.ofInt i).isFinite = true) :
    ∀ d, Document.load name (records name) = .ok d → d.Finite := by
  rw [hload]
  rintro _ ⟨⟩ x hx
  cases hx with
  | @step r o _ _ ho hw =>
    have ho' : #[Object.plain (.ofEntries .object [(.name "id", .number (.ofInt i)),
      (.name "on", .bool true)])][r.index]? = some o := ho
    obtain rfl := Array.mem_singleton.1 (Array.mem_of_getElem? ho')
    have hx : Value.number x ∈ [Value.number (.ofInt i), .bool true] := hw
    simp only [List.mem_cons, Value.number.injEq, reduceCtorEq, List.not_mem_nil, or_false] at hx
    rw [hx, hi]

theorem run_prune_numbered
    (hload : Document.load name (records name) = .ok (.json (numbered i))) :
    (Command.prune name unnumbered).run records none =
      .ok (.pruned (.object [("on", .bool true)])) := by
  rw [Command.run_prune, hload]
  rfl

end

/-- The flags `-i id --no-config`: the records are equal. -/
theorem compare_agrees_with_prune_records :
    NamesFile "left.json" ∧ NamesFile "right.json" ∧
      Request.read? ["omit", "left.json", "-i", "id", "--no-config"] =
        some (.run (.prune "left.json" unnumbered)) ∧
      (∀ d, Document.load "left.json" (records "left.json") = .ok d → d.Finite) ∧
      (∀ d, Document.load "right.json" (records "right.json") = .ok d → d.Finite) ∧
      (outcome records none
        ["compare", "left.json", "right.json", "-i", "id", "--no-config"]).code = 0 := by
  have hl : NamesFile "left.json" := by decide
  have hr : NamesFile "right.json" := by decide
  have hflags : Request.read? ["omit", "left.json", "-i", "id", "--no-config"] =
      some (.run (.prune "left.json" unnumbered)) := rfl
  have hfl := finite_numbered load_left (by decide +kernel)
  have hfr := finite_numbered load_right (by decide +kernel)
  refine ⟨hl, hr, hflags, hfl, hfr, ?_⟩
  obtain ⟨hfails, -, hverdict⟩ := compare_agrees_with_prune none false hl hr hflags hfl hfr
  rw [outcome_of_read? hflags, outcome_of_read? (Request.read?_omit_other hl hr hflags),
    Command.outcome_of_ok (run_prune_numbered load_left),
    Command.outcome_of_ok (run_prune_numbered load_right)] at hfails
  obtain ⟨rules, p, q, -, hp, hq, -, -, hequal, -⟩ := hverdict fun h => by
    simpa [Outcome.ofResult] using hfails.1 h
  rw [run_prune_numbered load_left] at hp
  rw [run_prune_numbered load_right] at hq
  cases hp
  cases hq
  exact hequal.2 rfl

end CommandLine

end ValueGraph
