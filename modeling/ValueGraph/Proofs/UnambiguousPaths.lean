/-
  Where dotted paths are unambiguous.

  If no key is empty and no text that is shown has a point in it, then the
  points of a dotted path stand between its steps and nowhere else: two paths
  show the same only if they show the same step by step.  An element and a
  property can show the same, and so can two symbols.  But an array has no
  properties and the keys of a document are texts, so that there the steps
  themselves are the same.

  * `KeyPath.Dotless`: paths without empty keys and without points in a text;
  * `KeyPath.texts`: what the steps of a path show; `KeyPath.splitOn_text` finds
    it in the dotted path;
  * `Glob.Plain`: texts without wildcards, which are patterns for themselves
    (`Glob.isMatch_literals`);
  * `Heap.At.eq_of_texts`: paths from one value by string keys are the same if
    they show the same;
  * `KeyPath.unambiguous`: when two properties have the same dotted path, and
    what a rule without wildcards matches.
-/
import ValueGraph.Proofs.DottedPaths
import ValueGraph.Proofs.LoadedDocuments
import ValueGraph.Proofs.ValueRoundTrip

namespace ValueGraph

/-! ## What a step shows -/

theorem integerText_natCast (i : Nat) : integerText i = String.ofList (Nat.toDigits 10 i) := by
  rw [integerText, if_neg (Int.not_lt.2 (Int.natCast_nonneg i)), Int.natAbs_natCast, digitsOf]

theorem dot_not_mem_integerText (i : Nat) : '.' ∉ (integerText i).toList := by
  rw [integerText_natCast, String.toList_ofList]
  intro hdot
  exact absurd (Nat.isDigit_of_mem_toDigits (by decide) (by decide) hdot) (by decide)

theorem integerText_injective {i j : Nat} (htext : integerText i = integerText j) : i = j := by
  rw [integerText_natCast, integerText_natCast] at htext
  have hvalue := congrArg (fun text => Nat.ofDigitChars 10 text.toList 0) htext
  simpa using hvalue

/-- A string key that is not empty and has no point, or a symbol whose
    description, if it has one, has no point. -/
def Key.Dotless : Key → Prop
  | .name text => text ≠ "" ∧ '.' ∉ text.toList
  | .symbol s => ∀ description ∈ s.description, '.' ∉ description.toList

instance : DecidablePred Key.Dotless
  | .name text => inferInstanceAs (Decidable (text ≠ "" ∧ '.' ∉ text.toList))
  | .symbol s => inferInstanceAs (Decidable (∀ description ∈ s.description,
      '.' ∉ description.toList))

namespace Segment

variable {s t : Segment}

/-- A step to an element, or to a property with such a key. -/
def Dotless : Segment → Prop
  | key k => k.Dotless
  | index _ => True

instance : DecidablePred Dotless
  | key k => inferInstanceAs (Decidable k.Dotless)
  | index _ => .isTrue trivial

/-- A step to an element, or to a property with a string key. -/
def Named : Segment → Prop
  | key k => k.isSymbol = false
  | index _ => True

theorem Dotless.dot_not_mem (hs : s.Dotless) : '.' ∉ s.text.toList := by
  cases s with
  | index i => exact dot_not_mem_integerText i
  | key k =>
    cases k with
    | name text => exact hs.2
    | symbol s =>
      have hbrackets : '.' ∉ "Symbol(".toList ∧ '.' ∉ ")".toList := by decide
      have hdescription : '.' ∉ (s.description.getD "").toList := by
        cases hs' : s.description with
        | none => simp
        | some description => exact hs description hs'
      simp only [text, Key.text, Symbol.text, String.toList_append, List.mem_append, not_or]
      exact ⟨⟨hbrackets.1, hdescription⟩, hbrackets.2⟩

end Segment

/-! ## What a path shows -/

namespace KeyPath

variable {p q : KeyPath} {s : Segment} {k l : Key}

/-- What the steps show, from the root on. -/
def texts (p : KeyPath) : List String := p.segments.map Segment.text

/-- No key on the path is empty, and no text on it has a point. -/
def Dotless (p : KeyPath) : Prop := ∀ s ∈ p.segments, s.Dotless

instance : DecidablePred Dotless :=
  fun p => inferInstanceAs (Decidable (∀ s ∈ p.segments, s.Dotless))

/-- All keys on the path are string keys. -/
def Named (p : KeyPath) : Prop := ∀ s ∈ p.segments, s.Named

theorem texts_step (p : KeyPath) (s : Segment) : (p.step s).texts = p.texts ++ [s.text] := by
  simp [texts, segments]

theorem dotless_step : (p.step s).Dotless ↔ p.Dotless ∧ s.Dotless := by
  simp [Dotless, segments, or_imp, forall_and]

theorem named_step : (p.step s).Named ↔ p.Named ∧ s.Named := by
  simp [Named, segments, or_imp, forall_and]

/-- **The steps in the dotted path** are what stands between its points. -/
theorem splitOn_text (hp : p.Dotless) (hne : p ≠ .root) :
    p.text.toList.splitOn '.' = p.texts.map String.toList := by
  have hpoint : ".".toList = ['.'] := by decide
  rw [text, String.toList_intercalate, hpoint]
  refine List.splitOn_intercalate '.' ?_ ?_
  · intro piece hpiece
    obtain ⟨text, htext, rfl⟩ := List.mem_map.1 hpiece
    obtain ⟨s, hs, rfl⟩ := List.mem_map.1 htext
    exact (hp s hs).dot_not_mem
  · simpa [segments_eq_nil] using hne

theorem text_eq_iff (hp : p.Dotless) (hq : q.Dotless) (hp' : p ≠ .root) (hq' : q ≠ .root) :
    p.text = q.text ↔ p.texts = q.texts := by
  constructor
  · intro htext
    have hsplit : p.texts.map String.toList = q.texts.map String.toList := by
      rw [← splitOn_text hp hp', ← splitOn_text hq hq', htext]
    exact List.map_injective_iff.2 (fun _ _ => String.toList_injective) hsplit
  · intro htexts
    rw [text, text]
    exact congrArg _ htexts

/-- No empty key stands at the root. -/
theorem Dotless.textWith_eq (hp : p.Dotless) (k : Key) :
    p.textWith k = (p.step (.key k)).text := by
  rw [KeyPath.textWith_eq, if_neg]
  rintro rfl
  exact (hp (.key (.name "")) (List.mem_singleton_self _)).1 rfl

theorem textWith_eq_iff (hp : p.Dotless) (hk : k.Dotless) (hq : q.Dotless) (hl : l.Dotless) :
    p.textWith k = q.textWith l ↔ (p.step (.key k)).texts = (q.step (.key l)).texts := by
  rw [hp.textWith_eq, hq.textWith_eq]
  exact text_eq_iff (dotless_step.2 ⟨hp, hk⟩) (dotless_step.2 ⟨hq, hl⟩) nofun nofun

-- a point in a key shows like one between two steps
example : textWith (.step .root (.key (.name "a"))) (.name "b") = textWith .root (.name "a.b") :=
  rfl

end KeyPath

/-! ## Patterns without wildcards -/

namespace Glob

variable {cs ds : List Char} {text : String}

/-- The text has no wildcard and no bracket that opens a class. -/
def Plain (text : String) : Prop := ∀ c ∈ text.toList, c ≠ '?' ∧ c ≠ '*' ∧ c ≠ '['

instance : DecidablePred Plain :=
  fun text => List.decidableBAll (fun c => c ≠ '?' ∧ c ≠ '*' ∧ c ≠ '[') text.toList

/-- The pattern for one text. -/
def literals (text : String) : Glob := ⟨text, text.toList.map .literal⟩

theorem readTokens?_literals (hcs : ∀ c ∈ cs, c ≠ '?' ∧ c ≠ '*' ∧ c ≠ '[') :
    ∀ position atStart, readTokens? position atStart cs = .ok (cs.map .literal) := by
  induction cs with
  | nil =>
    intro position atStart
    rw [readTokens?]
    rfl
  | cons c cs ih =>
    intro position atStart
    obtain ⟨⟨hany, hrun, hclass⟩, hcs⟩ := List.forall_mem_cons.1 hcs
    rw [readTokens?]
    · rw [ih hcs]
      rfl
    all_goals simp [hany, hrun, hclass]

theorem read?_literals (ht : Plain text) : read? text = .ok (literals text) := by
  rw [read?, readTokens?_literals ht]
  rfl

theorem foldl_restsAfter_nil (tokens : List GlobToken) :
    tokens.foldl (fun texts token => restsAfter token texts) [] = [] := by
  induction tokens with
  | nil => rfl
  | cons token tokens ih =>
    have hnone : restsAfter token [] = [] := by cases token <;> rfl
    rw [List.foldl_cons, hnone, ih]

theorem foldl_restsAfter_literals : ∀ cs : List Char,
    ((ds.map GlobToken.literal).foldl (fun texts token => restsAfter token texts)
      [cs]).contains [] = true ↔ cs = ds := by
  induction ds with
  | nil => intro cs; simp
  | cons d ds ih =>
    intro cs
    rw [List.map_cons, List.foldl_cons]
    cases cs with
    | nil =>
      have hnone : restsAfter (.literal d) [[]] = [] := rfl
      simp [hnone, foldl_restsAfter_nil]
    | cons c cs =>
      by_cases hc : c = d
      · have hrest : restsAfter (.literal d) [c :: cs] = [cs] := by
          simp only [restsAfter, accepts, hc, List.filterMap_cons, BEq.rfl, if_true,
            List.filterMap_nil]
          rfl
        rw [hrest, ih, hc, List.cons.injEq, and_iff_right rfl]
      · have hnone : restsAfter (.literal d) [c :: cs] = [] := by simp [restsAfter, accepts, hc]
        simp [hnone, foldl_restsAfter_nil, hc]

/-- **A pattern without wildcards** matches its own text only. -/
theorem isMatch_literals (text shown : String) :
    (literals text).isMatch shown = true ↔ shown = text := by
  rw [isMatch, literals, foldl_restsAfter_literals, String.toList_inj]

end Glob

namespace IgnoreRules

theorem ofRuleSet_literals {text : String} (ht : Glob.Plain text) (keys : List String) :
    ofRuleSet ⟨keys, [text]⟩ = .ok ⟨keys, [Glob.literals text]⟩ := by
  simp [ofRuleSet, extend?, extend, readGlobs, Glob.read?_literals ht, empty]

theorem matchesPath_literals (text : String) (keys : List String) (p : KeyPath) (k : Key) :
    matchesPath ⟨keys, [Glob.literals text]⟩ k p = true ↔ p.textWith k = text := by
  simp [matchesPath, matchesPathBy, Glob.isMatch_literals]

end IgnoreRules

/-! ## Paths in a document -/

/-- Steps from one object by string keys are the same if they show the same. -/
theorem Object.Part.eq_of_text {o : Object} {s t : Segment} {v w : Value} (hv : o.Part s v)
    (hw : o.Part t w) (hs : s.Named) (ht : t.Named) (htext : s.text = t.text) : s = t := by
  cases hv with
  | element => cases hw with
    | element => rw [integerText_injective htext]
  | @property _ k => cases hw with
    | @property _ l =>
      cases k with
      | symbol => cases hs
      | name => cases l with
        | symbol => cases ht
        | name => exact congrArg (fun text => Segment.key (.name text)) htext

namespace Heap

variable {h : Heap} {place : Ref → Option KeyPath} {path p : KeyPath} {v w : Value}
  {j : Json}

/-- **Paths by string keys** are the same if they show the same: an array has
    elements only, and an object has properties only. -/
theorem At.eq_of_texts (hw : h.At v p w) : ∀ {q x}, h.At v q x → p.Named → q.Named →
    p.texts = q.texts → p = q := by
  induction hw with
  | root =>
    intro q x hx _ _ htexts
    cases hx with
    | root => rfl
    | step => simp [KeyPath.texts, KeyPath.segments] at htexts
  | @step p r o s w hr ho hs ih =>
    intro q x hx hp hq htexts
    cases hx with
    | root => simp [KeyPath.texts, KeyPath.segments] at htexts
    | @step q r' o' t x hr' ho' ht =>
      rw [KeyPath.named_step] at hp hq
      rw [KeyPath.texts_step, KeyPath.texts_step, List.append_singleton_inj] at htexts
      obtain rfl := ih hr' hp.1 hq.1 htexts.1
      -- both paths come to the same object
      cases hr.unique hr'
      rw [ho] at ho'
      cases ho'
      rw [hs.eq_of_text ht hp.2 hq.2 htexts.2]

/-- The keys of a document are texts. -/
theorem Holds.named (hv : h.Holds place path v j) (hw : h.At v p w) :
    p.Named ∧ ∃ path' i, h.Holds place path' w i := by
  induction hw with
  | root => exact ⟨nofun, path, j, hv⟩
  | step _ ho hpart ih =>
    obtain ⟨hnamed, path', i, hi⟩ := ih
    obtain ⟨o, ho', hdepicts⟩ := hi.depicts
    rw [ho] at ho'
    cases ho'
    obtain ⟨i', hi', hholds⟩ := hdepicts.part _ _ hpart
    refine ⟨KeyPath.named_step.2 ⟨hnamed, ?_⟩, _, i', hholds⟩
    cases hi' with
    | element => trivial
    | member => rfl

end Heap

/-! ## Dotted paths -/

namespace KeyPath

variable {p q : KeyPath} {k l : Key}

/-- **Dotted paths are unambiguous** where no key is empty and no text has a
    point: two properties have the same one if and only if the full paths show
    equally many texts and the same ones at the same places, where an element
    shows the digits of its index.  So a rule without wildcards, which can be
    read and matches its own text only, matches at most one property of a
    document. -/
theorem unambiguous (hp : p.Dotless) (hk : k.Dotless) (hq : q.Dotless) (hl : l.Dotless) :
    (p.textWith k = q.textWith l ↔ (p.step (.key k)).texts = (q.step (.key l)).texts) ∧
    ∀ text keys, Glob.Plain text → ∃ rules, IgnoreRules.ofRuleSet ⟨keys, [text]⟩ = .ok rules ∧
      (∀ path key, rules.matchesPath key path = true ↔ path.textWith key = text) ∧
      ∀ (h : Heap) (d : Document), d.tree.Distinct → ∀ v w,
        (h.addDocument d).1.At (h.addDocument d).2 (p.step (.key k)) v →
        (h.addDocument d).1.At (h.addDocument d).2 (q.step (.key l)) w →
        rules.matchesPath k p = true → rules.matchesPath l q = true → p = q ∧ k = l := by
  refine ⟨textWith_eq_iff hp hk hq hl, fun text keys ht => ?_⟩
  have hmatches := IgnoreRules.matchesPath_literals text keys
  refine ⟨_, IgnoreRules.ofRuleSet_literals ht keys, hmatches, fun h d hd v w hv hw hk' hl' => ?_⟩
  obtain ⟨place, hholds, -⟩ := Heap.addDocument_holds hd h .root
  have htext : p.textWith k = q.textWith l :=
    ((hmatches p k).1 hk').trans ((hmatches q l).1 hl').symm
  have hpath := hv.eq_of_texts hw (hholds.named hv).1 (hholds.named hw).1
    ((textWith_eq_iff hp hk hq hl).1 htext)
  cases hpath
  exact ⟨rfl, rfl⟩

/-- A list of one object. -/
def onlyItem : Document :=
  .json (.object [("items", .array [.object [("id", .string "a")]])])

/-- The first element of the list. -/
def firstItem : KeyPath := .step (.step .root (.key (.name "items"))) (.index 0)

/-- What has the key `0` where the list is. -/
def itemNamedZero : KeyPath := .step (.step .root (.key (.name "items"))) (.key (.name "0"))

theorem distinct_onlyItem : onlyItem.tree.Distinct := by
  refine .object (by simp) ?_
  simp only [List.forall_mem_cons]
  refine ⟨.array ?_, by simp⟩
  simp only [List.forall_mem_cons]
  refine ⟨.object (by simp) ?_, by simp⟩
  simp only [List.forall_mem_cons]
  exact ⟨.string _, by simp⟩

/-- The two paths show the same.  The document has one of them, and so it does
    not have the other one. -/
theorem unambiguous_onlyItem : firstItem.Dotless ∧ itemNamedZero.Dotless ∧
    (Key.name "id").Dotless ∧ onlyItem.tree.Distinct ∧
    firstItem.textWith (.name "id") = itemNamedZero.textWith (.name "id") ∧
    (Heap.empty.addDocument onlyItem).1.At (Heap.empty.addDocument onlyItem).2
      (firstItem.step (.key (.name "id"))) (.string "a") ∧
    ∀ w, ¬ (Heap.empty.addDocument onlyItem).1.At (Heap.empty.addDocument onlyItem).2
      (itemNamedZero.step (.key (.name "id"))) w := by
  have hfirst : firstItem.Dotless := by decide
  have hzero : itemNamedZero.Dotless := by decide
  have hid : (Key.name "id").Dotless := by decide
  have hat : (Heap.empty.addDocument onlyItem).1.At (Heap.empty.addDocument onlyItem).2
      (firstItem.step (.key (.name "id"))) (.string "a") :=
    .step (.step (.step .root rfl (.property rfl rfl)) rfl (.element rfl)) rfl (.property rfl rfl)
  obtain ⟨hiff, hrule⟩ := unambiguous hfirst hid hzero hid
  have htext : firstItem.textWith (.name "id") = itemNamedZero.textWith (.name "id") :=
    hiff.2 rfl
  refine ⟨hfirst, hzero, hid, distinct_onlyItem, htext, hat, fun w hw => ?_⟩
  obtain ⟨rules, -, hmatches, honly⟩ := hrule "items.0.id" [] (by decide)
  have hshown : firstItem.textWith (.name "id") = "items.0.id" := rfl
  have hsame := honly _ _ distinct_onlyItem _ _ hat hw ((hmatches _ _).2 hshown)
    ((hmatches _ _).2 (htext ▸ hshown))
  cases hsame.1

end KeyPath

end ValueGraph
