/-
  What enumerable paths lead to.

  A path goes from arrays to their elements and from plain objects to the values
  of their enumerable properties.  Values from which paths lead to nothing that
  documents cannot express, and never back, are plain data: every one of them
  has a document.

  * `Object.Part`: elements and enumerable properties, each with the step that
    leads to it;
  * `Heap.At`: what a path leads to; one path leads to one value (`At.unique`);
  * `Heap.PlainData`: values that consist of what documents express;
  * `PlainData.exists_unfolds`: plain data have a tree unfolding.
-/
import ValueGraph.Proofs.PrunedRendering

open Relation

namespace ValueGraph

/-! ## Parts -/

namespace PlainObject

variable {p : PlainObject} {a : Property} {k : Key} {v : Value}

theorem get?_of_mem_names (ha : a ∈ p.names) :
    p.hasEnumerable a.key = true ∧ p.get? a.key = some a.value :=
  ⟨(mem_names.1 (List.mem_map_of_mem ha)).1,
    get?_eq_some.2 ⟨a, (List.mem_filter.1 ha).1, rfl, rfl⟩⟩

theorem exists_mem_names (hk : p.hasEnumerable k = true) (hn : k.isSymbol = false)
    (hv : p.get? k = some v) : ∃ a ∈ p.names, a.key = k ∧ a.value = v := by
  obtain ⟨a, ha, rfl⟩ := List.mem_map.1 (mem_names.2 ⟨hk, hn⟩)
  rw [(get?_of_mem_names ha).2] at hv
  exact ⟨a, ha, rfl, Option.some.inj hv⟩

end PlainObject

namespace Object

/-- The value is a part of the object, one step away: an element of an array or
    the value of an enumerable property. -/
inductive Part : Object → Segment → Value → Prop
  | element {items : List Value} {i : Nat} {v : Value} : items[i]? = some v →
      Part (.array items) (.index i) v
  | property {p : PlainObject} {k : Key} {v : Value} : p.hasEnumerable k = true →
      p.get? k = some v → Part (.plain p) (.key k) v

/-- The object is an array, or a plain object that is not of a class of the host
    and whose enumerable properties have string keys. -/
def IsData : Object → Prop
  | array _ => True
  | plain p => p.prototype.isBuiltin = false ∧ ∀ k, p.hasEnumerable k = true → k.isSymbol = false
  | _ => False

variable {M : Value → Value → Prop} {o p : Object} {segment : Segment} {v w : Value}

/-- Parts that are the same step away stand beside each other. -/
theorem Part.beside (hv : o.Part segment v) (hw : p.Part segment w) : o.Beside p v w := by
  cases hv with
  | element hv => cases hw with
    | element hw => exact .element _ hv hw
  | property hk hv => cases hw with
    | property hk' hw => exact .property _ hk hk' hv hw

theorem Part.unique (hv : o.Part segment v) (hw : o.Part segment w) : v = w :=
  (hv.beside hw).eq

/-- Of data everything that is a part is rendered, and nothing else. -/
theorem IsData.mem_rendered (ho : o.IsData) : v ∈ o.rendered ↔ ∃ segment, o.Part segment v := by
  cases o with
  | array items =>
    rw [rendered, List.mem_iff_getElem?]
    constructor
    · rintro ⟨i, hi⟩
      exact ⟨.index i, .element hi⟩
    · rintro ⟨-, ⟨⟩⟩
      next i hi => exact ⟨i, hi⟩
  | plain p =>
    obtain ⟨hproto, hnames⟩ := ho
    rw [rendered_plain ((isStructural_iff _).2 (.inr ⟨p, rfl, hproto⟩)), List.mem_map]
    constructor
    · rintro ⟨a, ha, rfl⟩
      obtain ⟨hk, hv⟩ := PlainObject.get?_of_mem_names ha
      exact ⟨.key a.key, .property hk hv⟩
    · rintro ⟨-, ⟨⟩⟩
      next k hk hv =>
        obtain ⟨a, ha, -, heq⟩ := PlainObject.exists_mem_names hk (hnames k hk) hv
        exact ⟨a, ha, heq⟩
  | _ => exact ho.elim

theorem IsData.isStructural (ho : o.IsData) : o.isStructural = true := by
  cases o with
  | array items => rfl
  | plain p => exact (isStructural_iff _).2 (.inr ⟨p, rfl, ho.1⟩)
  | _ => exact ho.elim

end Object

namespace Heap

variable {h : Heap} {v w x : Value} {path : KeyPath} {t : Option Json}

/-! ## Paths -/

/-- The path leads from the first value to the second one, by elements and
    enumerable properties. -/
inductive At (h : Heap) (v : Value) : KeyPath → Value → Prop
  | root : At h v .root v
  | step {path : KeyPath} {r : Ref} {o : Object} {segment : Segment} {w : Value} :
      At h v path (.object r) → h.get? r = some o → o.Part segment w →
      At h v (path.step segment) w

/-- **A path leads to one value.** -/
theorem At.unique (hw : h.At v path w) : ∀ {x}, h.At v path x → w = x := by
  induction hw with
  | root =>
    rintro x ⟨⟩
    rfl
  | step _ ho hpart ih =>
    intro x hx
    cases hx with
    | step hr ho' hpart' =>
      cases ih hr
      rw [ho] at ho'
      cases ho'
      exact hpart.unique hpart'

/-- The second value is a part of the first one. -/
def HasPart (h : Heap) (v w : Value) : Prop :=
  ∃ r o segment, v = .object r ∧ h.get? r = some o ∧ o.Part segment w

theorem At.reach (hw : h.At v path w) : ReflTransGen h.HasPart v w := by
  induction hw with
  | root => exact .refl
  | step _ ho hpart ih => exact ih.tail ⟨_, _, _, rfl, ho, hpart⟩

/-! ## Plain data -/

/-- The value is one that documents express, whatever its parts are. -/
def IsDatum (h : Heap) : Value → Prop
  | .null | .bool _ | .string _ => True
  | .number x => x.isFinite = true
  | .object r => ∃ o, h.get? r = some o ∧ o.IsData
  | _ => False

/-- **Plain data**: all that paths lead to is what documents express, and
    nothing is below itself. -/
structure PlainData (h : Heap) (v : Value) : Prop where
  datum : ∀ w, ReflTransGen h.HasPart v w → h.IsDatum w
  acyclic : ∀ w, ReflTransGen h.HasPart v w → ¬ TransGen h.HasPart w w

theorem IsDatum.refusal? (hv : h.IsDatum v) : h.refusal? [] v = none := by
  cases v with
  | object r =>
    obtain ⟨o, ho, hdata⟩ := hv
    simp [Heap.refusal?, ho, Object.refusal?_of_isStructural hdata.isStructural]
  | bigInt n => exact hv.elim
  | _ => rfl

/-- What is rendered below a datum are its parts. -/
theorem IsDatum.contains (hv : h.IsDatum v) (hw : h.Contains v w) : h.HasPart v w := by
  cases v with
  | object r =>
    obtain ⟨o, ho, hdata⟩ := hv
    rw [Contains, rendered, ho] at hw
    obtain ⟨segment, hpart⟩ := hdata.mem_rendered.1 hw
    exact ⟨r, o, segment, rfl, ho, hpart⟩
  | _ => simp [Contains, rendered] at hw

/-- A datum has a document if it is unfolded at all. -/
theorem IsDatum.exists_some (hv : h.IsDatum v) (ht : h.Unfolds v t) : ∃ j, t = some j := by
  cases ht with
  | undefined | function | symbol => exact hv.elim
  | _ => exact ⟨_, rfl⟩

section
variable (hd : h.PlainData v)
include hd

theorem PlainData.reach_of_contains (hw : ReflTransGen h.Contains v w) :
    ReflTransGen h.HasPart v w := by
  induction hw with
  | refl => exact .refl
  | tail _ hstep ih => exact ih.tail ((hd.datum _ ih).contains hstep)

theorem PlainData.cycle_of_contains (hw : ReflTransGen h.HasPart v w)
    (hx : TransGen h.Contains w x) : TransGen h.HasPart w x := by
  induction hx with
  | single hstep => exact .single ((hd.datum _ hw).contains hstep)
  | tail _ hstep ih => exact ih.tail ((hd.datum _ (hw.trans ih.to_reflTransGen)).contains hstep)

/-- **Plain data have a document.** -/
theorem PlainData.exists_unfolds : ∃ j, h.Unfolds v (some j) := by
  obtain ⟨t, ht⟩ : ∃ t, h.Unfolds v t := exists_unfolds_iff.2 fun w hw => by
    have hreach := hd.reach_of_contains hw
    exact ⟨(hd.datum w hreach).refusal?,
      fun hcycle => hd.acyclic w hreach (hd.cycle_of_contains hreach hcycle)⟩
  obtain ⟨j, rfl⟩ := (hd.datum v .refl).exists_some ht
  exact ⟨j, ht⟩

end

end Heap

end ValueGraph
