/-
  Rendering, object by object.

  The document of a value is that of its tree unfolding: an object is rendered
  wherever it is met, by what it is and by the documents of the values below
  it, and where it was met before makes no difference.

  * `Object.rendered`: the values below an object, in the order in which they
    are rendered;
  * `Object.refusal?`: why an object has no document, whatever lies below it;
  * `Object.assemble`: the document of an object, from those below it;
  * `Heap.Unfolds`: the document of the tree unfolding of a value;
  * `Heap.renderIn_object`: how an object is rendered.
-/
import ValueGraph.Proofs.Agreement
import ValueGraph.Rendering

namespace ValueGraph

/-! ## What lies below an object -/

/-- Whether the elements are big integers and there are some. -/
def TypedArray.holdsBig : TypedArray → Bool
  | integers element items => element.isBig && !items.isEmpty
  | floats _ _ => false

/-- The documents of the elements, for arrays without big integers. -/
def TypedArray.documents : TypedArray → List Json
  | integers _ items => items.map fun i => (Binary64.ofInt i).render
  | floats _ items => items.map Binary64.render

/-- The document of what a wrapper wraps. -/
def Boxed.document : Boxed → Json
  | bool b => .bool b
  | number x => x.render
  | string text => .string text

namespace Object

/-- The values whose documents make up the document of an object, in order:
    elements, the values of enumerable properties with string keys, and each
    key of a map before its value.  Other objects are rendered as a whole or
    not at all. -/
def rendered : Object → List Value
  | array items => items
  | plain p => if (plain p).isStructural then p.names.map Property.value else []
  | map m => m.entries.flatMap fun e => [e.1, e.2]
  | set s => s.items
  | _ => []

/-- Why an object has no document, whatever lies below it: it is raw memory,
    opaque, or an instance of a class that the host provides, or it holds big
    integers. -/
def refusal? : Object → Option RenderError
  | plain p => if (plain p).isStructural then none else some (.object (plain p).tag)
  | typedArray a => if a.holdsBig then some .bigInteger else none
  | buffer bytes shared => some (.object (buffer bytes shared).tag)
  | dataView bytes => some (.object (dataView bytes).tag)
  | weakMap => some (.object weakMap.tag)
  | weakSet => some (.object weakSet.tag)
  | promise => some (.object promise.tag)
  | error name message => some (.object (error name message).tag)
  | host tag => some (.object (host tag).tag)
  | _ => none

/-- Documents two by two, `null` for those that are missing. -/
def pairUp : List (Option Json) → List Json
  | key :: value :: rest => .array [key.getD .null, value.getD .null] :: pairUp rest
  | _ => []

/-- The document of an object, from the documents of the values below it. -/
def assemble : Object → List (Option Json) → Json
  | array _, ts | set _, ts => .array (ts.map (·.getD .null))
  | plain p, ts =>
    .ofMembers ((p.names.zip ts).filterMap fun e => e.2.map fun j => (e.1.key.text, j))
  | map _, ts => .array (pairUp ts)
  | date millis, _ => ((millis.bind Calendar.timestamp?).map .string).getD .null
  | pattern p, _ => .string p.text
  | boxed b, _ => b.document
  | typedArray a, _ => .array a.documents
  | _, _ => .null

end Object

namespace Heap

/-- The values below a value. -/
def rendered (h : Heap) : Value → List Value
  | .object r => ((h.get? r).map Object.rendered).getD []
  | _ => []

/-- **The tree unfolding** of a value, as a document: an object is unfolded
    wherever it occurs.  Undefined, functions and symbols have none. -/
inductive Unfolds (h : Heap) : Value → Option Json → Prop
  | undefined : Unfolds h .undefined none
  | function (f : Function) : Unfolds h (.function f) none
  | symbol (s : Symbol) : Unfolds h (.symbol s) none
  | null : Unfolds h .null (some .null)
  | bool (b : Bool) : Unfolds h (.bool b) (some (.bool b))
  | number (x : Binary64) : Unfolds h (.number x) (some x.render)
  | string (text : String) : Unfolds h (.string text) (some (.string text))
  | object {r : Ref} {o : Object} {ts : List (Option Json)} : h.get? r = some o →
      o.refusal? = none → ts.length = o.rendered.length →
      (∀ (i : Nat) v t, o.rendered[i]? = some v → ts[i]? = some t → Unfolds h v t) →
      Unfolds h (.object r) (some (o.assemble ts))

/-- A value has one tree unfolding. -/
theorem Unfolds.unique {h : Heap} {v : Value} {t : Option Json} (ht : h.Unfolds v t) :
    ∀ {t'}, h.Unfolds v t' → t = t' := by
  induction ht with
  | undefined | function | symbol | null | bool | number | string => intro t' ht'; cases ht'; rfl
  | @object r o ts ho _ hlen _ ih =>
    intro t' ht'
    cases ht' with
    | @object _ o' ts' ho' _ hlen' hts' =>
      rw [ho] at ho'
      cases ho'
      congr 2
      refine List.ext_getElem? fun i => ?_
      cases hv : o.rendered[i]? with
      | none =>
        have hge := List.getElem?_eq_none_iff.1 hv
        rw [List.getElem?_eq_none (by omega), List.getElem?_eq_none (by omega)]
      | some v =>
        obtain ⟨hlt, -⟩ := List.getElem?_eq_some_iff.1 hv
        have hti : ts[i]? = some ts[i] := List.getElem?_eq_getElem (by omega)
        have hti' : ts'[i]? = some ts'[i] := List.getElem?_eq_getElem (by omega)
        rw [hti, hti', ih i v _ hv hti (hts' i v _ hv hti')]

/-! ## Rendering an object -/

section
variable {h : Heap} {ancestors : IdentityMap h.size Unit}

theorem renderItems_eq : ∀ items : List Value, h.renderItems ancestors items =
    (items.mapM (h.renderIn ancestors)).map (List.map (·.getD .null))
  | [] => by rw [renderItems]; rfl
  | v :: items => by
    rw [renderItems, renderItems_eq items, List.mapM_cons]
    cases h.renderIn ancestors v with
    | error e => rfl
    | ok t => cases items.mapM (h.renderIn ancestors) <;> rfl

theorem renderPairs_eq : ∀ entries : List (Value × Value), h.renderPairs ancestors entries =
    ((entries.flatMap fun e => [e.1, e.2]).mapM (h.renderIn ancestors)).map Object.pairUp
  | [] => by rw [renderPairs]; rfl
  | (k, v) :: entries => by
    rw [renderPairs, renderPairs_eq entries, List.flatMap_cons, List.cons_append, List.cons_append,
      List.nil_append, List.mapM_cons, List.mapM_cons]
    cases h.renderIn ancestors k with
    | error e => rfl
    | ok t =>
      cases h.renderIn ancestors v with
      | error e => rfl
      | ok u =>
        cases (entries.flatMap fun e => [e.1, e.2]).mapM (h.renderIn ancestors) <;> rfl

/-- Properties with symbol keys are passed over. -/
theorem renderMembers_symbols : ∀ {properties : List Property},
    (∀ a ∈ properties, a.key.isSymbol = true) →
      h.renderMembers ancestors (properties.map fun a => (a.key, a.value)) = .ok []
  | [], _ => by rw [List.map_nil, renderMembers]
  | ⟨.name _, _, _⟩ :: _, hs => by simp [Key.isSymbol] at hs
  | ⟨.symbol s, v, _⟩ :: properties, hs => by
    rw [List.map_cons, renderMembers,
      renderMembers_symbols fun a ha => hs a (List.mem_cons_of_mem _ ha)]

theorem renderMembers_names {symbols : List Property}
    (hs : ∀ a ∈ symbols, a.key.isSymbol = true) : ∀ {names : List Property},
    (∀ a ∈ names, a.key.isSymbol = false) →
      h.renderMembers ancestors ((names ++ symbols).map fun a => (a.key, a.value)) =
        ((names.map Property.value).mapM (h.renderIn ancestors)).map fun ts =>
          (names.zip ts).filterMap fun e => e.2.map fun j => (e.1.key.text, j)
  | [], _ => by rw [List.nil_append, renderMembers_symbols hs]; rfl
  | ⟨.symbol _, _, _⟩ :: _, hn => by simp [Key.isSymbol] at hn
  | ⟨.name k, v, _⟩ :: names, hn => by
    rw [List.cons_append, List.map_cons, renderMembers,
      renderMembers_names hs fun a ha => hn a (List.mem_cons_of_mem _ ha), List.map_cons,
      List.mapM_cons]
    cases h.renderIn ancestors v with
    | error e => rfl
    | ok t =>
      cases (names.map Property.value).mapM (h.renderIn ancestors) with
      | error e => rfl
      | ok ts => cases t <;> rfl

theorem renderMembers_entries (p : PlainObject) : h.renderMembers ancestors p.entries =
    ((p.names.map Property.value).mapM (h.renderIn ancestors)).map fun ts =>
      (p.names.zip ts).filterMap fun e => e.2.map fun j => (e.1.key.text, j) :=
  renderMembers_names
    (fun _ ha => (PlainObject.mem_symbols.1 (List.mem_map_of_mem ha)).2)
    fun _ ha => (PlainObject.mem_names.1 (List.mem_map_of_mem ha)).2

theorem renderAll_numbers : ∀ xs : List Binary64,
    renderAll (xs.map .number) = .ok (xs.map Binary64.render)
  | [] => rfl
  | x :: xs => by
    have ih := renderAll_numbers xs
    rw [renderAll] at ih
    rw [List.map_cons, renderAll, List.mapM_cons, ih]
    rfl

theorem renderAll_widen (a : TypedArray) : renderAll a.widen =
    if a.holdsBig then .error .bigInteger else .ok a.documents := by
  cases a with
  | floats element items => exact renderAll_numbers items
  | integers element items =>
    cases hb : element.isBig with
    | false =>
      have hw : (TypedArray.integers element items).widen =
          (items.map Binary64.ofInt).map Value.number := by
        simp [TypedArray.widen, hb]
      rw [hw, renderAll_numbers, List.map_map]
      simp [TypedArray.holdsBig, hb, TypedArray.documents, Function.comp_def]
    | true =>
      cases items with
      | nil => simp [TypedArray.holdsBig, TypedArray.widen, TypedArray.documents, renderAll]; rfl
      | cons i items =>
        simp only [TypedArray.widen, hb, if_true, List.map_cons, renderAll, List.mapM_cons,
          TypedArray.holdsBig, List.isEmpty_cons, Bool.not_false, Bool.and_self]
        rfl

/-- **An object is rendered** by what it is and by the documents of the values
    below it, with the object as one more ancestor. -/
theorem renderIn_object {r : Ref} {o : Object} (hnew : ancestors.get? r = none)
    (ho : h.get? r = some o) : h.renderIn ancestors (.object r) =
      match o.refusal? with
      | some e => .error e
      | none => (o.rendered.mapM (h.renderIn (ancestors.record r ()))).map fun ts =>
          some (o.assemble ts) := by
  rw [renderIn, dif_pos hnew]
  split
  next hnone => rw [ho] at hnone; cases hnone
  next o' hr =>
    rw [ho] at hr
    cases hr
    cases o with
    | array items =>
      simp only [renderItems_eq, Object.refusal?, Object.rendered]
      cases items.mapM (h.renderIn (ancestors.record r ())) <;> rfl
    | plain p =>
      simp only [renderMembers_entries, Object.refusal?, Object.rendered]
      cases (Object.plain p).isStructural with
      | false => rfl
      | true =>
        simp only [if_true]
        cases (p.names.map Property.value).mapM (h.renderIn (ancestors.record r ())) <;> rfl
    | map m =>
      simp only [renderPairs_eq, Object.refusal?, Object.rendered]
      cases (m.entries.flatMap fun e => [e.1, e.2]).mapM
        (h.renderIn (ancestors.record r ())) <;> rfl
    | set s =>
      simp only [renderItems_eq, Object.refusal?, Object.rendered]
      cases s.items.mapM (h.renderIn (ancestors.record r ())) <;> rfl
    | date millis =>
      simp only [Object.refusal?, Object.rendered, Object.assemble, List.mapM_nil]
      cases millis.bind Calendar.timestamp? <;> rfl
    | boxed b => cases b <;> rfl
    | typedArray a =>
      simp only [renderAll_widen, Object.refusal?]
      cases a.holdsBig <;> rfl
    | _ => rfl

end

end Heap

end ValueGraph
