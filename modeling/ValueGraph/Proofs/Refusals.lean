/-
  When rendering is refused, and for what.

  Rendering goes through the tree unfolding of a value, depth first, and keeps
  the objects on the way down.  It ends at the first value of the unfolding
  that has no document.  The way down is forgotten on the way up, so that an
  object below itself is refused and an object that is only met again is not.

  * `Heap.refusal?`: why a value has no document below given ancestors,
    whatever lies below it;
  * `Heap.Refused`: the refusals of the tree unfolding, each at its place;
  * `Heap.FirstRefusal`: the first of them, depth first;
  * `Heap.renderIn_cases`: rendering gives the tree unfolding or fails with
    the first refusal;
  * `Heap.render_iff`: when rendering succeeds, what it gives, and which error
    it fails with.
-/
import ValueGraph.Proofs.DocumentRendering
import ValueGraph.Proofs.Unfolding
import Mathlib.Logic.Relation

open Relation

namespace ValueGraph

namespace Heap

/-! ## Refusals of the unfolding -/

/-- Why a value below the objects `ancestors` has no document, whatever lies
    below it: it is a big integer, its own ancestor, or an object without a
    document. -/
def refusal? (h : Heap) (ancestors : List Ref) : Value → Option RenderError
  | .bigInt _ => some .bigInteger
  | .object r =>
    if r ∈ ancestors then some .cycle
    else match h.get? r with
      | none => some (.object "")
      | some o => o.refusal?
  | _ => none

/-- **The refusals** of the tree unfolding of a value below `ancestors`, each
    with its place: which of the values below an object to go to, from the
    root down. -/
inductive Refused (h : Heap) : List Ref → Value → List Nat → RenderError → Prop
  | here {ancestors : List Ref} {v : Value} {e : RenderError} :
      h.refusal? ancestors v = some e → Refused h ancestors v [] e
  | inside {ancestors : List Ref} {r : Ref} {i : Nat} {v : Value} {place : List Nat}
      {e : RenderError} : h.refusal? ancestors (.object r) = none →
      (h.rendered (.object r))[i]? = some v → Refused h (r :: ancestors) v place e →
      Refused h ancestors (.object r) (i :: place) e

/-- Whether a depth-first traversal comes to the first place before the second
    one: places are ordered as words are. -/
def Before (place place' : List Nat) : Prop := List.Lex (· < ·) place place'

/-- The refusal that a depth-first traversal comes to first. -/
def FirstRefusal (h : Heap) (ancestors : List Ref) (v : Value) (e : RenderError) : Prop :=
  ∃ place, h.Refused ancestors v place e ∧
    ∀ place' e', h.Refused ancestors v place' e' → place = place' ∨ Before place place'

theorem Before.asymm {place place' : List Nat} (hb : Before place place') :
    ¬ Before place' place :=
  List.lt_asymm hb

section
variable {h : Heap} {ancestors : List Ref} {v w : Value} {r : Ref} {e e' : RenderError}

/-- There is one refusal at a place. -/
theorem Refused.unique {place : List Nat} (he : h.Refused ancestors v place e) :
    ∀ {e'}, h.Refused ancestors v place e' → e = e' := by
  induction he with
  | here hv =>
    rintro e' ⟨⟩
    next hv' => rw [hv] at hv'; exact Option.some.inj hv'
  | inside _ hi _ ih =>
    rintro e' ⟨⟩
    next hi' hv' => rw [hi] at hi'; cases hi'; exact ih hv'

/-- There is one first refusal. -/
theorem FirstRefusal.unique (he : h.FirstRefusal ancestors v e)
    (he' : h.FirstRefusal ancestors v e') : e = e' := by
  obtain ⟨place, hv, hfirst⟩ := he
  obtain ⟨place', hv', hfirst'⟩ := he'
  have hplace : place = place' := by
    rcases hfirst _ _ hv' with heq | hb
    · exact heq
    · rcases hfirst' _ _ hv with heq | hb'
      · exact heq.symm
      · exact absurd hb' hb.asymm
  subst hplace
  exact hv.unique hv'

/-- A value that is refused itself is refused for that first of all. -/
theorem FirstRefusal.here (hv : h.refusal? ancestors v = some e) :
    h.FirstRefusal ancestors v e := by
  refine ⟨[], .here hv, fun place _ _ => ?_⟩
  cases place with
  | nil => exact .inl rfl
  | cons i place => exact .inr .nil

/-- The first refusal of the first value below an object that has one. -/
theorem FirstRefusal.inside {i : Nat} (hr : h.refusal? ancestors (.object r) = none)
    (hi : (h.rendered (.object r))[i]? = some v) (he : h.FirstRefusal (r :: ancestors) v e)
    (hbefore : ∀ (k : Nat) w, k < i → (h.rendered (.object r))[k]? = some w →
      ∀ place e', ¬ h.Refused (r :: ancestors) w place e') :
    h.FirstRefusal ancestors (.object r) e := by
  obtain ⟨place, hv, hfirst⟩ := he
  refine ⟨i :: place, .inside hr hi hv, fun place' e' hv' => ?_⟩
  cases hv' with
  | here hr' => rw [hr] at hr'; cases hr'
  | @inside _ _ k w place' _ _ hk hw =>
    rcases Nat.lt_trichotomy k i with hlt | rfl | hgt
    · exact absurd hw (hbefore k w hlt hk place' e')
    · rw [hi] at hk
      cases hk
      exact (hfirst _ _ hw).imp (congrArg (k :: ·)) .cons
    · exact .inr (.rel hgt)

end

/-! ## Rendering below ancestors -/

/-- A table that holds the ancestors. -/
def Tracks {n : Nat} (table : IdentityMap n Unit) (ancestors : List Ref) : Prop :=
  ∀ r, table.get? r = none ↔ r ∉ ancestors

theorem Tracks.empty (n : Nat) : Tracks (.empty n Unit) [] :=
  fun r => iff_of_true (IdentityMap.get?_empty r) List.not_mem_nil

theorem Tracks.record {n : Nat} {table : IdentityMap n Unit} {ancestors : List Ref}
    (ht : Tracks table ancestors) {r : Ref} (hr : r.index < n) (hnew : table.get? r = none) :
    Tracks (table.record r ()) (r :: ancestors) := by
  intro s
  rw [IdentityMap.get?_record, List.mem_cons, not_or, ← ht s]
  split
  next hs => simp [hs.1]
  next hs =>
    have hne : s ≠ r := fun hsr => hs ⟨hsr.symm, hnew, hr⟩
    simp [hne]

section
variable {h : Heap} {table : IdentityMap h.size Unit} {ancestors : List Ref} {v : Value}

/-- Rendering gives the tree unfolding, in which nothing is refused, or fails
    with the first refusal. -/
inductive Rendering (h : Heap) (ancestors : List Ref) (v : Value) :
    Except RenderError (Option Json) → Prop
  | ok {t : Option Json} : h.Unfolds v t → (∀ place e, ¬ h.Refused ancestors v place e) →
      Rendering h ancestors v (.ok t)
  | error {e : RenderError} : h.FirstRefusal ancestors v e → Rendering h ancestors v (.error e)

/-- One after the other: all are rendered, or the first that is not says why. -/
theorem mapM_cases (vs : List Value)
    (hvs : ∀ v ∈ vs, Rendering h ancestors v (h.renderIn table v)) :
    (∃ ts, vs.mapM (h.renderIn table) = .ok ts ∧ ts.length = vs.length ∧
      (∀ (i : Nat) v t, vs[i]? = some v → ts[i]? = some t → h.Unfolds v t) ∧
      ∀ v ∈ vs, ∀ place e, ¬ h.Refused ancestors v place e) ∨
    ∃ e i v, vs.mapM (h.renderIn table) = .error e ∧ vs[i]? = some v ∧
      h.FirstRefusal ancestors v e ∧
      ∀ (k : Nat) w, k < i → vs[k]? = some w → ∀ place e', ¬ h.Refused ancestors w place e' := by
  induction vs with
  | nil => exact .inl ⟨[], rfl, rfl, by simp, by simp⟩
  | cons v vs ih =>
    have hv := hvs v List.mem_cons_self
    rw [List.mapM_cons]
    cases hout : h.renderIn table v with
    | error e =>
      rw [hout] at hv
      obtain ⟨⟩ | ⟨hfirst⟩ := hv
      exact .inr ⟨e, 0, v, rfl, rfl, hfirst, by simp⟩
    | ok t =>
      rw [hout] at hv
      obtain ⟨hunfolds, hnone⟩ | ⟨⟩ := hv
      rcases ih fun w hw => hvs w (List.mem_cons_of_mem _ hw) with
        ⟨ts, hts, hlen, hall, hnones⟩ | ⟨e, i, w, herr, hi, hfirst, hbefore⟩
      · refine .inl ⟨t :: ts, by rw [hts]; rfl, by simp [hlen], ?_, ?_⟩
        · rintro (_ | i) w u hw hu
          · cases hw
            cases hu
            exact hunfolds
          · exact hall i w u hw hu
        · exact List.forall_mem_cons.2 ⟨hnone, hnones⟩
      · refine .inr ⟨e, i + 1, w, by rw [herr]; rfl, hi, hfirst, ?_⟩
        rintro (_ | k) u hk hu
        · cases hu
          exact hnone
        · exact hbefore k u (Nat.lt_of_succ_lt_succ hk) hu

/-- A value that is no object is rendered by itself. -/
theorem renderIn_cases_primitive (hv : v.isObject = false) :
    Rendering h ancestors v (h.renderIn table v) := by
  rw [renderIn_primitive hv]
  have hnone (hr : h.refusal? ancestors v = none) :
      ∀ place e, ¬ h.Refused ancestors v place e := by
    rintro place e ⟨⟩
    · simp_all
    · simp [Value.isObject] at hv
  cases v with
  | undefined => exact .ok .undefined (hnone rfl)
  | null => exact .ok .null (hnone rfl)
  | bool b => exact .ok (.bool b) (hnone rfl)
  | number x => exact .ok (.number x) (hnone rfl)
  | bigInt n => exact .error (.here rfl)
  | string text => exact .ok (.string text) (hnone rfl)
  | symbol s => exact .ok (.symbol s) (hnone rfl)
  | function f => exact .ok (.function f) (hnone rfl)
  | object r => simp [Value.isObject] at hv

/-- An object that is no ancestor is rendered, or refused, as what is below it
    is. -/
theorem renderIn_cases_object {r : Ref} {o : Object} (hmem : r ∉ ancestors)
    (hnew : table.get? r = none) (ho : h.get? r = some o)
    (hbelow : ∀ w, Rendering h (r :: ancestors) w (h.renderIn (table.record r ()) w)) :
    Rendering h ancestors (.object r) (h.renderIn table (.object r)) := by
  have hrefusal : h.refusal? ancestors (.object r) = o.refusal? := by
    simp [refusal?, hmem, ho]
  have hrendered : h.rendered (.object r) = o.rendered := by simp [rendered, ho]
  rw [renderIn_object hnew ho]
  cases hr : o.refusal? with
  | some e => exact .error (.here (hrefusal.trans hr))
  | none =>
    rw [hr] at hrefusal
    rcases mapM_cases o.rendered fun w _ => hbelow w with
      ⟨ts, hts, hlen, hall, hnones⟩ | ⟨e, i, w, herr, hi, hfirst, hbefore⟩
    · simp only [hts]
      refine .ok (.object ho hr hlen hall) ?_
      rintro place e ⟨⟩
      next hr' => rw [hrefusal] at hr'; cases hr'
      next hi _ hw =>
        rw [hrendered] at hi
        exact hnones _ (List.mem_of_getElem? hi) _ _ hw
    · simp only [herr]
      rw [← hrendered] at hi hbefore
      exact .error (.inside hrefusal hi hfirst hbefore)

end

/-- **Below given ancestors** rendering gives the tree unfolding, in which
    nothing is refused, or fails with the first refusal.  Below an object there
    are fewer objects that are no ancestors. -/
theorem renderIn_cases {h : Heap} (table : IdentityMap h.size Unit) {ancestors : List Ref}
    (ht : Tracks table ancestors) (v : Value) :
    Rendering h ancestors v (h.renderIn table v) := by
  cases v with
  | object r =>
    cases hnew : table.get? r with
    | some u =>
      have hmem : r ∈ ancestors := by
        by_contra hmem
        rw [(ht r).2 hmem] at hnew
        cases hnew
      rw [renderIn, dif_neg (by simp [hnew])]
      exact .error (.here (if_pos hmem))
    | none =>
      have hmem : r ∉ ancestors := (ht r).1 hnew
      cases ho : h.get? r with
      | none =>
        rw [renderIn, dif_pos hnew]
        split
        next => exact .error (.here (by simp [refusal?, hmem, ho]))
        next hr => rw [ho] at hr; cases hr
      | some o =>
        have hlt := IdentityMap.vacant_record (a := ()) (lt_of_get? ho) hnew
        exact renderIn_cases_object hmem hnew ho
          (renderIn_cases (table.record r ()) (ht.record (lt_of_get? ho) hnew))
  | _ => exact renderIn_cases_primitive rfl
termination_by table.vacant

/-! ## Rendering a value -/

/-- Whether rendering the first value renders the second one next below it. -/
def Contains (h : Heap) (v w : Value) : Prop := w ∈ h.rendered v

section
variable {h : Heap} {v w : Value}

theorem Unfolds.refusal? {t : Option Json} (ht : h.Unfolds v t) : h.refusal? [] v = none := by
  cases ht with
  | object ho hr => simp [Heap.refusal?, ho, hr]
  | _ => rfl

theorem Unfolds.contains {t : Option Json} (ht : h.Unfolds v t) (hw : h.Contains v w) :
    ∃ u, h.Unfolds w u := by
  cases ht with
  | @object r o ts ho _ hlen hall =>
    simp only [Contains, rendered, ho, Option.map_some, Option.getD_some] at hw
    obtain ⟨i, hi⟩ := List.mem_iff_getElem?.1 hw
    obtain ⟨hlt, -⟩ := List.getElem?_eq_some_iff.1 hi
    exact ⟨_, hall i w _ hi (List.getElem?_eq_getElem (hlen ▸ hlt))⟩
  | _ => simp [Contains, rendered] at hw

theorem Unfolds.reflTransGen {t : Option Json} (ht : h.Unfolds v t)
    (hw : ReflTransGen h.Contains v w) : ∃ u, h.Unfolds w u := by
  induction hw with
  | refl => exact ⟨t, ht⟩
  | tail _ hw ih =>
    obtain ⟨u, hu⟩ := ih
    exact hu.contains hw

/-- Going down in a tree unfolding comes to an end. -/
theorem Unfolds.acc {t : Option Json} (ht : h.Unfolds v t) :
    Acc (fun w v => h.Contains v w) v := by
  induction ht with
  | @object r o ts ho _ hlen _ ih =>
    refine .intro _ fun w hw => ?_
    simp only [Contains, rendered, ho, Option.map_some, Option.getD_some] at hw
    obtain ⟨i, hi⟩ := List.mem_iff_getElem?.1 hw
    obtain ⟨hlt, -⟩ := List.getElem?_eq_some_iff.1 hi
    exact ih i w _ hi (List.getElem?_eq_getElem (hlen ▸ hlt))
  | _ => exact .intro _ fun w hw => by simp [Contains, rendered] at hw

theorem Unfolds.acyclic {t : Option Json} (ht : h.Unfolds v t) : ¬ TransGen h.Contains v v := by
  intro hcycle
  have hacc := ht.acc.transGen
  have hswap : TransGen (fun w v => h.Contains v w) v v := transGen_swap.1 hcycle
  induction hacc with
  | intro v _ ih => exact ih v hswap ht hcycle hswap

/-- **A refusal** is that of a value that can be reached and has no document
    itself, or that of a cycle. -/
theorem Refused.reach {ancestors : List Ref} {place : List Nat} {e : RenderError}
    (he : h.Refused ancestors v place e)
    (habove : ∀ r ∈ ancestors, TransGen h.Contains (.object r) v) :
    ∃ w, ReflTransGen h.Contains v w ∧
      (h.refusal? [] w = some e ∨ TransGen h.Contains w w) := by
  induction he with
  | @here ancestors v e hv =>
    refine ⟨v, .refl, ?_⟩
    cases v with
    | object r =>
      by_cases hr : r ∈ ancestors
      · exact .inr (habove r hr)
      · rw [Heap.refusal?, if_neg hr] at hv
        exact .inl (by rw [Heap.refusal?, if_neg List.not_mem_nil, hv])
    | bigInt n => exact .inl hv
    | _ => cases hv
  | @inside ancestors r i v place e _ hi _ ih =>
    have hstep : h.Contains (.object r) v := List.mem_of_getElem? hi
    obtain ⟨w, hw, hbad⟩ := ih <| List.forall_mem_cons.2
      ⟨.single hstep, fun s hs => (habove s hs).tail hstep⟩
    exact ⟨w, .head hstep hw, hbad⟩

theorem render_eq : ∃ out, Rendering h [] v out ∧ h.render v = out.map (·.getD .null) := by
  refine ⟨_, renderIn_cases (.empty h.size Unit) (.empty h.size) v, ?_⟩
  rw [render]
  cases h.renderIn (.empty h.size Unit) v <;> rfl

/-- A value has a tree unfolding if what can be reached has documents and no
    cycles. -/
theorem exists_unfolds_iff : (∃ t, h.Unfolds v t) ↔
    ∀ w, ReflTransGen h.Contains v w → h.refusal? [] w = none ∧ ¬ TransGen h.Contains w w := by
  constructor
  · rintro ⟨t, ht⟩ w hw
    obtain ⟨u, hu⟩ := ht.reflTransGen hw
    exact ⟨hu.refusal?, hu.acyclic⟩
  · intro hgood
    obtain ⟨out, hout, -⟩ := render_eq (h := h) (v := v)
    cases hout with
    | ok ht _ => exact ⟨_, ht⟩
    | error he =>
      obtain ⟨place, he, -⟩ := he
      obtain ⟨w, hw, hbad⟩ := he.reach (by simp)
      rcases hbad with hbad | hbad
      · rw [(hgood w hw).1] at hbad
        cases hbad
      · exact absurd hbad (hgood w hw).2

/-- A value with a refusal has no tree unfolding. -/
theorem FirstRefusal.not_unfolds {e : RenderError} (he : h.FirstRefusal [] v e)
    {t : Option Json} : ¬ h.Unfolds v t := by
  intro ht
  obtain ⟨place, he, -⟩ := he
  obtain ⟨w, hw, hbad⟩ := he.reach (by simp)
  obtain ⟨hgood, hacyclic⟩ := exists_unfolds_iff.1 ⟨t, ht⟩ w hw
  rcases hbad with hbad | hbad
  · rw [hgood] at hbad
    cases hbad
  · exact hacyclic hbad

theorem render_eq_ok_iff {j : Json} :
    h.render v = .ok j ↔ ∃ t, h.Unfolds v t ∧ j = t.getD .null := by
  obtain ⟨out, hout, heq⟩ := render_eq (h := h) (v := v)
  rw [heq]
  cases hout with
  | @ok t ht _ =>
    constructor
    · intro hj
      cases hj
      exact ⟨t, ht, rfl⟩
    · rintro ⟨t', ht', rfl⟩
      rw [ht.unique ht']
      rfl
  | error he =>
    refine iff_of_false nofun ?_
    rintro ⟨t, ht, -⟩
    exact he.not_unfolds ht

theorem render_eq_error_iff {e : RenderError} :
    h.render v = .error e ↔ h.FirstRefusal [] v e := by
  obtain ⟨out, hout, heq⟩ := render_eq (h := h) (v := v)
  rw [heq]
  cases hout with
  | ok _ hnone =>
    refine iff_of_false nofun ?_
    rintro ⟨place, he, -⟩
    exact hnone place e he
  | error he =>
    constructor
    · intro he'
      cases he'
      exact he
    · intro he'
      rw [he.unique he']
      rfl

theorem exists_render_iff : (∃ j, h.render v = .ok j) ↔ ∃ t, h.Unfolds v t := by
  constructor
  · rintro ⟨j, hj⟩
    obtain ⟨t, ht, -⟩ := render_eq_ok_iff.1 hj
    exact ⟨t, ht⟩
  · rintro ⟨t, ht⟩
    exact ⟨_, render_eq_ok_iff.2 ⟨t, ht, rfl⟩⟩

/-- **Rendering a value** succeeds if and only if what it contains has
    documents and no cycles.  It then gives the tree unfolding of the value,
    and fails otherwise with the first refusal, depth first. -/
theorem render_iff (h : Heap) (v : Value) :
    ((∃ j, h.render v = .ok j) ↔
      ∀ w, ReflTransGen h.Contains v w →
        h.refusal? [] w = none ∧ ¬ TransGen h.Contains w w) ∧
    (∀ j, h.render v = .ok j ↔ ∃ t, h.Unfolds v t ∧ j = t.getD .null) ∧
    ∀ e, h.render v = .error e ↔ h.FirstRefusal [] v e :=
  ⟨exists_render_iff.trans exists_unfolds_iff, fun _ => render_eq_ok_iff,
    fun _ => render_eq_error_iff⟩

end

end Heap

end ValueGraph
