/-
  The first fault of a list.

  Checks that go through a list stop at the first member with a fault and
  report it.

  * `FirstFault`: the fault that is reported;
  * `firstFault_cons`: it is one of the head, or that of the tail if the head
    has none;
  * `exists_firstFault_iff`: there is one unless all members are without.
-/
import Mathlib.Data.List.Basic

namespace ValueGraph

variable {α β : Type} {fault : α → β → Prop} {x : α} {xs : List α} {e : β}

/-- The fault is that of a member of the list, and no member in front of that
    one has any. -/
def FirstFault (fault : α → β → Prop) (xs : List α) (e : β) : Prop :=
  ∃ before x after, xs = before ++ x :: after ∧ (∀ y ∈ before, ∀ e, ¬ fault y e) ∧ fault x e

theorem not_firstFault_nil : ¬ FirstFault fault [] e := by
  rintro ⟨before, x, after, hnil, -⟩
  simp at hnil

theorem firstFault_cons : FirstFault fault (x :: xs) e ↔
    fault x e ∨ (∀ e, ¬ fault x e) ∧ FirstFault fault xs e := by
  constructor
  · rintro ⟨_ | ⟨y, before⟩, z, after, hcons, hbefore, hz⟩
    · cases hcons
      exact .inl hz
    · cases hcons
      obtain ⟨hx, hbefore⟩ := List.forall_mem_cons.1 hbefore
      exact .inr ⟨hx, before, z, after, rfl, hbefore, hz⟩
  · rintro (hx | ⟨hx, before, z, after, rfl, hbefore, hz⟩)
    · exact ⟨[], x, xs, rfl, by simp, hx⟩
    · exact ⟨x :: before, z, after, rfl, List.forall_mem_cons.2 ⟨hx, hbefore⟩, hz⟩

/-- A head with a single fault is reported for it. -/
theorem firstFault_cons_of_fault {e₀ : β} (hx : ∀ e, fault x e ↔ e = e₀) :
    FirstFault fault (x :: xs) e ↔ e = e₀ := by
  have hsome : ¬ ∀ e, ¬ fault x e := fun hnone => hnone e₀ ((hx e₀).2 rfl)
  rw [firstFault_cons, hx, or_iff_left fun he => hsome he.1]

theorem firstFault_cons_of_none (hx : ∀ e, ¬ fault x e) :
    FirstFault fault (x :: xs) e ↔ FirstFault fault xs e := by
  rw [firstFault_cons, or_iff_right (hx e), and_iff_right hx]

theorem exists_firstFault_iff : (∃ e, FirstFault fault xs e) ↔ ∃ x ∈ xs, ∃ e, fault x e := by
  constructor
  · rintro ⟨e, before, x, after, rfl, -, hx⟩
    exact ⟨x, List.mem_append_right _ List.mem_cons_self, e, hx⟩
  · intro hsome
    induction xs with
    | nil => simp at hsome
    | cons x xs ih =>
      by_cases hx : ∃ e, fault x e
      · obtain ⟨e, hx⟩ := hx
        exact ⟨e, firstFault_cons.2 (.inl hx)⟩
      · obtain ⟨y, hy, hfault⟩ := hsome
        rcases List.mem_cons.1 hy with rfl | hy
        · exact absurd hfault hx
        · obtain ⟨e, he⟩ := ih ⟨y, hy, hfault⟩
          exact ⟨e, firstFault_cons.2 (.inr ⟨not_exists.1 hx, he⟩)⟩

end ValueGraph
