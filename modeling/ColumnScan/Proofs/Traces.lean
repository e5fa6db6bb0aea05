import Mathlib.Data.List.Basic

/-!
# Traces

A history appends what happens to the end of a trace. What holds of every item with those before it
is kept if it holds of the new item, and what was so since some item is so still unless the new item
spoils it.
-/

set_option autoImplicit false

namespace ColumnScan

variable {α : Type} {items before after : List α} {last item : α}

/-- An item of a longer trace is the new one, or it was there already. -/
theorem append_singleton_cases (shape : items ++ [last] = before ++ item :: after) :
    (after = [] ∧ items = before ∧ last = item) ∨
      ∃ rest, after = rest ++ [last] ∧ items = before ++ item :: rest := by
  rcases List.eq_nil_or_concat after with rfl | ⟨rest, final, rfl⟩
  · obtain ⟨same, ends⟩ := List.append_inj' shape rfl
    exact .inl ⟨rfl, same, List.head_eq_of_cons_eq ends⟩
  · rw [List.concat_eq_append, ← List.cons_append, ← List.append_assoc] at shape
    obtain ⟨same, ends⟩ := List.append_inj' shape rfl
    cases ends
    exact .inr ⟨rest, List.concat_eq_append, same⟩

/-- Some item of a trace is as wanted, and no later one spoils it. -/
def Since (wanted spoils : α → Prop) (items : List α) : Prop :=
  ∃ earlier item later, items = earlier ++ item :: later ∧ wanted item ∧
    ∀ other ∈ later, ¬spoils other

variable {wanted spoils : α → Prop}

theorem since_append_iff :
    Since wanted spoils (items ++ [last]) ↔
      wanted last ∨ ¬spoils last ∧ Since wanted spoils items := by
  constructor
  · rintro ⟨earlier, item, later, shape, found, kept⟩
    obtain ⟨_, _, rfl⟩ | ⟨rest, rfl, rfl⟩ := append_singleton_cases shape
    · exact .inl found
    · rw [List.forall_mem_append, List.forall_mem_singleton] at kept
      exact .inr ⟨kept.2, earlier, item, rest, rfl, found, kept.1⟩
  · rintro (found | ⟨harmless, earlier, item, later, rfl, found, kept⟩)
    · exact ⟨items, last, [], rfl, found, nofun⟩
    · refine ⟨earlier, item, later ++ [last], ?_, found, ?_⟩
      · rw [List.append_assoc, List.cons_append]
      · exact List.forall_mem_append.mpr ⟨kept, List.forall_mem_singleton.mpr harmless⟩

end ColumnScan
