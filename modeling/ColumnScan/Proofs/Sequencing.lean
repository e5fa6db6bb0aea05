/-!
# Sequences of steps that can fail

A traversal whose steps can fail succeeds exactly when every step does. Its results then stand in
the order of the items they came from.
-/

set_option autoImplicit false

namespace ColumnScan

variable {α β ε : Type}

theorem bind_eq_ok {first : Except ε α} {next : α → Except ε β} {result : β}
    (succeeded : first >>= next = .ok result) :
    ∃ value, first = .ok value ∧ next value = .ok result := by
  cases first with
  | error error => cases succeeded
  | ok value => exact ⟨value, rfl, succeeded⟩

theorem exists_error_iff {outcome : Except ε α} :
    (∃ error, outcome = .error error) ↔ ¬∃ value, outcome = .ok value := by
  cases outcome with
  | error error => exact iff_of_true ⟨error, rfl⟩ nofun
  | ok value => exact iff_of_false nofun fun none => none ⟨value, rfl⟩

/-- What follows a step only has to agree on the value that the step gives. -/
theorem bind_congr_ok {first : Except ε α} {left right : α → Except ε β}
    (agree : ∀ value, first = .ok value → left value = right value) :
    first >>= left = first >>= right := by
  cases first with
  | error error => rfl
  | ok value => exact agree value rfl

theorem mapM_eq_ok {step : α → Except ε β} {value : α → β} {items : List α}
    (each : ∀ item ∈ items, step item = .ok (value item)) :
    items.mapM step = .ok (items.map value) := by
  induction items with
  | nil => rfl
  | cons item rest ih =>
      have first := each item List.mem_cons_self
      have others := ih fun other member => each other (List.mem_cons_of_mem _ member)
      simp only [List.mapM_cons, first, others, List.map_cons, bind, Except.bind, pure, Except.pure]

theorem length_of_mapM_eq_ok {step : α → Except ε β} {items : List α} {results : List β}
    (succeeded : items.mapM step = .ok results) : results.length = items.length := by
  induction items generalizing results with
  | nil => cases succeeded; rfl
  | cons item rest ih =>
      rw [List.mapM_cons] at succeeded
      obtain ⟨value, _, continued⟩ := bind_eq_ok succeeded
      obtain ⟨values, others, shape⟩ := bind_eq_ok continued
      cases shape
      simp only [List.length_cons, ih others]

theorem exists_of_mem_of_mapM_eq_ok {step : α → Except ε β} {items : List α} {results : List β}
    (succeeded : items.mapM step = .ok results) {result : β} (member : result ∈ results) :
    ∃ item ∈ items, step item = .ok result := by
  induction items generalizing results with
  | nil =>
      cases succeeded
      cases member
  | cons item rest ih =>
      rw [List.mapM_cons] at succeeded
      obtain ⟨value, first, continued⟩ := bind_eq_ok succeeded
      obtain ⟨values, others, shape⟩ := bind_eq_ok continued
      cases shape
      rcases List.mem_cons.mp member with rfl | later
      · exact ⟨item, List.mem_cons_self, first⟩
      · obtain ⟨source, sourceMember, found⟩ := ih others later
        exact ⟨source, List.mem_cons_of_mem _ sourceMember, found⟩

theorem exists_mapM_eq_ok_iff {step : α → Except ε β} {items : List α} :
    (∃ results, items.mapM step = .ok results) ↔ ∀ item ∈ items, ∃ result, step item = .ok result := by
  induction items with
  | nil => exact iff_of_true ⟨[], rfl⟩ fun _ member => absurd member List.not_mem_nil
  | cons item rest ih =>
      rw [List.forall_mem_cons, ← ih]
      constructor
      · rintro ⟨results, succeeded⟩
        rw [List.mapM_cons] at succeeded
        obtain ⟨value, first, continued⟩ := bind_eq_ok succeeded
        obtain ⟨values, others, _⟩ := bind_eq_ok continued
        exact ⟨⟨value, first⟩, values, others⟩
      · rintro ⟨⟨value, first⟩, values, others⟩
        refine ⟨value :: values, ?_⟩
        rw [List.mapM_cons, first, others]
        rfl

/-- A traversal ends with the error of the first step that fails. -/
theorem mapM_eq_error {step : α → Except ε β} {items : List α} {index : Nat} {error : ε}
    (inside : index < items.length)
    (passed : ∀ (earlier : Nat) (before : earlier < index),
      ∃ result, step items[earlier] = .ok result)
    (failed : step items[index] = .error error) : items.mapM step = .error error := by
  induction items generalizing index with
  | nil => cases inside
  | cons item rest ih =>
      rw [List.mapM_cons]
      cases index with
      | zero =>
          rw [List.getElem_cons_zero] at failed
          rw [failed]
          rfl
      | succ index =>
          obtain ⟨result, first⟩ := passed 0 (Nat.succ_pos index)
          rw [List.getElem_cons_zero] at first
          have others : rest.mapM step = .error error := by
            apply ih (Nat.lt_of_succ_lt_succ inside)
            · intro earlier before
              exact passed (earlier + 1) (Nat.succ_lt_succ before)
            · exact failed
          rw [first, others]
          rfl

end ColumnScan
