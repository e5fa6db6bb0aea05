/-!
# Lists with distinct keys

If no two items of a list have the same key, a key picks out one item, and what is done to the items
with that key leaves all others as they were.
-/

set_option autoImplicit false

namespace ColumnScan

variable {α : Type} (key : α → Nat)

theorem exists_append_of_distinct {items : List α} {item : α} (distinct : (items.map key).Nodup)
    (member : item ∈ items) :
    ∃ before after, items = before ++ item :: after ∧
      ∀ other ∈ before ++ after, key other ≠ key item := by
  obtain ⟨before, after, shape⟩ := List.append_of_mem member
  refine ⟨before, after, shape, fun other present same => ?_⟩
  rw [shape] at distinct
  have moved := (List.perm_middle.map key).nodup_iff.mp distinct
  rw [List.map_cons, List.nodup_cons] at moved
  exact moved.1 (same ▸ List.mem_map_of_mem present)

theorem find?_key_eq_some_iff {items : List α} {item : α} {wanted : Nat}
    (distinct : (items.map key).Nodup) :
    items.find? (key · == wanted) = some item ↔ item ∈ items ∧ key item = wanted := by
  constructor
  · intro found
    have same := List.find?_some found
    exact ⟨List.mem_of_find?_eq_some found, beq_iff_eq.mp same⟩
  · rintro ⟨member, rfl⟩
    obtain ⟨before, after, shape, others⟩ := exists_append_of_distinct key distinct member
    refine List.find?_eq_some_iff_append.mpr ⟨beq_self_eq_true _, before, after, shape, ?_⟩
    intro other present
    have different := others other (List.mem_append_left _ present)
    rw [beq_eq_false_iff_ne.mpr different]
    rfl

/-- Items that are put together by their keys are all the items. -/
theorem flatMap_filter_perm {keys : List Nat} {items : List α}
    (distinct : keys.Nodup) (known : ∀ item ∈ items, key item ∈ keys) :
    (keys.flatMap fun wanted => items.filter (key · == wanted)).Perm items := by
  induction keys generalizing items with
  | nil =>
      cases items with
      | nil => exact List.Perm.refl _
      | cons item rest => cases known item List.mem_cons_self
  | cons wanted rest ih =>
      rw [List.nodup_cons] at distinct
      have others := ih distinct.2 fun item (member : item ∈ items.filter (key · != wanted)) => by
        obtain ⟨present, different⟩ := List.mem_filter.mp member
        exact (List.mem_cons.mp (known item present)).resolve_left (bne_iff_ne.mp different)
      have same : (rest.flatMap fun other =>
            (items.filter (key · != wanted)).filter (key · == other)) =
          rest.flatMap fun other => items.filter (key · == other) := by
        rw [List.flatMap_def, List.flatMap_def]
        refine congrArg List.flatten (List.map_congr_left fun other member => ?_)
        rw [List.filter_filter]
        refine List.filter_congr fun item _ => ?_
        by_cases found : key item = other
        · have different : other ≠ wanted := fun equal => distinct.1 (equal ▸ member)
          simp [found, different]
        · simp [found]
      rw [List.flatMap_cons, ← same]
      exact (others.append_left _).trans (List.filter_append_perm (key · == wanted) items)

variable {before after : List α} {item : α} {wanted : Nat} (same : key item = wanted)
  (others : ∀ other ∈ before ++ after, key other ≠ wanted)

include same others

theorem map_at_key (change : α → α) :
    ((before ++ item :: after).map fun other =>
        if key other = wanted then change other else other) =
      before ++ change item :: after := by
  have kept : ∀ items : List α, (∀ other ∈ items, key other ≠ wanted) →
      (items.map fun other => if key other = wanted then change other else other) = items := by
    intro items different
    refine (List.map_congr_left fun other member => ?_).trans (List.map_id items)
    exact if_neg (different other member)
  rw [List.forall_mem_append] at others
  rw [List.map_append, List.map_cons, kept before others.1, kept after others.2, if_pos same]

theorem filter_other_keys :
    (before ++ item :: after).filter (key · != wanted) = before ++ after := by
  have kept : (before ++ after).filter (key · != wanted) = before ++ after :=
    List.filter_eq_self.mpr fun other member => bne_iff_ne.mpr (others other member)
  rw [List.filter_append] at kept
  rw [List.filter_append, List.filter_cons_of_neg (by simp [same]), kept]

end ColumnScan
