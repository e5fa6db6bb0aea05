import ColumnScan.Proofs.Filter.Equality

/-!
# Evaluating a filter over a batch

A batch applies one predicate after the other to all of its values. The answer for a value does not
depend on the values around it, and for a value that is not NULL it is the filter's own answer, as
long as no predicate has a flag.
-/

set_option autoImplicit false

namespace ColumnScan

theorem FilterMode.select_spec (combinator : Combinator) (operators : List Operator) :
    match select combinator operators with
    | .alwaysTrue => False
    | .single => operators.length = 1
    | .anyTrue => combinator = .or
    | .allTrue => combinator = .and
    | .oddTrue => operators.length ≠ 1 ∧ combinator ≠ .and ∧ combinator ≠ .or
    | .oneOfArray | .oneOfSet => combinator = .or ∧ ∀ operator ∈ operators, operator = .equal
    | .noneOfArray | .noneOfSet =>
        combinator = .and ∧ ∀ operator ∈ operators, operator = .notEqual := by
  by_cases one : operators.length = 1
  · simp only [select, one, ↓reduceIte]
  cases combinator with
  | none | xor => simp [select, one]
  | or =>
      cases same : operators.all (· == .equal) with
      | false => simp [select, one, same]
      | true =>
          have each : ∀ operator ∈ operators, operator = .equal := by simpa using same
          by_cases short : operators.length ≤ maxArrayLength <;>
            simp only [select, one, same, short, ↓reduceIte, true_and] <;> exact each
  | and =>
      cases same : operators.all (· == .notEqual) with
      | false => simp [select, one, same]
      | true =>
          have each : ∀ operator ∈ operators, operator = .notEqual := by simpa using same
          by_cases short : operators.length ≤ maxArrayLength <;>
            simp only [select, one, same, short, ↓reduceIte, true_and] <;> exact each

theorem foldl_and_eq (answers : List Bool) (start : Bool) :
    answers.foldl (· && ·) start = (start && answers.all id) := by
  induction answers generalizing start with
  | nil => simp only [List.foldl_nil, List.all_nil, Bool.and_true]
  | cons answer rest ih => simp only [List.foldl_cons, ih, List.all_cons, Bool.and_assoc, id_eq]

theorem foldl_or_eq (answers : List Bool) (start : Bool) :
    answers.foldl (· || ·) start = (start || answers.any id) := by
  induction answers generalizing start with
  | nil => simp only [List.foldl_nil, List.any_nil, Bool.or_false]
  | cons answer rest ih => simp only [List.foldl_cons, ih, List.any_cons, Bool.or_assoc, id_eq]

namespace Condition

variable {condition : Condition} {comparator : Comparator} {lane : Int}

theorem holdsOrdinary_eq_holds (unflagged : condition.flag = 0) :
    condition.holdsOrdinary comparator lane = condition.holds comparator lane false := by
  unfold holdsOrdinary holds
  rw [unflagged]
  by_cases never : condition.operator = .never
  · simp [never]
  · cases comparator.isNullAware <;> cases condition.isNull <;>
      by_cases different : condition.operator = .notEqual <;> simp [never, different]

variable {column : ColumnDescriptor} {pair : SentinelPair}

/-- A value that is not NULL equals no NULL, so an equality needs no test for NULL. -/
theorem holdsOrdinary_of_equal (decoded : condition.DecodedFor column pair)
    (wellFormed : pair.WellFormed column.width) (isEqual : condition.operator = .equal)
    (hasLane : column.HasLane lane) (notNull : (column.laneSentinels pair).isNull lane = false) :
    condition.holdsOrdinary column.comparator lane =
      column.comparator.equal lane condition.value := by
  unfold holdsOrdinary
  rw [isEqual]
  split
  next excluded =>
    simp only [Bool.or_eq_true, Bool.and_eq_true, beq_iff_eq, reduceCtorEq, false_or] at excluded
    obtain ⟨⟨aware, isNull⟩, _⟩ := excluded
    rw [ColumnDescriptor.comparator_equal_of_isNullAware aware wellFormed hasLane decoded.hasLane,
      eq_comm, beq_eq_false_iff_ne]
    rintro rfl
    rw [decoded.isNull_eq, notNull] at isNull
    cases isNull
  next => rfl

theorem holdsOrdinary_of_notEqual (isNotEqual : condition.operator = .notEqual) :
    condition.holdsOrdinary comparator lane = !comparator.equal lane condition.value := by
  unfold holdsOrdinary
  rw [isNotEqual, ← comparator.holds_notEqual]
  simp

end Condition

namespace CompiledFilter

/-- A filter that is no list of values goes by its operators and by the answers of its conditions. -/
theorem accepts_congr_of_answers {left right : List Condition} {lanes : LaneSize}
    {combinator : Combinator} {comparator : Comparator} {lane : Int} {isNull : Bool}
    (operators : left.map Condition.operator = right.map Condition.operator)
    (answers : (left.map fun condition => condition.holds comparator lane isNull) =
      right.map fun condition => condition.holds comparator lane isNull)
    (evaluated : (ofConditions lanes combinator left).mode.isValueList = false) :
    (ofConditions lanes combinator left).accepts comparator lane isNull =
      (ofConditions lanes combinator right).accepts comparator lane isNull := by
  have modes : (ofConditions lanes combinator right).mode =
      (ofConditions lanes combinator left).mode :=
    congrArg (FilterMode.select combinator) operators.symm
  unfold accepts
  rw [modes]
  cases mode : (ofConditions lanes combinator left).mode with
  | alwaysTrue => rfl
  | single =>
      have first := congrArg (fun found => found.head?.any id) answers
      simp only [List.head?_map, Option.any_map, id] at first
      exact first
  | anyTrue =>
      have any := congrArg (fun found => found.any id) answers
      simp only [List.any_map, Function.comp_def, id] at any
      exact any
  | allTrue =>
      have all := congrArg (fun found => found.all id) answers
      simp only [List.all_map, Function.comp_def, id] at all
      exact all
  | oddTrue =>
      have parity := congrArg (fun found => found.foldl (· != ·) false) answers
      simp only [List.foldl_map] at parity
      exact parity
  | oneOfArray | noneOfArray | oneOfSet | noneOfSet =>
      rw [mode] at evaluated
      cases evaluated

def combineAnswers (filter : CompiledFilter) (combine : Bool → Bool → Bool) (start : Bool)
    (comparator : Comparator) (lane : Int) : Bool :=
  (filter.conditions.map fun condition => condition.holdsOrdinary comparator lane).foldl
    combine start

def batchAnswer (filter : CompiledFilter) (comparator : Comparator) (lane : Int) : Bool :=
  match filter.mode with
  | .alwaysTrue => true
  | .oneOfSet => filter.inSet comparator lane false
  | .noneOfSet => !filter.inSet comparator lane false
  | .single | .anyTrue | .allTrue | .oddTrue | .oneOfArray | .noneOfArray =>
      match filter.combinator with
      | .and => filter.combineAnswers (· && ·) true comparator lane
      | .xor => filter.combineAnswers (· != ·) false comparator lane
      | .or | .none => filter.combineAnswers (· || ·) false comparator lane

theorem combinePasses_eq_map (filter : CompiledFilter) (combine : Bool → Bool → Bool)
    (start : Bool) (comparator : Comparator) (lanes : List Int) :
    filter.combinePasses combine start comparator lanes =
      lanes.map (filter.combineAnswers combine start comparator) := by
  -- A pass only looks at the answers so far, so these may differ from value to value.
  have passes : ∀ (conditions : List Condition) (answers : Int → Bool),
      conditions.foldl (combinePass combine comparator lanes) (lanes.map answers) =
        lanes.map fun lane =>
          (conditions.map fun condition => condition.holdsOrdinary comparator lane).foldl
            combine (answers lane) := by
    intro conditions
    induction conditions with
    | nil =>
        intro answers
        rfl
    | cons condition rest ih =>
        intro answers
        have step : combinePass combine comparator lanes (lanes.map answers) condition =
            lanes.map fun lane =>
              combine (answers lane) (condition.holdsOrdinary comparator lane) := by
          rw [combinePass, List.zipWith_map_left, List.zipWith_self]
        rw [List.foldl_cons, step, ih]
        rfl
  exact passes filter.conditions fun _ => start

theorem acceptsEach_eq_map (filter : CompiledFilter) (comparator : Comparator)
    (lanes : List Int) :
    filter.acceptsEach comparator lanes = lanes.map (filter.batchAnswer comparator) := by
  unfold acceptsEach batchAnswer
  cases filter.mode <;> cases filter.combinator <;>
    simp only [combinePasses_eq_map]

variable {column : ColumnDescriptor} {pair : SentinelPair} {lane : Int}

/-- A batch answers for a value that is not NULL as the filter does. -/
theorem batchAnswer_eq_accepts {filter : CompiledFilter} (compiledFor : CompiledFor column filter)
    (found : column.logicalType.sentinels? column.width = some pair)
    (unflagged : filter.flagsAllZero = true) (hasLane : column.HasLane lane)
    (notNull : (column.laneSentinels pair).isNull lane = false) :
    filter.batchAnswer column.comparator lane = filter.accepts column.comparator lane false := by
  have wellFormed := LogicalType.wellFormed_of_sentinels? found
  obtain rfl | ⟨combinator, conditions, shape, rfl⟩ := compiledFor.cases found
  · rfl
  have zero : ∀ condition ∈ conditions, condition.flag = 0 := by
    simpa only [flagsAllZero, ofConditions, List.all_eq_true, beq_iff_eq] using unflagged
  have generic : (conditions.map fun condition =>
        condition.holdsOrdinary column.comparator lane) =
      conditions.map fun condition => condition.holds column.comparator lane false :=
    List.map_congr_left fun condition member =>
      Condition.holdsOrdinary_eq_holds (zero condition member)
  have members : (conditions.filter (·.flag == 0)).map Condition.value =
      conditions.map Condition.value := by
    rw [List.filter_eq_self.mpr fun condition member => beq_iff_eq.mpr (zero condition member)]
  have selected := FilterMode.select_spec combinator (conditions.map Condition.operator)
  unfold batchAnswer accepts inArray combineAnswers
  simp only [ofConditions]
  cases mode : FilterMode.select combinator (conditions.map Condition.operator) with
  | alwaysTrue => simp only [mode] at selected
  | single =>
      simp only [mode, List.length_map] at selected
      obtain ⟨condition, rfl⟩ := List.length_eq_one_iff.mp selected
      rw [generic]
      cases combinator <;> simp
  | anyTrue =>
      simp only [mode] at selected
      simp only [selected, generic, foldl_or_eq, Bool.false_or, List.any_map]
      rfl
  | allTrue =>
      simp only [mode] at selected
      simp only [selected, generic, foldl_and_eq, Bool.true_and, List.all_map]
      rfl
  | oddTrue =>
      simp only [mode, List.length_map] at selected
      obtain ⟨notOne, notAnd, notOr⟩ := selected
      have present := List.length_pos_iff.mpr shape.nonempty
      have isXor : combinator = .xor := by
        cases combinator with
        | xor => rfl
        | none => exact absurd rfl (shape.joined (by omega))
        | and => exact absurd rfl notAnd
        | or => exact absurd rfl notOr
      simp only [isXor, generic, List.foldl_map]
  | oneOfArray =>
      simp only [mode, List.mem_map, forall_exists_index, and_imp, forall_apply_eq_imp_iff₂]
        at selected
      have equalities : (conditions.map fun condition =>
            condition.holdsOrdinary column.comparator lane) =
          conditions.map fun condition => column.comparator.equal lane condition.value :=
        List.map_congr_left fun condition member =>
          Condition.holdsOrdinary_of_equal (shape.decoded condition member) wellFormed
            (selected.2 condition member) hasLane notNull
      simp only [selected.1, equalities, foldl_or_eq, Bool.false_or, Bool.false_eq_true,
        ↓reduceIte, FilterMode.isValueList, members, List.any_map]
      rfl
  | noneOfArray =>
      simp only [mode, List.mem_map, forall_exists_index, and_imp, forall_apply_eq_imp_iff₂]
        at selected
      have inequalities : (conditions.map fun condition =>
            condition.holdsOrdinary column.comparator lane) =
          conditions.map fun condition => !column.comparator.equal lane condition.value :=
        List.map_congr_left fun condition member =>
          Condition.holdsOrdinary_of_notEqual (selected.2 condition member)
      simp only [selected.1, inequalities, foldl_and_eq, Bool.true_and, Bool.false_eq_true,
        ↓reduceIte, FilterMode.isValueList, members, List.any_map, List.all_map, Bool.not_false,
        List.not_any_eq_all_not]
      rfl
  | oneOfSet => rfl
  | noneOfSet => rfl

end CompiledFilter

end ColumnScan
