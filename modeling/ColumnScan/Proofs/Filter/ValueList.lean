import ColumnScan.Proofs.Filter.BatchEvaluation
import ColumnScan.Proofs.Filter.FloatEquality

/-!
# Lists of values

Several equalities joined by OR, or inequalities joined by AND, are evaluated as membership in a
list of values. Except for floats this gives the answers that the predicates give one by one, with
one exception: NULL never passes a list of inequalities, not even if all of its values are NULL.
-/

set_option autoImplicit false

namespace ColumnScan

theorem any_congr_of_mem {α : Type} {items : List α} {left right : α → Bool}
    (agree : ∀ item ∈ items, left item = right item) : items.any left = items.any right := by
  rw [Bool.eq_iff_iff, List.any_eq_true, List.any_eq_true]
  exact exists_congr fun item => and_congr_right fun member => by rw [agree item member]

theorem all_congr_of_mem {α : Type} {items : List α} {left right : α → Bool}
    (agree : ∀ item ∈ items, left item = right item) : items.all left = items.all right := by
  rw [Bool.eq_iff_iff, List.all_eq_true, List.all_eq_true]
  exact forall_congr' fun item => imp_congr_right fun member => by rw [agree item member]

theorem ColumnDescriptor.comparator_kind_ne_float {column : ColumnDescriptor}
    (notFloat : column.kind ≠ .float) : column.comparator.kind ≠ .float := by
  by_cases wide : column.width = 16
  · rw [comparator_of_wide wide]
    exact nofun
  · rwa [comparator_of_narrow wide]

namespace Condition

variable {column : ColumnDescriptor} {pair : SentinelPair} {condition : Condition} {lane : Int}

theorem holds_of_equal (notFloat : column.kind ≠ .float)
    (decoded : condition.DecodedFor column pair) (wellFormed : pair.WellFormed column.width)
    (isEqual : condition.operator = .equal) (hasLane : column.HasLane lane)
    (notNull : (column.laneSentinels pair).isNull lane = false) :
    condition.holds column.comparator lane false =
      (condition.flag == 0 && column.comparator.equal lane condition.value) := by
  by_cases unflagged : condition.flag = 0
  · rw [← holdsOrdinary_eq_holds unflagged,
      holdsOrdinary_of_equal decoded wellFormed isEqual hasLane notNull, unflagged]
    rfl
  · have fails : column.comparator.holds .equal condition.flag lane condition.value = false :=
      Comparator.holds_equal_of_flag (ColumnDescriptor.comparator_kind_ne_float notFloat) unflagged
    have flagged : (condition.flag == 0) = false := beq_eq_false_iff_ne.mpr unflagged
    unfold holds
    rw [isEqual, fails, flagged]
    cases column.comparator.isNullAware <;> simp

theorem holds_of_notEqual (notFloat : column.kind ≠ .float)
    (isNotEqual : condition.operator = .notEqual) :
    condition.holds column.comparator lane false =
      !(condition.flag == 0 && column.comparator.equal lane condition.value) := by
  by_cases unflagged : condition.flag = 0
  · rw [← holdsOrdinary_eq_holds unflagged, holdsOrdinary_of_notEqual isNotEqual, unflagged]
    rfl
  · have passes : column.comparator.holds .notEqual condition.flag lane condition.value = true :=
      Comparator.holds_notEqual_of_flag (ColumnDescriptor.comparator_kind_ne_float notFloat)
        unflagged
    have flagged : (condition.flag == 0) = false := beq_eq_false_iff_ne.mpr unflagged
    unfold holds
    rw [isNotEqual, passes, flagged]
    cases column.comparator.isNullAware <;> cases condition.isNull <;> simp

/-- An equality holds of a NULL if it has no flag and its value is the same NULL. -/
theorem holds_null_of_equal (notFloat : column.kind ≠ .float)
    (decoded : condition.DecodedFor column pair) (wellFormed : pair.WellFormed column.width)
    (isEqual : condition.operator = .equal) (hasLane : column.HasLane lane)
    (isNull : (column.laneSentinels pair).isNull lane = true) :
    condition.holds column.comparator lane true =
      (condition.flag == 0 && lane == condition.value) := by
  cases present : condition.isNull with
  | false =>
      have different : (lane == condition.value) = false := by
        rw [beq_eq_false_iff_ne]
        rintro rfl
        rw [decoded.isNull_eq, isNull] at present
        cases present
      unfold holds
      rw [isEqual, present, different]
      simp
  | true =>
      unfold holds
      rw [isEqual, present]
      cases aware : column.comparator.isNullAware with
      | false => simp [flaggedComparison, Bool.and_comm]
      | true =>
          by_cases unflagged : condition.flag = 0
          · have equal := ColumnDescriptor.comparator_equal_of_isNullAware aware wellFormed hasLane
              decoded.hasLane
            rw [Comparator.equal] at equal
            simp [unflagged, equal]
          · have fails : column.comparator.holds .equal condition.flag lane condition.value =
                false := Comparator.holds_equal_of_flag
              (ColumnDescriptor.comparator_kind_ne_float notFloat) unflagged
            simp [unflagged, fails]

/-- No predicate with a value that is not NULL holds of NULL. -/
theorem holds_null_eq_false (comparator : Comparator) (ordinary : condition.isNull = false) :
    condition.holds comparator lane true = false := by
  unfold holds
  rw [ordinary]
  simp

end Condition

/-- Hashing finds what a search through the members finds, for columns of every kind. -/
theorem ColumnDescriptor.inSet_eq_any {column : ColumnDescriptor} {pair : SentinelPair}
    (wellFormed : pair.WellFormed column.width) {members : List Int}
    (membersLane : ∀ member ∈ members, column.HasLane member) {lane : Int}
    (hasLane : column.HasLane lane) :
    column.comparator.inSet (.ofList members) members lane =
      members.any fun member => column.comparator.equal lane member := by
  have byLane : (∀ member ∈ members, column.comparator.equal lane member = (lane == member)) →
      (Std.HashSet.ofList members).contains lane =
        members.any fun member => column.comparator.equal lane member := by
    intro agree
    rw [Std.HashSet.contains_ofList, List.contains_eq_any_beq]
    exact any_congr_of_mem fun member present => (agree member present).symm
  unfold Comparator.inSet
  cases kind : column.comparator.kind with
  | signed | unsigned =>
      refine byLane fun member present => ?_
      have aware : column.comparator.isNullAware = true := by
        rw [Comparator.isNullAware, kind]
        rfl
      exact comparator_equal_of_isNullAware aware wellFormed hasLane (membersLane member present)
  | float =>
      have fits : ∀ member ∈ members, column.comparator.floatFormat.Fits member :=
        fun member present => (membersLane member present).fits wellFormed kind
      dsimp only
      split
      next noNumber =>
        refine (List.any_eq_false.mpr fun member _ => ?_).symm
        rw [Comparator.equal_of_isNaN kind noNumber]
        exact Bool.false_ne_true
      next number =>
        split
        next zero =>
          rw [any_congr_of_mem fun member present => Comparator.equal_of_magnitude_eq_zero kind
            (fits member present) (beq_iff_eq.mp zero), Std.HashSet.contains_ofList,
            Std.HashSet.contains_ofList, Bool.eq_iff_iff]
          simp only [Bool.or_eq_true, List.contains_iff_mem, List.any_eq_true, beq_iff_eq,
            and_or_left, exists_or, exists_eq_right']
        next nonzero =>
          exact byLane fun member present =>
            Comparator.equal_of_magnitude_ne_zero kind (hasLane.fits wellFormed kind)
              (fits member present) (Bool.eq_false_iff.mpr number) (by simpa using nonzero)
  | text =>
      cases collation : column.comparator.collation with
      | binary =>
          exact byLane fun member present =>
            comparator_equal_of_binary kind collation hasLane (membersLane member present)
      | caseInsensitive => rfl

theorem FilterMode.select_of_equal {operators : List Operator} (several : 1 < operators.length)
    (equalities : ∀ operator ∈ operators, operator = .equal) :
    select .or operators = .oneOfArray ∨ select .or operators = .oneOfSet := by
  have notOne : operators.length ≠ 1 := by omega
  have same : operators.all (· == .equal) = true := by simpa using equalities
  simp only [select, notOne, same, ↓reduceIte]
  split
  · exact .inl rfl
  · exact .inr rfl

theorem FilterMode.select_of_notEqual {operators : List Operator} (several : 1 < operators.length)
    (inequalities : ∀ operator ∈ operators, operator = .notEqual) :
    select .and operators = .noneOfArray ∨ select .and operators = .noneOfSet := by
  have notOne : operators.length ≠ 1 := by omega
  have same : operators.all (· == .notEqual) = true := by simpa using inequalities
  simp only [select, notOne, same, ↓reduceIte]
  split
  · exact .inl rfl
  · exact .inr rfl

namespace CompiledFilter

variable {column : ColumnDescriptor} {pair : SentinelPair} {lane : Int}
  {conditions : List Condition} {lanes : LaneSize} {combinator : Combinator}

def listedValues (conditions : List Condition) : List Int :=
  (conditions.filter (·.flag == 0)).map Condition.value

theorem members_ofConditions
    (listed : (ofConditions lanes combinator conditions).mode.isValueList = true) :
    (ofConditions lanes combinator conditions).members = listedValues conditions :=
  if_pos listed

theorem memberSet_ofConditions
    (hashed : (ofConditions lanes combinator conditions).mode.isSet = true) :
    (ofConditions lanes combinator conditions).memberSet =
      some (.ofList (ofConditions lanes combinator conditions).members) :=
  if_pos hashed

theorem any_listedValues (conditions : List Condition) (test : Int → Bool) :
    (listedValues conditions).any test =
      conditions.any fun condition => condition.flag == 0 && test condition.value := by
  rw [listedValues, List.any_map, List.any_filter]
  rfl

/-- Only the values of predicates without a flag are listed. -/
theorem inArray_ordinary
    (listed : (ofConditions lanes combinator conditions).mode.isValueList = true)
    (comparator : Comparator) (lane : Int) :
    (ofConditions lanes combinator conditions).inArray comparator lane false =
      conditions.any fun condition =>
        condition.flag == 0 && comparator.equal lane condition.value := by
  rw [inArray, members_ofConditions listed, if_neg Bool.false_ne_true]
  exact any_listedValues conditions (comparator.equal lane)

section Lists

variable (wellFormed : pair.WellFormed column.width)
  (decoded : ∀ condition ∈ conditions, condition.DecodedFor column pair)
  (hasLane : column.HasLane lane)

include wellFormed decoded hasLane

theorem inSet_ofConditions (hashed : (ofConditions lanes combinator conditions).mode.isSet = true)
    (isNull : Bool) :
    (ofConditions lanes combinator conditions).inSet column.comparator lane isNull =
      (ofConditions lanes combinator conditions).inArray column.comparator lane isNull := by
  have listed : (ofConditions lanes combinator conditions).mode.isValueList = true := by
    cases mode : (ofConditions lanes combinator conditions).mode <;> rw [mode] at hashed <;>
      first | rfl | cases hashed
  have members := members_ofConditions listed
  have membersLane : ∀ member ∈ listedValues conditions, column.HasLane member := by
    intro member present
    obtain ⟨condition, kept, rfl⟩ := List.mem_map.mp present
    exact (decoded condition (List.mem_filter.mp kept).1).hasLane
  unfold inSet inArray
  rw [memberSet_ofConditions hashed, members]
  cases isNull with
  | true => exact Std.HashSet.contains_ofList
  | false => exact ColumnDescriptor.inSet_eq_any wellFormed membersLane hasLane

variable (several : 1 < conditions.length)

include several

/-- A list of equalities is searched, whether in an array or by hashing. -/
theorem accepts_of_equalities (equalities : ∀ condition ∈ conditions, condition.operator = .equal)
    (isNull : Bool) :
    (ofConditions lanes .or conditions).mode.isValueList = true ∧
      (ofConditions lanes .or conditions).accepts column.comparator lane isNull =
        (ofConditions lanes .or conditions).inArray column.comparator lane isNull := by
  have modes : (ofConditions lanes .or conditions).mode = .oneOfArray ∨
      (ofConditions lanes .or conditions).mode = .oneOfSet :=
    FilterMode.select_of_equal (by rwa [List.length_map]) (by simpa using equalities)
  rcases modes with array | set
  · exact ⟨by rw [array]; rfl, by simp only [accepts, array]⟩
  · refine ⟨by rw [set]; rfl, ?_⟩
    simp only [accepts, set]
    exact inSet_ofConditions wellFormed decoded hasLane (by rw [set]; rfl) isNull

/-- A list of inequalities is searched too, but not for NULL. -/
theorem accepts_of_inequalities
    (inequalities : ∀ condition ∈ conditions, condition.operator = .notEqual) (isNull : Bool) :
    (ofConditions lanes .and conditions).mode.isValueList = true ∧
      (ofConditions lanes .and conditions).accepts column.comparator lane isNull =
        (!isNull && !(ofConditions lanes .and conditions).inArray column.comparator lane false) := by
  have modes : (ofConditions lanes .and conditions).mode = .noneOfArray ∨
      (ofConditions lanes .and conditions).mode = .noneOfSet :=
    FilterMode.select_of_notEqual (by rwa [List.length_map]) (by simpa using inequalities)
  rcases modes with array | set
  · exact ⟨by rw [array]; rfl, by simp only [accepts, array]⟩
  · refine ⟨by rw [set]; rfl, ?_⟩
    simp only [accepts, set]
    rw [inSet_ofConditions wellFormed decoded hasLane (by rw [set]; rfl) false]

variable (notFloat : column.kind ≠ .float)

include notFloat

/-- A list of equalities accepts what one of them accepts. -/
theorem accepts_ofConditions_of_equal
    (equalities : ∀ condition ∈ conditions, condition.operator = .equal) {isNull : Bool}
    (classified : (column.laneSentinels pair).isNull lane = isNull) :
    (ofConditions lanes .or conditions).accepts column.comparator lane isNull =
      conditions.any fun condition => condition.holds column.comparator lane isNull := by
  obtain ⟨listed, searched⟩ :=
    accepts_of_equalities wellFormed decoded hasLane several equalities isNull
  rw [searched]
  cases isNull with
  | false =>
      rw [inArray_ordinary listed]
      refine any_congr_of_mem fun condition member => ?_
      exact (Condition.holds_of_equal notFloat (decoded condition member) wellFormed
        (equalities condition member) hasLane classified).symm
  | true =>
      rw [inArray, members_ofConditions listed]
      simp only [↓reduceIte, List.contains_eq_any_beq, any_listedValues]
      refine any_congr_of_mem fun condition member => ?_
      exact (Condition.holds_null_of_equal notFloat (decoded condition member) wellFormed
        (equalities condition member) hasLane classified).symm

/-- A list of inequalities accepts what all of them accept, but never NULL. -/
theorem accepts_ofConditions_of_notEqual
    (inequalities : ∀ condition ∈ conditions, condition.operator = .notEqual) {isNull : Bool}
    (present : isNull = true → ∃ condition ∈ conditions, condition.isNull = false) :
    (ofConditions lanes .and conditions).accepts column.comparator lane isNull =
      conditions.all fun condition => condition.holds column.comparator lane isNull := by
  obtain ⟨listed, searched⟩ :=
    accepts_of_inequalities wellFormed decoded hasLane several inequalities isNull
  rw [searched]
  cases isNull with
  | false =>
      simp only [inArray_ordinary listed, Bool.not_false, Bool.true_and, List.not_any_eq_all_not]
      refine all_congr_of_mem fun condition member => ?_
      exact (Condition.holds_of_notEqual notFloat (inequalities condition member)).symm
  | true =>
      -- The list rejects NULL without a look at its values; one ordinary value rejects it as well.
      obtain ⟨condition, member, notNull⟩ := present rfl
      rw [Bool.not_true, Bool.false_and, eq_comm, List.all_eq_false]
      refine ⟨condition, member, ?_⟩
      rw [Condition.holds_null_eq_false column.comparator notNull]
      exact Bool.false_ne_true

end Lists

def FormsValueList (combinator : Combinator) (predicates : List Predicate) : Prop :=
  combinator = .or ∧ (∀ predicate ∈ predicates, predicate.operator = .equal) ∨
    combinator = .and ∧ ∀ predicate ∈ predicates, predicate.operator = .notEqual

theorem FormsValueList.isValueList {predicates : List Predicate}
    (forms : FormsValueList combinator predicates) (several : 1 < predicates.length) :
    (FilterMode.select combinator (predicates.map Predicate.operator)).isValueList = true := by
  have many : 1 < (predicates.map Predicate.operator).length := by rwa [List.length_map]
  rcases forms with ⟨rfl, equalities⟩ | ⟨rfl, inequalities⟩
  · rcases FilterMode.select_of_equal many (by simpa using equalities) with mode | mode <;>
      rw [mode] <;> rfl
  · rcases FilterMode.select_of_notEqual many (by simpa using inequalities) with mode | mode <;>
      rw [mode] <;> rfl

/-- Only several predicates that form a list of values are evaluated as one. -/
theorem isValueList_ofPredicates {predicates : List Predicate} (nonempty : predicates ≠ [])
    (listed : (ofPredicates column pair combinator predicates).mode.isValueList = true) :
    1 < predicates.length ∧ FormsValueList combinator predicates := by
  have operators : (predicates.map
      (Condition.ofPredicate column.kind (column.laneSentinels pair))).map Condition.operator =
        predicates.map Predicate.operator := List.map_map
  rw [ofPredicates, ofConditions, operators] at listed
  have spec := FilterMode.select_spec combinator (predicates.map Predicate.operator)
  have several : 1 < predicates.length := by
    refine Nat.lt_of_le_of_ne (List.length_pos_iff.mpr nonempty) fun one => ?_
    rw [FilterMode.select, if_pos (by rw [List.length_map, ← one])] at listed
    cases listed
  refine ⟨several, ?_⟩
  cases mode : FilterMode.select combinator (predicates.map Predicate.operator) <;>
    rw [mode] at listed spec <;>
    first
    | contradiction
    | exact .inl ⟨spec.1, List.forall_mem_map.mp spec.2⟩
    | exact .inr ⟨spec.1, List.forall_mem_map.mp spec.2⟩

/-- Predicates that form no list of values go by their operators and by their answers. -/
theorem accepts_ofPredicates_congr {left right : List Predicate} {isNull : Bool}
    (nonempty : left ≠ []) (evaluated : ¬(1 < left.length ∧ FormsValueList combinator left))
    (operators : left.map Predicate.operator = right.map Predicate.operator)
    (answers : (left.map fun predicate => (Condition.ofPredicate column.kind
        (column.laneSentinels pair) predicate).holds column.comparator lane isNull) =
      right.map fun predicate => (Condition.ofPredicate column.kind
        (column.laneSentinels pair) predicate).holds column.comparator lane isNull) :
    (ofPredicates column pair combinator left).accepts column.comparator lane isNull =
      (ofPredicates column pair combinator right).accepts column.comparator lane isNull := by
  refine accepts_congr_of_answers ?_ ?_ (Bool.eq_false_iff.mpr fun listed => ?_)
  · rw [List.map_map, List.map_map]
    exact operators
  · rw [List.map_map, List.map_map]
    exact answers
  · exact evaluated (isValueList_ofPredicates nonempty listed)

end CompiledFilter

/-- Whether a stored value equals the value of a predicate. -/
def ColumnDescriptor.equals (column : ColumnDescriptor) (stored : Bytes) (predicate : Predicate) :
    Bool :=
  column.comparator.equal (laneOf column.kind stored) (laneOf column.kind predicate.value)

/-- Whether a stored value equals that of a predicate without a flag. -/
def ColumnDescriptor.equalsListed (column : ColumnDescriptor) (predicates : List Predicate)
    (stored : Bytes) : Bool :=
  predicates.any fun predicate => predicate.flag == 0 && column.equals stored predicate

namespace CompiledFilter

variable {column : ColumnDescriptor} {pair : SentinelPair} {predicates : List Predicate}
  {combinator : Combinator}

/-! A list of predicates that forms a list of values compares a value with those that have no flag. -/

section ValueLists

variable (wellFormed : pair.WellFormed column.width)
  (widths : ∀ predicate ∈ predicates, predicate.value.length = column.width)
  (several : 1 < predicates.length) {stored : Bytes} (length : stored.length = column.width)

include wellFormed widths several length

theorem accepts_equalities (equalities : ∀ predicate ∈ predicates, predicate.operator = .equal) :
    (ofPredicates column pair .or predicates).accepts column.comparator
        (laneOf column.kind stored) false = column.equalsListed predicates stored := by
  have decoded : ∀ condition ∈ predicates.map
      (Condition.ofPredicate column.kind (column.laneSentinels pair)),
      condition.DecodedFor column pair :=
    List.forall_mem_map.mpr fun predicate member =>
      Condition.decodedFor_ofPredicate pair (widths predicate member)
  obtain ⟨listed, searched⟩ := accepts_of_equalities wellFormed decoded ⟨stored, length, rfl⟩
    (by rwa [List.length_map]) (List.forall_mem_map.mpr equalities) false
  rw [ofPredicates, searched, inArray_ordinary listed, List.any_map]
  rfl

theorem accepts_inequalities
    (inequalities : ∀ predicate ∈ predicates, predicate.operator = .notEqual) (isNull : Bool) :
    (ofPredicates column pair .and predicates).accepts column.comparator
        (laneOf column.kind stored) isNull =
      (!isNull && !column.equalsListed predicates stored) := by
  have decoded : ∀ condition ∈ predicates.map
      (Condition.ofPredicate column.kind (column.laneSentinels pair)),
      condition.DecodedFor column pair :=
    List.forall_mem_map.mpr fun predicate member =>
      Condition.decodedFor_ofPredicate pair (widths predicate member)
  obtain ⟨listed, searched⟩ := accepts_of_inequalities wellFormed decoded ⟨stored, length, rfl⟩
    (by rwa [List.length_map]) (List.forall_mem_map.mpr inequalities) isNull
  rw [ofPredicates, searched, inArray_ordinary listed, List.any_map]
  rfl

end ValueLists

/-- A list of values gives the answer that its predicates give one by one, joined by OR or AND. For
NULL and AND this needs a value that is not NULL. -/
theorem valueList_exact (notFloat : column.kind ≠ .float) (patterns : column.sentinels = .ok pair)
    {predicates : List Predicate} (several : 1 < predicates.length)
    (countable : predicates.length < UInt16.size)
    (widths : ∀ predicate ∈ predicates, predicate.value.length = column.width)
    (forms : FormsValueList combinator predicates) (unused : Combinator) :
    ∃ (promoted : CompiledFilter) (alone : Predicate → CompiledFilter),
      compile (predicateRecords predicates) column.width column.logicalType
          (UInt16.ofNat predicates.length) combinator = .ok promoted ∧
      promoted.mode.isValueList = true ∧
      (∀ predicate ∈ predicates, compile predicate.record column.width column.logicalType 1
        unused = .ok (alone predicate)) ∧
      ∀ stored : Bytes, stored.length = column.width →
        let lane := laneOf column.kind stored
        let isNull := pair.isNull (LittleEndian.natValue stored)
        (combinator = .or →
          promoted.accepts column.comparator lane isNull = predicates.any fun predicate =>
            (alone predicate).accepts column.comparator lane isNull) ∧
        (combinator = .and →
          (isNull = true → ∃ predicate ∈ predicates,
            pair.isNull (LittleEndian.natValue predicate.value) = false) →
          promoted.accepts column.comparator lane isNull = predicates.all fun predicate =>
            (alone predicate).accepts column.comparator lane isNull) := by
  have found := LogicalType.sentinels_eq_ok_iff.mp patterns
  have wellFormed := LogicalType.wellFormed_of_sentinels? found
  let conditionOf := Condition.ofPredicate column.kind (column.laneSentinels pair)
  have nonempty : predicates ≠ [] := by
    rintro rfl
    cases several
  have joined : combinator ≠ .none := by
    rintro rfl
    rcases forms with ⟨equal, _⟩ | ⟨equal, _⟩ <;> cases equal
  have compiled := compile_predicateRecords found nonempty countable (fun _ => joined) widths []
  rw [List.append_nil] at compiled
  refine ⟨ofConditions (.ofWidth column.width) combinator (predicates.map conditionOf),
    fun predicate => ofConditions (.ofWidth column.width) unused [conditionOf predicate],
    compiled, ?_, fun predicate member => compile_record found (widths predicate member) unused, ?_⟩
  · have operators : (predicates.map conditionOf).map Condition.operator =
        predicates.map Predicate.operator := List.map_map
    rw [ofConditions, operators]
    exact forms.isValueList several
  intro stored length lane isNull
  have hasLane : column.HasLane lane := ⟨stored, length, rfl⟩
  have classified : (column.laneSentinels pair).isNull lane = isNull :=
    LaneSentinels.isNull_ofPair wellFormed length
  have decoded : ∀ condition ∈ predicates.map conditionOf, condition.DecodedFor column pair := by
    intro condition member
    obtain ⟨predicate, present, rfl⟩ := List.mem_map.mp member
    exact Condition.decodedFor_ofPredicate pair (widths predicate present)
  have many : 1 < (predicates.map conditionOf).length := by rwa [List.length_map]
  rcases forms with ⟨rfl, equalities⟩ | ⟨rfl, inequalities⟩
  · refine ⟨fun _ => ?_, fun unequal => absurd unequal (by decide)⟩
    rw [accepts_ofConditions_of_equal wellFormed decoded hasLane many notFloat
      (by simpa [conditionOf, Condition.ofPredicate] using equalities) classified, List.any_map]
    rfl
  · refine ⟨fun unequal => absurd unequal (by decide), fun _ present => ?_⟩
    have notNull : isNull = true →
        ∃ condition ∈ predicates.map conditionOf, condition.isNull = false := by
      intro null
      obtain ⟨predicate, member, ordinary⟩ := present null
      refine ⟨conditionOf predicate, List.mem_map_of_mem member, ?_⟩
      exact (LaneSentinels.isNull_ofPair wellFormed (widths predicate member)).trans ordinary
    rw [accepts_ofConditions_of_notEqual wellFormed decoded hasLane many notFloat
      (by simpa [conditionOf, Condition.ofPredicate] using inequalities) notNull, List.all_map]
    rfl

theorem valueList_exact_tinyInt :
    let column : ColumnDescriptor := { width := 1, logicalType := .tinyInt }
    let predicates : List Predicate :=
      [{ operator := .notEqual, value := [5] }, { operator := .notEqual, flag := 1, value := [0x80] }]
    ∃ (promoted : CompiledFilter) (alone : Predicate → CompiledFilter),
      compile (predicateRecords predicates) 1 .tinyInt 2 .and = .ok promoted ∧
      (∀ predicate ∈ predicates, compile predicate.record 1 .tinyInt 1 .none =
        .ok (alone predicate)) ∧
      promoted.accepts column.comparator (laneOf column.kind [0x80]) true =
        predicates.all fun predicate =>
          (alone predicate).accepts column.comparator (laneOf column.kind [0x80]) true := by
  intro column predicates
  obtain ⟨promoted, alone, compiled, _, single, answers⟩ :=
    valueList_exact (show column.kind ≠ .float by decide) (show column.sentinels = .ok _ from rfl)
      (show 1 < predicates.length by decide) (by decide) (by decide)
      (show FormsValueList .and predicates from .inr ⟨rfl, by decide⟩) .none
  refine ⟨promoted, alone, compiled, single, ?_⟩
  exact (answers [0x80] rfl).2 rfl fun _ => ⟨_, List.mem_cons_self, by decide⟩

end CompiledFilter

end ColumnScan
