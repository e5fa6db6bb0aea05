import ColumnScan.Command.ColumnCommand
import ColumnScan.Proofs.Scan.Checks

/-!
# The order of predicates

Neither the mode of a filter nor any of its answers depends on the order of its predicates: searches,
conjunctions, disjunctions and parities forget it, and so does the set of listed values. A scan learns
no more of its filter than these answers, and therefore gives the same answer or the same error for
every order.
-/

set_option autoImplicit false

namespace ColumnScan

theorem FilterMode.select_perm (combinator : Combinator) {left right : List Operator}
    (perm : left.Perm right) : select combinator left = select combinator right := by
  simp only [select, perm.length_eq, perm.all_eq]

/-- A set forgets the order of its members, and a search through them does not see it. -/
theorem Comparator.inSet_perm (comparator : Comparator) {left right : List Int}
    (perm : left.Perm right) (lane : Int) :
    comparator.inSet (.ofList left) left lane = comparator.inSet (.ofList right) right lane := by
  have contains : ∀ value : Int,
      (Std.HashSet.ofList left).contains value = (Std.HashSet.ofList right).contains value := by
    intro value
    rw [Std.HashSet.contains_ofList, Std.HashSet.contains_ofList, perm.contains_eq]
  simp only [inSet, contains, perm.any_eq]

/-- Two attempts end alike: with the same error, or with results that agree. -/
inductive SameOutcome {α : Type} (agree : α → α → Prop) :
    Except ScanError α → Except ScanError α → Prop where
  | failed (error : ScanError) : SameOutcome agree (.error error) (.error error)
  | succeeded {first second : α} :
      agree first second → SameOutcome agree (.ok first) (.ok second)

theorem SameOutcome.mono {α : Type} {agree weaker : α → α → Prop}
    (weaken : ∀ first second, agree first second → weaker first second)
    {left right : Except ScanError α} (same : SameOutcome agree left right) :
    SameOutcome weaker left right := by
  cases same with
  | failed error => exact .failed error
  | succeeded agreed => exact .succeeded (weaken _ _ agreed)

theorem SameOutcome.bind {α β : Type} {agree : α → α → Prop} {agreeNext : β → β → Prop}
    {left right : Except ScanError α} {next : α → Except ScanError β}
    (same : SameOutcome agree left right)
    (after : ∀ first second, agree first second →
      SameOutcome agreeNext (next first) (next second)) :
    SameOutcome agreeNext (left >>= next) (right >>= next) := by
  cases same with
  | failed error => exact .failed error
  | succeeded agreed => exact after _ _ agreed

namespace CompiledFilter

/-- Two filters of which a scan learns the same. -/
structure Alike (left right : CompiledFilter) : Prop where
  lanes_eq : left.lanes = right.lanes
  mode_eq : left.mode = right.mode
  flagsAllZero_eq : left.flagsAllZero = right.flagsAllZero
  accepts_eq : left.accepts = right.accepts
  batchAnswer_eq : left.batchAnswer = right.batchAnswer

theorem Alike.refl (filter : CompiledFilter) : Alike filter filter :=
  ⟨rfl, rfl, rfl, rfl, rfl⟩

section Reordered

variable {left right : List Condition} (perm : left.Perm right) (lanes : LaneSize)
  (combinator : Combinator)

include perm

theorem mode_perm :
    (ofConditions lanes combinator left).mode = (ofConditions lanes combinator right).mode :=
  FilterMode.select_perm combinator (perm.map Condition.operator)

theorem members_perm :
    (ofConditions lanes combinator left).members.Perm
      (ofConditions lanes combinator right).members := by
  have mode : FilterMode.select combinator (left.map Condition.operator) =
      FilterMode.select combinator (right.map Condition.operator) := mode_perm perm lanes combinator
  simp only [ofConditions, mode]
  split
  · exact (perm.filter _).map Condition.value
  · exact .refl []

variable (comparator : Comparator) (lane : Int) (isNull : Bool)

theorem inArray_perm :
    (ofConditions lanes combinator left).inArray comparator lane isNull =
      (ofConditions lanes combinator right).inArray comparator lane isNull := by
  have members := members_perm perm lanes combinator
  simp only [inArray, members.contains_eq, members.any_eq]

theorem memberSet_perm :
    (ofConditions lanes combinator left).inSet comparator lane isNull =
      (ofConditions lanes combinator right).inSet comparator lane isNull := by
  have members := members_perm perm lanes combinator
  have built : ∀ conditions : List Condition,
      (ofConditions lanes combinator conditions).memberSet =
        if (ofConditions lanes combinator conditions).mode.isSet then
          some (.ofList (ofConditions lanes combinator conditions).members)
        else none := fun _ => rfl
  unfold inSet
  rw [built, built, mode_perm perm]
  cases (ofConditions lanes combinator right).mode.isSet with
  | false => rfl
  | true =>
      cases isNull with
      | false => exact comparator.inSet_perm members lane
      | true =>
          simp only [↓reduceIte, Std.HashSet.contains_ofList]
          exact members.contains_eq

theorem accepts_perm :
    (ofConditions lanes combinator left).accepts comparator lane isNull =
      (ofConditions lanes combinator right).accepts comparator lane isNull := by
  have selected := FilterMode.select_spec combinator (right.map Condition.operator)
  unfold accepts
  rw [mode_perm perm]
  cases mode : (ofConditions lanes combinator right).mode with
  | alwaysTrue => rfl
  | single =>
      -- A single condition has no other order.
      have mode : FilterMode.select combinator (right.map Condition.operator) = .single := mode
      rw [mode] at selected
      obtain ⟨condition, rfl⟩ := List.length_eq_one_iff.mp ((List.length_map _).symm.trans selected)
      rw [perm.eq_singleton]
  | anyTrue => exact perm.any_eq
  | allTrue => exact perm.all_eq
  | oddTrue =>
      have commutes : ∀ parity first second : Bool,
          ((parity != first) != second) = ((parity != second) != first) := by decide
      exact perm.foldl_eq' (fun _ _ _ _ parity => commutes parity _ _) false
  | oneOfArray | noneOfArray => simp only [inArray_perm perm]
  | oneOfSet | noneOfSet => simp only [memberSet_perm perm]

theorem batchAnswer_perm :
    (ofConditions lanes combinator left).batchAnswer comparator lane =
      (ofConditions lanes combinator right).batchAnswer comparator lane := by
  have combined : ∀ (combine : Bool → Bool → Bool) (start : Bool),
      (∀ answer first second : Bool,
        combine (combine answer first) second = combine (combine answer second) first) →
      (ofConditions lanes combinator left).combineAnswers combine start comparator lane =
        (ofConditions lanes combinator right).combineAnswers combine start comparator lane := by
    intro combine start commutes
    exact (perm.map _).foldl_eq' (fun _ _ _ _ answer => commutes answer _ _) start
  have conjunction := combined (· && ·) true (by decide)
  have disjunction := combined (· || ·) false (by decide)
  have parity := combined (· != ·) false (by decide)
  have sets := memberSet_perm perm lanes combinator comparator lane false
  unfold batchAnswer
  rw [mode_perm perm, sets, conjunction, disjunction, parity]
  rfl

theorem alike_of_perm :
    Alike (ofConditions lanes combinator left) (ofConditions lanes combinator right) where
  lanes_eq := rfl
  mode_eq := mode_perm perm lanes combinator
  flagsAllZero_eq := perm.all_eq
  accepts_eq := by
    funext comparator lane isNull
    exact accepts_perm perm lanes combinator comparator lane isNull
  batchAnswer_eq := by
    funext comparator lane
    exact batchAnswer_perm perm lanes combinator comparator lane

end Reordered

section Scans

variable {left right : CompiledFilter} (alike : Alike left right)

include alike

theorem Alike.matched_eq (view : BlockView) (config : ScanConfig) :
    view.matched left config = view.matched right config := by
  have accepts := alike.accepts_eq
  have batches : Batch.isMatch view left = Batch.isMatch view right := by
    funext candidate
    simp only [Batch.isMatch, accepts, alike.batchAnswer_eq]
  have rows : RowByRow.accepts view left = RowByRow.accepts view right := by
    funext emptyMatches nullMatches candidate
    simp only [RowByRow.accepts, accepts]
  simp only [BlockView.matched, BlockView.matchesOf, alike.flagsAllZero_eq, batches, rows, accepts]

theorem Alike.scanBlock_eq (column : ColumnDescriptor) (block : Array UInt8) (rows : List RowIndex)
    (capacity : Nat) (config : ScanConfig) :
    scanBlock column left block rows capacity config =
      scanBlock column right block rows capacity config := by
  simp only [scanBlock, alike.lanes_eq, BlockView.scan_eq_pushAll, alike.matched_eq]

end Scans

theorem compile_of_unjoined {width : Nat} {logicalType : LogicalType} {pair : SentinelPair}
    (found : logicalType.sentinels? width = some pair) {count : UInt16}
    (several : 1 < count.toNat) (filter : Bytes) :
    compile filter width logicalType count .none =
      .error (.invalidArgument (.missingCombinator count.toNat)) := by
  have counted : count ≠ 0 := by
    rintro rfl
    cases several
  simp only [compile, LogicalType.sentinels_eq_ok_iff.mpr found, bind, Except.bind, counted, several,
    and_self, ↓reduceIte]
  rfl

theorem compile_of_short {width : Nat} {logicalType : LogicalType} {pair : SentinelPair}
    (found : logicalType.sentinels? width = some pair) {count : UInt16} {combinator : Combinator}
    (joined : 1 < count.toNat → combinator ≠ .none) {filter : Bytes}
    (short : filter.length < count.toNat * (recordOverhead + width)) :
    compile filter width logicalType count combinator =
      .error (.malformed (.shortFilter filter.length count.toNat width
        (count.toNat * (recordOverhead + width)))) := by
  have counted : count ≠ 0 := by
    rintro rfl
    rw [UInt16.toNat_zero, Nat.zero_mul] at short
    cases short
  have combined : ¬(1 < count.toNat ∧ combinator = .none) := fun both => joined both.1 both.2
  simp only [compile, LogicalType.sentinels_eq_ok_iff.mpr found, bind, Except.bind, counted,
    combined, short, ↓reduceIte]
  rfl

section Lengths

variable {predicates : List Predicate} {width : Nat}

theorem length_predicateRecords_cons (predicate : Predicate) (rest : List Predicate) :
    (predicateRecords (predicate :: rest)).length =
      recordOverhead + predicate.value.length + (predicateRecords rest).length := by
  simp only [predicateRecords, List.flatMap_cons, List.length_append, Predicate.record,
    List.length_cons, recordOverhead]
  omega

theorem length_predicateRecords_le
    (narrow : ∀ predicate ∈ predicates, predicate.value.length ≤ width) :
    (predicateRecords predicates).length ≤ predicates.length * (recordOverhead + width) := by
  induction predicates with
  | nil => exact Nat.zero_le _
  | cons predicate rest ih =>
      obtain ⟨first, others⟩ := List.forall_mem_cons.mp narrow
      have bound := ih others
      rw [length_predicateRecords_cons, List.length_cons, Nat.succ_mul]
      omega

/-- One value that is too short makes the records too short, as no other is too long. -/
theorem length_predicateRecords_lt
    (narrow : ∀ predicate ∈ predicates, predicate.value.length ≤ width)
    {predicate : Predicate} (member : predicate ∈ predicates)
    (shorter : predicate.value.length < width) :
    (predicateRecords predicates).length < predicates.length * (recordOverhead + width) := by
  induction predicates with
  | nil => cases member
  | cons other rest ih =>
      obtain ⟨first, others⟩ := List.forall_mem_cons.mp narrow
      rw [length_predicateRecords_cons, List.length_cons, Nat.succ_mul]
      rcases List.mem_cons.mp member with rfl | later
      · have bound := length_predicateRecords_le others
        omega
      · have bound := ih others later
        omega

end Lengths

section Compilations

variable {left right : List Predicate} (perm : left.Perm right) {width : Nat}
  (narrow : ∀ predicate ∈ left, predicate.value.length ≤ width) (logicalType : LogicalType)
  (combinator : Combinator)

include perm

theorem compile_perm_of_widths (widths : ∀ predicate ∈ left, predicate.value.length = width)
    {pair : SentinelPair} (found : logicalType.sentinels? width = some pair)
    (countable : left.length < UInt16.size) (joined : 1 < left.length → combinator ≠ .none) :
    SameOutcome Alike
      (compile (predicateRecords left) width logicalType (UInt16.ofNat left.length) combinator)
      (compile (predicateRecords right) width logicalType (UInt16.ofNat right.length)
        combinator) := by
  have length := perm.length_eq
  have otherWidths : ∀ predicate ∈ right, predicate.value.length = width :=
    fun predicate member => widths predicate (perm.mem_iff.mpr member)
  by_cases empty : left = []
  · subst empty
    obtain rfl := perm.nil_eq
    exact compile_zero found ▸ .succeeded (.refl _)
  have others : right ≠ [] := by
    rintro rfl
    exact empty perm.eq_nil
  have first := compile_predicateRecords found empty countable joined widths []
  have second := compile_predicateRecords found others (length ▸ countable) (length ▸ joined)
    otherWidths []
  rw [List.append_nil] at first second
  rw [first, second]
  exact .succeeded (alike_of_perm (perm.map _) _ _)

include narrow

/-- Reordered predicates compile alike, and where they are refused, the error is the same. -/
theorem compile_perm (countable : left.length < UInt16.size) :
    SameOutcome Alike
      (compile (predicateRecords left) width logicalType (UInt16.ofNat left.length) combinator)
      (compile (predicateRecords right) width logicalType (UInt16.ofNat right.length)
        combinator) := by
  have length := perm.length_eq
  have count : (UInt16.ofNat left.length).toNat = left.length :=
    UInt16.toNat_ofNat_of_lt' countable
  cases patterns : logicalType.sentinels width with
  | error error =>
      simp only [compile, patterns, bind, Except.bind]
      exact .failed error
  | ok pair =>
      have found := LogicalType.sentinels_eq_ok_iff.mp patterns
      by_cases joined : 1 < left.length → combinator ≠ .none
      · by_cases widths : ∀ predicate ∈ left, predicate.value.length = width
        · exact compile_perm_of_widths perm logicalType combinator widths found countable joined
        · simp only [Classical.not_forall] at widths
          obtain ⟨predicate, member, other⟩ := widths
          have shorter := Nat.lt_of_le_of_ne (narrow predicate member) other
          have short := length_predicateRecords_lt narrow member shorter
          rw [← count] at short joined
          have records : (predicateRecords left).length = (predicateRecords right).length :=
            (perm.flatMap_right _).length_eq
          rw [← length, compile_of_short found joined short,
            compile_of_short found joined (records ▸ short), records]
          exact .failed _
      · simp only [Classical.not_imp, Decidable.not_not] at joined
        obtain ⟨several, rfl⟩ := joined
        rw [← length, compile_of_unjoined found (count.symm ▸ several),
          compile_of_unjoined found (count.symm ▸ several)]
        exact .failed _

end Compilations

end CompiledFilter

theorem ColumnCommand.build_alike {first second : CompiledFilter}
    (alike : CompiledFilter.Alike first second) (column : ColumnDescriptor) (config : CommandConfig)
    (scanConfig : ScanConfig) :
    SameOutcome (fun left right : ColumnCommand => CompiledFilter.Alike left.filter right.filter)
      (build column first config scanConfig) (build column second config scanConfig) := by
  have lanes := alike.lanes_eq
  by_cases supported : column.isSupported = true
  · by_cases fits : second.lanes = .ofWidth column.width
    · simp only [build, supported, lanes, fits, ↓reduceDIte]
      exact .succeeded alike
    · simp only [build, supported, lanes, fits, ↓reduceDIte]
      exact .failed _
  · simp only [build, supported]
    exact .failed _

/-- Filters of the same mode that no scan tells apart, neither by its answer nor by its error. -/
def ScanAlike (first second : CompiledFilter) : Prop :=
  first.mode = second.mode ∧
    ∀ (column : ColumnDescriptor) (block : Array UInt8) (rows : List RowIndex) (capacity : Nat)
      (config : ScanConfig),
      scanBlock column first block rows capacity config =
        scanBlock column second block rows capacity config

theorem CompiledFilter.Alike.scanAlike {first second : CompiledFilter}
    (alike : Alike first second) : ScanAlike first second :=
  ⟨alike.mode_eq, alike.scanBlock_eq⟩

/-- The order of predicates is irrelevant if none of their values is longer than the column, whatever
joins them: both orders are refused with the same error, or both compile to filters of the same mode
with which all scans agree. Commands, which take lists of any length, do not depend on the order
either. -/
theorem scanBlock_predicate_order (column : ColumnDescriptor) (combinator : Combinator)
    {left right : List Predicate} (perm : left.Perm right)
    (narrow : ∀ predicate ∈ left, predicate.value.length ≤ column.width) :
    (left.length < UInt16.size →
      SameOutcome ScanAlike
        (CompiledFilter.compile (predicateRecords left) column.width column.logicalType
          (UInt16.ofNat left.length) combinator)
        (CompiledFilter.compile (predicateRecords right) column.width column.logicalType
          (UInt16.ofNat right.length) combinator)) ∧
    ∀ (config : CommandConfig) (scanConfig : ScanConfig),
      SameOutcome (fun first second => ScanAlike first.filter second.filter)
        (ColumnCommand.ofPredicates column combinator left config scanConfig)
        (ColumnCommand.ofPredicates column combinator right config scanConfig) := by
  have compiled := CompiledFilter.compile_perm perm narrow column.logicalType combinator
  refine ⟨fun countable => (compiled countable).mono fun _ _ alike => alike.scanAlike, ?_⟩
  intro config scanConfig
  have length := perm.length_eq
  by_cases long : 65535 < left.length
  · have others : 65535 < right.length := length ▸ long
    simp only [ColumnCommand.ofPredicates, others, ↓reduceIte, length]
    exact .failed _
  · have others : ¬65535 < right.length := length ▸ long
    have countable : left.length < UInt16.size := Nat.lt_succ_of_le (Nat.le_of_not_lt long)
    simp only [ColumnCommand.ofPredicates, long, others, ↓reduceIte]
    refine (compiled countable).bind fun first second alike => ?_
    have built := ColumnCommand.build_alike alike column config scanConfig
    exact built.mono fun _ _ alike => alike.scanAlike

theorem scanBlock_predicate_order_xor :
    let column : ColumnDescriptor := { width := 2, logicalType := .smallInt, output := .both }
    let predicates : List Predicate :=
      [{ operator := .less, value := [9, 0] },
        { operator := .equal, flag := 1, value := [5, 0] },
        { operator := .notEqual, value := [0, 0x80] }]
    let block : Array UInt8 := #[5, 0, 0, 0x80, 10, 0]
    ∃ first second,
      CompiledFilter.compile (predicateRecords predicates) 2 .smallInt 3 .xor = .ok first ∧
      CompiledFilter.compile (predicateRecords predicates.reverse) 2 .smallInt 3 .xor =
        .ok second ∧
      first.mode = second.mode ∧
      scanBlock column first block [] 12 {} = scanBlock column second block [] 12 {} := by
  intro column predicates block
  obtain ⟨compiled, _⟩ := scanBlock_predicate_order column .xor
    (List.reverse_perm predicates).symm (by decide)
  have same := compiled (by decide)
  have first : CompiledFilter.compile (predicateRecords predicates) 2 .smallInt 3 .xor = .ok _ := rfl
  have second : CompiledFilter.compile (predicateRecords predicates.reverse) 2 .smallInt 3 .xor =
    .ok _ := rfl
  refine ⟨_, _, first, second, ?_⟩
  cases same with
  | succeeded alike => exact ⟨alike.1, alike.2 column block [] 12 {}⟩

/-- A value that is longer than the column is read as part of the next record. Only one order of
these two predicates finds the value that both of them name. -/
theorem scanBlock_predicate_order_overlong :
    let column : ColumnDescriptor := { width := 1, logicalType := .tinyInt }
    let predicates : List Predicate :=
      [{ operator := .greater, value := [9, 2] }, { operator := .equal, value := [5] }]
    ∃ first second,
      ColumnCommand.ofPredicates column .or predicates {} {} = .ok first ∧
      ColumnCommand.ofPredicates column .or predicates.reverse {} {} = .ok second ∧
      (scanBlock column first.filter #[5] [] 3 {}).map ScanAnswer.matchedRows = .ok 0 ∧
      (scanBlock column second.filter #[5] [] 3 {}).map ScanAnswer.matchedRows = .ok 1 :=
  ⟨_, _, rfl, rfl, rfl, rfl⟩

end ColumnScan
