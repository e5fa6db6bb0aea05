import ColumnScan.Column.Descriptor
import ColumnScan.Filter.Compiled
import ColumnScan.Proofs.Bytes.Cells
import ColumnScan.Proofs.Filter.Lanes
import ColumnScan.Proofs.Sequencing

/-!
# What compilation gives

A successful compilation either has nothing to decode or decodes every record that it was asked
for. The decoded conditions keep two facts of their records: their values are lanes of the column,
and their NULL marks say whether those lanes are NULL.
-/

set_option autoImplicit false

namespace ColumnScan

theorem LogicalType.sentinels_eq_ok_iff {logicalType : LogicalType} {width : Nat}
    {pair : SentinelPair} :
    logicalType.sentinels width = .ok pair ↔ logicalType.sentinels? width = some pair := by
  unfold LogicalType.sentinels
  cases logicalType.sentinels? width with
  | none => simp only [reduceCtorEq]
  | some found => simp only [Except.ok.injEq, Option.some.injEq]

theorem ColumnDescriptor.wellFormed_of_sentinels {column : ColumnDescriptor} {pair : SentinelPair}
    (patterns : column.sentinels = .ok pair) : pair.WellFormed column.width :=
  LogicalType.wellFormed_of_sentinels? (LogicalType.sentinels_eq_ok_iff.mp patterns)

theorem Operator.code_of_ofCode {code : UInt8} {operator : Operator}
    (known : ofCode code = .ok operator) : operator.code = code := by
  unfold ofCode at known
  split at known <;> cases known <;> rfl

/-- A lane that a value of the column can have. -/
def ColumnDescriptor.HasLane (column : ColumnDescriptor) (lane : Int) : Prop :=
  ∃ stored : Bytes, stored.length = column.width ∧ laneOf column.kind stored = lane

def ColumnDescriptor.laneSentinels (column : ColumnDescriptor) (pair : SentinelPair) :
    LaneSentinels :=
  .ofPair column.kind pair

namespace Condition

/-- What a condition keeps of the record that it was decoded from. -/
structure DecodedFor (column : ColumnDescriptor) (pair : SentinelPair) (condition : Condition) :
    Prop where
  hasLane : column.HasLane condition.value
  isNull_eq : condition.isNull = (column.laneSentinels pair).isNull condition.value

theorem decodedFor_of_ofRecord {column : ColumnDescriptor} {pair : SentinelPair} {record : Bytes}
    {condition : Condition} (length : record.length = recordOverhead + column.width)
    (decoded : ofRecord column.kind (column.laneSentinels pair) record = .ok condition) :
    condition.DecodedFor column pair := by
  obtain ⟨operator, _, shape⟩ := bind_eq_ok decoded
  cases shape
  refine ⟨⟨record.drop recordOverhead, ?_, rfl⟩, rfl⟩
  rw [List.length_drop, length, Nat.add_sub_cancel_left]

def ofPredicate (kind : ValueKind) (sentinels : LaneSentinels) (predicate : Predicate) :
    Condition where
  operator := predicate.operator
  flag := predicate.flag
  value := laneOf kind predicate.value
  isNull := sentinels.isNull (laneOf kind predicate.value)

theorem ofRecord_record (kind : ValueKind) (sentinels : LaneSentinels) (predicate : Predicate) :
    ofRecord kind sentinels predicate.record = .ok (ofPredicate kind sentinels predicate) := by
  simp only [ofRecord, Predicate.record, List.headD_cons, Operator.ofCode_code]
  rfl

theorem decodedFor_ofPredicate {column : ColumnDescriptor} (pair : SentinelPair)
    {predicate : Predicate} (length : predicate.value.length = column.width) :
    (ofPredicate column.kind (column.laneSentinels pair) predicate).DecodedFor column pair :=
  ⟨⟨predicate.value, length, rfl⟩, rfl⟩

end Condition

section Records

variable {predicates : List Predicate} {width : Nat}

theorem length_of_mem_records
    (widths : ∀ predicate ∈ predicates, predicate.value.length = width) :
    ∀ piece ∈ predicates.map Predicate.record, piece.length = recordOverhead + width := by
  intro piece member
  obtain ⟨predicate, predicateMember, rfl⟩ := List.mem_map.mp member
  simp only [Predicate.record, List.length_cons, widths predicate predicateMember, recordOverhead]
  omega

theorem length_predicateRecords
    (widths : ∀ predicate ∈ predicates, predicate.value.length = width) :
    (predicateRecords predicates).length = predicates.length * (recordOverhead + width) := by
  rw [predicateRecords, List.flatMap_def, length_flatten_uniform (length_of_mem_records widths),
    List.length_map]

end Records

namespace CompiledFilter

section Compile

variable {filter : Bytes} {width : Nat} {logicalType : LogicalType} {count : UInt16}
  {combinator : Combinator} {pair : SentinelPair} {compiled : CompiledFilter}

def decode (filter : Bytes) (width : Nat) (logicalType : LogicalType) (count : UInt16)
    (pair : SentinelPair) : Except ScanError (List Condition) :=
  let kind := logicalType.kindAt width
  (records filter width count.toNat).mapM (Condition.ofRecord kind (.ofPair kind pair))

theorem compile_zero (found : logicalType.sentinels? width = some pair) :
    compile filter width logicalType 0 combinator = .ok (alwaysTrue width) := by
  unfold compile
  rw [LogicalType.sentinels_eq_ok_iff.mpr found]
  rfl

/-- Once its checks have passed, a compilation fails only for a record that cannot be decoded. -/
theorem compile_eq_decode (found : logicalType.sentinels? width = some pair) (counted : count ≠ 0)
    (joined : 1 < count.toNat → combinator ≠ .none)
    (enough : count.toNat * (recordOverhead + width) ≤ filter.length) :
    compile filter width logicalType count combinator = do
      let conditions ← decode filter width logicalType count pair
      return ofConditions (.ofWidth width) combinator conditions := by
  have combined : ¬(1 < count.toNat ∧ combinator = .none) := fun both => joined both.1 both.2
  unfold compile
  rw [LogicalType.sentinels_eq_ok_iff.mpr found]
  simp only [bind, Except.bind, counted, combined, Nat.not_lt.mpr enough, ↓reduceIte]
  rfl

theorem compile_predicateRecords (found : logicalType.sentinels? width = some pair)
    {predicates : List Predicate} (nonempty : predicates ≠ [])
    (countable : predicates.length < UInt16.size)
    (joined : 1 < predicates.length → combinator ≠ .none)
    (widths : ∀ predicate ∈ predicates, predicate.value.length = width) (rest : Bytes) :
    compile (predicateRecords predicates ++ rest) width logicalType
        (UInt16.ofNat predicates.length) combinator =
      .ok (ofConditions (.ofWidth width) combinator <| predicates.map <|
        Condition.ofPredicate (logicalType.kindAt width)
          (.ofPair (logicalType.kindAt width) pair)) := by
  have count : (UInt16.ofNat predicates.length).toNat = predicates.length :=
    UInt16.toNat_ofNat_of_lt' countable
  have counted : UInt16.ofNat predicates.length ≠ 0 := by
    intro zero
    rw [zero] at count
    exact nonempty (List.length_eq_zero_iff.mp count.symm)
  have enough : (UInt16.ofNat predicates.length).toNat * (recordOverhead + width) ≤
      (predicateRecords predicates ++ rest).length := by
    rw [count, List.length_append, length_predicateRecords widths]
    exact Nat.le_add_right _ _
  have pieces := map_cell_flatten (length_of_mem_records widths) rest
  rw [List.length_map, ← List.flatMap_def] at pieces
  have several : 1 < (UInt16.ofNat predicates.length).toNat → combinator ≠ .none := by
    rwa [count]
  let kind := logicalType.kindAt width
  have decoded : predicates.mapM (Condition.ofRecord kind (.ofPair kind pair) ∘ Predicate.record) =
      .ok (predicates.map (Condition.ofPredicate kind (.ofPair kind pair))) :=
    mapM_eq_ok fun predicate _ => Condition.ofRecord_record _ _ predicate
  rw [compile_eq_decode found counted several enough]
  simp only [decode, records, count, predicateRecords, pieces, List.mapM_map]
  rw [decoded]
  rfl

theorem compile_record_append (found : logicalType.sentinels? width = some pair)
    {predicate : Predicate} (length : predicate.value.length = width) (combinator : Combinator)
    (rest : Bytes) :
    compile (predicate.record ++ rest) width logicalType 1 combinator =
      .ok (ofConditions (.ofWidth width) combinator
        [Condition.ofPredicate (logicalType.kindAt width)
          (.ofPair (logicalType.kindAt width) pair) predicate]) := by
  have single : compile (predicateRecords [predicate] ++ rest) width logicalType 1 combinator = _ :=
    compile_predicateRecords found (List.cons_ne_nil predicate []) (show 1 < UInt16.size by decide)
      (fun several => absurd several (Nat.lt_irrefl 1)) (by simpa using length) rest
  rwa [predicateRecords, List.flatMap_singleton] at single

theorem compile_record (found : logicalType.sentinels? width = some pair) {predicate : Predicate}
    (length : predicate.value.length = width) (combinator : Combinator) :
    compile predicate.record width logicalType 1 combinator =
      .ok (ofConditions (.ofWidth width) combinator
        [Condition.ofPredicate (logicalType.kindAt width)
          (.ofPair (logicalType.kindAt width) pair) predicate]) := by
  rw [← List.append_nil predicate.record]
  exact compile_record_append found length combinator []

/-- Everything that a successful compilation says about its input and its result. -/
theorem compile_eq_ok (succeeded : compile filter width logicalType count combinator =
    .ok compiled) :
    ∃ pair, logicalType.sentinels? width = some pair ∧
      (count = 0 ∧ compiled = alwaysTrue width ∨
        count ≠ 0 ∧ (1 < count.toNat → combinator ≠ .none) ∧
          count.toNat * (recordOverhead + width) ≤ filter.length ∧
          ∃ conditions, decode filter width logicalType count pair = .ok conditions ∧
            compiled = ofConditions (.ofWidth width) combinator conditions) := by
  have unfolded := succeeded
  unfold compile at unfolded
  obtain ⟨pair, patterns, checks⟩ := bind_eq_ok unfolded
  have found := LogicalType.sentinels_eq_ok_iff.mp patterns
  refine ⟨pair, found, ?_⟩
  by_cases counted : count = 0
  · subst counted
    rw [compile_zero found] at succeeded
    cases succeeded
    exact .inl ⟨rfl, rfl⟩
  simp only [counted, ↓reduceIte] at checks
  by_cases unjoined : 1 < count.toNat ∧ combinator = .none
  · rw [if_pos unjoined] at checks
    cases checks
  rw [if_neg unjoined] at checks
  by_cases short : filter.length < count.toNat * (recordOverhead + width)
  · simp only [short, ↓reduceIte] at checks
    cases checks
  have joined : 1 < count.toNat → combinator ≠ .none := fun several same => unjoined ⟨several, same⟩
  rw [compile_eq_decode found counted joined (Nat.le_of_not_lt short)] at succeeded
  obtain ⟨conditions, decoded, shape⟩ := bind_eq_ok succeeded
  cases shape
  exact .inr ⟨counted, joined, Nat.le_of_not_lt short, conditions, decoded, rfl⟩

section Known

/-- The byte at which each of the first `count` records starts is that of an operator. -/
def KnownOperators (filter : Bytes) (width count : Nat) : Prop :=
  ∀ index < count, ∃ operator : Operator,
    filter[index * (recordOverhead + width)]? = some operator.code

theorem head?_cell_record (filter : Bytes) (width index : Nat) :
    (cell filter.toArray (recordOverhead + width) index).head? =
      filter[index * (recordOverhead + width)]? := by
  have positive : recordOverhead + width ≠ 0 := by simp only [recordOverhead]; omega
  rw [cell_eq_take_drop, List.head?_take, if_neg positive, List.head?_drop]

theorem exists_ofRecord_cell_iff {kind : ValueKind} {sentinels : LaneSentinels} {count index : Nat}
    (enough : count * (recordOverhead + width) ≤ filter.length) (inside : index < count) :
    (∃ condition, Condition.ofRecord kind sentinels
        (cell filter.toArray (recordOverhead + width) index) = .ok condition) ↔
      ∃ operator : Operator, filter[index * (recordOverhead + width)]? = some operator.code := by
  have positive : 0 < recordOverhead + width := by simp only [recordOverhead]; omega
  have first := head?_cell_record filter width index
  obtain ⟨byte, found⟩ : ∃ byte, filter[index * (recordOverhead + width)]? = some byte := by
    have before : (index + 1) * (recordOverhead + width) ≤ count * (recordOverhead + width) :=
      Nat.mul_le_mul_right _ inside
    rw [Nat.succ_mul] at before
    exact ⟨_, List.getElem?_eq_getElem (by omega)⟩
  rw [found, Condition.ofRecord, List.headD_eq_head?_getD, first, found, Option.getD_some]
  constructor
  · rintro ⟨condition, decoded⟩
    obtain ⟨operator, known, _⟩ := bind_eq_ok decoded
    exact ⟨operator, congrArg some (Operator.code_of_ofCode known).symm⟩
  · rintro ⟨operator, same⟩
    rw [Option.some.inj same, Operator.ofCode_code]
    exact ⟨_, rfl⟩

/-- If it is given all records, a compilation succeeds exactly if the catalog has the column, the
predicates are joined if there are several, and their operators are known. -/
theorem exists_compile_eq_ok_iff
    (enough : count.toNat * (recordOverhead + width) ≤ filter.length) :
    (∃ compiled, compile filter width logicalType count combinator = .ok compiled) ↔
      (∃ pair, logicalType.sentinels? width = some pair) ∧
        (1 < count.toNat → combinator ≠ .none) ∧ KnownOperators filter width count.toNat := by
  have known : ∀ pair, (∃ conditions, decode filter width logicalType count pair = .ok conditions) ↔
      KnownOperators filter width count.toNat := by
    intro pair
    rw [decode, exists_mapM_eq_ok_iff, records, List.forall_mem_map]
    exact forall_congr' fun index => by
      rw [List.mem_range]
      exact forall_congr' fun inside => exists_ofRecord_cell_iff enough inside
  constructor
  · rintro ⟨compiled, succeeded⟩
    obtain ⟨pair, found, ⟨rfl, _⟩ | ⟨_, joined, _, conditions, decoded, _⟩⟩ :=
      compile_eq_ok succeeded
    · exact ⟨⟨pair, found⟩, nofun, nofun⟩
    · exact ⟨⟨pair, found⟩, joined, (known pair).mp ⟨conditions, decoded⟩⟩
  · rintro ⟨⟨pair, found⟩, joined, operators⟩
    by_cases counted : count = 0
    · subst counted
      exact ⟨_, compile_zero found⟩
    · obtain ⟨conditions, decoded⟩ := (known pair).mpr operators
      rw [compile_eq_decode found counted joined enough, decoded]
      exact ⟨_, rfl⟩

end Known

end Compile

variable {column : ColumnDescriptor} {pair : SentinelPair}

/-- The filter of a list of predicates. -/
def ofPredicates (column : ColumnDescriptor) (pair : SentinelPair) (combinator : Combinator)
    (predicates : List Predicate) : CompiledFilter :=
  ofConditions (.ofWidth column.width) combinator
    (predicates.map (Condition.ofPredicate column.kind (column.laneSentinels pair)))

section Predicates

variable (found : column.logicalType.sentinels? column.width = some pair)
  {predicates : List Predicate} {combinator : Combinator} {filter : CompiledFilter}
  (countable : predicates.length < UInt16.size)
  (widths : ∀ predicate ∈ predicates, predicate.value.length = column.width)

include found countable widths

theorem compile_ofPredicates (nonempty : predicates ≠ [])
    (joined : 1 < predicates.length → combinator ≠ .none) :
    compile (predicateRecords predicates) column.width column.logicalType
        (UInt16.ofNat predicates.length) combinator =
      .ok (ofPredicates column pair combinator predicates) := by
  have compiles := compile_predicateRecords found nonempty countable joined widths []
  rwa [List.append_nil] at compiles

theorem compile_ofPredicates_cases
    (succeeded : compile (predicateRecords predicates) column.width column.logicalType
      (UInt16.ofNat predicates.length) combinator = .ok filter) :
    predicates = [] ∧ filter = alwaysTrue column.width ∨
      predicates ≠ [] ∧ (1 < predicates.length → combinator ≠ .none) ∧
        filter = ofPredicates column pair combinator predicates := by
  by_cases empty : predicates = []
  · subst empty
    exact .inl ⟨rfl, Except.ok.inj (succeeded.symm.trans (compile_zero found))⟩
  have count : (UInt16.ofNat predicates.length).toNat = predicates.length :=
    UInt16.toNat_ofNat_of_lt' countable
  obtain ⟨_, _, ⟨zero, _⟩ | ⟨_, joined, _⟩⟩ := compile_eq_ok succeeded
  · rw [zero] at count
    exact absurd (List.length_eq_zero_iff.mp count.symm) empty
  rw [count] at joined
  have compiles := compile_ofPredicates found countable widths empty joined
  exact .inr ⟨empty, joined, Except.ok.inj (succeeded.symm.trans compiles)⟩

end Predicates

theorem length_record_of_mem {bytes : Bytes} {width count : Nat}
    (enough : count * (recordOverhead + width) ≤ bytes.length) {record : Bytes}
    (member : record ∈ records bytes width count) : record.length = recordOverhead + width := by
  obtain ⟨index, inside, rfl⟩ := List.mem_map.mp member
  exact length_cell (show _ ≤ bytes.toArray.size from enough) (List.mem_range.mp inside)

structure ConditionsFor (column : ColumnDescriptor) (pair : SentinelPair)
    (combinator : Combinator) (conditions : List Condition) : Prop where
  nonempty : conditions ≠ []
  joined : 1 < conditions.length → combinator ≠ .none
  decoded : ∀ condition ∈ conditions, condition.DecodedFor column pair

/-- The filters that scans of a column are given: the one that everything passes, and every result
of compilation for the width and the type of the column. -/
inductive CompiledFor (column : ColumnDescriptor) : CompiledFilter → Prop where
  | alwaysTrue : CompiledFor column (alwaysTrue column.width)
  | compiled {records : Bytes} {count : UInt16} {combinator : Combinator}
      {filter : CompiledFilter} :
      compile records column.width column.logicalType count combinator = .ok filter →
      CompiledFor column filter

theorem conditionsFor_of_decode {records : Bytes} {count : UInt16} {combinator : Combinator}
    {conditions : List Condition} (counted : count ≠ 0)
    (joined : 1 < count.toNat → combinator ≠ .none)
    (enough : count.toNat * (recordOverhead + column.width) ≤ records.length)
    (decoded : decode records column.width column.logicalType count pair = .ok conditions) :
    ConditionsFor column pair combinator conditions := by
  have length : conditions.length = count.toNat := by
    rw [length_of_mapM_eq_ok decoded, CompiledFilter.records, List.length_map, List.length_range]
  refine ⟨?_, ?_, ?_⟩
  · intro empty
    rw [empty, List.length_nil] at length
    exact counted (UInt16.toNat_inj.mp length.symm)
  · rwa [length]
  · intro condition member
    obtain ⟨record, recordMember, ofRecord⟩ := exists_of_mem_of_mapM_eq_ok decoded member
    exact Condition.decodedFor_of_ofRecord (length_record_of_mem enough recordMember) ofRecord

theorem CompiledFor.cases {filter : CompiledFilter} (compiledFor : CompiledFor column filter)
    (found : column.logicalType.sentinels? column.width = some pair) :
    filter = CompiledFilter.alwaysTrue column.width ∨
      ∃ combinator conditions, ConditionsFor column pair combinator conditions ∧
        filter = ofConditions (.ofWidth column.width) combinator conditions := by
  cases compiledFor with
  | alwaysTrue => exact .inl rfl
  | @compiled records count combinator filter succeeded =>
      obtain ⟨other, foundOther, empty | present⟩ := compile_eq_ok succeeded
      · exact .inl empty.2
      obtain ⟨counted, joined, enough, conditions, decoded, rfl⟩ := present
      cases Option.some.inj (found.symm.trans foundOther)
      exact .inr ⟨combinator, conditions, conditionsFor_of_decode counted joined enough decoded, rfl⟩

theorem CompiledFor.lanes_eq {filter : CompiledFilter} (compiledFor : CompiledFor column filter)
    (found : column.logicalType.sentinels? column.width = some pair) :
    filter.lanes = .ofWidth column.width := by
  obtain rfl | ⟨combinator, conditions, _, rfl⟩ := compiledFor.cases found <;> rfl

end CompiledFilter

end ColumnScan
