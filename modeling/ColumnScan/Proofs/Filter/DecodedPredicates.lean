import ColumnScan.Proofs.Filter.ValueList

/-!
# What a compiled filter keeps of its predicates

A compilation is refused for one of four reasons, and the last of them names the first operator that is
unknown. Otherwise the filter keeps every predicate, in order: its operator, its flag and the integer
of its value. The mode follows from the operators by a table, and the modes that test membership keep
the values of the predicates without a flag once more.
-/

set_option autoImplicit false

namespace ColumnScan

namespace FilterMode

/-- The table of modes, for the operators of a filter and the combinator that joins them. -/
inductive Tabulated (combinator : Combinator) (operators : List Operator) : FilterMode → Prop where
  | alwaysTrue : operators.length = 0 → Tabulated combinator operators .alwaysTrue
  | single : operators.length = 1 → Tabulated combinator operators .single
  | oneOfArray : 1 < operators.length → combinator = .or →
      (∀ operator ∈ operators, operator = .equal) → operators.length ≤ 8 →
      Tabulated combinator operators .oneOfArray
  | oneOfSet : 1 < operators.length → combinator = .or →
      (∀ operator ∈ operators, operator = .equal) → 8 < operators.length →
      Tabulated combinator operators .oneOfSet
  | noneOfArray : 1 < operators.length → combinator = .and →
      (∀ operator ∈ operators, operator = .notEqual) → operators.length ≤ 8 →
      Tabulated combinator operators .noneOfArray
  | noneOfSet : 1 < operators.length → combinator = .and →
      (∀ operator ∈ operators, operator = .notEqual) → 8 < operators.length →
      Tabulated combinator operators .noneOfSet
  | anyTrue : 1 < operators.length → combinator = .or →
      ¬(∀ operator ∈ operators, operator = .equal) → Tabulated combinator operators .anyTrue
  | allTrue : 1 < operators.length → combinator = .and →
      ¬(∀ operator ∈ operators, operator = .notEqual) → Tabulated combinator operators .allTrue
  | oddTrue : 1 < operators.length → combinator = .xor → Tabulated combinator operators .oddTrue

variable {combinator : Combinator} {operators : List Operator}

theorem tabulated_select (nonempty : operators ≠ [])
    (joined : 1 < operators.length → combinator ≠ .none) :
    Tabulated combinator operators (select combinator operators) := by
  by_cases one : operators.length = 1
  · rw [select, if_pos one]
    exact .single one
  have several : 1 < operators.length := by
    have present := List.length_pos_iff.mpr nonempty
    omega
  cases combinator with
  | none => exact absurd rfl (joined several)
  | xor =>
      simp only [select, one, ↓reduceIte]
      exact .oddTrue several rfl
  | or =>
      by_cases same : ∀ operator ∈ operators, operator = .equal
      · have all : operators.all (· == .equal) = true := by simpa using same
        by_cases short : operators.length ≤ 8
        · simp only [select, one, all, short, ↓reduceIte, maxArrayLength]
          exact .oneOfArray several rfl same short
        · simp only [select, one, all, short, ↓reduceIte, maxArrayLength]
          exact .oneOfSet several rfl same (Nat.lt_of_not_le short)
      · have mixed : ¬operators.all (· == .equal) = true := by simpa using same
        simp only [select, one, mixed, ↓reduceIte]
        exact .anyTrue several rfl same
  | and =>
      by_cases same : ∀ operator ∈ operators, operator = .notEqual
      · have all : operators.all (· == .notEqual) = true := by simpa using same
        by_cases short : operators.length ≤ 8
        · simp only [select, one, all, short, ↓reduceIte, maxArrayLength]
          exact .noneOfArray several rfl same short
        · simp only [select, one, all, short, ↓reduceIte, maxArrayLength]
          exact .noneOfSet several rfl same (Nat.lt_of_not_le short)
      · have mixed : ¬operators.all (· == .notEqual) = true := by simpa using same
        simp only [select, one, mixed, ↓reduceIte]
        exact .allTrue several rfl same

theorem Tabulated.select_eq {mode : FilterMode} (nonempty : operators ≠ [])
    (row : Tabulated combinator operators mode) : select combinator operators = mode := by
  have notOne : 1 < operators.length → operators.length ≠ 1 := Nat.ne_of_gt
  cases row with
  | alwaysTrue none => exact absurd (List.length_eq_zero_iff.mp none) nonempty
  | single one => rw [select, if_pos one]
  | oneOfArray several joined same short =>
      have all : operators.all (· == .equal) = true := by simpa using same
      simp only [select, notOne several, joined, all, short, ↓reduceIte, maxArrayLength]
  | oneOfSet several joined same long =>
      have all : operators.all (· == .equal) = true := by simpa using same
      simp only [select, notOne several, joined, all, Nat.not_le_of_lt long, ↓reduceIte,
        maxArrayLength]
  | noneOfArray several joined same short =>
      have all : operators.all (· == .notEqual) = true := by simpa using same
      simp only [select, notOne several, joined, all, short, ↓reduceIte, maxArrayLength]
  | noneOfSet several joined same long =>
      have all : operators.all (· == .notEqual) = true := by simpa using same
      simp only [select, notOne several, joined, all, Nat.not_le_of_lt long, ↓reduceIte,
        maxArrayLength]
  | anyTrue several joined mixed =>
      have notAll : ¬operators.all (· == .equal) = true := by simpa using mixed
      simp only [select, notOne several, joined, notAll, Bool.false_eq_true, ↓reduceIte]
  | allTrue several joined mixed =>
      have notAll : ¬operators.all (· == .notEqual) = true := by simpa using mixed
      simp only [select, notOne several, joined, notAll, Bool.false_eq_true, ↓reduceIte]
  | oddTrue several joined => simp only [select, notOne several, joined, ↓reduceIte]

/-- The table has exactly one mode for every list of operators that is joined. -/
theorem tabulated_iff {mode : FilterMode} (nonempty : operators ≠ [])
    (joined : 1 < operators.length → combinator ≠ .none) :
    Tabulated combinator operators mode ↔ select combinator operators = mode := by
  constructor
  · exact Tabulated.select_eq nonempty
  · rintro rfl
    exact tabulated_select nonempty joined

end FilterMode

theorem Operator.ofCode_eq_error {byte : UInt8}
    (unknown : ∀ operator : Operator, operator.code ≠ byte) :
    Operator.ofCode byte = .error (.unknownOperator byte) := by
  cases read : Operator.ofCode byte with
  | ok operator => exact absurd (Operator.code_of_ofCode read) (unknown operator)
  | error error =>
      unfold Operator.ofCode at read
      split at read <;> cases read
      rfl

namespace CompiledFilter

section Records

variable {filter : Bytes} {width : Nat}

/-- The operator byte of a record is unknown, and those of all records before it are known. -/
def FirstUnknown (filter : Bytes) (width index : Nat) (byte : UInt8) : Prop :=
  filter[index * (recordOverhead + width)]? = some byte ∧
    (∀ operator : Operator, operator.code ≠ byte) ∧ KnownOperators filter width index

theorem exists_firstUnknown {count : Nat}
    (enough : count * (recordOverhead + width) ≤ filter.length)
    (unknown : ¬KnownOperators filter width count) :
    ∃ index < count, ∃ byte, FirstUnknown filter width index byte := by
  induction count with
  | zero => exact absurd nofun unknown
  | succ count ih =>
      rw [Nat.succ_mul] at enough
      by_cases known : KnownOperators filter width count
      · have inside : count * (recordOverhead + width) < filter.length := by
          simp only [recordOverhead] at enough ⊢
          omega
        refine ⟨count, Nat.lt_succ_self count, _, List.getElem?_eq_getElem inside, ?_, known⟩
        intro operator same
        apply unknown
        intro index below
        rcases Nat.lt_succ_iff_lt_or_eq.mp below with earlier | rfl
        · exact known index earlier
        · exact ⟨operator, same ▸ List.getElem?_eq_getElem inside⟩
      · obtain ⟨index, inside, byte, first⟩ := ih (by omega) known
        exact ⟨index, Nat.lt_succ_of_lt inside, byte, first⟩

theorem decode_eq_error {logicalType : LogicalType} {count : UInt16} (pair : SentinelPair)
    (enough : count.toNat * (recordOverhead + width) ≤ filter.length) {index : Nat}
    (inside : index < count.toNat) {byte : UInt8} (first : FirstUnknown filter width index byte) :
    decode filter width logicalType count pair = .error (.unknownOperator byte) := by
  obtain ⟨found, unknown, known⟩ := first
  have length : (records filter width count.toNat).length = count.toNat := by
    rw [records, List.length_map, List.length_range]
  have record : ∀ (position : Nat) (below : position < (records filter width count.toNat).length),
      (records filter width count.toNat)[position] =
        cell filter.toArray (recordOverhead + width) position := by
    intro position below
    simp only [records, List.getElem_map, List.getElem_range]
  unfold decode
  apply mapM_eq_error (length.symm ▸ inside)
  · intro earlier before
    rw [record]
    have below := Nat.lt_trans before inside
    exact (exists_ofRecord_cell_iff enough below).mpr (known earlier before)
  · rw [record, Condition.ofRecord, List.headD_eq_head?_getD, head?_cell_record, found,
      Option.getD_some, Operator.ofCode_eq_error unknown]
    rfl

end Records

end CompiledFilter

/-- The integer that a filter keeps of a value: the number of its bytes for unsigned types below eight
bytes, and their two's-complement integer otherwise. -/
def LogicalType.integerOf (logicalType : LogicalType) (value : Bytes) : Int :=
  if logicalType.kind = .unsigned ∧ value.length < 8 then LittleEndian.natValue value
  else LittleEndian.intValue value

theorem laneOf_eq_integerOf {logicalType : LogicalType} {width : Nat} {value : Bytes}
    (length : value.length = width) :
    laneOf (logicalType.kindAt width) value = logicalType.integerOf value := by
  rw [laneOf_eq, LogicalType.integerOf, LogicalType.kindAt]
  by_cases short : value.length < 8
  · have narrow : ¬(logicalType.kind = .unsigned ∧ width = 16) := by
      rintro ⟨_, wide⟩
      omega
    rw [if_neg narrow]
  · simp only [short, and_false, ↓reduceIte]

/-- What a filter keeps of the predicates of a column `width` bytes wide. An unsigned value of less than
sixteen bytes is kept as a 64-bit word that reads as its number. -/
structure CompiledFilter.Keeps (logicalType : LogicalType) (width : Nat) (pair : SentinelPair)
    (combinator : Combinator) (predicates : List Predicate) (filter : CompiledFilter) : Prop where
  operators : filter.conditions.map Condition.operator = predicates.map Predicate.operator
  flags : filter.conditions.map Condition.flag = predicates.map Predicate.flag
  values : filter.conditions.map Condition.value =
    predicates.map fun predicate => logicalType.integerOf predicate.value
  words : logicalType.kind = .unsigned → width < 16 →
    (filter.conditions.map fun condition => unsignedLane condition.value) =
      predicates.map fun predicate => (LittleEndian.natValue predicate.value : Int)
  nulls : filter.conditions.map Condition.isNull =
    predicates.map fun predicate => pair.isNull (LittleEndian.natValue predicate.value)
  mode : ∀ mode, FilterMode.Tabulated combinator (predicates.map Predicate.operator) mode ↔
    filter.mode = mode
  members : filter.members =
    if filter.mode.isValueList then
      (predicates.filter (·.flag == 0)).map fun predicate => logicalType.integerOf predicate.value
    else []
  hashed : filter.memberSet.isSome = filter.mode.isSet
  set : ∀ set ∈ filter.memberSet, ∀ value, value ∈ set ↔ value ∈ filter.members

namespace CompiledFilter

section Keeps

variable {logicalType : LogicalType} {width : Nat} {pair : SentinelPair} {combinator : Combinator}
  {predicates : List Predicate}

theorem keeps_ofConditions (found : logicalType.sentinels? width = some pair)
    (nonempty : predicates ≠ []) (joined : 1 < predicates.length → combinator ≠ .none)
    (widths : ∀ predicate ∈ predicates, predicate.value.length = width) :
    Keeps logicalType width pair combinator predicates
      (ofConditions (.ofWidth width) combinator <| predicates.map <|
        Condition.ofPredicate (logicalType.kindAt width)
          (.ofPair (logicalType.kindAt width) pair)) := by
  have wellFormed := LogicalType.wellFormed_of_sentinels? found
  have integers : ∀ kept : List Predicate, (∀ predicate ∈ kept, predicate ∈ predicates) →
      (kept.map fun predicate => laneOf (logicalType.kindAt width) predicate.value) =
        kept.map fun predicate => logicalType.integerOf predicate.value := by
    intro kept given
    exact List.map_congr_left fun predicate member =>
      laneOf_eq_integerOf (widths predicate (given predicate member))
  constructor
  case operators => exact List.map_map
  case flags => exact List.map_map
  case values => exact List.map_map.trans (integers predicates fun _ member => member)
  case words =>
    intro unsigned narrow
    have layout := wellFormed.width_mem
    simp only [List.mem_cons, List.not_mem_nil, or_false] at layout
    have short : width ≤ 8 := by omega
    have kind : logicalType.kindAt width = .unsigned := by
      rw [LogicalType.kindAt, if_neg (fun both => absurd both.2 (by omega)), unsigned]
    simp only [ofConditions, List.map_map, kind]
    exact List.map_congr_left fun predicate member =>
      unsignedLane_laneOf (widths predicate member ▸ short)
  case nulls =>
    refine List.map_map.trans (List.map_congr_left fun predicate member => ?_)
    exact LaneSentinels.isNull_ofPair wellFormed (widths predicate member)
  case mode =>
    intro mode
    have operators : (predicates.map (Condition.ofPredicate (logicalType.kindAt width)
        (.ofPair (logicalType.kindAt width) pair))).map Condition.operator =
          predicates.map Predicate.operator := List.map_map
    simp only [ofConditions, operators]
    apply FilterMode.tabulated_iff
    · exact fun none => nonempty (List.map_eq_nil_iff.mp none)
    · rwa [List.length_map]
  case members =>
    have listed := integers (predicates.filter (·.flag == 0)) fun _ member =>
      (List.mem_filter.mp member).1
    rw [← listed]
    simp only [ofConditions, List.filter_map, List.map_map]
    rfl
  case hashed =>
    simp only [ofConditions]
    split
    next isSet => exact isSet.symm
    next notSet => exact (Bool.eq_false_iff.mpr notSet).symm
  case set =>
    intro set kept value
    simp only [ofConditions, Option.mem_def, Option.ite_none_right_eq_some, Option.some.injEq] at kept
    rw [← kept.2, Std.HashSet.mem_ofList, List.contains_iff_mem]
    rfl

theorem keeps_of_compile (nonempty : predicates ≠ []) (countable : predicates.length < UInt16.size)
    (widths : ∀ predicate ∈ predicates, predicate.value.length = width) {compiled : CompiledFilter}
    (succeeded : compile (predicateRecords predicates) width logicalType
      (UInt16.ofNat predicates.length) combinator = .ok compiled) :
    ∃ pair, logicalType.sentinels width = .ok pair ∧
      Keeps logicalType width pair combinator predicates compiled := by
  have amount : (UInt16.ofNat predicates.length).toNat = predicates.length :=
    UInt16.toNat_ofNat_of_lt' countable
  obtain ⟨pair, found, ⟨zero, _⟩ | ⟨_, joined, _⟩⟩ := compile_eq_ok succeeded
  · rw [zero] at amount
    exact absurd (List.length_eq_zero_iff.mp amount.symm) nonempty
  rw [amount] at joined
  have whole := compile_predicateRecords found nonempty countable joined widths []
  rw [List.append_nil, succeeded] at whole
  refine ⟨pair, LogicalType.sentinels_eq_ok_iff.mpr found, ?_⟩
  rw [Except.ok.inj whole]
  exact keeps_ofConditions found nonempty joined widths

end Keeps

theorem joined_iff {count : UInt16} (counted : count ≠ 0) {combinator : Combinator} :
    (1 < count.toNat → combinator ≠ .none) ↔ count = 1 ∨ combinator ≠ .none := by
  have present : count.toNat ≠ 0 := fun zero => counted (UInt16.toNat_inj.mp zero)
  by_cases one : count = 1
  · subst one
    exact ⟨fun _ => .inl rfl, fun _ several => absurd several (Nat.lt_irrefl 1)⟩
  · have several : 1 < count.toNat := by
      have notOne : count.toNat ≠ 1 := fun same => one (UInt16.toNat_inj.mp same)
      omega
    exact ⟨fun joined => .inr (joined several), fun cases _ => cases.resolve_left one⟩

/-- A compilation succeeds exactly if the catalog has the column and there is either nothing to decode
or predicates that are joined, complete and known. If only their operators are at fault, the error
names the first that is unknown. What it makes of the records of predicates keeps all of them. -/
theorem compile_decodes (filter : Bytes) (width : Nat) (logicalType : LogicalType) (count : UInt16)
    (combinator : Combinator) :
    ((∃ compiled, compile filter width logicalType count combinator = .ok compiled) ↔
      (∃ pair, logicalType.sentinels width = .ok pair) ∧
        (count = 0 ∨
          (count = 1 ∨ combinator ≠ .none) ∧
            count.toNat * (recordOverhead + width) ≤ filter.length ∧
            KnownOperators filter width count.toNat)) ∧
    ((∃ pair, logicalType.sentinels width = .ok pair) → count ≠ 0 →
      (count = 1 ∨ combinator ≠ .none) →
      count.toNat * (recordOverhead + width) ≤ filter.length →
      ¬KnownOperators filter width count.toNat →
      ∃ index < count.toNat, ∃ byte, FirstUnknown filter width index byte ∧
        compile filter width logicalType count combinator = .error (.unknownOperator byte)) ∧
    ∀ (predicates : List Predicate) (compiled : CompiledFilter), predicates ≠ [] →
      predicates.length < UInt16.size →
      (∀ predicate ∈ predicates, predicate.value.length = width) →
      compile (predicateRecords predicates) width logicalType (UInt16.ofNat predicates.length)
        combinator = .ok compiled →
      ∃ pair, logicalType.sentinels width = .ok pair ∧
        Keeps logicalType width pair combinator predicates compiled := by
  simp only [LogicalType.sentinels_eq_ok_iff]
  refine ⟨⟨?succeeds, ?accepted⟩, ?refused, ?keeps⟩
  case succeeds =>
    rintro ⟨compiled, succeeded⟩
    obtain ⟨pair, found, ⟨zero, _⟩ | ⟨counted, joined, enough, _⟩⟩ := compile_eq_ok succeeded
    · exact ⟨⟨pair, found⟩, .inl zero⟩
    · obtain ⟨_, _, known⟩ := (exists_compile_eq_ok_iff enough).mp ⟨compiled, succeeded⟩
      exact ⟨⟨pair, found⟩, .inr ⟨(joined_iff counted).mp joined, enough, known⟩⟩
  case accepted =>
    rintro ⟨⟨pair, found⟩, rfl | ⟨joined, enough, known⟩⟩
    · exact ⟨_, compile_zero found⟩
    · apply (exists_compile_eq_ok_iff enough).mpr
      refine ⟨⟨pair, found⟩, fun several => ?_, known⟩
      rcases joined with rfl | joined
      · exact absurd several (Nat.lt_irrefl 1)
      · exact joined
  case refused =>
    rintro ⟨pair, found⟩ counted joined enough unknown
    obtain ⟨index, inside, byte, first⟩ := exists_firstUnknown enough unknown
    refine ⟨index, inside, byte, first, ?_⟩
    rw [compile_eq_decode found counted ((joined_iff counted).mpr joined) enough,
      decode_eq_error pair enough inside first]
    rfl
  case keeps =>
    intro predicates compiled nonempty countable widths succeeded
    obtain ⟨pair, found, kept⟩ := keeps_of_compile nonempty countable widths succeeded
    exact ⟨pair, LogicalType.sentinels_eq_ok_iff.mp found, kept⟩

theorem compile_decodes_tinyInt :
    let predicates : List Predicate := (List.range 9).map fun index =>
      { operator := .equal, flag := if index = 4 then 1 else 0, value := [UInt8.ofNat index] }
    (∃ compiled pair, compile (predicateRecords predicates) 1 .tinyInt 9 .or = .ok compiled ∧
      Keeps .tinyInt 1 pair .or predicates compiled ∧ compiled.mode = .oneOfSet ∧
      compiled.members = [0, 1, 2, 3, 5, 6, 7, 8]) ∧
    compile [2, 0, 7, 99, 0, 7, 98, 0, 7] 1 .tinyInt 3 .and = .error (.unknownOperator 99) := by
  intro predicates
  constructor
  · have known : KnownOperators (predicateRecords predicates) 1 9 := fun index inside =>
      ⟨.equal, (show ∀ index < 9, (predicateRecords predicates)[index * (recordOverhead + 1)]? =
        some Operator.equal.code by decide) index inside⟩
    obtain ⟨succeeds, _, keeps⟩ := compile_decodes (predicateRecords predicates) 1 .tinyInt 9 .or
    obtain ⟨compiled, succeeded⟩ :=
      succeeds.mpr ⟨⟨_, rfl⟩, .inr ⟨.inr (by decide), by decide, known⟩⟩
    obtain ⟨pair, _, kept⟩ := keeps predicates compiled (by decide) (by decide) (by decide) succeeded
    have mode : compiled.mode = .oneOfSet :=
      (kept.mode .oneOfSet).mp (.oneOfSet (by decide) rfl (by decide) (by decide))
    refine ⟨compiled, pair, succeeded, kept, mode, ?_⟩
    rw [kept.members, mode]
    decide
  · have unknown : ∀ operator : Operator, operator.code ≠ 99 := by
      intro operator
      cases operator <;> decide
    obtain ⟨_, refused, _⟩ :=
      compile_decodes [2, 0, 7, 99, 0, 7, 98, 0, 7] 1 .tinyInt 3 .and
    obtain ⟨index, inside, byte, ⟨found, strange, known⟩, error⟩ :=
      refused ⟨_, rfl⟩ (by decide) (by decide) (by decide) fun known => by
        obtain ⟨operator, same⟩ := known 1 (by decide)
        exact unknown operator (Option.some.inj same).symm
    rw [error]
    match index, inside with
    | 0, _ => exact absurd (Option.some.inj found) (strange .equal)
    | 1, _ => rw [← Option.some.inj found]
    | 2, _ =>
      obtain ⟨operator, same⟩ := known 1 (by decide)
      exact absurd (Option.some.inj same).symm (unknown operator)

/-- An unsigned value of eight bytes is kept as a signed word, and a single comparison has no
members. -/
theorem compile_uBigInt :
    let predicates : List Predicate :=
      [{ operator := .equal, value := [0xfd, 0xff, 0xff, 0xff, 0xff, 0xff, 0xff, 0xff] }]
    ∃ compiled, compile (predicateRecords predicates) 8 .uBigInt 1 .none = .ok compiled ∧
      compiled.conditions.map Condition.value = [-3] ∧
      (compiled.conditions.map Condition.value ≠
        predicates.map fun predicate => (LittleEndian.natValue predicate.value : Int)) ∧
      compiled.members ≠ (compiled.conditions.filter (·.flag == 0)).map Condition.value := by
  refine ⟨_, rfl, ?_, ?_, ?_⟩
  · decide
  · decide
  · decide

end CompiledFilter

end ColumnScan
