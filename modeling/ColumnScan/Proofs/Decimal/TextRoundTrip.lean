import Mathlib.Data.List.TakeWhile
import ColumnScan.Decimal.Literal
import ColumnScan.Decimal.Rendering
import ColumnScan.Proofs.Decimal.Arithmetic
import ColumnScan.Proofs.Decimal.Digits

/-!
# Reading the text of a decimal

The text of a decimal is a literal with the digits of its value, as many after the point as its
scale. Reading it finds the value and the scale again, at the least precision that covers them, and
so perhaps in the other storage. Only values of more than thirty-eight digits cannot be read.
-/

set_option autoImplicit false

namespace ColumnScan

theorem Digits.plain_of_isSome_value? {character : Char}
    (digit : (value? character).isSome = true) :
    isBlank character = false ∧ character ≠ '.' ∧ character ≠ '-' ∧ character ≠ '+' := by
  unfold value? at digit
  split at digit
  next inside =>
    obtain ⟨lower, upper⟩ := inside
    have least : 48 ≤ character.toNat := lower
    have greatest : character.toNat ≤ 57 := upper
    refine ⟨?_, ?_, ?_, ?_⟩
    · unfold isBlank
      simp only [Bool.or_eq_false_iff, Bool.and_eq_false_iff, decide_eq_false_iff_not,
        beq_eq_false_iff_ne]
      omega
    · rintro rfl
      exact absurd least (by decide)
    · rintro rfl
      exact absurd least (by decide)
    · rintro rfl
      exact absurd least (by decide)
  next => cases digit

theorem dropWhile_isBlank_eq_self {text : List Char}
    (solid : ∀ character ∈ text, isBlank character = false) : text.dropWhile isBlank = text := by
  cases text with
  | nil => rfl
  | cons first rest =>
      have notBlank := solid first List.mem_cons_self
      simp only [List.dropWhile_cons, notBlank, Bool.false_eq_true, ↓reduceIte]

/-- Trimming takes the blanks around a text without blanks, and no more. -/
theorem trimBlank_around {before literal after : List Char}
    (blankBefore : ∀ character ∈ before, isBlank character = true)
    (blankAfter : ∀ character ∈ after, isBlank character = true)
    (solid : ∀ character ∈ literal, isBlank character = false) :
    trimBlank (before ++ literal ++ after) = literal := by
  cases literal with
  | nil =>
      have blank : ∀ character ∈ before ++ after, isBlank character = true :=
        List.forall_mem_append.mpr ⟨blankBefore, blankAfter⟩
      rw [List.append_nil, trimBlank, List.dropWhile_eq_nil_iff.mpr blank]
      rfl
  | cons first rest =>
      have notBlank : ¬isBlank first = true := by
        rw [solid first List.mem_cons_self]
        exact Bool.false_ne_true
      have behind : ∀ character ∈ after.reverse, isBlank character = true :=
        fun character member => blankAfter character (List.mem_reverse.mp member)
      have reversed : ∀ character ∈ (first :: rest).reverse, isBlank character = false :=
        fun character member => solid character (List.mem_reverse.mp member)
      rw [List.append_assoc, trimBlank, List.dropWhile_append_of_pos blankBefore, List.cons_append,
        List.dropWhile_cons_of_neg notBlank, ← List.cons_append, List.reverse_append,
        List.dropWhile_append_of_pos behind, dropWhile_isBlank_eq_self reversed,
        List.reverse_reverse]

theorem trimBlank_eq_self {text : List Char}
    (solid : ∀ character ∈ text, isBlank character = false) : trimBlank text = text := by
  have around := @trimBlank_around [] text [] nofun nofun solid
  rwa [List.append_nil] at around

theorem scaledDigits_eq (value : Int) (scale : Nat) :
    scaledDigits value scale =
      (if value < 0 then ['-'] else []) ++ Digits.ofNat (value.natAbs / powerOfTen scale) ++
        if scale = 0 then [] else '.' :: Digits.padded scale (value.natAbs % powerOfTen scale) := by
  unfold scaledDigits
  dsimp only
  rw [Digits.limbs_eq_ofNat]
  by_cases zero : scale = 0
  · rw [if_pos zero, if_pos zero]
  · have below : value.natAbs % powerOfTen scale < powerOfTen scale :=
      Nat.mod_lt _ (powerOfTen_pos scale)
    rw [if_neg zero, if_neg zero, Digits.limbs_eq_ofNat, Digits.leftpad_ofNat zero below]

namespace DecimalLiteral

/-- The literal of a value with `scale` digits after the point. -/
def ofScaled (value : Int) (scale : Nat) : DecimalLiteral :=
  { negative := value < 0
    whole := Digits.ofNat (value.natAbs / powerOfTen scale)
    fraction := Digits.padded scale (value.natAbs % powerOfTen scale) }

def unsigned (literal : DecimalLiteral) : List Char :=
  literal.whole ++ if literal.fraction = [] then [] else '.' :: literal.fraction

/-- A literal without blanks, a plus sign or a point that nothing follows. -/
def spelled (literal : DecimalLiteral) : List Char :=
  if literal.negative then '-' :: literal.unsigned else literal.unsigned

theorem scaledDigits_eq_spelled (value : Int) (scale : Nat) :
    scaledDigits value scale = (ofScaled value scale).spelled := by
  have fraction_eq_nil : (ofScaled value scale).fraction = [] ↔ scale = 0 := by
    rw [← List.length_eq_zero_iff]
    exact iff_of_eq (congrArg (· = 0) (Digits.length_padded _ _))
  rw [scaledDigits_eq, List.append_assoc]
  unfold spelled unsigned
  simp only [fraction_eq_nil]
  by_cases negative : value < 0
  · have sign : (ofScaled value scale).negative = true := decide_eq_true negative
    rw [if_pos negative, if_pos sign]
    rfl
  · have sign : (ofScaled value scale).negative = false := decide_eq_false negative
    rw [if_neg negative, sign]
    rfl

theorem denotes_ofScaled (value : Int) (scale : Nat) :
    Digits.Denotes ((ofScaled value scale).whole ++ (ofScaled value scale).fraction)
      value.natAbs := by
  have whole := Digits.denotes_ofNat (value.natAbs / powerOfTen scale)
  have both := whole.append_padded scale (value.natAbs % powerOfTen scale)
  rwa [Nat.mod_mod, Nat.div_add_mod'] at both

/-- A literal all of whose characters are digits, one of them before the point. -/
structure IsPlain (literal : DecimalLiteral) : Prop where
  digits : ∀ character ∈ literal.whole ++ literal.fraction, (Digits.value? character).isSome = true
  whole_ne_nil : literal.whole ≠ []

theorem isPlain_ofScaled (value : Int) (scale : Nat) : (ofScaled value scale).IsPlain where
  digits := (denotes_ofScaled value scale).isSome_value?
  whole_ne_nil := Digits.ofNat_ne_nil _

section Plain

variable {literal : DecimalLiteral}

theorem IsPlain.not_blank (plain : literal.IsPlain) :
    ∀ character ∈ literal.spelled, isBlank character = false := by
  have unsigned : ∀ character ∈ literal.unsigned, isBlank character = false := by
    intro character member
    rcases List.mem_append.mp member with whole | after
    · exact (Digits.plain_of_isSome_value?
        (plain.digits character (List.mem_append_left _ whole))).1
    split at after
    next => exact absurd after List.not_mem_nil
    next =>
      rcases List.mem_cons.mp after with rfl | fraction
      · decide
      · exact (Digits.plain_of_isSome_value?
          (plain.digits character (List.mem_append_right _ fraction))).1
  intro character member
  unfold spelled at member
  split at member
  next =>
    rcases List.mem_cons.mp member with rfl | later
    · decide
    · exact unsigned character later
  next => exact unsigned character member

theorem IsPlain.split_unsigned (plain : literal.IsPlain) :
    literal.unsigned.takeWhile (· != '.') = literal.whole ∧
      (literal.unsigned.dropWhile (· != '.')).drop 1 = literal.fraction := by
  have before : ∀ character ∈ literal.whole, (character != '.') = true := by
    intro character member
    exact bne_iff_ne.mpr (Digits.plain_of_isSome_value?
      (plain.digits character (List.mem_append_left _ member))).2.1
  unfold unsigned
  rw [List.takeWhile_append_of_pos before, List.dropWhile_append_of_pos before]
  split
  next none =>
    rw [none]
    exact ⟨List.append_nil _, rfl⟩
  next => exact ⟨List.append_nil _, rfl⟩

theorem ofText_of_digit {first : Char} (digit : (Digits.value? first).isSome = true)
    (rest : List Char) :
    ofText (first :: rest) =
      { negative := false
        whole := (first :: rest).takeWhile (· != '.')
        fraction := ((first :: rest).dropWhile (· != '.')).drop 1 } := by
  obtain ⟨_, _, notMinus, notPlus⟩ := Digits.plain_of_isSome_value? digit
  unfold ofText
  split
  next sign body eq =>
    split at eq
    next rest' same => exact absurd (List.cons.inj same).1 notMinus
    next rest' same => exact absurd (List.cons.inj same).1 notPlus
    next =>
      cases eq
      rfl

theorem IsPlain.ofText_spelled (plain : literal.IsPlain) : ofText literal.spelled = literal := by
  obtain ⟨whole, fraction⟩ := plain.split_unsigned
  unfold spelled
  cases negative : literal.negative with
  | true =>
      change DecimalLiteral.mk true (literal.unsigned.takeWhile _)
        ((literal.unsigned.dropWhile _).drop 1) = literal
      rw [whole, fraction, ← negative]
  | false =>
      obtain ⟨first, rest, starts⟩ := List.exists_cons_of_ne_nil plain.whole_ne_nil
      have digit := plain.digits first (by rw [starts]; exact List.mem_cons_self)
      have begins : literal.unsigned = first :: (rest ++
          if literal.fraction = [] then [] else '.' :: literal.fraction) := by
        rw [unsigned, starts, List.cons_append]
      rw [if_neg Bool.false_ne_true, begins, ofText_of_digit digit, ← begins, whole, fraction,
        ← negative]

theorem digits?_eq_some_iff {digits : List Nat} :
    literal.digits? = some digits ↔
      literal.whole ++ literal.fraction ≠ [] ∧
        (literal.whole ++ literal.fraction).mapM Digits.value? = some digits := by
  unfold DecimalLiteral.digits?
  dsimp only
  rw [Option.ite_none_left_eq_some, List.isEmpty_iff]

theorem IsPlain.digits?_eq (plain : literal.IsPlain) {digits : List Nat}
    (read : (literal.whole ++ literal.fraction).mapM Digits.value? = some digits) :
    literal.digits? = some digits :=
  digits?_eq_some_iff.mpr ⟨List.append_ne_nil_of_left_ne_nil plain.whole_ne_nil _, read⟩

end Plain

theorem signed_ofScaled (value : Int) (scale : Nat) :
    (if (ofScaled value scale).negative then -(value.natAbs : Int) else value.natAbs) = value := by
  by_cases negative : value < 0
  · have sign : (ofScaled value scale).negative = true := decide_eq_true negative
    rw [if_pos sign]
    omega
  · have sign : (ofScaled value scale).negative = false := decide_eq_false negative
    rw [sign, if_neg Bool.false_ne_true]
    omega

/-- The decimal with the sign and the scale of a literal and the given digits. -/
def withDigits (literal : DecimalLiteral) (digits : List Nat) : Decimal :=
  let magnitude : Int := Digits.number digits
  { value := if literal.negative then -magnitude else magnitude
    scale := literal.fraction.length
    precision := max (max (Digits.significant digits) literal.fraction.length) 1 }

theorem decimal?_of_digits? {literal : DecimalLiteral} {digits : List Nat}
    (read : literal.digits? = some digits) :
    literal.decimal? =
      if Decimal.maxDigits < literal.fraction.length ∨
          Decimal.maxDigits < Digits.significant digits then none
      else some (literal.withDigits digits) := by
  unfold decimal?
  rw [read]
  rfl

theorem decimal?_eq_some_iff {literal : DecimalLiteral} {decimal : Decimal} :
    literal.decimal? = some decimal ↔
      ∃ digits, literal.digits? = some digits ∧ literal.fraction.length ≤ Decimal.maxDigits ∧
        Digits.significant digits ≤ Decimal.maxDigits ∧ decimal = literal.withDigits digits := by
  cases read : literal.digits? with
  | none =>
      unfold decimal?
      rw [read]
      exact iff_of_false nofun nofun
  | some digits =>
      rw [decimal?_of_digits? read, Option.ite_none_left_eq_some, not_or, Nat.not_lt, Nat.not_lt,
        Option.some.injEq, and_assoc]
      constructor
      · rintro ⟨short, few, rfl⟩
        exact ⟨digits, rfl, short, few, rfl⟩
      · rintro ⟨others, same, short, few, rfl⟩
        cases same
        exact ⟨short, few, rfl⟩

/-- The literal of a value denotes it at the least precision that covers the digits of the value and
those after the point, unless there are too many. -/
theorem exists_decimal?_ofScaled (value : Int) {scale : Nat} (allowed : scale ≤ Decimal.maxDigits) :
    ∃ precision,
      (∀ count, precision ≤ count ↔ value.natAbs < powerOfTen count ∧ scale ≤ count ∧ 1 ≤ count) ∧
      (ofScaled value scale).decimal? =
        if precision ≤ Decimal.maxDigits then some ⟨value, scale, precision⟩ else none := by
  obtain ⟨digits, read, denoted, each⟩ := (denotes_ofScaled value scale).reads
  have enough : ∀ count, Digits.significant digits ≤ count ↔ value.natAbs < powerOfTen count := by
    intro count
    rw [← denoted]
    exact Digits.significant_le_iff each count
  have length : (ofScaled value scale).fraction.length = scale := Digits.length_padded _ _
  have shape : (ofScaled value scale).withDigits digits =
      ⟨value, scale, max (max (Digits.significant digits) scale) 1⟩ := by
    rw [withDigits, denoted, signed_ofScaled, length]
  refine ⟨max (max (Digits.significant digits) scale) 1, ?_, ?_⟩
  · intro count
    rw [Nat.max_le, Nat.max_le, enough, and_assoc]
  · rw [decimal?_of_digits? ((isPlain_ofScaled value scale).digits?_eq read), length, shape]
    -- The scale is allowed, so only the significant digits can be too many.
    have allowed_iff : max (max (Digits.significant digits) scale) 1 ≤ Decimal.maxDigits ↔
        ¬(Decimal.maxDigits < scale ∨ Decimal.maxDigits < Digits.significant digits) := by
      have positive : 1 ≤ Decimal.maxDigits := by decide
      omega
    simp only [allowed_iff, ite_not]

end DecimalLiteral

/-- A storage holds every value of at most as many digits as the precisions that choose it. -/
theorem DecimalStorage.ordinary_of_natAbs_lt {value : Int} {precision : Nat}
    (allowed : precision ≤ Decimal.maxDigits) (small : value.natAbs < powerOfTen precision) :
    (ofPrecision precision).Ordinary value := by
  unfold ofPrecision
  split
  next narrow =>
    have bound : powerOfTen precision ≤ 1000000000000000000 := powerOfTen_le narrow
    simp only [Ordinary, least, null, greatest]
    omega
  next =>
    have bound : powerOfTen precision ≤ 100000000000000000000000000000000000000 :=
      powerOfTen_le allowed
    simp only [Ordinary, least, null, greatest]
    omega

theorem DecimalLiteral.withDigits_allowed {literal : DecimalLiteral} {digits : List Nat}
    (read : literal.digits? = some digits) (short : literal.fraction.length ≤ Decimal.maxDigits)
    (few : Digits.significant digits ≤ Decimal.maxDigits) :
    let decimal := literal.withDigits digits
    decimal.storage.Ordinary decimal.value ∧
      Decimal.ofParts decimal.value decimal.scale decimal.precision = .ok decimal := by
  intro decimal
  obtain ⟨each, _⟩ := Digits.mapM_value?_eq_some_iff.mp (digits?_eq_some_iff.mp read).2
  have allowed : decimal.precision ≤ Decimal.maxDigits :=
    Nat.max_le.mpr ⟨Nat.max_le.mpr ⟨few, short⟩, by decide⟩
  have positive : decimal.precision ≠ 0 := Nat.ne_of_gt (Nat.le_max_right _ 1)
  have covered : Digits.significant digits ≤ decimal.precision :=
    Nat.le_trans (Nat.le_max_left _ _) (Nat.le_max_left _ _)
  have magnitude : decimal.value.natAbs = Digits.number digits := by
    simp only [decimal, withDigits]
    split <;> omega
  have small : decimal.value.natAbs < powerOfTen decimal.precision := by
    rw [magnitude]
    exact (Digits.significant_le_iff each _).mp covered
  have ordinary := DecimalStorage.ordinary_of_natAbs_lt allowed small
  exact ⟨ordinary, Decimal.ofParts_eq_ok_iff.mpr ⟨positive, allowed, short, ordinary.fits, rfl⟩⟩

namespace Decimal

section Reading

variable {text : String} {decimal : Decimal}

theorem ofText_eq_ok_iff :
    ofText text = .ok decimal ↔
      (DecimalLiteral.ofText (trimBlank text.toList)).decimal? = some decimal := by
  unfold ofText
  cases denoted : (DecimalLiteral.ofText (trimBlank text.toList)).decimal? with
  | none => exact iff_of_false nofun nofun
  | some found =>
      obtain ⟨digits, read, short, few, rfl⟩ := DecimalLiteral.decimal?_eq_some_iff.mp denoted
      -- The checks of the parts cannot fail after those of the literal.
      obtain ⟨_, built⟩ := DecimalLiteral.withDigits_allowed read short few
      simp only [built, Except.ok.injEq, Option.some.injEq]

theorem isNumber_of_ofText (read : ofText text = .ok decimal) :
    decimal.isNull = false ∧ decimal.isEmpty = false := by
  obtain ⟨digits, found, short, few, rfl⟩ :=
    DecimalLiteral.decimal?_eq_some_iff.mp (ofText_eq_ok_iff.mp read)
  obtain ⟨ordinary, _⟩ := DecimalLiteral.withDigits_allowed found short few
  exact ((ordinary_iff_notReserved _).mp ordinary).2

theorem ofText_eq_error {error : ScanError} (refused : ofText text = .error error) :
    error = .invalidArgument (.decimalLiteral text) := by
  have unfolded := refused
  unfold ofText at unfolded
  cases denoted : (DecimalLiteral.ofText (trimBlank text.toList)).decimal? with
  | none =>
      rw [denoted] at unfolded
      exact (Except.error.inj unfolded).symm
  | some found =>
      rw [ofText_eq_ok_iff.mpr denoted] at refused
      cases refused

end Reading

variable {decimal : Decimal}

theorem IsNumber.text_eq (number : decimal.IsNumber) :
    decimal.text = String.ofList (scaledDigits decimal.value decimal.scale) := by
  -- What the own storage of the number keeps, the wide one keeps too.
  have larger : DecimalStorage.ofPrecision (max decimal.precision 19) = .wide := if_neg (by omega)
  have wide : DecimalStorage.wide.Ordinary decimal.value :=
    larger ▸ number.ordinary.mono (Nat.le_max_left decimal.precision 19)
  obtain ⟨_, notNull, notEmpty⟩ := DecimalStorage.ordinary_iff.mp wide
  unfold text wideText
  rw [number.notNull, number.notEmpty, if_neg notNull, if_neg notEmpty]
  rfl

theorem IsNumber.literal_text (number : decimal.IsNumber) :
    DecimalLiteral.ofText (trimBlank decimal.text.toList) =
      .ofScaled decimal.value decimal.scale := by
  have plain := DecimalLiteral.isPlain_ofScaled decimal.value decimal.scale
  rw [number.text_eq, String.toList_ofList, DecimalLiteral.scaledDigits_eq_spelled,
    trimBlank_eq_self plain.not_blank, plain.ofText_spelled]

/-- The text of a number of at most thirty-eight digits reads as a number again, with the same value
and the same scale. -/
theorem ofText_text (number : decimal.IsNumber)
    (small : decimal.value.natAbs < powerOfTen maxDigits) :
    ∃ parsed, ofText decimal.text = .ok parsed ∧ parsed.value = decimal.value ∧
      parsed.scale = decimal.scale ∧ parsed.isNull = false ∧ parsed.isEmpty = false := by
  obtain ⟨precision, covers, denoted⟩ :=
    DecimalLiteral.exists_decimal?_ofScaled decimal.value number.scale_le
  have allowed : precision ≤ maxDigits :=
    (covers maxDigits).mpr ⟨small, number.scale_le, by decide⟩
  have read : ofText decimal.text = .ok ⟨decimal.value, decimal.scale, precision⟩ := by
    rw [ofText_eq_ok_iff, number.literal_text, denoted, if_pos allowed]
  exact ⟨_, read, rfl, rfl, isNumber_of_ofText read⟩

theorem ofText_text_limbs :
    let decimal : Decimal := ⟨-10000000000000000000, 20, 38⟩
    decimal.value.natAbs < powerOfTen maxDigits ∧ decimal.isNull = false ∧
      ∃ parsed, ofText decimal.text = .ok parsed ∧ parsed.value = -10000000000000000000 ∧
        parsed.scale = 20 ∧ parsed.isNull = false := by
  have number : IsNumber ⟨-10000000000000000000, 20, 38⟩ :=
    ⟨⟨-10000000000000000000, 20, 38, rfl⟩, rfl, rfl⟩
  have small : (-10000000000000000000 : Int).natAbs < powerOfTen maxDigits := by decide
  obtain ⟨parsed, read, value, scale, notNull, _⟩ := ofText_text number small
  exact ⟨small, number.notNull, parsed, read, value, scale, notNull⟩

theorem ofText_text_eq_error (number : decimal.IsNumber)
    (large : powerOfTen maxDigits ≤ decimal.value.natAbs) :
    ofText decimal.text = .error (.invalidArgument (.decimalLiteral decimal.text)) := by
  obtain ⟨precision, covers, denoted⟩ :=
    DecimalLiteral.exists_decimal?_ofScaled decimal.value number.scale_le
  have refused : ¬precision ≤ maxDigits := fun allowed =>
    absurd ((covers maxDigits).mp allowed).1 (Nat.not_lt.mpr large)
  unfold ofText
  rw [number.literal_text, denoted, if_neg refused]

end Decimal

end ColumnScan
