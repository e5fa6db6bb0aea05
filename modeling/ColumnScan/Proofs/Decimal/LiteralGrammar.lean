import ColumnScan.Proofs.Decimal.TextRoundTrip

/-!
# The grammar of decimal literals

A literal is an optional sign and a body: digits with at most one point among them, and at least one
digit. A text reads as a decimal exactly if it is such a literal between blanks and has at most
thirty-eight digits after the point and as many from the first non-zero one on. The digits are also
read by a loop that stops at one significant digit too many, and this loop never leaves 128 bits.
-/

set_option autoImplicit false

namespace ColumnScan

theorem exists_blanks_around (text : List Char) :
    ∃ before after, text = before ++ trimBlank text ++ after ∧
      (∀ character ∈ before, isBlank character = true) ∧
      ∀ character ∈ after, isBlank character = true := by
  let rest := (text.dropWhile isBlank).reverse
  refine ⟨text.takeWhile isBlank, (rest.takeWhile isBlank).reverse, ?_, ?_, ?_⟩
  · have behind : trimBlank text ++ (rest.takeWhile isBlank).reverse = text.dropWhile isBlank := by
      rw [trimBlank, ← List.reverse_append, List.takeWhile_append_dropWhile, List.reverse_reverse]
    rw [List.append_assoc, behind, List.takeWhile_append_dropWhile]
  · exact fun character member => List.mem_takeWhile_imp member
  · exact fun character member => List.mem_takeWhile_imp (List.mem_reverse.mp member)

namespace Digits

theorem plain_char {digit : Nat} (small : digit < 10) :
    isBlank (char digit) = false ∧ char digit ≠ '.' ∧ char digit ≠ '-' ∧ char digit ≠ '+' :=
  plain_of_isSome_value? (by rw [value?_char small]; rfl)

end Digits

namespace DecimalLiteral

/-- Digits with at most one point among them, and the digits before and after it. -/
inductive Body : List Char → List Nat → List Nat → Prop where
  | integer {whole : List Nat} : Body (whole.map Digits.char) whole []
  | pointed {whole fraction : List Nat} :
      Body (whole.map Digits.char ++ '.' :: fraction.map Digits.char) whole fraction

/-- An optional sign in front of a body, and whether it is a minus. -/
inductive Signed (body : List Char) : List Char → Bool → Prop where
  | unsigned : Signed body body false
  | plus : Signed body ('+' :: body) false
  | minus : Signed body ('-' :: body) true

/-- The grammar of literals: a text, whether it has a minus, and its digits before and after the
point. -/
structure Spells (text : List Char) (negative : Bool) (whole fraction : List Nat) : Prop where
  shape : ∃ body, Signed body text negative ∧ Body body whole fraction
  digits : ∀ digit ∈ whole ++ fraction, digit < 10
  nonempty : whole ++ fraction ≠ []

section Grammar

variable {text body : List Char} {negative : Bool} {whole fraction : List Nat}

theorem Body.split (shape : Body body whole fraction) (each : ∀ digit ∈ whole, digit < 10) :
    body.takeWhile (· != '.') = whole.map Digits.char ∧
      (body.dropWhile (· != '.')).drop 1 = fraction.map Digits.char := by
  have before : ∀ character ∈ whole.map Digits.char, (character != '.') = true :=
    List.forall_mem_map.mpr fun digit member =>
      bne_iff_ne.mpr (Digits.plain_char (each digit member)).2.1
  cases shape with
  | integer =>
      rw [List.takeWhile_eq_self_iff.mpr before, List.dropWhile_eq_nil_iff.mpr before]
      exact ⟨rfl, rfl⟩
  | pointed =>
      rw [List.takeWhile_append_of_pos before, List.dropWhile_append_of_pos before]
      exact ⟨List.append_nil _, rfl⟩

theorem body_of_split (left : body.takeWhile (· != '.') = whole.map Digits.char)
    (right : (body.dropWhile (· != '.')).drop 1 = fraction.map Digits.char) :
    Body body whole fraction := by
  have parts : body.takeWhile (· != '.') ++ body.dropWhile (· != '.') = body :=
    List.takeWhile_append_dropWhile
  rw [left] at parts
  have point := List.head?_dropWhile_not (· != '.') body
  cases behind : body.dropWhile (· != '.') with
  | nil =>
      rw [behind] at parts right
      rw [List.map_eq_nil_iff.mp right.symm, ← parts, List.append_nil]
      exact .integer
  | cons first rest =>
      rw [behind] at parts right point
      have first_eq : first = '.' := by simpa using point
      rw [← parts, first_eq, show rest = fraction.map Digits.char from right]
      exact .pointed

theorem signed_ofText (text : List Char) :
    ∃ body, Signed body text (ofText text).negative ∧
      (ofText text).whole = body.takeWhile (· != '.') ∧
      (ofText text).fraction = (body.dropWhile (· != '.')).drop 1 := by
  unfold ofText
  split
  next sign body eq =>
    split at eq
    all_goals
      cases eq
      refine ⟨_, ?_, rfl, rfl⟩
      constructor

theorem Spells.ofText_eq (spells : Spells text negative whole fraction) :
    ofText text = ⟨negative, whole.map Digits.char, fraction.map Digits.char⟩ := by
  obtain ⟨⟨body, signed, shape⟩, each, nonempty⟩ := spells
  obtain ⟨left, right⟩ := shape.split fun digit member => each digit (List.mem_append_left _ member)
  rw [← left, ← right]
  cases signed with
  | plus => rfl
  | minus => rfl
  | unsigned =>
      -- Without a sign the text starts with a digit or with the point.
      cases whole with
      | cons digit rest =>
          have small := each digit (List.mem_append_left _ List.mem_cons_self)
          have isDigit : (Digits.value? (Digits.char digit)).isSome = true := by
            rw [Digits.value?_char small]
            rfl
          cases shape with
          | integer => exact ofText_of_digit isDigit _
          | pointed => exact ofText_of_digit isDigit _
      | nil =>
          cases shape with
          | integer => exact absurd rfl nonempty
          | pointed => rfl

theorem Spells.digits?_eq (spells : Spells text negative whole fraction) :
    (ofText text).digits? = some (whole ++ fraction) := by
  rw [spells.ofText_eq, digits?_eq_some_iff, ← List.map_append, Digits.mapM_value?_eq_some_iff]
  exact ⟨fun none => spells.nonempty (List.map_eq_nil_iff.mp none), spells.digits, rfl⟩

theorem Spells.length_fraction (spells : Spells text negative whole fraction) :
    (ofText text).fraction.length = fraction.length := by
  rw [spells.ofText_eq, List.length_map]

theorem exists_spells {digits : List Nat} (read : (ofText text).digits? = some digits) :
    ∃ whole fraction, Spells text (ofText text).negative whole fraction := by
  obtain ⟨body, signed, left, right⟩ := signed_ofText text
  obtain ⟨nonempty, read⟩ := digits?_eq_some_iff.mp read
  obtain ⟨each, spelled⟩ := Digits.mapM_value?_eq_some_iff.mp read
  obtain ⟨whole, fraction, rfl, wholeText, fractionText⟩ := List.map_eq_append_iff.mp spelled.symm
  refine ⟨whole, fraction, ⟨body, signed, ?_⟩, each, ?_⟩
  · exact body_of_split (left.symm.trans wholeText.symm) (right.symm.trans fractionText.symm)
  · rintro none
    rw [spelled, none] at nonempty
    exact nonempty rfl

theorem Spells.not_blank (spells : Spells text negative whole fraction) :
    ∀ character ∈ text, isBlank character = false := by
  obtain ⟨⟨body, signed, shape⟩, each, _⟩ := spells
  obtain ⟨eachWhole, eachFraction⟩ := List.forall_mem_append.mp each
  have digits : ∀ digits : List Nat, (∀ digit ∈ digits, digit < 10) →
      ∀ character ∈ digits.map Digits.char, isBlank character = false := fun digits small =>
    List.forall_mem_map.mpr fun digit member => (Digits.plain_char (small digit member)).1
  have inBody : ∀ character ∈ body, isBlank character = false := by
    cases shape with
    | integer => exact digits whole eachWhole
    | pointed =>
        refine List.forall_mem_append.mpr ⟨digits whole eachWhole, List.forall_mem_cons.mpr ⟨?_, ?_⟩⟩
        · decide
        · exact digits fraction eachFraction
  cases signed with
  | unsigned => exact inBody
  | plus => exact List.forall_mem_cons.mpr ⟨by decide, inBody⟩
  | minus => exact List.forall_mem_cons.mpr ⟨by decide, inBody⟩

end Grammar

/-! The digits of a literal can be read one by one, with two counters. -/

/-- What the loop over the digits keeps: their number so far, and how many of them are significant. -/
structure Accumulator where
  value : Int
  significant : Nat
deriving DecidableEq

namespace Accumulator

def start : Accumulator := ⟨0, 0⟩

/-- Read one more character, unless it is no digit or one significant digit too many. -/
def step (total : Accumulator) (character : Char) : Option Accumulator := do
  let digit ← Digits.value? character
  let significant :=
    if total.value ≠ 0 ∨ digit ≠ 0 then total.significant + 1 else total.significant
  if Decimal.maxDigits < significant then none
  return ⟨total.value * 10 + digit, significant⟩

def run (characters : List Char) : Option Accumulator := characters.foldlM step start

def ofDigits (digits : List Nat) : Accumulator := ⟨Digits.number digits, Digits.significant digits⟩

end Accumulator

/-- The decimal of a literal, as the loop over its digits finds it. -/
def loop? (literal : DecimalLiteral) : Option Decimal := do
  let characters := literal.whole ++ literal.fraction
  let scale := literal.fraction.length
  if characters.isEmpty ∨ Decimal.maxDigits < scale then none
  let total ← Accumulator.run characters
  let value := if literal.negative then -total.value else total.value
  return ⟨value, scale, max (max total.significant scale) 1⟩

namespace Accumulator

theorem step_ofDigits {digits : List Nat} (each : ∀ digit ∈ digits, digit < 10) {character : Char}
    {digit : Nat} (read : Digits.value? character = some digit) :
    (ofDigits digits).step character =
      if Decimal.maxDigits < Digits.significant (digits ++ [digit]) then none
      else some (ofDigits (digits ++ [digit])) := by
  have value : ((Digits.number digits : Nat) : Int) * 10 + digit =
      (Digits.number (digits ++ [digit]) : Nat) := by
    rw [Digits.number_append]
    omega
  have nonzero : (Digits.number digits : Int) ≠ 0 ↔ Digits.number digits ≠ 0 := by omega
  unfold step
  simp only [read, ofDigits, value, nonzero, ← Digits.significant_append each, Option.bind_eq_bind,
    Option.bind_some, Option.pure_def]
  split <;> rfl

/-- The loop reads digits as long as few enough of them are significant. -/
theorem run_eq (characters : List Char) :
    run characters = (characters.mapM Digits.value?).bind fun digits =>
      if Decimal.maxDigits < Digits.significant digits then none else some (ofDigits digits) := by
  induction characters using List.reverseRecOn with
  | nil => rfl
  | append_singleton before last ih =>
      have longer : run (before ++ [last]) = (run before).bind fun total => total.step last := by
        rw [run, List.foldlM_append]
        simp only [List.foldlM_cons, List.foldlM_nil, bind_pure]
        rfl
      rw [longer, ih, List.mapM_append]
      cases read : before.mapM Digits.value? with
      | none => rfl
      | some digits =>
          have each := (Digits.mapM_value?_eq_some_iff.mp read).1
          cases next : Digits.value? last with
          | none =>
              simp only [List.mapM_cons, next, Option.bind_eq_bind, Option.bind_none, Option.bind_some]
              split
              next => rfl
              next =>
                simp only [Option.bind_some, step, next, Option.bind_eq_bind, Option.bind_none]
          | some digit =>
              simp only [List.mapM_cons, List.mapM_nil, next, Option.bind_eq_bind, Option.bind_some,
                Option.pure_def]
              by_cases many : Decimal.maxDigits < Digits.significant digits
              · -- One more digit makes none of the others insignificant.
                have more : Decimal.maxDigits < Digits.significant (digits ++ [digit]) := by
                  rw [Digits.significant_append each]
                  split <;> omega
                rw [if_pos many, if_pos more, Option.bind_none]
              · rw [if_neg many, Option.bind_some, step_ofDigits each next]

theorem run_eq_some_iff {characters : List Char} {total : Accumulator} :
    run characters = some total ↔
      ∃ digits, characters.mapM Digits.value? = some digits ∧
        Digits.significant digits ≤ Decimal.maxDigits ∧ total = ofDigits digits := by
  rw [run_eq, Option.bind_eq_some_iff]
  refine exists_congr fun digits => and_congr_right fun _ => ?_
  rw [Option.ite_none_left_eq_some, Nat.not_lt, Option.some.injEq, eq_comm (a := total)]

theorem run_append_singleton {characters : List Char} {character : Char} {total next : Accumulator}
    (reached : run characters = some total) (stepped : total.step character = some next) :
    run (characters ++ [character]) = some next := by
  unfold run at reached ⊢
  rw [List.foldlM_append, reached]
  simpa using stepped

theorem value_lt_of_run {characters : List Char} {total : Accumulator}
    (reached : run characters = some total) :
    0 ≤ total.value ∧ total.value < powerOfTen Decimal.maxDigits := by
  obtain ⟨digits, read, few, rfl⟩ := run_eq_some_iff.mp reached
  obtain ⟨each, _⟩ := Digits.mapM_value?_eq_some_iff.mp read
  have below := (Digits.significant_le_iff each Decimal.maxDigits).mp few
  exact ⟨Int.natCast_nonneg _, Int.ofNat_lt.mpr below⟩

theorem value_of_step {total next : Accumulator} {character : Char}
    (stepped : total.step character = some next) :
    ∃ digit : Nat, next.value = total.value * 10 + digit := by
  obtain ⟨digit, _, counted⟩ := Option.bind_eq_some_iff.mp stepped
  change (if Decimal.maxDigits < _ then none else some _) = some next at counted
  obtain ⟨_, shape⟩ := Option.ite_none_left_eq_some.mp counted
  exact ⟨digit, congrArg value (Option.some.inj shape).symm⟩

/-- A step of the loop fits 128 bits, also on a text that is refused in the end. -/
theorem fits_of_step {characters : List Char} {character : Char} {total next : Accumulator}
    (reached : run characters = some total) (stepped : total.step character = some next) :
    DecimalStorage.wide.Fits (total.value * 10) ∧ DecimalStorage.wide.Fits next.value := by
  have present := (value_lt_of_run reached).1
  have below := (value_lt_of_run (run_append_singleton reached stepped)).2
  obtain ⟨digit, value⟩ := value_of_step stepped
  have bound : powerOfTen Decimal.maxDigits = 100000000000000000000000000000000000000 := by decide
  rw [bound] at below
  simp only [DecimalStorage.Fits, DecimalStorage.null, DecimalStorage.greatest]
  omega

end Accumulator

theorem loop?_eq_some_iff {literal : DecimalLiteral} {decimal : Decimal} :
    literal.loop? = some decimal ↔
      ∃ digits, literal.digits? = some digits ∧ literal.fraction.length ≤ Decimal.maxDigits ∧
        Digits.significant digits ≤ Decimal.maxDigits ∧ decimal = literal.withDigits digits := by
  change (if (literal.whole ++ literal.fraction).isEmpty = true ∨
      Decimal.maxDigits < literal.fraction.length then none
    else (Accumulator.run (literal.whole ++ literal.fraction)).bind fun total =>
      some (⟨if literal.negative then -total.value else total.value, literal.fraction.length,
        max (max total.significant literal.fraction.length) 1⟩ : Decimal)) = some decimal ↔ _
  simp only [digits?_eq_some_iff, Option.ite_none_left_eq_some, not_or, Nat.not_lt,
    Option.bind_eq_some_iff, Option.some.injEq, List.isEmpty_iff]
  constructor
  · rintro ⟨⟨nonempty, short⟩, total, reached, rfl⟩
    obtain ⟨digits, read, few, rfl⟩ := Accumulator.run_eq_some_iff.mp reached
    exact ⟨digits, ⟨nonempty, read⟩, short, few, rfl⟩
  · rintro ⟨digits, ⟨nonempty, read⟩, short, few, rfl⟩
    have reached := Accumulator.run_eq_some_iff.mpr ⟨digits, read, few, rfl⟩
    exact ⟨⟨nonempty, short⟩, _, reached, rfl⟩

theorem decimal?_eq_loop? (literal : DecimalLiteral) : literal.decimal? = literal.loop? := by
  ext decimal
  exact decimal?_eq_some_iff.trans loop?_eq_some_iff.symm

theorem Spells.withDigits_eq {text : List Char} {negative : Bool} {whole fraction : List Nat}
    (spells : Spells text negative whole fraction) :
    (ofText text).withDigits (whole ++ fraction) =
      { value := if negative then -(Digits.number (whole ++ fraction) : Int)
          else Digits.number (whole ++ fraction)
        scale := fraction.length
        precision := max 1 (max fraction.length (Digits.significant (whole ++ fraction))) } := by
  rw [spells.ofText_eq, withDigits, List.length_map, Nat.max_comm _ 1, Nat.max_comm _ fraction.length]

theorem decimal?_ofText_eq_some_iff {text : List Char} {decimal : Decimal} :
    (ofText text).decimal? = some decimal ↔
      ∃ negative whole fraction, Spells text negative whole fraction ∧
        fraction.length ≤ Decimal.maxDigits ∧
        Digits.significant (whole ++ fraction) ≤ Decimal.maxDigits ∧
        decimal.value = (if negative then -(Digits.number (whole ++ fraction) : Int)
          else Digits.number (whole ++ fraction)) ∧
        decimal.scale = fraction.length ∧
        decimal.precision = max 1 (max fraction.length (Digits.significant (whole ++ fraction))) := by
  rw [decimal?_eq_some_iff]
  constructor
  · rintro ⟨digits, read, short, few, rfl⟩
    obtain ⟨whole, fraction, spells⟩ := exists_spells read
    obtain rfl := Option.some.inj (read.symm.trans spells.digits?_eq)
    refine ⟨_, whole, fraction, spells, spells.length_fraction ▸ short, few, ?_⟩
    rw [spells.withDigits_eq]
    exact ⟨rfl, rfl, rfl⟩
  · rintro ⟨negative, whole, fraction, spells, short, few, value, scale, precision⟩
    refine ⟨whole ++ fraction, spells.digits?_eq, spells.length_fraction ▸ short, few, ?_⟩
    rw [spells.withDigits_eq, ← value, ← precision, ← scale]

end DecimalLiteral

namespace Decimal

/-- A text reads exactly if it is a literal between blanks with at most thirty-eight digits after the
point and at most thirty-eight significant ones. Its digits give the value, those after the point the
scale, and the precision is the least that covers both. The result is neither NULL nor EMPTY, and a
loop over the digits finds it without leaving 128 bits, whatever the text. -/
theorem ofText_grammar (text : String) :
    (∀ decimal, ofText text = .ok decimal ↔
      ∃ before literal after negative whole fraction,
        text.toList = before ++ literal ++ after ∧
        (∀ character ∈ before, isBlank character = true) ∧
        (∀ character ∈ after, isBlank character = true) ∧
        DecimalLiteral.Spells literal negative whole fraction ∧
        fraction.length ≤ maxDigits ∧ Digits.significant (whole ++ fraction) ≤ maxDigits ∧
        decimal.value = (if negative then -(Digits.number (whole ++ fraction) : Int)
          else Digits.number (whole ++ fraction)) ∧
        decimal.scale = fraction.length ∧
        decimal.precision = max 1 (max fraction.length (Digits.significant (whole ++ fraction)))) ∧
    (∀ error, ofText text = .error error → error = .invalidArgument (.decimalLiteral text)) ∧
    (∀ decimal, ofText text = .ok decimal → decimal.isNull = false ∧ decimal.isEmpty = false) ∧
    (∀ decimal, ofText text = .ok decimal ↔
      (DecimalLiteral.ofText (trimBlank text.toList)).loop? = some decimal) ∧
    ∀ characters total character next, DecimalLiteral.Accumulator.run characters = some total →
      total.step character = some next →
        DecimalStorage.wide.Fits (total.value * 10) ∧ DecimalStorage.wide.Fits next.value := by
  refine ⟨fun decimal => ?grammar, fun _ => ofText_eq_error, fun _ => isNumber_of_ofText,
    fun decimal => ?loop, fun _ _ _ _ => DecimalLiteral.Accumulator.fits_of_step⟩
  case loop => rw [ofText_eq_ok_iff, DecimalLiteral.decimal?_eq_loop?]
  case grammar =>
    rw [ofText_eq_ok_iff, DecimalLiteral.decimal?_ofText_eq_some_iff]
    constructor
    · rintro ⟨negative, whole, fraction, spells, denoted⟩
      obtain ⟨before, after, around, blankBefore, blankAfter⟩ := exists_blanks_around text.toList
      exact ⟨before, _, after, negative, whole, fraction, around, blankBefore, blankAfter, spells,
        denoted⟩
    · rintro ⟨before, literal, after, negative, whole, fraction, around, blankBefore, blankAfter,
        spells, denoted⟩
      rw [around, trimBlank_around blankBefore blankAfter spells.not_blank]
      exact ⟨negative, whole, fraction, spells, denoted⟩

theorem ofText_grammar_blanks :
    ofText " -00.50\t" = .ok ⟨-50, 2, 2⟩ ∧
      (Decimal.mk (-50) 2 2).isNull = false ∧
      DecimalStorage.wide.Fits 0 ∧ DecimalStorage.wide.Fits 5 := by
  obtain ⟨grammar, _, ordinary, _, bounded⟩ := ofText_grammar " -00.50\t"
  have spells : DecimalLiteral.Spells ['-', '0', '0', '.', '5', '0'] true [0, 0] [5, 0] :=
    ⟨⟨_, .minus, DecimalLiteral.body_of_split (by decide) (by decide)⟩, by decide, by decide⟩
  have read : ofText " -00.50\t" = .ok ⟨-50, 2, 2⟩ :=
    (grammar _).mpr ⟨[' '], _, ['\t'], true, [0, 0], [5, 0], by decide,
      List.forall_mem_singleton.mpr rfl, List.forall_mem_singleton.mpr rfl, spells, by decide,
      by decide, by decide, rfl, by decide⟩
  obtain ⟨product, sum⟩ := bounded ['0'] ⟨0, 0⟩ '5' ⟨5, 1⟩ rfl rfl
  exact ⟨read, (ordinary _ read).1, product, sum⟩

end Decimal

end ColumnScan
