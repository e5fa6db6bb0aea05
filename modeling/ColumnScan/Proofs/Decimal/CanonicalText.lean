import ColumnScan.Proofs.Decimal.LiteralGrammar

/-!
# The canonical text of a scaled value

At a given scale there is one canonical text for every value: a minus sign if the value is negative,
digits before the point without superfluous zeros in front, and the digits after the point, as many as
the scale. The text of every 128-bit word that is not reserved is the canonical one, whether or not
its digits are written in limbs and padded.
-/

set_option autoImplicit false

namespace ColumnScan

/-- The canonical text of a value at a scale: a minus sign exactly if the value is negative, digits
without a superfluous zero in front, and, exactly if the scale is positive, a point and as many digits
as the scale. All digits together are those of the magnitude. -/
inductive CanonicalText (value : Int) (scale : Nat) : List Char → Prop where
  | intro {whole fraction : List Nat} :
      (∀ digit ∈ whole ++ fraction, digit < 10) → whole ≠ [] →
      (whole.head? = some 0 → whole = [0]) → fraction.length = scale →
      Digits.number (whole ++ fraction) = value.natAbs →
      CanonicalText value scale ((if value < 0 then ['-'] else []) ++ whole.map Digits.char ++
        if scale = 0 then [] else '.' :: fraction.map Digits.char)

section Canonical

variable {value : Int} {scale : Nat} {text : List Char}

theorem canonicalText_scaledDigits (value : Int) (scale : Nat) :
    CanonicalText value scale (scaledDigits value scale) := by
  obtain ⟨digits, read, number, each⟩ := (DecimalLiteral.denotes_ofScaled value scale).reads
  obtain ⟨_, spelled⟩ := Digits.mapM_value?_eq_some_iff.mp read
  obtain ⟨whole, fraction, rfl, wholeText, fractionText⟩ := List.map_eq_append_iff.mp spelled.symm
  have length : fraction.length = scale := by
    have padded := congrArg List.length fractionText
    rwa [List.length_map, DecimalLiteral.ofScaled, Digits.length_padded] at padded
  rw [scaledDigits_eq]
  change CanonicalText value scale (_ ++ (DecimalLiteral.ofScaled value scale).whole ++
    if scale = 0 then [] else '.' :: (DecimalLiteral.ofScaled value scale).fraction)
  rw [← wholeText, ← fractionText]
  refine .intro each ?nonempty ?bare length number
  case nonempty =>
    rintro rfl
    exact Digits.ofNat_ne_nil _ wholeText.symm
  case bare =>
    intro zero
    have starts : (DecimalLiteral.ofScaled value scale).whole.head? = some '0' := by
      rw [← wholeText, List.head?_map, zero]
      rfl
    have nothing : value.natAbs / powerOfTen scale = 0 := Digits.eq_zero_of_head?_ofNat starts
    have single := congrArg List.length wholeText
    rw [List.length_map, DecimalLiteral.ofScaled, nothing, Digits.ofNat_of_lt (by decide)] at single
    obtain ⟨first, rfl⟩ := List.length_eq_one_iff.mp single
    rw [Option.some.inj zero]

theorem CanonicalText.eq_scaledDigits (canonical : CanonicalText value scale text) :
    text = scaledDigits value scale := by
  obtain ⟨each, nonempty, bare, length, number⟩ := canonical
  next whole fraction =>
    obtain ⟨eachWhole, eachFraction⟩ := List.forall_mem_append.mp each
    have below := Digits.number_lt eachFraction
    rw [Digits.number_append_list] at number
    rw [length] at below number
    have quotient : value.natAbs / powerOfTen scale = Digits.number whole := by
      rw [← number, Nat.mul_comm, Nat.mul_add_div (powerOfTen_pos scale), Nat.div_eq_of_lt below,
        Nat.add_zero]
    have remainder : value.natAbs % powerOfTen scale = Digits.number fraction := by
      rw [← number, Nat.mul_comm, Nat.mul_add_mod, Nat.mod_eq_of_lt below]
    have fractionText := Digits.padded_number eachFraction
    rw [length] at fractionText
    rw [scaledDigits_eq, quotient, remainder, Digits.ofNat_number eachWhole nonempty bare,
      fractionText]

/-- A canonical text is a literal with the sign and the digits of its value. -/
theorem CanonicalText.spells (canonical : CanonicalText value scale text) :
    ∃ whole fraction, DecimalLiteral.Spells text (decide (value < 0)) whole fraction ∧
      Digits.number (whole ++ fraction) = value.natAbs := by
  obtain ⟨each, nonempty, bare, length, number⟩ := canonical
  next whole fraction =>
    refine ⟨whole, fraction, ⟨?_, each, List.append_ne_nil_of_left_ne_nil nonempty _⟩, number⟩
    rw [List.append_assoc]
    refine ⟨whole.map Digits.char ++ if scale = 0 then [] else '.' :: fraction.map Digits.char,
      ?_, ?_⟩
    · by_cases negative : value < 0
      · rw [if_pos negative, decide_eq_true negative]
        exact .minus
      · rw [if_neg negative, decide_eq_false negative]
        exact .unsigned
    · by_cases zero : scale = 0
      · obtain rfl := List.length_eq_zero_iff.mp (length.trans zero)
        rw [if_pos zero, List.append_nil]
        exact .integer
      · rw [if_neg zero]
        exact .pointed

theorem CanonicalText.value_unique {other : Int} (left : CanonicalText value scale text)
    (right : CanonicalText other scale text) : value = other := by
  obtain ⟨whole, fraction, spells, number⟩ := left.spells
  obtain ⟨whole', fraction', spells', number'⟩ := right.spells
  have digits := Option.some.inj (spells.digits?_eq.symm.trans spells'.digits?_eq)
  have magnitude : value.natAbs = other.natAbs := by rw [← number, ← number', digits]
  have sign := congrArg DecimalLiteral.negative (spells.ofText_eq.symm.trans spells'.ofText_eq)
  have negative : value < 0 ↔ other < 0 := decide_eq_decide.mp sign
  omega

end Canonical

theorem wideTextScaled_eq {value : Int} {scale : Nat} (notNull : value ≠ DecimalStorage.wide.null)
    (notEmpty : value ≠ DecimalStorage.wide.empty) (allowed : scale ≤ Decimal.maxDigits) :
    wideTextScaled value scale = .ok (String.ofList (scaledDigits value scale)) := by
  rw [wideTextScaled, if_neg (Nat.not_lt.mpr allowed), wideText, if_neg notNull, if_neg notEmpty]

/-- A 128-bit word that is not reserved has a text at every scale up to thirty-eight. This text is
canonical, no other is, and no other such word has it. -/
theorem wideTextScaled_canonical {value : Int} {scale : Nat}
    (notNull : value ≠ DecimalStorage.wide.null) (notEmpty : value ≠ DecimalStorage.wide.empty)
    (allowed : scale ≤ Decimal.maxDigits) :
    (∃ text, wideTextScaled value scale = .ok text) ∧
      (∀ text, wideTextScaled value scale = .ok text ↔ CanonicalText value scale text.toList) ∧
      ∀ other : Int, other ≠ DecimalStorage.wide.null → other ≠ DecimalStorage.wide.empty →
        wideTextScaled other scale = wideTextScaled value scale → other = value := by
  have rendered := wideTextScaled_eq notNull notEmpty allowed
  refine ⟨⟨_, rendered⟩, fun text => ?canonical, ?injective⟩
  case canonical =>
    rw [rendered, Except.ok.injEq]
    constructor
    · rintro rfl
      rw [String.toList_ofList]
      exact canonicalText_scaledDigits value scale
    · intro canonical
      rw [← canonical.eq_scaledDigits, String.ofList_toList]
  case injective =>
    intro other notNull' notEmpty' same
    rw [rendered, wideTextScaled_eq notNull' notEmpty' allowed, Except.ok.injEq] at same
    have digits : scaledDigits other scale = scaledDigits value scale := by
      simpa only [String.toList_ofList] using congrArg String.toList same
    exact (canonicalText_scaledDigits other scale).value_unique
      (digits ▸ canonicalText_scaledDigits value scale)

theorem wideTextScaled_canonical_limbs :
    let value : Int := -100000000000000000000000000000000000005
    value ≠ DecimalStorage.wide.null ∧ value ≠ DecimalStorage.wide.empty ∧
      wideTextScaled value 2 = .ok "-1000000000000000000000000000000000000.05" ∧
      wideTextScaled (-value) 2 ≠ wideTextScaled value 2 := by
  intro value
  have notNull : value ≠ DecimalStorage.wide.null := by decide
  have notEmpty : value ≠ DecimalStorage.wide.empty := by decide
  obtain ⟨_, canonical, injective⟩ :=
    wideTextScaled_canonical notNull notEmpty (by decide : 2 ≤ Decimal.maxDigits)
  have shape : CanonicalText value 2 "-1000000000000000000000000000000000000.05".toList :=
    @CanonicalText.intro value 2 (1 :: List.replicate 36 0) [0, 5] (by decide) (by decide)
      (by decide) rfl (by decide)
  refine ⟨notNull, notEmpty, (canonical _).mpr shape, fun same => ?_⟩
  exact absurd (injective (-value) (by decide) (by decide) same) (by decide)

end ColumnScan
