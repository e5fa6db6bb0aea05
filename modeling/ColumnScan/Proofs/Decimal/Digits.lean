import Mathlib.Data.List.Induction
import Mathlib.Tactic.Ring
import ColumnScan.Proofs.Decimal.Order

/-!
# Digits and numbers

A number is written in one way without leading zeros, whether digit by digit or in limbs. Padding
only adds zeros, and the digits from the first non-zero one on are as many as the number needs. The
characters of digits, and no others, are read back as digits.
-/

set_option autoImplicit false

namespace ColumnScan

namespace Digits

theorem number_append (digits : List Nat) (digit : Nat) :
    number (digits ++ [digit]) = 10 * number digits + digit := by
  simp only [number, List.foldl_append, List.foldl_cons, List.foldl_nil]

theorem number_append_div (digits : List Nat) {digit : Nat} (small : digit < 10) :
    number (digits ++ [digit]) / 10 = number digits := by
  rw [number_append]
  omega

theorem number_append_mod (digits : List Nat) {digit : Nat} (small : digit < 10) :
    number (digits ++ [digit]) % 10 = digit := by
  rw [number_append]
  omega

theorem number_append_list (left right : List Nat) :
    number (left ++ right) = number left * powerOfTen right.length + number right := by
  induction right using List.reverseRecOn with
  | nil =>
      have nothing : number [] = 0 := rfl
      rw [List.append_nil, List.length_nil, powerOfTen_zero, Nat.mul_one, nothing, Nat.add_zero]
  | append_singleton others last ih =>
      rw [← List.append_assoc, number_append, number_append, ih, List.length_append,
        List.length_singleton, powerOfTen_succ]
      ring

theorem number_cons (digit : Nat) (rest : List Nat) :
    number (digit :: rest) = digit * powerOfTen rest.length + number rest := by
  have single : number [digit] = digit := by
    rw [number, List.foldl_cons, List.foldl_nil, Nat.mul_zero, Nat.zero_add]
  rw [← List.singleton_append, number_append_list, single]

theorem number_cons_ne_zero {first : Nat} (nonzero : first ≠ 0) (rest : List Nat) :
    number (first :: rest) ≠ 0 := by
  have leading : 0 < first * powerOfTen rest.length :=
    Nat.mul_pos (Nat.pos_of_ne_zero nonzero) (powerOfTen_pos _)
  rw [number_cons]
  omega

theorem number_lt {digits : List Nat} (each : ∀ digit ∈ digits, digit < 10) :
    number digits < powerOfTen digits.length := by
  induction digits using List.reverseRecOn with
  | nil => decide
  | append_singleton others last ih =>
      have before := ih fun digit member => each digit (List.mem_append_left _ member)
      have small := each last (List.mem_append_right _ (List.mem_singleton_self last))
      rw [number_append, List.length_append, List.length_singleton, powerOfTen_succ]
      omega

/-- How many digits there are from the first non-zero one on. -/
def significant (digits : List Nat) : Nat := (digits.dropWhile (· == 0)).length

/-- Leading zeros apart, a number has as many digits as it needs. -/
theorem significant_le_iff {digits : List Nat} (each : ∀ digit ∈ digits, digit < 10)
    (count : Nat) :
    significant digits ≤ count ↔ number digits < powerOfTen count := by
  induction digits with
  | nil => exact iff_of_true (Nat.zero_le count) (powerOfTen_pos count)
  | cons first rest ih =>
      cases first with
      | zero =>
          have same : number (0 :: rest) = number rest := rfl
          rw [same]
          exact ih fun digit member => each digit (List.mem_cons_of_mem 0 member)
      | succ before =>
          change rest.length + 1 ≤ count ↔ _
          constructor
          · intro enough
            exact Nat.lt_of_lt_of_le (number_lt each) (powerOfTen_le enough)
          · intro below
            by_contra short
            -- The leading digit alone already weighs too much.
            have fewer : powerOfTen count ≤ powerOfTen rest.length := powerOfTen_le (by omega)
            have leading : powerOfTen rest.length ≤ (before + 1) * powerOfTen rest.length :=
              Nat.le_mul_of_pos_left _ (Nat.succ_pos before)
            rw [number_cons] at below
            omega

theorem significant_append {digits : List Nat} (each : ∀ digit ∈ digits, digit < 10)
    (digit : Nat) :
    significant (digits ++ [digit]) =
      if number digits ≠ 0 ∨ digit ≠ 0 then significant digits + 1 else significant digits := by
  have zero_iff : digits.dropWhile (· == 0) = [] ↔ number digits = 0 := by
    have below := significant_le_iff each 0
    rwa [powerOfTen_zero, Nat.lt_one_iff, Nat.le_zero, significant, List.length_eq_zero_iff] at below
  unfold significant
  rw [List.dropWhile_append]
  by_cases zero : number digits = 0
  · have none := zero_iff.mpr zero
    cases digit with
    | zero => simp [zero, none]
    | succ before => simp [none]
  · have present : ¬(digits.dropWhile (· == 0)).isEmpty = true :=
      fun empty => zero (zero_iff.mp (List.isEmpty_iff.mp empty))
    rw [if_neg present, if_pos (.inl zero), List.length_append, List.length_singleton]

/-- Digit characters that denote a number. -/
inductive Denotes : List Char → Nat → Prop where
  | nil : Denotes [] 0
  | append {characters : List Char} {value digit : Nat} :
      Denotes characters value → digit < 10 →
        Denotes (characters ++ [char digit]) (10 * value + digit)

theorem denotes_ofNat (value : Nat) : Denotes (ofNat value) value := by
  fun_induction ofNat value with
  | case1 value small =>
      have single := Denotes.append .nil small
      simpa only [List.nil_append, Nat.mul_zero, Nat.zero_add] using single
  | case2 value _ ih =>
      have longer := Denotes.append ih (Nat.mod_lt value (by decide : 0 < 10))
      rwa [Nat.div_add_mod] at longer

theorem Denotes.append_padded {characters : List Char} {value : Nat}
    (denotes : Denotes characters value) (count rest : Nat) :
    Denotes (characters ++ padded count rest) (value * powerOfTen count + rest % powerOfTen count) := by
  induction count generalizing rest with
  | zero =>
      simpa only [padded, List.append_nil, powerOfTen_zero, Nat.mul_one, Nat.mod_one,
        Nat.add_zero] using denotes
  | succ count ih =>
      have longer := Denotes.append (ih (rest / 10)) (Nat.mod_lt rest (by decide : 0 < 10))
      have sum : value * powerOfTen (count + 1) + rest % powerOfTen (count + 1) =
          10 * (value * powerOfTen count + rest / 10 % powerOfTen count) + rest % 10 := by
        rw [powerOfTen_succ, Nat.mod_mul]
        ring
      rw [sum, padded, ← List.append_assoc]
      exact longer

theorem Denotes.reads {characters : List Char} {value : Nat} (denotes : Denotes characters value) :
    ∃ digits, characters.mapM value? = some digits ∧ number digits = value ∧
      ∀ digit ∈ digits, digit < 10 := by
  induction denotes with
  | nil => exact ⟨[], rfl, rfl, fun _ member => absurd member List.not_mem_nil⟩
  | @append characters value digit _ small ih =>
      obtain ⟨digits, read, denoted, each⟩ := ih
      refine ⟨digits ++ [digit], ?_, ?_, ?_⟩
      · simp only [List.mapM_append, read, List.mapM_cons, value?_char small, List.mapM_nil,
          Option.pure_def, Option.bind_eq_bind, Option.bind_some]
      · rw [number_append, denoted]
      · intro other member
        rcases List.mem_append.mp member with earlier | last
        · exact each other earlier
        · rw [List.mem_singleton.mp last]
          exact small

theorem Denotes.isSome_value? {characters : List Char} {value : Nat}
    (denotes : Denotes characters value) :
    ∀ character ∈ characters, (value? character).isSome = true := by
  induction denotes with
  | nil => exact fun _ member => absurd member List.not_mem_nil
  | append _ small ih =>
      intro character member
      rcases List.mem_append.mp member with earlier | last
      · exact ih character earlier
      · rw [List.mem_singleton.mp last, value?_char small]
        rfl

theorem ofNat_of_lt {value : Nat} (small : value < 10) : ofNat value = [char value] := by
  rw [ofNat, if_pos small]

theorem ofNat_of_le {value : Nat} (large : 10 ≤ value) :
    ofNat value = ofNat (value / 10) ++ [char (value % 10)] := by
  rw [ofNat, if_neg (Nat.not_lt.mpr large)]

theorem ofNat_ne_nil (value : Nat) : ofNat value ≠ [] := by
  by_cases small : value < 10
  · rw [ofNat_of_lt small]
    exact List.cons_ne_nil _ _
  · rw [ofNat_of_le (Nat.le_of_not_lt small)]
    exact List.append_ne_nil_of_right_ne_nil _ (List.cons_ne_nil _ _)

/-- The digits of a number are those of its leading part and, padded, those of the rest. -/
theorem ofNat_eq_append_padded {count value : Nat} (leading : value / powerOfTen count ≠ 0) :
    ofNat value =
      ofNat (value / powerOfTen count) ++ padded count (value % powerOfTen count) := by
  induction count generalizing value with
  | zero => simp only [powerOfTen_zero, Nat.div_one, padded, List.append_nil]
  | succ count ih =>
      rw [powerOfTen_succ, ← Nat.div_div_eq_div_mul] at leading ⊢
      have large : 10 ≤ value := by
        by_contra small
        rw [Nat.div_eq_of_lt (Nat.lt_of_not_le small), Nat.zero_div] at leading
        exact leading rfl
      have last : value % (10 * powerOfTen count) % 10 = value % 10 := Nat.mod_mul_right_mod _ _ _
      have before : value % (10 * powerOfTen count) / 10 = value / 10 % powerOfTen count :=
        Nat.mod_mul_right_div_self _ _ _
      rw [ofNat_of_le large, ih leading, padded, last, before, List.append_assoc]

theorem padded_zero (count : Nat) : padded count 0 = List.replicate count '0' := by
  induction count with
  | zero => rfl
  | succ count ih =>
      rw [padded, Nat.zero_div, ih, List.replicate_succ']
      rfl

theorem leftpad_ofNat {count value : Nat} (positive : count ≠ 0)
    (below : value < powerOfTen count) :
    List.leftpad count '0' (ofNat value) = padded count value := by
  induction count generalizing value with
  | zero => exact absurd rfl positive
  | succ count ih =>
      by_cases small : value < 10
      · rw [ofNat_of_lt small, padded, Nat.div_eq_of_lt small, Nat.mod_eq_of_lt small, padded_zero]
        rfl
      · rw [powerOfTen_succ] at below
        have shorter : value / 10 < powerOfTen count := by omega
        have more : count ≠ 0 := by
          rintro rfl
          rw [powerOfTen_zero] at shorter
          omega
        rw [ofNat_of_le (Nat.le_of_not_lt small), padded, ← ih more shorter]
        simp only [List.leftpad, List.length_append, List.length_singleton, Nat.add_sub_add_right,
          List.append_assoc]

/-- Limbs are only a way to compute the digits of a number. -/
theorem limbs_eq_ofNat (value : Nat) : limbs value = ofNat value := by
  unfold limbs
  dsimp only
  split
  next high =>
    have middle : value / powerOfTen limbDigits ≠ 0 := by
      intro none
      rw [none, Nat.zero_div] at high
      exact high rfl
    rw [ofNat_eq_append_padded middle, ofNat_eq_append_padded high]
  next noHigh =>
    have high : value / powerOfTen limbDigits / powerOfTen limbDigits = 0 :=
      Decidable.not_not.mp noHigh
    have inMiddle : value / powerOfTen limbDigits % powerOfTen limbDigits =
        value / powerOfTen limbDigits :=
      Nat.mod_eq_of_lt ((Nat.div_eq_zero_iff_lt (powerOfTen_pos limbDigits)).mp high)
    rw [inMiddle]
    split
    next middle => rw [ofNat_eq_append_padded middle]
    next noMiddle =>
      have middle : value / powerOfTen limbDigits = 0 := Decidable.not_not.mp noMiddle
      rw [Nat.mod_eq_of_lt ((Nat.div_eq_zero_iff_lt (powerOfTen_pos limbDigits)).mp middle)]

/-- Every limb of a 128-bit magnitude is a 64-bit word. -/
theorem limbs_fit {value : Nat} (fits : value < LittleEndian.capacity 16) :
    value % powerOfTen limbDigits < LittleEndian.capacity 8 ∧
      value / powerOfTen limbDigits % powerOfTen limbDigits < LittleEndian.capacity 8 ∧
      value / powerOfTen limbDigits / powerOfTen limbDigits < LittleEndian.capacity 8 := by
  have limb : powerOfTen limbDigits = 10000000000000000000 := by decide
  have narrow : LittleEndian.capacity 8 = 18446744073709551616 := by decide
  have wide : LittleEndian.capacity 16 = 340282366920938463463374607431768211456 := by decide
  rw [wide] at fits
  rw [limb, narrow]
  omega

/-- Only the digits of zero start with a zero. -/
theorem eq_zero_of_head?_ofNat {value : Nat} (zero : (ofNat value).head? = some '0') :
    value = 0 := by
  fun_induction ofNat value with
  | case1 value small =>
      have digit := value?_char small
      rw [Option.some.inj zero] at digit
      exact (Option.some.inj digit).symm
  | case2 value large ih =>
      rw [List.head?_append, Option.or_of_isSome (List.isSome_head?.mpr (ofNat_ne_nil _))] at zero
      have leading := ih zero
      omega

/-- Digits without a superfluous zero in front are those of their number. -/
theorem ofNat_number {digits : List Nat} (each : ∀ digit ∈ digits, digit < 10)
    (nonempty : digits ≠ []) (bare : digits.head? = some 0 → digits = [0]) :
    ofNat (number digits) = digits.map char := by
  induction digits using List.reverseRecOn with
  | nil => exact absurd rfl nonempty
  | append_singleton before last ih =>
      have small := each last (List.mem_append_right _ (List.mem_singleton_self last))
      cases before with
      | nil =>
          rw [number_append]
          exact (congrArg ofNat (Nat.zero_add last)).trans (ofNat_of_lt small)
      | cons first rest =>
          have leading : first ≠ 0 := by
            rintro rfl
            have alone := bare rfl
            simp at alone
          have shorter := ih (fun digit member => each digit (List.mem_append_left _ member))
            (List.cons_ne_nil _ _) fun zero => absurd (Option.some.inj zero) leading
          have large : 10 ≤ number (first :: rest ++ [last]) := by
            have positive := number_cons_ne_zero leading rest
            rw [number_append]
            omega
          rw [ofNat_of_le large, number_append_div _ small, number_append_mod _ small, shorter,
            List.map_append]
          rfl

theorem padded_number {digits : List Nat} (each : ∀ digit ∈ digits, digit < 10) :
    padded digits.length (number digits) = digits.map char := by
  induction digits using List.reverseRecOn with
  | nil => rfl
  | append_singleton before last ih =>
      have small := each last (List.mem_append_right _ (List.mem_singleton_self last))
      have shorter := ih fun digit member => each digit (List.mem_append_left _ member)
      rw [List.length_append, List.length_singleton, padded, number_append_div _ small,
        number_append_mod _ small, shorter, List.map_append]
      rfl

theorem value?_eq_some_iff {character : Char} {digit : Nat} :
    value? character = some digit ↔ digit < 10 ∧ character = char digit := by
  constructor
  · intro read
    unfold value? at read
    split at read
    next inside =>
      obtain ⟨lower, upper⟩ := inside
      have least : 48 ≤ character.toNat := lower
      have greatest : character.toNat ≤ 57 := upper
      have value : character.toNat - 48 = digit := Option.some.inj read
      refine ⟨by omega, ?_⟩
      have code : 48 + digit = character.toNat := by omega
      change character = Char.ofNat (48 + digit)
      rw [code, Char.ofNat_toNat]
    next => cases read
  · rintro ⟨small, rfl⟩
    exact value?_char small

theorem mapM_value?_eq_some_iff {characters : List Char} {digits : List Nat} :
    characters.mapM value? = some digits ↔
      (∀ digit ∈ digits, digit < 10) ∧ characters = digits.map char := by
  induction characters generalizing digits with
  | nil =>
      constructor
      · intro read
        cases read
        exact ⟨nofun, rfl⟩
      · rintro ⟨_, none⟩
        rw [List.map_eq_nil_iff.mp none.symm]
        rfl
  | cons first rest ih =>
      simp only [List.mapM_cons, Option.bind_eq_bind, Option.bind_eq_some_iff, Option.pure_def,
        Option.some.injEq]
      constructor
      · rintro ⟨digit, head, others, tail, rfl⟩
        obtain ⟨small, rfl⟩ := value?_eq_some_iff.mp head
        obtain ⟨each, rfl⟩ := ih.mp tail
        exact ⟨List.forall_mem_cons.mpr ⟨small, each⟩, rfl⟩
      · rintro ⟨each, spelled⟩
        cases digits with
        | nil => cases spelled
        | cons digit others =>
            obtain ⟨small, later⟩ := List.forall_mem_cons.mp each
            obtain ⟨rfl, rfl⟩ := List.cons.inj spelled
            exact ⟨digit, value?_char small, others, ih.mpr ⟨later, rfl⟩, rfl⟩

end Digits

end ColumnScan
