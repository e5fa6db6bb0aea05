import ColumnScan.Decimal.Storage

/-!
# When checked operations succeed

A checked sum, difference or product of ordinary values is the exact one, and it is an ordinary
value again. A quotient only has to stay below the greatest word: dividing the greatest word by
minus one is the one division of an ordinary value that gives a reserved word, which is EMPTY.
-/

set_option autoImplicit false

namespace ColumnScan

namespace DecimalStorage

variable {storage : DecimalStorage} {left right result : Int}

theorem Ordinary.fits (ordinary : storage.Ordinary left) : storage.Fits left := by
  obtain ⟨lower, upper⟩ := ordinary
  simp only [least] at lower
  exact ⟨by omega, upper⟩

theorem ordinary_iff : storage.Ordinary left ↔
    storage.Fits left ∧ left ≠ storage.null ∧ left ≠ storage.empty := by
  unfold Ordinary Fits least empty
  omega

theorem least_eq_neg (storage : DecimalStorage) : storage.least = -(storage.greatest - 1) := by
  cases storage <;> rfl

theorem two_le_greatest (storage : DecimalStorage) : 2 ≤ storage.greatest := by
  cases storage <;> decide

/-- The storage of a larger precision keeps what the storage of a smaller one does. -/
theorem Ordinary.mono {precision larger : Nat} (le : precision ≤ larger)
    (ordinary : (ofPrecision precision).Ordinary left) : (ofPrecision larger).Ordinary left := by
  unfold ofPrecision at *
  split
  next narrow =>
    rw [if_pos (Nat.le_trans le narrow)] at ordinary
    exact ordinary
  next =>
    split at ordinary
    next =>
      obtain ⟨lower, upper⟩ := ordinary
      simp only [least, null, greatest] at lower upper
      constructor
      · simp only [least, null]
        omega
      · simp only [greatest]
        omega
    next => exact ordinary

/-- The bounds that checked addition and subtraction compare with. A bound moves by a word towards
zero, and past it by two at most, so it does not wrap, and the side towards which nothing was added
needs no check. -/
theorem refused_iff (moved : Int) (ordinary : storage.Ordinary left)
    (word : moved.natAbs ≤ storage.greatest + 1) :
    (0 < moved ∧ storage.wrap (storage.greatest - moved) < left ∨
        moved < 0 ∧ left < storage.wrap (storage.least - moved)) ↔
      ¬storage.Ordinary (left + moved) := by
  obtain ⟨lower, upper⟩ := ordinary
  have room := storage.two_le_greatest
  have bottom := storage.null_eq_neg
  have least := storage.least_eq_neg
  rcases Int.lt_trichotomy moved 0 with negative | rfl | positive
  · have bound : storage.wrap (storage.least - moved) = storage.least - moved :=
      wrap_of_fits ⟨by omega, by omega⟩
    rw [bound, Ordinary]
    omega
  · rw [Int.add_zero]
    exact iff_of_false (by omega) (not_not_intro ⟨lower, upper⟩)
  · have bound : storage.wrap (storage.greatest - moved) = storage.greatest - moved :=
      wrap_of_fits ⟨by omega, by omega⟩
    rw [bound, Ordinary]
    omega

/-- A word of twice the width has room for every product of two words. -/
theorem product?_eq (leftWord : storage.Fits left) (rightWord : storage.Fits right) :
    storage.product? left right =
      if storage.Fits (left * right) then some (left * right) else none := by
  let half := (storage.greatest + 1).natAbs
  have double : 4 * (half * half) = LittleEndian.capacity (2 * storage.width) := by
    cases storage <;> decide
  have positive : 0 < half * half := by cases storage <;> decide
  have magnitude : (left * right).natAbs ≤ half * half := by
    obtain ⟨leftLower, leftUpper⟩ := leftWord
    obtain ⟨rightLower, rightUpper⟩ := rightWord
    have bottom := storage.null_eq_neg
    rw [Int.natAbs_mul]
    exact Nat.mul_le_mul (by omega) (by omega)
  have exact : (left * right).bmod (LittleEndian.capacity (2 * storage.width)) = left * right := by
    apply Int.bmod_eq_of_le <;> omega
  rw [product?, exact]

/-- What a checked operation answers whose exact result is given: the result if it is an ordinary
value, and else an overflow. -/
def answer (storage : DecimalStorage) (operation : ArithmeticOperation) (exact : Int) :
    Except ScanError Int :=
  if storage.Ordinary exact then .ok exact else .error (storage.overflow operation)

theorem answer_eq_ok_iff {operation : ArithmeticOperation} {exact : Int} :
    storage.answer operation exact = .ok result ↔ storage.Ordinary exact ∧ result = exact := by
  unfold answer
  split
  next ordinary => rw [Except.ok.injEq, and_iff_right ordinary, eq_comm]
  next reserved => exact iff_of_false nofun fun both => reserved both.1

/-- A checked operation that refuses just the results outside the ordinary values, and reduces the
others, gives them as they are. -/
theorem answer_eq_wrap {operation : ArithmeticOperation} {exact : Int} {refused : Prop}
    [Decidable refused] (outside : refused ↔ ¬storage.Ordinary exact) :
    (if refused then .error (storage.overflow operation) else .ok (storage.wrap exact)) =
      storage.answer operation exact := by
  unfold answer
  by_cases ordinary : storage.Ordinary exact
  · rw [if_neg fun holds => outside.mp holds ordinary, if_pos ordinary,
      wrap_of_fits ordinary.fits]
  · rw [if_pos (outside.mpr ordinary), if_neg ordinary]

theorem Fits.natAbs_le (word : storage.Fits right) : right.natAbs ≤ storage.greatest + 1 := by
  obtain ⟨lower, upper⟩ := word
  have bottom := storage.null_eq_neg
  omega

theorem add_checked_eq (ordinary : storage.Ordinary left) (word : storage.Fits right) :
    storage.add .checked left right = storage.answer .add (left + right) := by
  rw [add]
  apply answer_eq_wrap
  rw [eq_self, true_and]
  exact refused_iff right ordinary word.natAbs_le

/-- To subtract is to add the opposite, although the opposite of NULL is no word. -/
theorem subtract_checked_eq (ordinary : storage.Ordinary left) (word : storage.Fits right) :
    storage.subtract .checked left right = storage.answer .subtract (left - right) := by
  have magnitude : (-right).natAbs ≤ storage.greatest + 1 := by
    rw [Int.natAbs_neg]
    exact word.natAbs_le
  have opposite := refused_iff (-right) ordinary magnitude
  rw [Int.sub_neg, Int.sub_neg, ← Int.sub_eq_add_neg] at opposite
  rw [subtract]
  apply answer_eq_wrap
  rw [eq_self, true_and, ← opposite]
  omega

theorem multiply_checked_eq (leftWord : storage.Fits left) (rightWord : storage.Fits right) :
    storage.multiply .checked left right = storage.answer .multiply (left * right) := by
  rw [multiply, product?_eq leftWord rightWord]
  unfold answer
  by_cases fits : storage.Fits (left * right)
  · have reserved : storage.least ≤ left * right ↔ storage.Ordinary (left * right) :=
      (and_iff_left fits.2).symm
    simp only [if_pos fits, reserved]
  · have outside : ¬storage.Ordinary (left * right) := fun ordinary => fits ordinary.fits
    simp only [if_neg fits, if_neg outside]

theorem add_eq_ok_iff (ordinary : storage.Ordinary left) (word : storage.Fits right) :
    storage.add .checked left right = .ok result ↔
      storage.Ordinary (left + right) ∧ result = left + right := by
  rw [add_checked_eq ordinary word, answer_eq_ok_iff]

theorem subtract_eq_ok_iff (ordinary : storage.Ordinary left) (word : storage.Fits right) :
    storage.subtract .checked left right = .ok result ↔
      storage.Ordinary (left - right) ∧ result = left - right := by
  rw [subtract_checked_eq ordinary word, answer_eq_ok_iff]

theorem multiply_eq_ok_iff (leftWord : storage.Fits left) (rightWord : storage.Fits right) :
    storage.multiply .checked left right = .ok result ↔
      storage.Ordinary (left * right) ∧ result = left * right := by
  rw [multiply_checked_eq leftWord rightWord, answer_eq_ok_iff]

theorem divide_eq_ok_iff : storage.divide .checked left right = .ok result ↔
    right ≠ 0 ∧ left.tdiv right ≤ storage.greatest ∧ result = left.tdiv right := by
  unfold divide
  split
  next zero => exact iff_of_false nofun fun all => all.1 zero
  next nonzero =>
    dsimp only
    split
    next fits => rw [Except.ok.injEq, and_iff_right nonzero, and_iff_right fits, eq_comm]
    next large => exact iff_of_false nofun fun all => large all.2.1

theorem within_eq_ok_iff {operation : ArithmeticOperation}
    {compute : Int → Int → Except ScanError Int} :
    storage.within operation compute left right = .ok result ↔
      storage.Fits left ∧ storage.Fits right ∧ compute left right = .ok result := by
  unfold within
  split
  next words => rw [and_iff_right words.1, and_iff_right words.2]
  next unfit => exact iff_of_false nofun fun all => unfit ⟨all.1, all.2.1⟩

/-- A quotient has at most the magnitude of its dividend, and the greatest magnitude only belongs to
the greatest word. -/
theorem ordinary_tdiv (ordinary : storage.Ordinary left)
    (notEdge : ¬(left = storage.greatest ∧ right = -1)) : storage.Ordinary (left.tdiv right) := by
  obtain ⟨lower, upper⟩ := ordinary
  have magnitude := Int.natAbs_tdiv_le_natAbs left right
  rw [least_eq_neg] at lower
  rw [Ordinary, least_eq_neg]
  by_cases top : left = storage.greatest
  · have positive : 0 < storage.greatest := by cases storage <;> decide
    by_cases negative : right < 0
    · have divisor : 1 < right.natAbs := by omega
      have smaller : (left.tdiv right).natAbs < left.natAbs := by
        rw [Int.natAbs_tdiv]
        exact Nat.div_lt_self (by omega) divisor
      omega
    · have quotient := Int.tdiv_nonneg (a := left) (b := right) (by omega) (by omega)
      omega
  · omega

theorem tdiv_greatest (storage : DecimalStorage) :
    storage.greatest.tdiv (-1) = storage.empty := by
  cases storage <;> rfl

end DecimalStorage

end ColumnScan
