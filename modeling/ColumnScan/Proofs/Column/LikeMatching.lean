import Mathlib.Data.List.DropRight
import ColumnScan.Column.LikePattern

/-!
# What LIKE matches

`LikeMatches` gives the meaning of a pattern without saying how a match is found. A match that
remembers only the last run finds every one: between that run and the place where the match fails
every element takes one byte, so if an earlier run could be made longer, so could the last one.
-/

set_option autoImplicit false

namespace ColumnScan

/-- A pattern and a subject that it matches. -/
inductive LikeMatches (collation : Collation) : (pattern subject : Bytes) → Prop where
  | nil : LikeMatches collation [] []
  | run {rest subject : Bytes} (skipped : Bytes) :
      LikeMatches collation rest subject →
      LikeMatches collation (0x25 :: rest) (skipped ++ subject)
  | anyByte {rest subject : Bytes} (byte : UInt8) :
      LikeMatches collation rest subject → LikeMatches collation (0x5F :: rest) (byte :: subject)
  | escaped {given byte : UInt8} {rest subject : Bytes} :
      collation.fold given = collation.fold byte → LikeMatches collation rest subject →
      LikeMatches collation (0x5C :: given :: rest) (byte :: subject)
  | loneEscape {byte : UInt8} :
      collation.fold 0x5C = collation.fold byte → LikeMatches collation [0x5C] [byte]
  | literal {given byte : UInt8} {rest subject : Bytes} :
      given ≠ 0x25 → given ≠ 0x5F → given ≠ 0x5C → collation.fold given = collation.fold byte →
      LikeMatches collation rest subject → LikeMatches collation (given :: rest) (byte :: subject)

variable {collation : Collation} {pattern subject rest more : Bytes} {byte : UInt8}

theorem likeMatches_run_iff :
    LikeMatches collation (0x25 :: rest) subject ↔
      ∃ count, LikeMatches collation rest (subject.drop count) := by
  constructor
  · intro matched
    cases matched with
    | run skipped matched =>
        refine ⟨skipped.length, ?_⟩
        rwa [List.drop_left]
    | literal notRun => exact absurd rfl notRun
  · rintro ⟨count, matched⟩
    rw [← List.take_append_drop count subject]
    exact .run _ matched

/-- A run is empty, or its first byte can be dropped. -/
theorem likeMatches_run_iff_tail :
    LikeMatches collation (0x25 :: rest) subject ↔
      LikeMatches collation rest subject ∨ LikeMatches collation (0x25 :: rest) subject.tail := by
  constructor
  · intro matched
    obtain ⟨count, matched⟩ := likeMatches_run_iff.mp matched
    cases count with
    | zero => exact .inl matched
    | succ count =>
        refine .inr (likeMatches_run_iff.mpr ⟨count, ?_⟩)
        rwa [List.drop_tail]
  · rintro (matched | matched)
    · exact .run [] matched
    · obtain ⟨count, matched⟩ := likeMatches_run_iff.mp matched
      rw [List.drop_tail] at matched
      exact likeMatches_run_iff.mpr ⟨count + 1, matched⟩

/-- Only runs match an empty subject. -/
theorem likeMatches_nil_iff :
    LikeMatches collation pattern [] ↔ pattern.all (· == 0x25) = true := by
  induction pattern with
  | nil => exact iff_of_true .nil rfl
  | cons first rest ih =>
      rw [List.all_cons, Bool.and_eq_true, beq_iff_eq, ← ih]
      constructor
      · intro matched
        generalize ended : ([] : Bytes) = subject at matched
        cases matched with
        | run skipped matched =>
            obtain ⟨rfl, rfl⟩ := List.append_eq_nil_iff.mp ended.symm
            exact ⟨rfl, matched⟩
        | anyByte | escaped | loneEscape | literal => cases ended
      · rintro ⟨rfl, matched⟩
        exact .run [] matched

/-- An element that is no run takes exactly one byte. -/
theorem likeMatches_cons_iff (notRun : pattern.head? ≠ some 0x25) :
    LikeMatches collation pattern (byte :: more) ↔
      ∃ rest, likeRest? collation byte pattern = some rest ∧ LikeMatches collation rest more := by
  constructor
  · intro matched
    generalize read : byte :: more = subject at matched
    cases matched with
    | nil => cases read
    | run => exact absurd rfl notRun
    | anyByte _ matched =>
        cases read
        exact ⟨_, rfl, matched⟩
    | escaped same matched =>
        cases read
        exact ⟨_, if_pos same, matched⟩
    | loneEscape same =>
        cases read
        exact ⟨[], if_pos same, .nil⟩
    | literal _ notAny notEscape same matched =>
        cases read
        refine ⟨_, ?_, matched⟩
        unfold likeRest?
        split <;> simp_all
  · rintro ⟨rest, accepted, matched⟩
    unfold likeRest? at accepted
    split at accepted
    next => cases accepted
    next =>
      cases accepted
      exact .anyByte byte matched
    next given after =>
      obtain ⟨same, shape⟩ := Option.ite_none_right_eq_some.mp accepted
      cases shape
      exact .escaped same matched
    next first _ notAny notEscaped =>
      obtain ⟨same, shape⟩ := Option.ite_none_right_eq_some.mp accepted
      cases shape
      by_cases escape : first = 0x5C
      · subst escape
        -- A backslash with a byte after it was the case before.
        cases rest with
        | nil =>
            cases matched
            exact .loneEscape same
        | cons given rest => exact (notEscaped given rest rfl rfl).elim
      · have notRunByte : first ≠ 0x25 := fun isRun => notRun (congrArg some isRun)
        exact .literal notRunByte notAny escape same matched

/-- Which byte an element takes makes no difference to the rest of the pattern. -/
theorem likeRest?_congr {first second : UInt8} {left right : Bytes}
    (accepted : likeRest? collation first pattern = some left)
    (other : likeRest? collation second pattern = some right) : left = right := by
  unfold likeRest? at accepted other
  split at accepted <;> simp_all

theorem LikeMatches.tail (matched : LikeMatches collation pattern subject)
    (notRun : pattern.head? ≠ some 0x25)
    (accepted : likeRest? collation byte pattern = some rest) :
    LikeMatches collation rest subject.tail := by
  cases subject with
  | nil =>
      cases pattern with
      | nil => cases accepted
      | cons first after =>
          have runs := likeMatches_nil_iff.mp matched
          rw [List.all_cons, Bool.and_eq_true, beq_iff_eq] at runs
          exact absurd (congrArg some runs.1) notRun
  | cons first more =>
      obtain ⟨other, acceptedFirst, matched⟩ := (likeMatches_cons_iff notRun).mp matched
      rwa [likeRest?_congr accepted acceptedFirst]

namespace LikeState

/-- The pattern matches from here: as far as the match has come, or with a longer last run. -/
def Succeeds (collation : Collation) (state : LikeState) : Prop :=
  LikeMatches collation state.pattern state.subject ∨
    ∃ run ∈ state.lastRun, LikeMatches collation (0x25 :: run.pattern) run.subject.tail

/-- Every element since the last run took one byte: what matches behind that run when it is longer
by some bytes, matches as many bytes later from here. -/
def Follows (collation : Collation) (state : LikeState) : Prop :=
  ∀ run ∈ state.lastRun, ∀ count,
    LikeMatches collation run.pattern (run.subject.drop count) →
      LikeMatches collation state.pattern (state.subject.drop count)

variable {state next : LikeState}

theorem follows_start (subject pattern : Bytes) : (start subject pattern).Follows collation :=
  nofun

theorem follows_behind (run : LikeRun) : (behind run).Follows collation := by
  rintro _ ⟨⟩ count matched
  exact matched

theorem Follows.turn (follows : state.Follows collation)
    (turned : state.turn collation = .inr next) : next.Follows collation := by
  obtain ⟨_, ended⟩ | ⟨byte, more, read, passed | ⟨notRun, accepted | ⟨_, retried | ⟨_, failed⟩⟩⟩⟩ :=
    turn_cases collation state
  · cases ended.symm.trans turned
  · obtain ⟨rest, _, goesOn⟩ := passed
    cases goesOn.symm.trans turned
    exact follows_behind _
  · obtain ⟨rest, after, taken, goesOn, subject, pattern, lastRun⟩ := accepted
    cases goesOn.symm.trans turned
    intro run last count matched
    have later := (follows run (lastRun ▸ last) count matched).tail notRun taken
    rwa [read, List.tail_drop, List.drop_succ_cons, ← subject, ← pattern] at later
  · obtain ⟨run, _, goesOn⟩ := retried
    cases goesOn.symm.trans turned
    exact follows_behind _
  · cases failed.symm.trans turned

/-- A turn that ends the match tells whether it succeeds. -/
theorem Follows.verdict (follows : state.Follows collation) {verdict : Bool}
    (turned : state.turn collation = .inl verdict) :
    verdict = true ↔ state.Succeeds collation := by
  obtain ⟨read, ended⟩ |
    ⟨byte, more, read, ⟨_, _, goesOn⟩ | ⟨notRun, ⟨_, _, _, goesOn, _⟩ |
      ⟨refused, ⟨_, _, goesOn⟩ | ⟨none, failed⟩⟩⟩⟩ := turn_cases collation state
  · cases ended.symm.trans turned
    rw [← likeMatches_nil_iff, Succeeds, read]
    constructor
    · exact .inl
    · rintro (matched | ⟨run, last, longer⟩)
      · exact matched
      · obtain ⟨count, matched⟩ := likeMatches_run_iff.mp longer
        rw [List.drop_tail] at matched
        have here := follows run last _ matched
        rwa [read, List.drop_nil] at here
  · cases goesOn.symm.trans turned
  · cases goesOn.symm.trans turned
  · cases goesOn.symm.trans turned
  · cases failed.symm.trans turned
    rw [Succeeds, none, read, likeMatches_cons_iff notRun, refused]
    simp only [reduceCtorEq, Option.mem_def, false_and, exists_false, or_false, Bool.false_eq_true]

theorem succeeds_behind (run : LikeRun) :
    (behind run).Succeeds collation ↔ LikeMatches collation (0x25 :: run.pattern) run.subject := by
  rw [likeMatches_run_iff_tail]
  simp only [Succeeds, behind, Option.mem_def, Option.some.injEq, exists_eq_left']

/-- A turn neither finds nor loses a match: to forget an earlier run is no loss, because the later one
can take over the bytes that the earlier one could still take. -/
theorem Follows.succeeds_turn (follows : state.Follows collation)
    (turned : state.turn collation = .inr next) :
    next.Succeeds collation ↔ state.Succeeds collation := by
  obtain ⟨_, ended⟩ | ⟨byte, more, read, passed | ⟨notRun, accepted | ⟨refused, retried | ⟨_, failed⟩⟩⟩⟩ :=
    turn_cases collation state
  · cases ended.symm.trans turned
  · obtain ⟨rest, shape, goesOn⟩ := passed
    cases goesOn.symm.trans turned
    rw [succeeds_behind, Succeeds, shape]
    constructor
    · exact .inl
    · rintro (matched | ⟨run, last, longer⟩)
      · exact matched
      · obtain ⟨count, matched⟩ := likeMatches_run_iff.mp longer
        rw [List.drop_tail] at matched
        have later := follows run last _ matched
        rw [shape] at later
        obtain ⟨further, matched⟩ := likeMatches_run_iff.mp later
        rw [List.drop_drop] at matched
        exact likeMatches_run_iff.mpr ⟨_, matched⟩
  · obtain ⟨rest, after, taken, goesOn, subject, pattern, lastRun⟩ := accepted
    cases goesOn.symm.trans turned
    rw [Succeeds, Succeeds, subject, pattern, lastRun, read, likeMatches_cons_iff notRun, taken]
    simp only [Option.some.injEq, exists_eq_left']
  · obtain ⟨run, last, goesOn⟩ := retried
    cases goesOn.symm.trans turned
    rw [succeeds_behind, Succeeds, last, read, likeMatches_cons_iff notRun, refused]
    simp only [reduceCtorEq, false_and, exists_false, false_or, Option.mem_def, Option.some.injEq,
      exists_eq_left']
  · cases failed.symm.trans turned

theorem Follows.outcome_iff (follows : state.Follows collation) :
    state.outcome collation = true ↔ state.Succeeds collation := by
  induction state using outcome.induct collation with
  | case1 state verdict turned =>
      rw [outcome_of_inl turned]
      exact follows.verdict turned
  | case2 state next turned _ ih =>
      rw [outcome_of_inr turned]
      exact (ih (follows.turn turned)).trans (follows.succeeds_turn turned)

/-- The state after a number of turns, or the outcome if the match has ended by then. -/
def after (collation : Collation) : Nat → LikeState → Bool ⊕ LikeState
  | 0, state => .inr state
  | turns + 1, state => (state.turn collation).elim .inl (after collation turns)

theorem after_eq_outcome (collation : Collation) {turns : Nat}
    (enough : state.turnsLeft < turns) :
    after collation turns state = .inl (state.outcome collation) := by
  induction turns generalizing state with
  | zero => exact absurd enough (Nat.not_lt_zero _)
  | succ turns ih =>
      cases turned : state.turn collation with
      | inl verdict => rw [after, outcome_of_inl turned, turned, Sum.elim_inl]
      | inr next =>
          have fewer := turnsLeft_lt_of_turn turned
          rw [after, outcome_of_inr turned, turned, Sum.elim_inr, ih (by omega)]

end LikeState

/-- Whatever NUL bytes stand at their ends, LIKE holds exactly of the subjects that the pattern means.
The match ends, at the latest when every element of the pattern has been tried at every place of the
subject. -/
theorem Collation.like_exact (collation : Collation) (subject pattern : Bytes) :
    let text := subject.rdropWhile (· == 0)
    let wanted := pattern.rdropWhile (· == 0)
    (collation.like subject pattern = true ↔ LikeMatches collation wanted text) ∧
      LikeState.after collation ((text.length + 1) * (wanted.length + 1)) (.start text wanted) =
        .inl (collation.like subject pattern) := by
  intro text wanted
  constructor
  · refine (LikeState.follows_start text wanted).outcome_iff.trans ?_
    -- Before the first run there is none that could be made longer.
    exact or_iff_left nofun
  · refine LikeState.after_eq_outcome collation ?_
    simp only [LikeState.turnsLeft, LikeState.origin, LikeState.start, Option.getD_none]
    rw [Nat.succ_mul]
    omega

/-- The run has to be made longer twice, once after its first byte was taken for the literal. -/
example :
    LikeState.after .caseInsensitive 15 (.start [0x61, 0x63, 0x61, 0x42] [0x25, 0x61, 0x62]) =
      .inl true :=
  rfl

end ColumnScan
