import ColumnScan.Column.Collation

/-!
# LIKE patterns

A pattern is a sequence of elements: any run of bytes (`%`), any one byte (`_`), or one given byte.
A backslash makes the byte after it a given byte; a backslash at the very end stands for itself.

Subject and pattern are read from left to right. A run is taken to be empty at first. When the match
fails behind it, it is made one byte longer and the match goes on from there; only the last run is
remembered, so the runs before it are never changed again.
-/

set_option autoImplicit false

namespace ColumnScan

/-- The rest of a pattern after its first element, if that element accepts the byte. A run is no
element here. -/
def likeRest? (collation : Collation) (byte : UInt8) : Bytes → Option Bytes
  | [] => none
  | 0x5F :: rest => some rest
  | 0x5C :: escaped :: rest =>
      if collation.fold escaped = collation.fold byte then some rest else none
  | first :: rest => if collation.fold first = collation.fold byte then some rest else none

theorem length_lt_of_likeRest? {collation : Collation} {byte : UInt8} {pattern rest : Bytes}
    (accepted : likeRest? collation byte pattern = some rest) : rest.length < pattern.length := by
  unfold likeRest? at accepted
  split at accepted
  next => cases accepted
  next =>
    cases accepted
    exact Nat.lt_succ_self _
  next escaped _ =>
    obtain ⟨_, shape⟩ := Option.ite_none_right_eq_some.mp accepted
    cases shape
    exact Nat.lt_succ_of_lt (Nat.lt_succ_self _)
  next =>
    obtain ⟨_, shape⟩ := Option.ite_none_right_eq_some.mp accepted
    cases shape
    exact Nat.lt_succ_self _

/-- A run that a match has passed. -/
structure LikeRun where
  /-- The pattern behind the run. -/
  pattern : Bytes
  /-- The subject from where the run ends. -/
  subject : Bytes

/-- How far a match has come. -/
structure LikeState where
  subject : Bytes
  pattern : Bytes
  lastRun : Option LikeRun
  /-- The match stands behind the last run. -/
  behind_lastRun : ∀ run ∈ lastRun,
    pattern.length ≤ run.pattern.length ∧ subject.length ≤ run.subject.length

namespace LikeState

def start (subject pattern : Bytes) : LikeState where
  subject
  pattern
  lastRun := none
  behind_lastRun := nofun

/-- The match goes on behind a run. -/
def behind (run : LikeRun) : LikeState where
  subject := run.subject
  pattern := run.pattern
  lastRun := some run
  behind_lastRun := by
    rintro _ ⟨⟩
    exact ⟨Nat.le_refl _, Nat.le_refl _⟩

/-- One turn of the match: its outcome, or how far it has come. -/
def turn (collation : Collation) (state : LikeState) : Bool ⊕ LikeState :=
  match read : state.subject with
  | [] => .inl (state.pattern.all (· == 0x25))
  | byte :: more =>
      match state.pattern with
      | 0x25 :: rest => .inr (behind { pattern := rest, subject := state.subject })
      | _ =>
          match accepted : likeRest? collation byte state.pattern with
          | some rest =>
              .inr { state with
                subject := more
                pattern := rest
                behind_lastRun := fun run last => by
                  have bounds := state.behind_lastRun run last
                  have shorter := length_lt_of_likeRest? accepted
                  rw [read, List.length_cons] at bounds
                  omega }
          | none =>
              match state.lastRun with
              | some run => .inr (behind { run with subject := run.subject.tail })
              | none => .inl false

/-- What a turn does: the subject has ended, a run is passed, an element accepts a byte, the last run
is made longer, or there is none and the match fails. -/
theorem turn_cases (collation : Collation) (state : LikeState) :
    state.subject = [] ∧ state.turn collation = .inl (state.pattern.all (· == 0x25)) ∨
      ∃ byte more, state.subject = byte :: more ∧
        ((∃ rest, state.pattern = 0x25 :: rest ∧
            state.turn collation = .inr (behind { pattern := rest, subject := state.subject })) ∨
          state.pattern.head? ≠ some 0x25 ∧
            ((∃ rest next, likeRest? collation byte state.pattern = some rest ∧
                state.turn collation = .inr next ∧ next.subject = more ∧ next.pattern = rest ∧
                next.lastRun = state.lastRun) ∨
              likeRest? collation byte state.pattern = none ∧
                ((∃ run, state.lastRun = some run ∧ state.turn collation =
                    .inr (behind { run with subject := run.subject.tail })) ∨
                  state.lastRun = none ∧ state.turn collation = .inl false))) := by
  unfold turn
  split
  next ended => exact .inl ⟨ended, rfl⟩
  next byte more read =>
    refine .inr ⟨byte, more, read, ?_⟩
    split
    next rest passed => exact .inl ⟨rest, passed, rfl⟩
    next notRun =>
      refine .inr ⟨fun first => ?_, ?_⟩
      · obtain ⟨rest, shape⟩ := List.head?_eq_some_iff.mp first
        exact notRun rest shape
      split
      next rest accepted => exact .inl ⟨rest, _, accepted, rfl, rfl, rfl, rfl⟩
      next refused =>
        refine .inr ⟨refused, ?_⟩
        split
        next run last => exact .inl ⟨run, last, rfl⟩
        next none => exact .inr ⟨none, rfl⟩

/-- From where the match has come since it last passed a run, or else from the start. -/
def origin (state : LikeState) : LikeRun :=
  state.lastRun.getD { pattern := state.pattern, subject := state.subject }

theorem length_le_origin (state : LikeState) :
    state.pattern.length ≤ state.origin.pattern.length ∧
      state.subject.length ≤ state.origin.subject.length := by
  unfold origin
  cases last : state.lastRun with
  | none => exact ⟨Nat.le_refl _, Nat.le_refl _⟩
  | some run => exact state.behind_lastRun run last

/-- The most turns after which the match goes on. -/
def turnsLeft (state : LikeState) : Nat :=
  state.pattern.length + state.origin.subject.length * (state.origin.pattern.length + 1)

theorem turnsLeft_lt_of_turn {collation : Collation} {state next : LikeState}
    (turned : state.turn collation = .inr next) : next.turnsLeft < state.turnsLeft := by
  obtain ⟨_, ended⟩ | ⟨byte, more, read, passed | ⟨_, accepted | ⟨_, retried | ⟨_, failed⟩⟩⟩⟩ :=
    turn_cases collation state
  · cases ended.symm.trans turned
  · obtain ⟨rest, shape, goesOn⟩ := passed
    cases goesOn.symm.trans turned
    have bounds := state.length_le_origin
    rw [shape, List.length_cons] at bounds
    have smaller : state.subject.length * (rest.length + 1) ≤
        state.origin.subject.length * (state.origin.pattern.length + 1) :=
      Nat.mul_le_mul bounds.2 (Nat.le_succ_of_le bounds.1)
    simp only [turnsLeft, origin, behind, Option.getD_some, shape, List.length_cons] at smaller ⊢
    omega
  · obtain ⟨rest, after, taken, goesOn, subject, pattern, lastRun⟩ := accepted
    cases goesOn.symm.trans turned
    have shorter := length_lt_of_likeRest? taken
    unfold turnsLeft origin
    rw [subject, pattern, lastRun]
    cases state.lastRun with
    | none =>
        have smaller : more.length * (rest.length + 1) ≤
            state.subject.length * (state.pattern.length + 1) :=
          Nat.mul_le_mul (by simp [read]) (Nat.le_succ_of_le shorter)
        simp only [Option.getD_none]
        omega
    | some run => exact Nat.add_lt_add_right shorter _
  · obtain ⟨run, last, goesOn⟩ := retried
    cases goesOn.symm.trans turned
    have bounds := (state.behind_lastRun run last).2
    rw [read, List.length_cons] at bounds
    have longer : run.subject.length = run.subject.tail.length + 1 := by
      rw [List.length_tail]
      omega
    simp only [turnsLeft, origin, behind, last, Option.getD_some]
    rw [longer, Nat.succ_mul]
    omega
  · cases failed.symm.trans turned

/-- The outcome of a match. -/
def outcome (collation : Collation) (state : LikeState) : Bool :=
  match turned : state.turn collation with
  | .inl verdict => verdict
  | .inr next =>
      have := turnsLeft_lt_of_turn turned
      next.outcome collation
termination_by state.turnsLeft

theorem outcome_of_inl {collation : Collation} {state : LikeState} {verdict : Bool}
    (turned : state.turn collation = .inl verdict) : state.outcome collation = verdict := by
  unfold outcome
  split
  next ended => exact Sum.inl.inj (ended.symm.trans turned)
  next goesOn => cases goesOn.symm.trans turned

theorem outcome_of_inr {collation : Collation} {state next : LikeState}
    (turned : state.turn collation = .inr next) :
    state.outcome collation = next.outcome collation := by
  rw [outcome]
  split
  next ended => cases ended.symm.trans turned
  next goesOn => exact congrArg (outcome collation) (Sum.inr.inj (goesOn.symm.trans turned))

end LikeState

/-- Whether a subject matches a pattern. NUL padding at the end of either is ignored under every
collation. -/
def Collation.like (collation : Collation) (subject pattern : Bytes) : Bool :=
  (LikeState.start (Collation.binary.trim subject) (Collation.binary.trim pattern)).outcome collation

end ColumnScan
