import ColumnScan.Proofs.Filter.Equality
import ColumnScan.Proofs.Filter.LaneOrder
import ColumnScan.Proofs.Scan.Exactness

/-!
# The reported extent

A scan that reports the least and the greatest value of its block considers every ordinary value in
it, whatever the filter. No value stands below the one or above the other in the order of the
column. Where predicates follow that order, a block may be passed over if a filter accepts nothing
between the bounds.
-/

set_option autoImplicit false

namespace ColumnScan

namespace Extent

/-- A bound after one more lane, which takes its place if it comes sooner. -/
def sharpen (sooner : Int → Int → Bool) (bound : Option Int) (lane : Int) : Option Int :=
  match bound with
  | none => some lane
  | some bound => some (if sooner lane bound then lane else bound)

/-- A strict weak order of lanes. -/
structure Ranks (sooner : Int → Int → Bool) : Prop where
  asymmetric : ∀ left right, sooner left right = true → sooner right left = false
  transitive : ∀ left middle right,
    sooner left middle = false → sooner middle right = false → sooner left right = false

theorem ranks_less (comparator : Comparator) :
    Ranks fun left right => comparator.order left right == .lt := by
  constructor
  · intro left right before
    have swapped : comparator.order right left = (comparator.order left right).swap :=
      Std.OrientedCmp.eq_swap
    rw [swapped, beq_iff_eq.mp before]
    rfl
  · intro left middle right
    simp only [beq_eq_false_iff_ne, ne_eq, Ordering.ne_lt_iff_isGE]
    exact Std.TransCmp.isGE_trans

theorem ranks_greater (comparator : Comparator) :
    Ranks fun left right => comparator.order left right == .gt := by
  constructor
  · intro left right before
    have swapped : comparator.order right left = (comparator.order left right).swap :=
      Std.OrientedCmp.eq_swap
    rw [swapped, beq_iff_eq.mp before]
    rfl
  · intro left middle right
    simp only [beq_eq_false_iff_ne, ne_eq, Ordering.ne_gt_iff_isLE]
    exact Std.TransCmp.isLE_trans

theorem Ranks.exists_foldl_sharpen {sooner : Int → Int → Bool} (ranks : Ranks sooner) (first : Int)
    (lanes : List Int) :
    ∃ bound, lanes.foldl (sharpen sooner) (some first) = some bound ∧ bound ∈ first :: lanes ∧
      ∀ lane ∈ first :: lanes, sooner lane bound = false := by
  have irreflexive : ∀ lane, sooner lane lane = false := by
    intro lane
    cases before : sooner lane lane with
    | false => rfl
    | true =>
        have opposite := ranks.asymmetric lane lane before
        rwa [before] at opposite
  -- The bound so far stands for the lanes before it, so it has to be general.
  induction lanes generalizing first with
  | nil =>
      refine ⟨first, rfl, List.mem_cons_self, fun lane member => ?_⟩
      rw [List.mem_singleton.mp member]
      exact irreflexive first
  | cons lane rest ih =>
      cases before : sooner lane first with
      | true =>
          obtain ⟨bound, folded, member, least⟩ := ih lane
          refine ⟨bound, ?_, List.mem_cons_of_mem first member, ?_⟩
          · simpa only [List.foldl_cons, sharpen, before, ↓reduceIte] using folded
          · intro other present
            rcases List.mem_cons.mp present with rfl | later
            · exact ranks.transitive other lane bound (ranks.asymmetric lane other before)
                (least lane List.mem_cons_self)
            · exact least other later
      | false =>
          obtain ⟨bound, folded, member, least⟩ := ih first
          refine ⟨bound, ?_, ?_, ?_⟩
          · simpa only [List.foldl_cons, sharpen, before, Bool.false_eq_true, ↓reduceIte] using folded
          · rcases List.mem_cons.mp member with rfl | later
            · exact List.mem_cons_self
            · exact List.mem_cons_of_mem first (List.mem_cons_of_mem lane later)
          · intro other present
            rcases List.mem_cons.mp present with rfl | later
            · exact least other List.mem_cons_self
            rcases List.mem_cons.mp later with rfl | later
            · exact ranks.transitive other first bound before (least first List.mem_cons_self)
            · exact least other (List.mem_cons_of_mem first later)

theorem foldl_insert (comparator : Comparator) (extent : Extent) (lanes : List Int) :
    lanes.foldl (insert comparator) extent =
      { least := lanes.foldl (sharpen fun left right => comparator.order left right == .lt)
          extent.least
        greatest := lanes.foldl (sharpen fun left right => comparator.order left right == .gt)
          extent.greatest } := by
  induction lanes generalizing extent with
  | nil => rfl
  | cons lane rest ih =>
      rw [List.foldl_cons, ih]
      cases least : extent.least <;> cases greatest : extent.greatest <;>
        simp only [insert, sharpen, List.foldl_cons, least, greatest, beq_iff_eq]

/-- Both bounds are among the lanes, and no lane lies outside them. -/
theorem exists_bounds (comparator : Comparator) {lanes : List Int} (nonempty : lanes ≠ []) :
    ∃ least ∈ lanes, ∃ greatest ∈ lanes,
      lanes.foldl (insert comparator) empty = { least := some least, greatest := some greatest } ∧
      ∀ lane ∈ lanes, comparator.order lane least ≠ .lt ∧ comparator.order lane greatest ≠ .gt := by
  obtain ⟨first, rest, rfl⟩ := List.exists_cons_of_ne_nil nonempty
  obtain ⟨least, foldedLeast, leastMember, isLeast⟩ :=
    (ranks_less comparator).exists_foldl_sharpen first rest
  obtain ⟨greatest, foldedGreatest, greatestMember, isGreatest⟩ :=
    (ranks_greater comparator).exists_foldl_sharpen first rest
  refine ⟨least, leastMember, greatest, greatestMember, ?_, ?_⟩
  · rw [foldl_insert]
    exact congr (congrArg Extent.mk foldedLeast) foldedGreatest
  · intro lane member
    exact ⟨beq_eq_false_iff_ne.mp (isLeast lane member),
      beq_eq_false_iff_ne.mp (isGreatest lane member)⟩

end Extent

/-- The extent of a view is that of its ordinary lanes: both bounds are among them and none lies
outside, or there are none. -/
theorem BlockView.extent_cases {view : BlockView} (tracks : view.tracksExtent = true) :
    (view.ordinaryLanes = [] ∧ view.extent = Extent.empty) ∨
      ∃ least ∈ view.ordinaryLanes, ∃ greatest ∈ view.ordinaryLanes,
        view.extent = { least := some least, greatest := some greatest } ∧
        ∀ lane ∈ view.ordinaryLanes, view.comparator.order lane least ≠ .lt ∧
          view.comparator.order lane greatest ≠ .gt := by
  unfold extent
  rw [if_pos tracks]
  by_cases none : view.ordinaryLanes = []
  · rw [none]
    exact .inl ⟨rfl, rfl⟩
  · exact .inr (Extent.exists_bounds view.comparator none)

/-- What holds of all reported values and of the empty range holds of the reported bounds. -/
theorem BlockView.forall_bounds {view : BlockView} {comparator : Comparator} {holds : Int → Prop}
    (reported : ∀ lane ∈ view.ordinaryLanes, holds (comparator.reported lane))
    (empty : holds comparator.emptyRange.1 ∧ holds comparator.emptyRange.2) :
    holds (view.extent.bounds comparator).1 ∧ holds (view.extent.bounds comparator).2 := by
  cases tracks : view.tracksExtent with
  | false =>
      rw [extent, tracks, if_neg Bool.false_ne_true]
      exact empty
  | true =>
      obtain ⟨_, extent⟩ | ⟨least, leastMember, greatest, greatestMember, extent, _⟩ :=
        extent_cases tracks
      · rw [extent]
        exact empty
      · rw [extent]
        exact ⟨reported least leastMember, reported greatest greatestMember⟩

namespace ColumnDescriptor

/-- The lane of the value whose bytes are the low bytes of a reported bound. -/
def boundLane (column : ColumnDescriptor) (bound : Int) : Int :=
  laneOf column.kind (LittleEndian.ofInt column.width bound)

/-- Predicates without a flag place a lane neither below the least nor above the greatest value of a
header. -/
def Within (column : ColumnDescriptor) (header : ScanHeader) (lane : Int) : Prop :=
  column.comparator.holds .less 0 lane (column.boundLane header.least) = false ∧
    column.comparator.holds .greater 0 lane (column.boundLane header.greatest) = false

variable {column : ColumnDescriptor}

theorem comparator_kind (supported : column.isSupported = true) :
    column.comparator.kind = column.kind := by
  by_cases wide : column.width = 16
  · rw [comparator_of_wide wide]
    unfold isSupported at supported
    cases kind : column.kind with
    | signed => rfl
    | unsigned | float | text => simp [kind, wide, scannable] at supported
  · rw [comparator_of_narrow wide]

theorem comparator_width (column : ColumnDescriptor) : column.comparator.width = column.width := by
  by_cases wide : column.width = 16
  · rw [comparator_of_wide wide, wide]
  · rw [comparator_of_narrow wide]

theorem kind_ne_float (tracked : column.hasExtent = true) : column.kind ≠ .float := by
  intro isFloat
  unfold hasExtent at tracked
  unfold kind LogicalType.kindAt at isFloat
  cases logicalType : column.logicalType <;>
    simp [logicalType, LogicalType.kind] at tracked isFloat <;> split at isFloat <;> cases isFloat

theorem boundLane_reported (supported : column.isSupported = true) {lane : Int}
    (hasLane : column.HasLane lane) :
    column.boundLane (column.comparator.reported lane) = lane := by
  obtain ⟨stored, length, rfl⟩ := hasLane
  have same : LittleEndian.ofInt column.width (laneOf column.kind stored) = stored :=
    length ▸ ofInt_laneOf column.kind stored
  unfold boundLane Comparator.reported
  rw [comparator_kind supported]
  cases kind : column.kind with
  | signed | float | text =>
      rw [kind] at same
      exact congrArg (laneOf _) same
  | unsigned =>
      have narrow : stored.length ≤ 8 := by
        unfold isSupported at supported
        simp only [kind, scannable, List.mem_cons, List.not_mem_nil, or_false,
          decide_eq_true_eq] at supported
        omega
      have fits := LittleEndian.natValue_lt stored
      rw [unsignedLane_laneOf narrow, LittleEndian.ofInt, ← Int.natCast_emod, Int.toNat_natCast,
        ← length, Nat.mod_eq_of_lt fits, LittleEndian.ofNat_natValue]

end ColumnDescriptor

section Scan

variable {column : ColumnDescriptor} {filter : CompiledFilter} {block : Array UInt8}
  {rows : List RowIndex} {capacity : Nat} {config : ScanConfig} {answer : ScanAnswer}

/-- Every answer of a scan reports the extent of its view, whatever the filter. -/
theorem extent_of_scanBlock
    (scanned : scanBlock column filter block rows capacity config = .ok answer) :
    ∃ rowCount pair, column.isSupported = true ∧ block.size = rowCount * column.width ∧
      rowCount ≤ maxRows ∧ column.sentinels = .ok pair ∧
      let view := BlockView.ofBlock column pair block rowCount rows config
      answer.header.extentValid = view.tracksExtent ∧
        (answer.header.least, answer.header.greatest) = view.extent.bounds column.comparator := by
  obtain ⟨rowCount, pair, _, supported, size, addressable, _, patterns, _, header, _⟩ :=
    scanBlock_eq_ok scanned
  refine ⟨rowCount, pair, supported, size, addressable, patterns, ?_⟩
  rw [header]
  exact ⟨rfl, rfl⟩

theorem BlockView.Reads.hasLane_of_ordinary {pair : SentinelPair} {view : BlockView}
    (reads : view.Reads column pair) {lane : Int} (member : lane ∈ view.ordinaryLanes) :
    column.HasLane lane := by
  obtain ⟨candidate, present, rfl⟩ := List.mem_map.mp (List.mem_filter.mp member).1
  exact reads.hasLane candidate present

theorem mem_ordinaryLanes {pair : SentinelPair} {rowCount index : Nat}
    (addressable : rowCount ≤ maxRows) (inside : index < rowCount)
    (notEmpty : (column.laneSentinels pair).isEmpty
      (laneOf column.kind (cell block column.width index)) = false)
    (notNull : (column.laneSentinels pair).isNull
      (laneOf column.kind (cell block column.width index)) = false) :
    laneOf column.kind (cell block column.width index) ∈
      (BlockView.ofBlock column pair block rowCount [] config).ordinaryLanes := by
  have visited : UInt16.ofNat index ∈ rowsToVisit rowCount [] :=
    List.mem_map_of_mem (List.mem_range.mpr inside)
  have lane : (Candidate.ofBlock column.kind column.width block (UInt16.ofNat index)).lane =
      laneOf column.kind (cell block column.width index) := by
    rw [Candidate.ofBlock, toNat_ofNat_of_lt addressable inside]
  refine List.mem_filter.mpr ⟨?_, ?_⟩
  · rw [← lane]
    exact List.mem_map_of_mem (List.mem_map_of_mem visited)
  · change (!(column.laneSentinels pair).isEmpty _ && !(column.laneSentinels pair).isNull _) = true
    rw [notEmpty, notNull]
    rfl

/-- No ordinary value of the block lies outside the reported bounds in the order of the column. -/
theorem extent_encloses
    (scanned : scanBlock column filter block rows capacity config = .ok answer)
    (valid : answer.header.extentValid = true) :
    ∃ pair, column.isSupported = true ∧ column.hasExtent = true ∧ column.sentinels = .ok pair ∧
      ∀ index < block.size / column.width,
        let lane := laneOf column.kind (cell block column.width index)
        (column.laneSentinels pair).isEmpty lane = false →
        (column.laneSentinels pair).isNull lane = false →
          column.comparator.order lane (column.boundLane answer.header.least) ≠ .lt ∧
            column.comparator.order lane (column.boundLane answer.header.greatest) ≠ .gt := by
  obtain ⟨rowCount, pair, supported, size, addressable, patterns, tracks, bounds⟩ :=
    extent_of_scanBlock scanned
  have tracking : column.tracksExtent rows.length config.maxExtentWidth = true :=
    tracks.symm.trans valid
  simp only [ColumnDescriptor.tracksExtent, Bool.and_eq_true, beq_iff_eq] at tracking
  obtain ⟨⟨unlisted, _⟩, tracked⟩ := tracking
  obtain rfl := List.eq_nil_of_length_eq_zero unlisted
  refine ⟨pair, supported, tracked, patterns, ?_⟩
  intro index inside lane notEmpty notNull
  have wellFormed := column.wellFormed_of_sentinels patterns
  rw [size, Nat.mul_div_cancel rowCount wellFormed.width_pos] at inside
  let view := BlockView.ofBlock column pair block rowCount [] config
  have member : lane ∈ view.ordinaryLanes :=
    mem_ordinaryLanes addressable inside notEmpty notNull
  obtain ⟨none, _⟩ | ⟨least, leastMember, greatest, greatestMember, extent, encloses⟩ :=
    BlockView.extent_cases (tracks.symm.trans valid)
  · exact absurd none (List.ne_nil_of_mem member)
  have unlistedInside : ∀ row ∈ ([] : List RowIndex), row.toNat < rowCount :=
    fun _ member => absurd member List.not_mem_nil
  have reads : view.Reads column pair := BlockView.reads_ofBlock size addressable unlistedInside
  rw [show (BlockView.ofBlock column pair block rowCount [] config).extent = _ from extent] at bounds
  obtain ⟨leastReported, greatestReported⟩ := Prod.mk.inj bounds
  rw [leastReported, greatestReported]
  simp only [Option.elim_some,
    ColumnDescriptor.boundLane_reported supported (reads.hasLane_of_ordinary leastMember),
    ColumnDescriptor.boundLane_reported supported (reads.hasLane_of_ordinary greatestMember)]
  exact encloses lane member

/-- Of a column other than one-byte text, every ordinary value of the block is within the reported
bounds as predicates compare them. So no row with an ordinary value is lost if a block is passed over
because a filter accepts nothing within them. -/
theorem scanBlock_extent
    (scanned : scanBlock column filter block rows capacity config = .ok answer)
    (valid : answer.header.extentValid = true)
    (notByteText : ¬(column.kind = .text ∧ column.width = 1)) :
    ∃ pair, column.sentinels = .ok pair ∧
      ∀ index < block.size / column.width,
        let stored := cell block column.width index
        pair.isEmpty (LittleEndian.natValue stored) = false →
        pair.isNull (LittleEndian.natValue stored) = false →
          column.Within answer.header (laneOf column.kind stored) ∧
          ∀ later : CompiledFilter,
            (∀ lane, column.HasLane lane → column.Within answer.header lane →
              later.accepts column.comparator lane false = false) →
            ∀ listed, column.qualifies pair later listed stored = false := by
  obtain ⟨pair, supported, tracked, patterns, encloses⟩ := extent_encloses scanned valid
  refine ⟨pair, patterns, ?_⟩
  intro index inside stored notEmpty notNull
  have wellFormed :=
    LogicalType.wellFormed_of_sentinels? (LogicalType.sentinels_eq_ok_iff.mp patterns)
  have length : stored.length = column.width :=
    length_cell (Nat.div_mul_le_self block.size column.width) inside
  have kind := ColumnDescriptor.comparator_kind supported
  have follows : column.comparator.FollowsOrder := by
    apply Comparator.followsOrder
    · rw [kind]
      exact ColumnDescriptor.kind_ne_float tracked
    · intro isText byte
      rw [column.comparator_width] at byte
      exact notByteText ⟨kind.symm.trans isText, byte⟩
  have within : column.Within answer.header (laneOf column.kind stored) := by
    obtain ⟨least, greatest⟩ := encloses index inside
      ((LaneSentinels.isEmpty_ofPair wellFormed length).trans notEmpty)
      ((LaneSentinels.isNull_ofPair wellFormed length).trans notNull)
    constructor
    · rw [follows.less]
      exact beq_eq_false_iff_ne.mpr least
    · rw [follows.greater]
      exact beq_eq_false_iff_ne.mpr greatest
  refine ⟨within, fun later rejects listed => ?_⟩
  have rejected := rejects (laneOf column.kind stored) ⟨stored, length, rfl⟩ within
  simp only [ColumnDescriptor.qualifies, notEmpty, notNull, Bool.false_eq_true, ↓reduceIte, rejected]

end Scan

theorem scanBlock_extent_char :
    let column : ColumnDescriptor := { width := 2, logicalType := .char }
    ∃ answer, scanBlock column (.alwaysTrue 2) #[0x41, 0, 0x80, 0x80] [] 4 {} = .ok answer ∧
      column.Within answer.header (laneOf column.kind [0x41, 0]) ∧
      column.Within answer.header (laneOf column.kind [0x80, 0x80]) := by
  have scanned : scanBlock { width := 2, logicalType := .char } (.alwaysTrue 2)
      #[0x41, 0, 0x80, 0x80] [] 4 {} = .ok
        { header := { matched := 2, extentValid := true, least := 65, greatest := -32640 }
          payload := [0x41, 0, 0x80, 0x80] } := by
    rfl
  intro column
  obtain ⟨pair, patterns, inside⟩ := scanBlock_extent scanned rfl (by decide)
  cases patterns
  exact ⟨_, scanned, (inside 0 (by decide) (by decide) (by decide)).1,
    (inside 1 (by decide) (by decide) (by decide)).1⟩

/-- The least and the greatest value of one-byte text are sought among signed bytes, but predicates
compare unsigned ones. -/
theorem scanBlock_extent_byteText :
    let column : ColumnDescriptor := { width := 1, logicalType := .char }
    let answer : ScanAnswer :=
      { header := { matched := 2, extentValid := true, least := -128, greatest := 65 }
        payload := [0x41, 0x80] }
    scanBlock column (.alwaysTrue 1) #[0x41, 0x80] [] 2 {} = .ok answer ∧
      ¬column.Within answer.header (laneOf column.kind [0x41]) ∧
      ¬column.Within answer.header (laneOf column.kind [0x80]) := by
  have scanned : scanBlock { width := 1, logicalType := .char } (.alwaysTrue 1) #[0x41, 0x80] [] 2
      {} = .ok
        { header := { matched := 2, extentValid := true, least := -128, greatest := 65 }
          payload := [0x41, 0x80] } := by
    rfl
  intro column answer
  refine ⟨scanned, fun within => ?_, fun within => ?_⟩
  · exact absurd within.1 (by decide)
  · exact absurd within.2 (by decide)

end ColumnScan
