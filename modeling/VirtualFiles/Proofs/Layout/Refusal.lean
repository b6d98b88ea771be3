import VirtualFiles.Proofs.Layout.Placement

/-!
# Which blocks cannot be laid out

The layout takes the blocks one by one. A block is refused if its declared extent is none, if it
begins inside the declared extent before it, if there is no multiple of the alignment for it, or if
it does not end at an address where it would land. The first block that is refused decides what is
reported, and only if there is none can the header be too long.

Nothing else can go wrong. Only some of the sums are checked; the others are safe because of two
facts that hold whenever a block comes up: what has been placed ends at an address, and it does not
end before the declared extents do. A block lands at or after the end of the data before it, so
the distance is never negative and there is always room for the padding.

## Main definitions

* `Plan.Refused` — what is reported of a block that cannot be placed
* `Plan.Reached` — how far the layout is when it has placed some blocks
* `Plan.Safe` — the arithmetic that is not checked

## Main results

* `exists_gap` — padding is never refused
* `placeBlock_eq_error_iff`, `not_refused_iff` — one step of the layout
* `placeBlocks_of_reached`, `reached_or_refused` — all steps
* `safe_of_reached` — no sum leaves the address space
* `compute_safety` — when a layout fails, and with what
-/

namespace VirtualFiles

open Outcome

namespace Extent

variable {start length : Nat} {e : ExtentError}

theorem ofStartLength_eq_error_iff : ofStartLength start length = .error e ↔
    addressSpace ≤ start + length ∧ e = .overflow start length := by
  unfold ofStartLength
  split
  · next h => simp [h]
  · next h => simp [Nat.le_of_not_lt h, eq_comm]

theorem ofSignedLength_eq_error_iff {length : Int} : ofSignedLength start length = .error e ↔
    (length < 0 ∧ e = .negativeLength length) ∨
      (0 ≤ length ∧ addressSpace ≤ start + length.toNat ∧ e = .overflow start length.toNat) := by
  unfold ofSignedLength
  split
  · next h => simp [h, Int.not_le.mpr h, eq_comm]
  · next h => rw [ofStartLength_eq_error_iff]; simp [h, Int.not_lt.mp h]

end Extent

namespace Plan

variable {alignment headerLength index stop declaredStop start : Nat}
variable {block : Block} {blocks before : List Block} {cause : PlanError} {p : Plan}

/-- The block cannot be placed as number `index` after data that ends at `stop`, where the declared
extent before it ends at `declaredStop`, and this is reported. Each reason counts only if the ones
before it do not hold. -/
inductive Refused (alignment index stop declaredStop : Nat) (block : Block) : PlanError → Prop
  | negative (h : block.length < 0) : Refused alignment index stop declaredStop block
    (.blockExtent index (.negativeLength block.length))
  | declared (hsign : 0 ≤ block.length) (h : addressSpace ≤ block.stop) :
    Refused alignment index stop declaredStop block
      (.blockExtent index (.overflow block.start block.length.toNat))
  | overlap (hsign : 0 ≤ block.length) (hstop : block.stop < addressSpace)
    (h : block.start < declaredStop) : Refused alignment index stop declaredStop block
      (.overlap index block.start declaredStop)
  | rounding (hsign : 0 ≤ block.length) (hstop : block.stop < addressSpace)
    (horder : declaredStop ≤ block.start) (h : addressSpace ≤ nextMultiple stop alignment) :
    Refused alignment index stop declaredStop block (.alignmentOverflow stop alignment)
  | landing (hsign : 0 ≤ block.length) (hstop : block.stop < addressSpace)
    (horder : declaredStop ≤ block.start) (hround : nextMultiple stop alignment < addressSpace)
    (h : addressSpace ≤ landing alignment stop block + block.length.toNat) :
    Refused alignment index stop declaredStop block
      (.blockExtent index (.overflow (landing alignment stop block) block.length.toNat))

/-- The blocks `before` have been placed, none of them refused. What has been placed ends at `stop`,
and the last declared extent at `declaredStop`. -/
inductive Reached (alignment : Nat) : (before : List Block) → (stop declaredStop : Nat) → Prop
  | start : Reached alignment [] 0 0
  | place {before : List Block} {stop declaredStop : Nat} {block : Block}
    (h : Reached alignment before stop declaredStop)
    (hblock : ∀ cause, ¬ Refused alignment before.length stop declaredStop block cause) :
    Reached alignment (before ++ [block]) (landing alignment stop block + block.length.toNat)
      block.stop

/-! ### One block -/

/-- A block is refused for no reason if its declared extent is one and in order, and it has room
where it lands. -/
theorem not_refused_iff : (∀ cause, ¬ Refused alignment index stop declaredStop block cause) ↔
    0 ≤ block.length ∧ block.stop < addressSpace ∧ declaredStop ≤ block.start ∧
      landing alignment stop block + block.length.toNat < addressSpace := by
  constructor
  · intro h
    have hsign : 0 ≤ block.length := Int.not_lt.mp fun hneg => h _ (.negative hneg)
    have hstop : block.stop < addressSpace := Nat.lt_of_not_le fun hle => h _ (.declared hsign hle)
    have horder : declaredStop ≤ block.start :=
      Nat.le_of_not_lt fun hlt => h _ (.overlap hsign hstop hlt)
    have hround : nextMultiple stop alignment < addressSpace :=
      Nat.lt_of_not_le fun hle => h _ (.rounding hsign hstop horder hle)
    exact ⟨hsign, hstop, horder,
      Nat.lt_of_not_le fun hle => h _ (.landing hsign hstop horder hround hle)⟩
  · rintro ⟨hsign, hstop, horder, hspace⟩ cause hrefused
    have hround : nextMultiple stop alignment ≤ landing alignment stop block :=
      nextMultiple_le_landing
    cases hrefused <;> omega

theorem roundUp_eq_error_iff : roundUp stop alignment = .error cause ↔
    addressSpace ≤ nextMultiple stop alignment ∧ cause = .alignmentOverflow stop alignment := by
  unfold roundUp
  split
  · next h => simp [h]
  · next h => simp [Nat.le_of_not_lt h, eq_comm]

/-- There is always padding for the gap before an address. -/
theorem exists_gap (hle : stop ≤ start) (hspace : start < addressSpace) :
    ∃ padding, gap index stop start = .ok padding := by
  obtain ⟨padding, hpadding⟩ : ∃ padding, Fills .padding stop start padding :=
    (exists_fills_iff hle).mpr (.inr hspace)
  exact ⟨padding, (gap_eq_ok_iff hle).mpr hpadding⟩

theorem placeBlock_of_not_refused
    (h : ∀ cause, ¬ Refused alignment index stop declaredStop block cause) :
    ∃ placements declared placed,
      placeBlock alignment index stop declaredStop block = .ok (placements, declared, placed) ∧
        declared.stop = block.stop ∧
        placed.stop = landing alignment stop block + block.length.toNat := by
  obtain ⟨hsign, hstop, horder, hspace⟩ := not_refused_iff.mp h
  obtain ⟨padding, hpadding⟩ :
      ∃ padding, Fills .padding stop (landing alignment stop block) padding :=
    (exists_fills_iff le_landing).mpr (.inr (by omega))
  exact ⟨_, ⟨block.start, block.length.toNat, hstop⟩, ⟨_, block.length.toNat, hspace⟩,
    placeBlock_eq_ok_iff.mpr ⟨⟨rfl, Int.toNat_of_nonneg hsign⟩, horder, ⟨rfl, rfl⟩, padding,
      hpadding, rfl⟩, rfl, rfl⟩

/-- The padding before a block is never refused: the block has to land at an address to get
there. -/
theorem exists_gap_landing (index : Nat) (hround : nextMultiple stop alignment < addressSpace)
    (hstart : block.start < addressSpace) :
    ∃ padding, gap index stop (landing alignment stop block) = .ok padding :=
  exists_gap le_landing (Nat.max_lt.mpr ⟨hstart, hround⟩)

theorem placeBlock_of_refused (h : Refused alignment index stop declaredStop block cause) :
    placeBlock alignment index stop declaredStop block = .error cause := by
  -- each case follows the checks to the one that fails; the hypotheses it carries are those that
  -- let it pass the checks before
  have hundeclared : ∀ {e}, Extent.ofSignedLength block.start block.length = .error e →
      placeBlock alignment index stop declaredStop block = .error (.blockExtent index e) :=
    fun he => bind_eq_error_iff.mpr (.inl (mapError_eq_error_iff.mpr ⟨_, he, rfl⟩))
  have hdeclared : ∀ (_ : 0 ≤ block.length) (hstop : block.stop < addressSpace),
      Extent.ofSignedLength block.start block.length =
        .ok ⟨block.start, block.length.toNat, hstop⟩ :=
    fun hsign _ => Extent.ofSignedLength_eq_ok_iff.mpr ⟨rfl, Int.toNat_of_nonneg hsign⟩
  cases h with
  | negative h => exact hundeclared (Extent.ofSignedLength_eq_error_iff.mpr (.inl ⟨h, rfl⟩))
  | declared hsign h =>
    exact hundeclared (Extent.ofSignedLength_eq_error_iff.mpr (.inr ⟨hsign, h, rfl⟩))
  | overlap hsign hstop h =>
    refine bind_eq_error_iff.mpr (.inr ⟨_, mapError_eq_ok_iff.mpr (hdeclared hsign hstop), ?_⟩)
    rw [if_pos h]
    rfl
  | rounding hsign hstop horder h =>
    refine bind_eq_error_iff.mpr (.inr ⟨_, mapError_eq_ok_iff.mpr (hdeclared hsign hstop), ?_⟩)
    rw [if_neg (Nat.not_lt.mpr horder)]
    exact bind_eq_error_iff.mpr (.inl (roundUp_eq_error_iff.mpr ⟨h, rfl⟩))
  | landing hsign hstop horder hround h =>
    refine bind_eq_error_iff.mpr (.inr ⟨_, mapError_eq_ok_iff.mpr (hdeclared hsign hstop), ?_⟩)
    rw [if_neg (Nat.not_lt.mpr horder)]
    obtain ⟨padding, hpadding⟩ := exists_gap_landing index hround
      (Nat.lt_of_le_of_lt (Nat.le_add_right _ _) hstop)
    refine bind_eq_error_iff.mpr (.inr ⟨_, roundUp_eq_ok_iff.mpr ⟨rfl, hround⟩, ?_⟩)
    refine bind_eq_error_iff.mpr (.inr ⟨padding, hpadding, bind_eq_error_iff.mpr (.inl ?_)⟩)
    exact mapError_eq_error_iff.mpr ⟨_, Extent.ofStartLength_eq_error_iff.mpr ⟨h, rfl⟩, rfl⟩

/-- A block is placed if it is not refused, and otherwise the refusal is reported. -/
theorem placeBlock_eq_error_iff :
    placeBlock alignment index stop declaredStop block = .error cause ↔
      Refused alignment index stop declaredStop block cause := by
  refine ⟨fun h => ?_, placeBlock_of_refused⟩
  by_contra hnot
  by_cases hother : ∃ other, Refused alignment index stop declaredStop block other
  · obtain ⟨other, hother⟩ := hother
    obtain rfl := Except.error.inj (h.symm.trans (placeBlock_of_refused hother))
    exact hnot hother
  · obtain ⟨_, _, _, hok, -⟩ := placeBlock_of_not_refused (not_exists.mp hother)
    cases h.symm.trans hok

/-- A block that is placed does not end before its declared extent does. -/
theorem stop_le_of_placeBlock {placements : List Placement} {declared placed : Extent}
    (h : placeBlock alignment index stop declaredStop block = .ok (placements, declared, placed)) :
    declared.stop ≤ placed.stop := by
  obtain ⟨⟨hstart, -⟩, -, ⟨hplaced, hlength⟩, -⟩ := placeBlock_eq_ok_iff.mp h
  rw [Extent.stop, Extent.stop, hstart, hplaced, hlength]
  exact Nat.add_le_add_right (Nat.le_max_left _ _) _

/-! ### All blocks -/

/-- The layout of more blocks goes on from where it has got. -/
theorem placeBlocks_of_reached (h : Reached alignment before stop declaredStop) :
    ∃ placements, ∀ after, placeBlocks alignment 0 0 0 (before ++ after) =
      (placeBlocks alignment before.length stop declaredStop after).map
        fun (later, last) => (placements ++ later, last) := by
  induction h with
  | start =>
    refine ⟨[], fun after => ?_⟩
    rw [List.nil_append, List.length_nil]
    cases placeBlocks alignment 0 0 0 after <;> rfl
  | @place before stop declaredStop block _ hblock ih =>
    obtain ⟨earlier, hearlier⟩ := ih
    obtain ⟨here, declared, placed, hplace, hdeclared, hplaced⟩ :=
      placeBlock_of_not_refused hblock
    refine ⟨earlier ++ here, fun after => ?_⟩
    rw [List.append_assoc, List.singleton_append, hearlier, placeBlocks, hplace, ← hdeclared,
      ← hplaced, List.length_append, List.length_singleton]
    -- both sides now run the rest of the blocks from the same state, and differ in how they
    -- bracket the placements so far
    change Except.map _ ((placeBlocks alignment (before.length + 1) placed.stop declared.stop
      after).bind fun r => .ok (here ++ r.1, r.2)) = _
    cases placeBlocks alignment (before.length + 1) placed.stop declared.stop after with
    | error e => rfl
    | ok r => exact congrArg (fun ps => Except.ok (ps, r.2)) (List.append_assoc _ _ _).symm

/-- The layout gets through all blocks or to the first one that is refused. -/
theorem reached_or_refused (alignment : Nat) (blocks : List Block) :
    (∃ stop declaredStop, Reached alignment blocks stop declaredStop) ∨
      ∃ before block after stop declaredStop cause, blocks = before ++ block :: after ∧
        Reached alignment before stop declaredStop ∧
        Refused alignment before.length stop declaredStop block cause := by
  -- `Reached` grows at the end of the list, so the induction takes the blocks from there
  induction blocks using List.reverseRecOn with
  | nil => exact .inl ⟨0, 0, .start⟩
  | append_singleton blocks block ih =>
    obtain ⟨stop, declaredStop, hreached⟩ |
      ⟨before, other, after, stop, declaredStop, cause, rfl, hreached, hrefused⟩ := ih
    · by_cases hrefused : ∃ cause, Refused alignment blocks.length stop declaredStop block cause
      · obtain ⟨cause, hrefused⟩ := hrefused
        exact .inr ⟨blocks, block, [], stop, declaredStop, cause, rfl, hreached, hrefused⟩
      · exact .inl ⟨_, _, .place hreached (not_exists.mp hrefused)⟩
    · exact .inr ⟨before, other, after ++ [block], stop, declaredStop, cause,
        by rw [List.append_assoc, List.cons_append], hreached, hrefused⟩

/-- A layout that gets through all blocks places them. -/
theorem exists_placeBlocks_of_reached (h : Reached alignment blocks stop declaredStop) :
    ∃ placements, placeBlocks alignment 0 0 0 blocks = .ok (placements, stop) := by
  obtain ⟨placements, hrun⟩ := placeBlocks_of_reached h
  have hall := hrun []
  rw [List.append_nil] at hall
  exact ⟨placements ++ [], hall⟩

/-- A layout that gets to a refused block reports it, whatever comes after the block. -/
theorem placeBlocks_of_refused {after : List Block}
    (hreached : Reached alignment before stop declaredStop)
    (hrefused : Refused alignment before.length stop declaredStop block cause) :
    placeBlocks alignment 0 0 0 (before ++ block :: after) = .error cause := by
  obtain ⟨placements, hrun⟩ := placeBlocks_of_reached hreached
  rw [hrun, placeBlocks, placeBlock_of_refused hrefused]
  rfl

/-- The first block that is refused decides what is reported. -/
theorem placeBlocks_eq_error_iff : placeBlocks alignment 0 0 0 blocks = .error cause ↔
    ∃ before block after stop declaredStop, blocks = before ++ block :: after ∧
      Reached alignment before stop declaredStop ∧
      Refused alignment before.length stop declaredStop block cause := by
  constructor
  · intro h
    obtain ⟨stop, declaredStop, hreached⟩ |
      ⟨before, block, after, stop, declaredStop, other, rfl, hreached, hrefused⟩ :=
        reached_or_refused alignment blocks
    · obtain ⟨placements, hok⟩ := exists_placeBlocks_of_reached hreached
      cases h.symm.trans hok
    · obtain rfl := Except.error.inj (h.symm.trans (placeBlocks_of_refused hreached hrefused))
      exact ⟨before, block, after, stop, declaredStop, rfl, hreached, hrefused⟩
  · rintro ⟨before, block, after, stop, declaredStop, rfl, hreached, hrefused⟩
    exact placeBlocks_of_refused hreached hrefused

/-- The blocks are placed if none of them is refused. -/
theorem exists_placeBlocks_iff :
    (∃ placements, placeBlocks alignment 0 0 0 blocks = .ok (placements, stop)) ↔
      ∃ declaredStop, Reached alignment blocks stop declaredStop := by
  constructor
  · rintro ⟨placements, h⟩
    obtain ⟨other, declaredStop, hreached⟩ |
      ⟨before, block, after, _, _, cause, rfl, hreached, hrefused⟩ :=
        reached_or_refused alignment blocks
    · obtain ⟨_, hother⟩ := exists_placeBlocks_of_reached hreached
      cases h.symm.trans hother
      exact ⟨declaredStop, hreached⟩
    · cases h.symm.trans (placeBlocks_of_refused hreached hrefused)
  · rintro ⟨declaredStop, hreached⟩
    exact exists_placeBlocks_of_reached hreached

/-! ### Arithmetic that is not checked -/

/-- What keeps the arithmetic of the layout in the address space when the next block comes up, or
the header if there is no next block. -/
structure Safe (alignment : Nat) (before : List Block) (stop declaredStop : Nat) : Prop where
  /-- This is where the layout is, whatever comes after it. -/
  run : ∃ placements, ∀ after, placeBlocks alignment 0 0 0 (before ++ after) =
    (placeBlocks alignment before.length stop declaredStop after).map
      fun (later, last) => (placements ++ later, last)
  /-- What has been placed ends at an address. -/
  stop_lt : stop < addressSpace
  /-- It does not end before the declared extents do. -/
  declaredStop_le : declaredStop ≤ stop
  /-- If the next block can land at all, it lands at or after the end of what has been placed, and
  the padding up to there is not refused. -/
  padding : ∀ (block : Block) (declared : Extent) (aligned : Nat),
    Extent.ofSignedLength block.start block.length = .ok declared →
    roundUp stop alignment = .ok aligned →
    stop ≤ max block.start aligned ∧
      ∃ padding, gap before.length stop (max block.start aligned) = .ok padding
  /-- If the next block is placed, it ends at an address, and not before its declared extent. -/
  placed : ∀ (block : Block) (placements : List Placement) (declared placed : Extent),
    placeBlock alignment before.length stop declaredStop block =
      .ok (placements, declared, placed) →
    declared.stop ≤ placed.stop ∧ placed.stop < addressSpace
  /-- If a header is accepted, it ends at an address. -/
  header : ∀ (headerLength : Nat) (placements : List Placement),
    placeHeader stop headerLength = .ok placements → stop + headerLength < addressSpace

/-- As far as the layout gets, its end is an address and not before the declared end. -/
theorem bounds_of_reached (h : Reached alignment before stop declaredStop) :
    declaredStop ≤ stop ∧ stop < addressSpace := by
  cases h with
  | start => exact ⟨Nat.le_refl 0, by decide⟩
  | @place _ stop _ block _ hblock =>
    obtain ⟨-, -, -, hspace⟩ := not_refused_iff.mp hblock
    exact ⟨Nat.add_le_add_right (Nat.le_max_left _ _) _, hspace⟩

theorem safe_of_reached (h : Reached alignment before stop declaredStop) :
    Safe alignment before stop declaredStop := by
  obtain ⟨hle, hlt⟩ := bounds_of_reached h
  refine {
    run := placeBlocks_of_reached h
    stop_lt := hlt
    declaredStop_le := hle
    padding := ?_
    placed := fun _ _ _ placed hblock => ⟨stop_le_of_placeBlock hblock, placed.stop_lt⟩
    header := ?_ }
  · intro block declared aligned hdeclared haligned
    obtain ⟨rfl, hround⟩ := roundUp_eq_ok_iff.mp haligned
    obtain ⟨hstart, -⟩ := Extent.ofSignedLength_eq_ok_iff.mp hdeclared
    have hspace : block.start < addressSpace :=
      hstart ▸ Nat.lt_of_le_of_lt (Nat.le_add_right _ _) declared.stop_lt
    exact ⟨le_landing, exists_gap_landing _ hround hspace⟩
  · intro headerLength placements hheader
    have hfills := placeHeader_eq_ok_iff.mp hheader
    obtain hempty | hroom := (exists_fills_iff (Nat.le_add_right _ _)).mp ⟨placements, hfills⟩
    · omega
    · exact hroom

/-! ### The whole layout -/

theorem placeHeader_eq_error_iff : placeHeader stop headerLength = .error cause ↔
    headerLength ≠ 0 ∧ addressSpace ≤ stop + headerLength ∧
      cause = .headerExtent (.overflow stop headerLength) := by
  unfold placeHeader
  split
  · next h => simp [h]
  · next h =>
    cases hextent : Extent.ofStartLength stop headerLength with
    | ok r =>
      obtain ⟨hstart, hlength⟩ := Extent.ofStartLength_eq_ok_iff.mp hextent
      have hspace : stop + headerLength < addressSpace := hstart ▸ hlength ▸ r.stop_lt
      simp [hspace]
    | error e =>
      obtain ⟨hspace, rfl⟩ := Extent.ofStartLength_eq_error_iff.mp hextent
      simp [h, hspace, eq_comm]

/-- With an alignment, either the blocks are not placed or the header is not. -/
theorem compute_eq_error_iff_of_pos (hpos : 0 < alignment) :
    compute blocks headerLength alignment = .error cause ↔
      placeBlocks alignment 0 0 0 blocks = .error cause ∨ ∃ stop,
        (∃ placements, placeBlocks alignment 0 0 0 blocks = .ok (placements, stop)) ∧
          placeHeader stop headerLength = .error cause := by
  rw [compute, if_neg (Nat.ne_of_gt hpos)]
  change (placeBlocks alignment 0 0 0 blocks >>= _) = _ ↔ _
  rw [bind_eq_error_iff]
  refine or_congr_right ⟨?_, ?_⟩
  · rintro ⟨⟨placements, stop⟩, hplaced, h⟩
    obtain hheader | ⟨header, -, hdone⟩ := bind_eq_error_iff.mp h
    · exact ⟨stop, ⟨placements, hplaced⟩, hheader⟩
    · cases hdone
  · rintro ⟨stop, ⟨placements, hplaced⟩, hheader⟩
    exact ⟨(placements, stop), hplaced, bind_eq_error_iff.mpr (.inl hheader)⟩

/-- The arithmetic of the layout stays in the address space, whether it is checked or not, and these
are all the ways in which a layout fails: there is no alignment; a block is refused and all blocks
before it are not; or no block is refused and there is no room for the header. -/
theorem compute_safety (blocks : List Block) (headerLength alignment : Nat) :
    (∀ before stop declaredStop, Reached alignment before stop declaredStop →
      Safe alignment before stop declaredStop) ∧
    (∀ p, compute blocks headerLength alignment = .ok p → p.length < addressSpace) ∧
    ∀ cause, compute blocks headerLength alignment = .error cause ↔
      (alignment = 0 ∧ cause = .zeroAlignment) ∨
      (0 < alignment ∧ ∃ before block after stop declaredStop,
        blocks = before ++ block :: after ∧ Reached alignment before stop declaredStop ∧
        Refused alignment before.length stop declaredStop block cause) ∨
      (0 < alignment ∧ ∃ stop declaredStop, Reached alignment blocks stop declaredStop ∧
        headerLength ≠ 0 ∧ addressSpace ≤ stop + headerLength ∧
        cause = .headerExtent (.overflow stop headerLength)) := by
  refine ⟨fun _ _ _ h => safe_of_reached h, fun p hp => ?_, fun cause => ?_⟩
  · obtain ⟨-, -, hroom⟩ := exists_compute_iff.mp ⟨p, hp⟩
    obtain ⟨-, -, _, _, -, -, rfl⟩ := compute_eq_ok_iff.mp hp
    exact hroom
  · rcases Nat.eq_zero_or_pos alignment with rfl | hpos
    · have hzero : compute blocks headerLength 0 = .error .zeroAlignment := rfl
      rw [hzero]
      simp [eq_comm]
    · rw [compute_eq_error_iff_of_pos hpos, placeBlocks_eq_error_iff]
      simp only [exists_placeBlocks_iff, placeHeader_eq_error_iff, Nat.ne_of_gt hpos, hpos,
        false_and, false_or, true_and, exists_and_right]

/-- A block near the end of the address space, one that would fit behind it but cannot be aligned
there, and one of a negative length. -/
def lateBlocks : List Block :=
  [⟨⟨[0x61]⟩, addressSpace - 11, 5, 0⟩, ⟨⟨[0x62]⟩, addressSpace - 3, 1, 0⟩,
    ⟨⟨[0x63]⟩, 0, -1, 0⟩]

theorem compute_safety_lateBlocks : ∃ first rest, lateBlocks = first :: rest ∧
    Safe 16 [first] (addressSpace - 6) (addressSpace - 6) ∧
    compute lateBlocks 4 16 = .error (.alignmentOverflow (addressSpace - 6) 16) := by
  obtain ⟨hsafe, -, hfails⟩ := compute_safety lateBlocks 4 16
  have hreached : Reached 16 [⟨⟨[0x61]⟩, addressSpace - 11, 5, 0⟩] (addressSpace - 6)
      (addressSpace - 6) := .place .start (not_refused_iff.mpr (by decide))
  refine ⟨_, _, rfl, hsafe _ _ _ hreached, (hfails _).mpr (.inr (.inl ?_))⟩
  -- the second block is refused, so that the length of the third one is never looked at
  exact ⟨by decide, _, _, _, _, _, rfl, hreached,
    .rounding (by decide) (by decide) (by decide) (by decide)⟩

end Plan

end VirtualFiles
