import Mathlib.Data.List.Chain
import Mathlib.Order.Bounds.Defs
import VirtualFiles.Layout.Plan
import VirtualFiles.Proofs.Outcome

/-!
# The placement of blocks

Blocks are placed in order, each on its declared start or on the first multiple of the
alignment after the block before it, whichever is later. This greedy placement is the least
one: every placement that respects the declared starts and the alignment places each block at
the same address or later. So a layout fails for want of room only if no placement has room.

## Main definitions

* `Plan.landing`, `Plan.earliest`, `Plan.lastStop` — the greedy placement and the end of its
  last block
* `Plan.Feasible` — a placement that respects declared starts and alignment, and has room
* `Plan.Declared` — declared extents that are extents and follow each other
* `Plan.Fills`, `Plan.Laid` — the placements of a gap, and of the blocks with their gaps
* `Plan.blockStarts` — where the blocks of a plan begin

## Main results

* `isLeast_nextMultiple` — rounding up gives the least multiple that is not below
* `earliest_le_of_feasible` — the greedy placement is below every feasible one
* `placeBlocks_eq_ok_iff`, `compute_eq_ok_iff` — which plans are computed
* `exists_compute_iff_feasible` — when there is a plan, and that it is the least one
-/

namespace VirtualFiles

/-- Where the declared extent of a block ends. -/
def Block.stop (block : Block) : Nat := block.start + block.length.toNat

namespace Plan

open Outcome

variable {alignment headerLength index stop declaredStop last start n m : Nat}
variable {block : Block} {blocks rest : List Block} {starts : List Nat}
variable {placements padding later : List Placement} {placed declared : Extent}

/-! ### Rounding up -/

theorem le_nextMultiple : n ≤ nextMultiple n alignment := by
  unfold nextMultiple
  split <;> omega

theorem dvd_nextMultiple (h : 0 < alignment) : alignment ∣ nextMultiple n alignment := by
  unfold nextMultiple
  split
  · exact Nat.dvd_of_mod_eq_zero ‹_›
  · -- the quotient goes up by one and the remainder is gone
    have hlt := Nat.mod_lt n h
    have hdiv := Nat.div_add_mod n alignment
    refine ⟨n / alignment + 1, ?_⟩
    rw [Nat.mul_add, Nat.mul_one]
    omega

theorem nextMultiple_le_of_dvd (hdvd : alignment ∣ m) (hle : n ≤ m) :
    nextMultiple n alignment ≤ m := by
  unfold nextMultiple
  split
  · exact hle
  · next hmod =>
    obtain ⟨k, rfl⟩ := hdvd
    have hdiv := Nat.div_add_mod n alignment
    have hquot : n / alignment < k := by
      refine Nat.lt_of_not_le fun hk => ?_
      have := Nat.mul_le_mul_left alignment hk
      omega
    have := Nat.mul_le_mul_left alignment hquot
    rw [Nat.mul_succ] at this
    omega

/-- Rounding up gives the least multiple of the alignment that is not below the number. -/
theorem isLeast_nextMultiple (h : 0 < alignment) :
    IsLeast {m | alignment ∣ m ∧ n ≤ m} (nextMultiple n alignment) :=
  ⟨⟨dvd_nextMultiple h, le_nextMultiple⟩, fun _ hm => nextMultiple_le_of_dvd hm.1 hm.2⟩

/-! ### Placements -/

/-- The first address at which the block can be placed after data that ends at `stop`. -/
def landing (alignment stop : Nat) (block : Block) : Nat :=
  max block.start (nextMultiple stop alignment)

theorem nextMultiple_le_landing : nextMultiple stop alignment ≤ landing alignment stop block :=
  Nat.le_max_right _ _

theorem le_landing : stop ≤ landing alignment stop block :=
  Nat.le_trans le_nextMultiple nextMultiple_le_landing

/-- Where the blocks begin if each is placed as early as possible. `stop` is the end of what
has been placed before them. -/
def earliest (alignment : Nat) : (stop : Nat) → List Block → List Nat
  | _, [] => []
  | stop, block :: rest =>
    landing alignment stop block ::
      earliest alignment (landing alignment stop block + block.length.toNat) rest

/-- Where the last block ends if each is placed as early as possible. -/
def lastStop (alignment : Nat) : (stop : Nat) → List Block → Nat
  | stop, [] => stop
  | stop, block :: rest =>
    lastStop alignment (landing alignment stop block + block.length.toNat) rest

/-- The blocks can begin at `starts` after data that ends at `stop`: none begins before its
declared start, a multiple of the alignment lies between the end of the data before it and its
start, and after the last of them there is room for the header. -/
def Feasible (alignment headerLength : Nat) : Nat → List Block → List Nat → Prop
  | n, [], [] => n + headerLength < addressSpace
  | stop, block :: rest, start :: starts =>
    block.start ≤ start ∧ (∃ m, m ≤ start ∧ stop ≤ m ∧ alignment ∣ m) ∧
      Feasible alignment headerLength (start + block.length.toNat) rest starts
  | _, _, _ => False

instance decidableFeasible (alignment headerLength : Nat) :
    ∀ n blocks starts, Decidable (Feasible alignment headerLength n blocks starts)
  | _, [], [] => inferInstanceAs (Decidable (_ < _))
  | _, block :: rest, start :: starts =>
    have := decidableFeasible alignment headerLength (start + block.length.toNat) rest starts
    inferInstanceAs (Decidable (_ ∧ _ ∧ _))
  | _, [], _ :: _ => .isFalse id
  | _, _ :: _, [] => .isFalse id

/-- The greedy placement is feasible if there is room after its last block. -/
theorem feasible_earliest_iff (hpos : 0 < alignment) :
    Feasible alignment headerLength stop blocks (earliest alignment stop blocks) ↔
      lastStop alignment stop blocks + headerLength < addressSpace := by
  induction blocks generalizing stop with
  | nil => exact Iff.rfl
  | cons block rest ih =>
    rw [earliest, Feasible, lastStop, ih]
    exact ⟨fun h => h.2.2, fun h => ⟨Nat.le_max_left _ _,
      ⟨_, nextMultiple_le_landing, le_nextMultiple, dvd_nextMultiple hpos⟩, h⟩⟩

/-- The greedy placement is below every feasible one, also if it begins earlier, and its last
block does not end later. -/
theorem earliest_le_of_feasible (hle : n ≤ stop)
    (h : Feasible alignment headerLength stop blocks starts) :
    List.Forall₂ (· ≤ ·) (earliest alignment n blocks) starts ∧
      lastStop alignment n blocks + headerLength < addressSpace := by
  induction blocks generalizing n stop starts with
  | nil =>
    cases starts with
    | nil =>
      rw [Feasible] at h
      exact ⟨.nil, by rw [lastStop]; omega⟩
    | cons => exact h.elim
  | cons block rest ih =>
    cases starts with
    | nil => exact h.elim
    | cons start starts =>
      obtain ⟨hdeclared, ⟨m, hm, hstop, hdvd⟩, hrest⟩ := h
      -- the greedy placement has got no further, so it can round up to the same multiple
      have hround : nextMultiple n alignment ≤ m :=
        nextMultiple_le_of_dvd hdvd (Nat.le_trans hle hstop)
      have hstart : landing alignment n block ≤ start :=
        Nat.max_le.mpr ⟨hdeclared, Nat.le_trans hround hm⟩
      obtain ⟨hlater, hroom⟩ := ih (Nat.add_le_add_right hstart block.length.toNat) hrest
      exact ⟨.cons hstart hlater, hroom⟩

/-- There is a feasible placement if and only if the greedy one is feasible. -/
theorem exists_feasible_iff (hpos : 0 < alignment) :
    (∃ starts, Feasible alignment headerLength stop blocks starts) ↔
      lastStop alignment stop blocks + headerLength < addressSpace :=
  ⟨fun ⟨_, h⟩ => (earliest_le_of_feasible (Nat.le_refl _) h).2,
    fun h => ⟨_, (feasible_earliest_iff hpos).mpr h⟩⟩

/-! ### Declared extents -/

/-- The declared extents of the blocks are extents, and none begins before the end of the one
before it. -/
structure Declared (blocks : List Block) : Prop where
  isExtent : ∀ block ∈ blocks, 0 ≤ block.length ∧ block.stop < addressSpace
  ordered : blocks.IsChain fun block next => block.stop ≤ next.start

theorem declared_nil : Declared [] := ⟨fun _ h => absurd h List.not_mem_nil, .nil⟩

theorem declared_cons_iff :
    Declared (block :: rest) ↔
      (0 ≤ block.length ∧ block.stop < addressSpace) ∧
        (∀ next ∈ rest.head?, block.stop ≤ next.start) ∧ Declared rest := by
  constructor
  · rintro ⟨hextent, hordered⟩
    rw [List.isChain_cons] at hordered
    exact ⟨hextent block List.mem_cons_self, hordered.1,
      fun b hb => hextent b (List.mem_cons_of_mem block hb), hordered.2⟩
  · rintro ⟨hblock, hnext, hextent, hordered⟩
    exact ⟨List.forall_mem_cons.mpr ⟨hblock, hextent⟩, List.isChain_cons.mpr ⟨hnext, hordered⟩⟩

/-! ### The placements of a plan -/

theorem stop_of_length {r : Extent} {length : Int} (h : (r.length : Int) = length) :
    r.stop = r.start + length.toNat := by
  rw [Extent.stop, ← h, Int.toNat_natCast]

/-- The placements that fill `[start, stop)` with `filling`: one, or none if there is no address
in it. -/
inductive Fills (filling : Filling) (start stop : Nat) : List Placement → Prop
  | nothing (h : start = stop) : Fills filling start stop []
  | extent (r : Extent) (hstart : r.start = start) (hstop : r.stop = stop) (h : start < stop) :
    Fills filling start stop [⟨r, filling⟩]

/-- The placements of the blocks from number `index` on, each as early as possible and with
padding before it. -/
inductive Laid (alignment : Nat) : (index stop : Nat) → List Block → List Placement → Prop
  | nil {index stop : Nat} : Laid alignment index stop [] []
  | cons {index stop : Nat} {block : Block} {rest : List Block} (placed : Extent)
    (padding later : List Placement)
    (hpadding : Fills .padding stop placed.start padding)
    (hstart : placed.start = landing alignment stop block)
    (hlength : (placed.length : Int) = block.length)
    (hlater : Laid alignment (index + 1) placed.stop rest later) :
    Laid alignment index stop (block :: rest)
      (padding ++ ⟨placed, .block index block.path block.fileOffset⟩ :: later)

/-- Where the placement begins, if it is one of a block. -/
def blockStart? (placement : Placement) : Option Nat :=
  match placement.filling with
  | .block _ _ _ => some placement.extent.start
  | .padding | .header => none

/-- Where the blocks of a plan begin. -/
def blockStarts (p : Plan) : List Nat := p.placements.filterMap blockStart?

variable {filling : Filling}

theorem fills_self_iff : Fills filling n n placements ↔ placements = [] := by
  constructor
  · rintro (- | ⟨-, -, -, h⟩)
    · rfl
    · exact absurd h (Nat.lt_irrefl n)
  · rintro rfl
    exact .nothing rfl

theorem fills_iff_of_lt (hlt : start < n) :
    Fills filling start n placements ↔
      ∃ r, Extent.ofStartLength start (n - start) = .ok r ∧ placements = [⟨r, filling⟩] := by
  constructor
  · rintro (h | ⟨r, hstart, hstop, -⟩)
    · omega
    · refine ⟨r, Extent.ofStartLength_eq_ok_iff.mpr ⟨hstart, ?_⟩, rfl⟩
      rw [Extent.stop] at hstop
      omega
  · rintro ⟨r, hr, rfl⟩
    obtain ⟨hstart, hlength⟩ := Extent.ofStartLength_eq_ok_iff.mp hr
    refine .extent r hstart ?_ hlt
    rw [Extent.stop]
    omega

theorem gap_eq_ok_iff (hle : stop ≤ start) :
    gap index stop start = .ok padding ↔ Fills .padding stop start padding := by
  unfold gap
  split
  · next hlt =>
    rw [fills_iff_of_lt hlt]
    cases Extent.ofStartLength stop (start - stop) <;> simp [eq_comm]
  · next hge =>
    obtain rfl : stop = start := by omega
    simp [fills_self_iff, eq_comm]

theorem placeHeader_eq_ok_iff :
    placeHeader stop headerLength = .ok placements ↔
      Fills .header stop (stop + headerLength) placements := by
  unfold placeHeader
  split
  · next hzero => simp [hzero, fills_self_iff, eq_comm]
  · rw [fills_iff_of_lt (by omega), Nat.add_sub_cancel_left]
    cases Extent.ofStartLength stop headerLength <;> simp [eq_comm]

theorem roundUp_eq_ok_iff :
    roundUp stop alignment = .ok n ↔
      n = nextMultiple stop alignment ∧ nextMultiple stop alignment < addressSpace := by
  unfold roundUp
  split
  · next h => simp [h, eq_comm]
  · next h => simp [h]

theorem placeBlock_eq_ok_iff :
    placeBlock alignment index stop declaredStop block = .ok (placements, declared, placed) ↔
      (declared.start = block.start ∧ (declared.length : Int) = block.length) ∧
      declaredStop ≤ block.start ∧
      (placed.start = landing alignment stop block ∧
        placed.length = declared.length) ∧
      ∃ padding, Fills .padding stop placed.start padding ∧
        placements = padding ++ [⟨placed, .block index block.path block.fileOffset⟩] := by
  rw [placeBlock, bind_eq_ok_iff]
  constructor
  · rintro ⟨r, hr, h⟩
    rw [mapError_eq_ok_iff, Extent.ofSignedLength_eq_ok_iff] at hr
    split at h
    · cases h
    · next horder =>
      obtain ⟨-, -, h⟩ := bind_eq_ok_iff.mp h
      obtain ⟨aligned, haligned, h⟩ := bind_eq_ok_iff.mp h
      obtain ⟨rfl, -⟩ := roundUp_eq_ok_iff.mp haligned
      obtain ⟨padding, hpadding, h⟩ := bind_eq_ok_iff.mp h
      obtain ⟨q, hq, h⟩ := bind_eq_ok_iff.mp h
      rw [mapError_eq_ok_iff, Extent.ofStartLength_eq_ok_iff] at hq
      cases h
      refine ⟨hr, Nat.le_of_not_lt horder, hq, padding, ?_, rfl⟩
      rw [hq.1]
      exact (gap_eq_ok_iff le_landing).mp hpadding
  · rintro ⟨hdeclared, horder, hplaced, padding, hpadding, rfl⟩
    have hspace := placed.stop_lt
    have hround : nextMultiple stop alignment ≤ placed.start := by
      rw [hplaced.1]
      exact nextMultiple_le_landing
    refine ⟨declared, by rwa [mapError_eq_ok_iff, Extent.ofSignedLength_eq_ok_iff], ?_⟩
    rw [if_neg (Nat.not_lt.mpr horder)]
    rw [hplaced.1] at hpadding
    refine bind_eq_ok_iff.mpr ⟨_, roundUp_eq_ok_iff.mpr ⟨rfl, ?_⟩,
      bind_eq_ok_iff.mpr ⟨padding, (gap_eq_ok_iff le_landing).mpr hpadding,
      bind_eq_ok_iff.mpr ⟨placed, ?_, rfl⟩⟩⟩
    · omega
    · rwa [mapError_eq_ok_iff, Extent.ofStartLength_eq_ok_iff]

theorem placeBlocks_eq_ok_iff :
    placeBlocks alignment index stop declaredStop blocks = .ok (placements, last) ↔
      (∀ block ∈ blocks.head?, declaredStop ≤ block.start) ∧ Declared blocks ∧
        Laid alignment index stop blocks placements ∧ last = lastStop alignment stop blocks := by
  induction blocks generalizing index stop declaredStop placements last with
  | nil =>
    rw [placeBlocks, lastStop]
    constructor
    · intro h
      cases h
      exact ⟨by simp, declared_nil, .nil, rfl⟩
    · rintro ⟨-, -, ⟨⟩, rfl⟩
      rfl
  | cons block rest ih =>
    rw [placeBlocks, bind_eq_ok_iff, declared_cons_iff, lastStop]
    constructor
    · rintro ⟨⟨here, declared, placed⟩, hblock, h⟩
      obtain ⟨⟨later, last⟩, hrest, h⟩ := bind_eq_ok_iff.mp h
      cases h
      obtain ⟨⟨hstart, hlength⟩, horder, hplaced, padding, hpadding, rfl⟩ :=
        placeBlock_eq_ok_iff.mp hblock
      obtain ⟨hnext, hdeclared, hlaid, rfl⟩ := ih.mp hrest
      have hsame : (placed.length : Int) = block.length := by rw [hplaced.2, hlength]
      have hstop : declared.stop = block.stop := by
        rw [stop_of_length hlength, hstart, Block.stop]
      have hspace : block.stop < addressSpace := hstop ▸ declared.stop_lt
      rw [hstop] at hnext
      refine ⟨by simpa using horder, ⟨⟨by omega, hspace⟩, hnext, hdeclared⟩, ?_, ?_⟩
      · rw [List.append_assoc]
        exact .cons placed padding later hpadding hplaced.1 hsame hlaid
      · rw [stop_of_length hsame, hplaced.1]
    · rintro ⟨horder, ⟨⟨hsign, hspace⟩, hnext, hdeclared⟩, hlaid, rfl⟩
      -- the declared extent is made anew, for the placements say nothing of it
      cases hlaid with
      | cons placed padding later hpadding hstart hlength hlater =>
        let declared : Extent := ⟨block.start, block.length.toNat, hspace⟩
        have hsame : placed.length = declared.length := by
          change placed.length = block.length.toNat
          omega
        rw [← hstart, ← stop_of_length hlength]
        refine ⟨(padding ++ [_], declared, placed), placeBlock_eq_ok_iff.mpr
          ⟨⟨rfl, Int.toNat_of_nonneg hsign⟩, by simpa using horder, ⟨hstart, hsame⟩,
            padding, hpadding, rfl⟩,
          bind_eq_ok_iff.mpr ⟨_, ih.mpr ⟨hnext, hdeclared, hlater, rfl⟩, ?_⟩⟩
        exact congrArg (fun ps => Except.ok (ps, _)) (List.append_assoc padding [_] later)

/-- A computed plan holds the placements of the blocks and the header after them. -/
theorem compute_eq_ok_iff {p : Plan} :
    compute blocks headerLength alignment = .ok p ↔
      alignment ≠ 0 ∧ Declared blocks ∧
        ∃ placements header, Laid alignment 0 0 blocks placements ∧
          Fills .header (lastStop alignment 0 blocks)
            (lastStop alignment 0 blocks + headerLength) header ∧
          p = ⟨placements ++ header, headerLength, lastStop alignment 0 blocks + headerLength⟩ := by
  unfold compute
  split
  · next hzero =>
    constructor
    · intro h
      cases h
    · rintro ⟨hpos, -⟩
      exact absurd hzero hpos
  · next hpos =>
    constructor
    · intro h
      obtain ⟨-, -, h⟩ := bind_eq_ok_iff.mp h
      obtain ⟨⟨placements, last⟩, hplaced, h⟩ := bind_eq_ok_iff.mp h
      obtain ⟨header, hheader, h⟩ := bind_eq_ok_iff.mp h
      obtain ⟨-, hdeclared, hlaid, rfl⟩ := placeBlocks_eq_ok_iff.mp hplaced
      cases h
      exact ⟨hpos, hdeclared, placements, header, hlaid, placeHeader_eq_ok_iff.mp hheader, rfl⟩
    · rintro ⟨-, hdeclared, placements, header, hlaid, hheader, rfl⟩
      exact bind_eq_ok_iff.mpr ⟨_,
        placeBlocks_eq_ok_iff.mpr ⟨fun _ _ => Nat.zero_le _, hdeclared, hlaid, rfl⟩,
        bind_eq_ok_iff.mpr ⟨header, placeHeader_eq_ok_iff.mpr hheader, rfl⟩⟩

/-! ### Room for a placement -/

/-- An extent can be filled if it is empty or ends at an address. -/
theorem exists_fills_iff (hle : start ≤ n) :
    (∃ placements, Fills filling start n placements) ↔ start = n ∨ n < addressSpace := by
  constructor
  · rintro ⟨placements, h | ⟨r, -, hstop, -⟩⟩
    · exact .inl h
    · exact .inr (hstop ▸ r.stop_lt)
  · intro h
    rcases Nat.eq_or_lt_of_le hle with rfl | hlt
    · exact ⟨[], .nothing rfl⟩
    · have hspace : start + (n - start) < addressSpace := by omega
      exact ⟨_, .extent ⟨start, n - start, hspace⟩ rfl (Nat.add_sub_cancel' hle) hlt⟩

theorem le_lastStop : stop ≤ lastStop alignment stop blocks := by
  induction blocks generalizing stop with
  | nil => exact Nat.le_refl _
  | cons block rest ih =>
    exact Nat.le_trans (Nat.le_add_right_of_le le_landing) ih

/-- Blocks can be laid if the last of them ends at an address. -/
theorem exists_laid_iff (hdeclared : Declared blocks) (hspace : stop < addressSpace) :
    (∃ placements, Laid alignment index stop blocks placements) ↔
      lastStop alignment stop blocks < addressSpace := by
  induction blocks generalizing index stop with
  | nil => exact ⟨fun _ => hspace, fun _ => ⟨[], .nil⟩⟩
  | cons block rest ih =>
    obtain ⟨⟨hsign, -⟩, -, hrest⟩ := declared_cons_iff.mp hdeclared
    rw [lastStop]
    constructor
    · rintro ⟨_, hlaid⟩
      cases hlaid with
      | cons placed padding later hpadding hstart hlength hlater =>
        rw [← hstart, ← stop_of_length hlength]
        exact (ih hrest placed.stop_lt).mp ⟨later, hlater⟩
    · intro hroom
      have hfits := Nat.lt_of_le_of_lt le_lastStop hroom
      obtain ⟨later, hlater⟩ : ∃ later, Laid alignment (index + 1) _ rest later :=
        (ih hrest hfits).mpr hroom
      obtain ⟨padding, hpadding⟩ :
          ∃ padding, Fills .padding stop (landing alignment stop block) padding :=
        (exists_fills_iff le_landing).mpr (.inr (by omega))
      exact ⟨_, .cons ⟨_, _, hfits⟩ padding later hpadding rfl (Int.toNat_of_nonneg hsign) hlater⟩

/-! ### The least placement -/

theorem exists_compute_iff :
    (∃ p, compute blocks headerLength alignment = .ok p) ↔
      alignment ≠ 0 ∧ Declared blocks ∧
        lastStop alignment 0 blocks + headerLength < addressSpace := by
  have hzero : 0 < addressSpace := by decide
  constructor
  · rintro ⟨p, hp⟩
    obtain ⟨hpos, hdeclared, placements, header, hlaid, hheader, -⟩ := compute_eq_ok_iff.mp hp
    -- an empty header is not placed, but then the blocks themselves end at an address
    have hlast := (exists_laid_iff hdeclared hzero).mp ⟨placements, hlaid⟩
    have hroom := (exists_fills_iff (Nat.le_add_right _ _)).mp ⟨header, hheader⟩
    exact ⟨hpos, hdeclared, by omega⟩
  · rintro ⟨hpos, hdeclared, hroom⟩
    obtain ⟨placements, hlaid⟩ : ∃ placements, Laid alignment 0 0 blocks placements :=
      (exists_laid_iff hdeclared hzero).mpr (by omega)
    obtain ⟨header, hheader⟩ : ∃ header, Fills .header _ _ header :=
      (exists_fills_iff (Nat.le_add_right _ headerLength)).mpr (.inr hroom)
    exact ⟨_, compute_eq_ok_iff.mpr ⟨hpos, hdeclared, placements, header, hlaid, hheader, rfl⟩⟩

/-- What leaves out the filling leaves out the placements of a gap. -/
theorem Fills.filterMap_eq_nil {β : Type} {f : Placement → Option β}
    (h : Fills filling start stop placements) (hf : ∀ r, f ⟨r, filling⟩ = none) :
    placements.filterMap f = [] := by
  cases h with
  | nothing => rfl
  | extent r => rw [List.filterMap_cons_none (hf r), List.filterMap_nil]

theorem Laid.filterMap_blockStart? (h : Laid alignment index stop blocks placements) :
    placements.filterMap blockStart? = earliest alignment stop blocks := by
  induction h with
  | nil => rfl
  | cons placed padding later hpadding hstart hlength _ ih =>
    rw [List.filterMap_append, hpadding.filterMap_eq_nil fun _ => rfl, List.nil_append]
    change placed.start :: later.filterMap blockStart? = _
    rw [ih, earliest, stop_of_length hlength, hstart]

theorem blockStarts_of_compute {p : Plan} (h : compute blocks headerLength alignment = .ok p) :
    p.blockStarts = earliest alignment 0 blocks := by
  obtain ⟨-, -, placements, header, hlaid, hheader, rfl⟩ := compute_eq_ok_iff.mp h
  rw [blockStarts, List.filterMap_append, hlaid.filterMap_blockStart?,
    hheader.filterMap_eq_nil fun _ => rfl, List.append_nil]

/-- Blocks have a layout if and only if the alignment is not zero, the declared extents are in
order, and some placement of the blocks has room. The layout is the least such placement. -/
theorem exists_compute_iff_feasible :
    ((∃ p, compute blocks headerLength alignment = .ok p) ↔
      alignment ≠ 0 ∧ Declared blocks ∧
        ∃ starts, Feasible alignment headerLength 0 blocks starts) ∧
    ∀ p, compute blocks headerLength alignment = .ok p →
      Feasible alignment headerLength 0 blocks p.blockStarts ∧
        ∀ starts, Feasible alignment headerLength 0 blocks starts →
          List.Forall₂ (· ≤ ·) p.blockStarts starts := by
  constructor
  · rw [exists_compute_iff]
    constructor
    · rintro ⟨hpos, hdeclared, hroom⟩
      exact ⟨hpos, hdeclared, (exists_feasible_iff (Nat.pos_of_ne_zero hpos)).mpr hroom⟩
    · rintro ⟨hpos, hdeclared, hfeasible⟩
      exact ⟨hpos, hdeclared, (exists_feasible_iff (Nat.pos_of_ne_zero hpos)).mp hfeasible⟩
  · intro p hp
    obtain ⟨hpos, -, hroom⟩ := exists_compute_iff.mp ⟨p, hp⟩
    rw [blockStarts_of_compute hp]
    refine ⟨(feasible_earliest_iff (Nat.pos_of_ne_zero hpos)).mpr hroom, fun starts hstarts => ?_⟩
    exact (earliest_le_of_feasible (Nat.le_refl 0) hstarts).1

/-- A block of five bytes and one of three that is declared to follow it. -/
def twoBlocks : List Block := [⟨⟨[0x61]⟩, 0, 5, 0⟩, ⟨⟨[0x62]⟩, 5, 3, 0⟩]

theorem blockStarts_twoBlocks :
    ∃ p, compute twoBlocks 2 4 = .ok p ∧ p.blockStarts = [0, 8] ∧
      Feasible 4 2 0 twoBlocks [3, 9] ∧ List.Forall₂ (· ≤ ·) p.blockStarts [3, 9] := by
  obtain ⟨p, hp, hstarts⟩ :
      ∃ p, compute twoBlocks 2 4 = .ok p ∧ p.blockStarts = [0, 8] := ⟨_, rfl, rfl⟩
  have hlater : Feasible 4 2 0 twoBlocks [3, 9] := by decide
  exact ⟨p, hp, hstarts, hlater, (exists_compute_iff_feasible.2 p hp).2 _ hlater⟩

end Plan

end VirtualFiles
