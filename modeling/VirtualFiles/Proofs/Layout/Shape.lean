import VirtualFiles.Proofs.Extent.Consecutive
import VirtualFiles.Proofs.Layout.Opening

/-!
# The shape of a plan

The placements of a plan follow each other from address `0` to the end of the container. There is
one for each block, in the order of the blocks, and one for the header if it is not empty, which
comes last. All others are padding: never empty, always right before a block, and at least as long
as the alignment only where the block lands exactly where it was declared.

Declared extents are compared only with the one before. As each of them ends at or after its own
start, they are all apart from each other.

## Main definitions

* `Plan.blockExtents` — the extents of the blocks, in the order of the blocks
* `Plan.Shaped` — the properties that all computed plans have

## Main results

* `Laid.consecutive` — the placements of the blocks leave no gap and do not overlap
* `Laid.forall₂_blockExtents`, `Laid.pairwise_blockExtents` — where the blocks land
* `Laid.of_padding` — what follows a padding
* `Declared.pairwise` — declared extents are apart from each other
* `shaped_of_compute` — a computed plan has the shape
-/

namespace VirtualFiles

open Extent

/-- The extent of the placement, if it is for a block. -/
def Placement.blockExtent? (p : Placement) : Option Extent :=
  match p.filling with
  | .block .. => some p.extent
  | .padding | .header => none

theorem Block.start_le_stop (b : Block) : b.start ≤ b.stop := Nat.le_add_right _ _

namespace Plan

variable {alignment headerLength index start stop last n : Nat} {filling : Filling}
variable {block : Block} {blocks rest : List Block} {p : Plan} {q : Placement} {r : Extent}
variable {placements before after : List Placement}

/-- The extents of the blocks of a plan, in the order of the blocks. -/
def blockExtents (p : Plan) : List Extent := p.placements.filterMap Placement.blockExtent?

/-- The properties that all plans for `blocks` have. -/
structure Shaped (blocks : List Block) (headerLength alignment : Nat) (p : Plan) : Prop where
  /-- The placements follow each other from address `0` to the end without gap or overlap. -/
  consecutive : Consecutive 0 (p.placements.map (·.extent)) p.length
  /-- Every address of the container lies in exactly one placement. -/
  owner : ∀ offset < p.length, ∃! i : Nat, ∃ q : Placement,
    p.placements[i]? = some q ∧ q.extent.contains offset = true
  /-- There is one placement for each block, in order, with its index, path, offset and length. -/
  placed : p.placements.filterMap Placement.block? = blocks.mapIdx fun i b =>
    (.block i b.path b.fileOffset, b.length.toNat)
  /-- An empty header is not placed. -/
  header_absent : headerLength = 0 → ∀ q ∈ p.placements, q.filling ≠ .header
  /-- Any other header comes last, once, and right after the last block. -/
  header_last : headerLength ≠ 0 → ∃ laid r, p.placements = laid ++ [⟨r, .header⟩] ∧
    r.length = headerLength ∧ (∀ q ∈ laid, q.filling ≠ .header) ∧
    ∀ q ∈ laid.getLast?, ∃ i path fileOffset, q.filling = .block i path fileOffset
  /-- A padding is not empty and comes right before a block. If it is not shorter than the
  alignment, the block lands where it was declared. -/
  padding : ∀ before q after, p.placements = before ++ q :: after → q.filling = .padding →
    0 < q.extent.length ∧ ∃ i b r rest, blocks[i]? = some b ∧
      after = ⟨r, .block i b.path b.fileOffset⟩ :: rest ∧
      (alignment ≤ q.extent.length → r.start = b.start)
  /-- A block lands at its declared start or, if later, at a multiple of the alignment. -/
  landed : List.Forall₂ (fun b r => (r.length : Int) = b.length ∧ b.start ≤ r.start ∧
    (alignment ∣ r.start ∨ r.start = b.start)) blocks p.blockExtents
  /-- Between the end of a block and the start of a later one lies a multiple of the alignment. -/
  rounded : p.blockExtents.Pairwise fun r q => ∃ m, alignment ∣ m ∧ r.stop ≤ m ∧ m ≤ q.start
  /-- Declared extents end at addresses. -/
  declared : ∀ b ∈ blocks, 0 ≤ b.length ∧ b.stop < addressSpace
  /-- Declared extents ascend and are apart from each other. -/
  apart : blocks.Pairwise fun b next => b.stop ≤ next.start

/-! ### Landing -/

theorem nextMultiple_lt (hpos : 0 < alignment) : nextMultiple n alignment < n + alignment := by
  unfold nextMultiple
  have := Nat.mod_lt n hpos
  split <;> omega

theorem start_le_landing : block.start ≤ landing alignment stop block := Nat.le_max_left _ _

theorem landing_eq_or (alignment stop : Nat) (block : Block) :
    landing alignment stop block = block.start ∨
      landing alignment stop block = nextMultiple stop alignment := by
  unfold landing
  omega

/-- A block that lands `alignment` addresses after the data before it, or later, lands at its
declared start: the next multiple of the alignment is nearer. -/
theorem landing_eq_start (hpos : 0 < alignment)
    (hlong : stop + alignment ≤ landing alignment stop block) :
    landing alignment stop block = block.start := by
  rcases landing_eq_or alignment stop block with h | h
  · exact h
  · have := nextMultiple_lt (n := stop) hpos
    omega

/-! ### Placements in order -/

theorem Fills.consecutive (h : Fills filling start stop placements) :
    Consecutive start (placements.map (·.extent)) stop := by
  cases h with
  | nothing h => exact h
  | extent r hstart hstop _ => exact ⟨hstart, hstop⟩

theorem Laid.consecutive (h : Laid alignment index stop blocks placements) :
    Consecutive stop (placements.map (·.extent)) (lastStop alignment stop blocks) := by
  induction h with
  | nil => rfl
  | cons placed padding later hpadding hstart hlength _ ih =>
    rw [lastStop, ← hstart, ← stop_of_length hlength, List.map_append, List.map_cons]
    exact hpadding.consecutive.append ⟨rfl, ih⟩

/-- After a padding there is a block. If the padding is not shorter than the alignment, the block
lands at its declared start. -/
theorem Laid.of_padding (hpos : 0 < alignment) (h : Laid alignment index stop blocks placements)
    (hsplit : placements = before ++ q :: after) (hq : q.filling = .padding) :
    0 < q.extent.length ∧ ∃ i b r rest, blocks[i]? = some b ∧
      after = ⟨r, .block (index + i) b.path b.fileOffset⟩ :: rest ∧
      (alignment ≤ q.extent.length → r.start = b.start) := by
  induction h generalizing before with
  | nil => simp at hsplit
  | @cons index stop block rest placed padding later hpadding hstart hlength _ ih =>
    -- a padding that does not come before all placements of the block comes after them
    have hlater : ∀ {before}, ⟨placed, .block index block.path block.fileOffset⟩ :: later =
        before ++ q :: after → 0 < q.extent.length ∧ ∃ i b r others,
          (block :: rest)[i]? = some b ∧
          after = ⟨r, .block (index + i) b.path b.fileOffset⟩ :: others ∧
          (alignment ≤ q.extent.length → r.start = b.start) := by
      intro before hsplit
      cases before with
      | nil =>
        cases hsplit
        cases hq
      | cons first before =>
        obtain ⟨hlength, i, b, r, others, hb, rfl, hlong⟩ := ih (List.cons.inj hsplit).2
        refine ⟨hlength, i + 1, b, r, others, hb, ?_, hlong⟩
        rw [Nat.add_assoc, Nat.add_comm 1]
    cases hpadding with
    | nothing => exact hlater hsplit
    | extent r hbegin hend hlt =>
      cases before with
      | nil =>
        cases hsplit
        have hgap : stop + r.length = landing alignment stop block := by
          rw [← hstart, ← hend, ← hbegin, Extent.stop]
        have hnonempty : 0 < r.length := by omega
        refine ⟨hnonempty, 0, block, placed, later, rfl, rfl, fun hlong => ?_⟩
        rw [hstart]
        apply landing_eq_start hpos
        rw [← hgap]
        exact Nat.add_le_add_left hlong stop
      | cons first before => exact hlater (List.cons.inj hsplit).2

/-! ### The blocks -/

theorem Fills.filterMap_blockExtent?_append {padding later : List Placement} {path : Path}
    {fileOffset : Nat} (h : Fills .padding start stop padding) :
    (padding ++ ⟨r, .block index path fileOffset⟩ :: later).filterMap Placement.blockExtent? =
      r :: later.filterMap Placement.blockExtent? := by
  rw [List.filterMap_append, h.filterMap_eq_nil fun _ => rfl]
  rfl

theorem Laid.forall₂_blockExtents (hpos : 0 < alignment)
    (h : Laid alignment index stop blocks placements) :
    List.Forall₂ (fun b r => (r.length : Int) = b.length ∧ b.start ≤ r.start ∧
      (alignment ∣ r.start ∨ r.start = b.start)) blocks
      (placements.filterMap Placement.blockExtent?) := by
  induction h with
  | nil => exact .nil
  | @cons _ stop block _ placed padding later hpadding hstart hlength _ ih =>
    rw [hpadding.filterMap_blockExtent?_append]
    refine .cons ⟨hlength, hstart ▸ start_le_landing, ?_⟩ ih
    rw [hstart]
    rcases landing_eq_or alignment stop block with h | h
    · exact .inr h
    · exact .inl (h ▸ dvd_nextMultiple hpos)

/-- No block begins before the data in front of the first one is rounded up. -/
theorem Laid.nextMultiple_le (h : Laid alignment index stop blocks placements)
    (hr : r ∈ placements.filterMap Placement.blockExtent?) :
    nextMultiple stop alignment ≤ r.start := by
  induction h with
  | nil => cases hr
  | @cons _ stop block _ placed padding later hpadding hstart hlength _ ih =>
    have hround : nextMultiple stop alignment ≤ placed.start := hstart ▸ nextMultiple_le_landing
    rw [hpadding.filterMap_blockExtent?_append] at hr
    rcases List.mem_cons.mp hr with rfl | hlater
    · exact hround
    · calc nextMultiple stop alignment
          ≤ placed.start := hround
        _ ≤ placed.stop := placed.start_le_stop
        _ ≤ nextMultiple placed.stop alignment := le_nextMultiple
        _ ≤ r.start := ih hlater

theorem Laid.pairwise_blockExtents (hpos : 0 < alignment)
    (h : Laid alignment index stop blocks placements) :
    (placements.filterMap Placement.blockExtent?).Pairwise
      fun r q => ∃ m, alignment ∣ m ∧ r.stop ≤ m ∧ m ≤ q.start := by
  induction h with
  | nil => exact .nil
  | cons placed padding later hpadding _ _ hlater ih =>
    rw [hpadding.filterMap_blockExtent?_append]
    refine .cons (fun q hq => ?_) ih
    exact ⟨_, dvd_nextMultiple hpos, le_nextMultiple, hlater.nextMultiple_le hq⟩

/-- Declared extents are all apart from each other, though each is compared only with the one
before it. -/
theorem Declared.pairwise (h : Declared blocks) :
    blocks.Pairwise fun b next => b.stop ≤ next.start := by
  have htrans : IsTrans Block fun b next => b.stop ≤ next.start :=
    ⟨fun a b c hab hbc => hab.trans (b.start_le_stop.trans hbc)⟩
  exact h.ordered.pairwise

/-! ### The header -/

theorem Fills.filling_of_mem (h : Fills filling start stop placements) (hq : q ∈ placements) :
    q.filling = filling := by
  cases h with
  | nothing => cases hq
  | extent r => rw [List.mem_singleton.mp hq]

theorem Laid.filling_ne_header (h : Laid alignment index stop blocks placements)
    (hq : q ∈ placements) : q.filling ≠ .header := by
  intro hheader
  obtain hpadding | ⟨_, _, _, hblock, -⟩ := h.exists_block hq
  · cases hheader.symm.trans hpadding
  · cases hheader.symm.trans hblock

/-- The last of the placements of blocks is one of a block, not a padding. -/
theorem Laid.exists_block_of_getLast? (h : Laid alignment index stop blocks placements)
    (hq : q ∈ placements.getLast?) : ∃ i path fileOffset, q.filling = .block i path fileOffset := by
  induction h with
  | nil => cases hq
  | cons placed padding later _ _ _ _ ih =>
    rw [List.getLast?_append, List.getLast?_cons] at hq
    cases hlast : later.getLast? with
    | none =>
      rw [hlast] at hq
      cases hq
      exact ⟨_, _, _, rfl⟩
    | some last =>
      rw [hlast] at hq
      cases hq
      exact ih hlast

/-! ### The whole plan -/

theorem consecutive_of_compute (h : compute blocks headerLength alignment = .ok p) :
    Consecutive 0 (p.placements.map (·.extent)) p.length := by
  obtain ⟨-, -, laid, header, hlaid, hheader, rfl⟩ := compute_eq_ok_iff.mp h
  rw [List.map_append]
  exact hlaid.consecutive.append hheader.consecutive

/-- An entry of two lists together that is not in the second one splits the first one. -/
theorem exists_split_of_notMem {α : Type} {first second before after : List α} {a : α}
    (h : first ++ second = before ++ a :: after) (ha : a ∉ second) :
    ∃ rest, first = before ++ a :: rest ∧ after = rest ++ second := by
  obtain ⟨middle, -, rfl⟩ | ⟨middle, hfirst, hrest⟩ := List.append_eq_append_iff.mp h
  · exact absurd (List.mem_append_right _ List.mem_cons_self) ha
  · cases middle with
    | nil =>
      rw [List.nil_append] at hrest
      exact absurd (hrest ▸ List.mem_cons_self) ha
    | cons b rest =>
      cases hrest
      exact ⟨rest, hfirst, rfl⟩

theorem padding_of_compute (h : compute blocks headerLength alignment = .ok p)
    (hsplit : p.placements = before ++ q :: after) (hq : q.filling = .padding) :
    0 < q.extent.length ∧ ∃ i b r rest, blocks[i]? = some b ∧
      after = ⟨r, .block i b.path b.fileOffset⟩ :: rest ∧
      (alignment ≤ q.extent.length → r.start = b.start) := by
  obtain ⟨hne, -, laid, header, hlaid, hheader, rfl⟩ := compute_eq_ok_iff.mp h
  have hnot : q ∉ header := fun hmem => by cases hq.symm.trans (hheader.filling_of_mem hmem)
  obtain ⟨others, hlaidSplit, rfl⟩ := exists_split_of_notMem hsplit hnot
  obtain ⟨hlength, i, b, r, rest, hb, rfl, hlong⟩ :=
    hlaid.of_padding (Nat.pos_of_ne_zero hne) hlaidSplit hq
  exact ⟨hlength, i, b, r, rest ++ header, hb, by rw [Nat.zero_add, List.cons_append], hlong⟩

theorem header_last_of_compute (h : compute blocks headerLength alignment = .ok p)
    (hne : headerLength ≠ 0) : ∃ laid r, p.placements = laid ++ [⟨r, .header⟩] ∧
      r.length = headerLength ∧ (∀ q ∈ laid, q.filling ≠ .header) ∧
      ∀ q ∈ laid.getLast?, ∃ i path fileOffset, q.filling = .block i path fileOffset := by
  obtain ⟨-, -, laid, header, hlaid, hheader, rfl⟩ := compute_eq_ok_iff.mp h
  cases hheader with
  | nothing hnone => omega
  | extent r hbegin hend =>
    have hlength : r.length = headerLength := by
      rw [Extent.stop] at hend
      omega
    exact ⟨laid, r, rfl, hlength, fun q hq => hlaid.filling_ne_header hq,
      fun q hq => hlaid.exists_block_of_getLast? hq⟩

/-- A computed plan has the shape of all plans. -/
theorem shaped_of_compute (h : compute blocks headerLength alignment = .ok p) :
    p.Shaped blocks headerLength alignment := by
  have hconsecutive := consecutive_of_compute h
  obtain ⟨hne, hdeclared, laid, header, hlaid, hheader, rfl⟩ := compute_eq_ok_iff.mp h
  have hpos : 0 < alignment := Nat.pos_of_ne_zero hne
  have hextents : blockExtents ⟨laid ++ header, headerLength,
      lastStop alignment 0 blocks + headerLength⟩ = laid.filterMap Placement.blockExtent? := by
    rw [blockExtents, List.filterMap_append, hheader.filterMap_eq_nil fun _ => rfl,
      List.append_nil]
  refine {
    consecutive := hconsecutive
    owner := fun offset hlt => hconsecutive.existsUnique_owner (Nat.zero_le offset) hlt
    placed := filterMap_block?_of_compute h
    header_absent := fun hzero q hq => ?_
    header_last := header_last_of_compute h
    padding := fun _ _ _ hsplit hq => padding_of_compute h hsplit hq
    landed := hextents ▸ hlaid.forall₂_blockExtents hpos
    rounded := hextents ▸ hlaid.pairwise_blockExtents hpos
    declared := hdeclared.isExtent
    apart := hdeclared.pairwise }
  · rw [hzero, Nat.add_zero, fills_self_iff] at hheader
    rw [hheader, List.append_nil] at hq
    exact hlaid.filling_ne_header hq

/-- A block that begins late, an empty one, one that is moved up, and one far behind the others. -/
def fourBlocks : List Block :=
  [⟨⟨[0x61]⟩, 3, 2, 1⟩, ⟨⟨[0x61]⟩, 5, 0, 8⟩, ⟨⟨[0x61]⟩, 6, 3, 0⟩, ⟨⟨[0x62]⟩, 20, 2, 0⟩]

theorem shaped_fourBlocks : ∃ p, compute fourBlocks 1 4 = .ok p ∧ p.length = 23 ∧
    p.blockExtents.map (·.start) = [3, 8, 8, 20] ∧ p.Shaped fourBlocks 1 4 :=
  ⟨_, rfl, rfl, rfl, shaped_of_compute rfl⟩

end Plan

end VirtualFiles
