import VirtualFiles.Proofs.Layout.Shape

/-!
# Declaring blocks where they landed

The layout may move blocks up, to a multiple of the alignment after the block before. If every
block is then declared to begin where it landed, nothing is left to move: the layout of the new
declarations is the same plan. Its gaps are the same too, for a block that has to land at or after
a multiple of the alignment, and is declared to, stays there.

## Main definitions

* `Plan.rebase` — the blocks with other declared starts

## Main results

* `Laid.laid_rebase` — the placements of the blocks are those of the rebased blocks
* `Laid.declared_rebase` — blocks can be declared where they landed
* `compute_rebase` — the layout of the rebased blocks is the plan they were taken from
-/

namespace VirtualFiles.Plan

variable {alignment headerLength index stop : Nat} {block : Block} {blocks : List Block}
variable {placements : List Placement} {p : Plan}

/-- The blocks, declared to begin at `starts`. All else stays as it is. -/
def rebase (blocks : List Block) (starts : List Nat) : List Block :=
  blocks.zipWith (fun block start => { block with start := start }) starts

theorem length_earliest : (earliest alignment stop blocks).length = blocks.length := by
  induction blocks generalizing stop with
  | nil => rfl
  | cons block rest ih => rw [earliest, List.length_cons, List.length_cons, ih]

/-- A block that is declared where it landed lands there again. -/
theorem landing_landing :
    landing alignment stop { block with start := landing alignment stop block } =
      landing alignment stop block :=
  Nat.max_eq_left nextMultiple_le_landing

theorem rebase_earliest_cons {rest : List Block} :
    rebase (block :: rest) (earliest alignment stop (block :: rest)) =
      { block with start := landing alignment stop block } ::
        rebase rest (earliest alignment (landing alignment stop block + block.length.toNat) rest) :=
  rfl

theorem lastStop_rebase :
    lastStop alignment stop (rebase blocks (earliest alignment stop blocks)) =
      lastStop alignment stop blocks := by
  induction blocks generalizing stop with
  | nil => rfl
  | cons block rest ih => rw [rebase_earliest_cons, lastStop, lastStop, landing_landing, ih]

/-- The placements of the blocks are also those of the blocks that are declared where they
landed. -/
theorem Laid.laid_rebase (h : Laid alignment index stop blocks placements) :
    Laid alignment index stop (rebase blocks (earliest alignment stop blocks)) placements := by
  induction h with
  | nil => exact .nil
  | cons placed padding later hpadding hstart hlength _ ih =>
    rw [rebase_earliest_cons]
    rw [stop_of_length hlength, hstart] at ih
    refine .cons placed padding later hpadding (hstart.trans landing_landing.symm) hlength ?_
    rw [stop_of_length hlength, hstart]
    exact ih

/-- Where blocks landed, their extents are in order. -/
theorem Laid.declared_rebase (h : Laid alignment index stop blocks placements) :
    Declared (rebase blocks (earliest alignment stop blocks)) := by
  induction h with
  | nil => exact declared_nil
  | @cons _ stop block rest placed padding later _ hstart hlength _ ih =>
    have hstop : landing alignment stop block + block.length.toNat = placed.stop := by
      rw [stop_of_length hlength, hstart]
    rw [rebase_earliest_cons, hstop]
    refine declared_cons_iff.mpr ⟨⟨?_, ?_⟩, ?_, ih⟩
    · change 0 ≤ block.length
      omega
    · rw [Block.stop, hstop]
      exact placed.stop_lt
    · intro next hnext
      rw [Block.stop, hstop]
      cases rest with
      | nil => cases hnext
      | cons later others =>
        -- the next block lands after this one
        cases hnext
        exact le_landing

/-- The blocks of a plan, declared to begin where the plan has them, have that plan. -/
theorem compute_rebase (h : compute blocks headerLength alignment = .ok p) :
    p.blockStarts.length = blocks.length ∧
      compute (rebase blocks p.blockStarts) headerLength alignment = .ok p := by
  rw [blockStarts_of_compute h]
  refine ⟨length_earliest, ?_⟩
  obtain ⟨hne, -, laid, header, hlaid, hheader, rfl⟩ := compute_eq_ok_iff.mp h
  apply compute_eq_ok_iff.mpr
  refine ⟨hne, hlaid.declared_rebase, laid, header, hlaid.laid_rebase, ?_, ?_⟩
  · rwa [lastStop_rebase]
  · rw [lastStop_rebase]

theorem compute_rebase_fourBlocks : ∃ p, compute fourBlocks 1 4 = .ok p ∧
    (rebase fourBlocks p.blockStarts).map (·.start) = [3, 8, 8, 20] ∧
    compute (rebase fourBlocks p.blockStarts) 1 4 = .ok p :=
  ⟨_, rfl, rfl, (compute_rebase rfl).2⟩

end VirtualFiles.Plan
