import VirtualFiles.Proofs.Layout.Contents

/-!
# When a plan can be opened

A computed plan has a placement for every block, in the order of the blocks. Opening it opens all
of them, those of length zero included, and asks of each file no more than its size. This is all
that can go wrong once the header has its planned length: the placements of a plan tile the
addresses below its length and every source is as long as its extent, so the segments always form
a stream. The placements of length zero are missing from its table.

The size asked for is the sum of two words and stops at the last address. As no file reaches that
far, a block that ends beyond it is refused all the same.

## Main definitions

* `Placement.block?` — the block that a placement is for
* `Placement.Backed`, `Placement.FailsWith` — whether the file of a block holds it, and what is
  reported if not
* `Plan.occupied` — the placements that are not empty
* `Plan.Fits` — a segment as its placement wants it

## Main results

* `filterMap_block?_of_compute` — a plan has all blocks in their order
* `backed_iff`, `exists_failsWith` — opening one placement
* `exists_ofSegments_of_compute` — the segments of a plan form a stream
* `open_of_compute` — what opening a plan comes to
-/

namespace VirtualFiles

open Outcome

/-- The kind of the segments that fill an extent in this way. -/
def Filling.kind : Filling → SegmentKind
  | .block .. => .file
  | .padding => .padding
  | .header => .memory

namespace Placement

/-- The block that the placement is for, with its length. -/
def block? (p : Placement) : Option (Filling × Nat) :=
  match p.filling with
  | .block .. => some (p.filling, p.extent.length)
  | .padding | .header => none

/-- If the placement is for a block, the path of the block names something that reports a size not
less than the end of the block in it. -/
def Backed (fs : FileSystem) (p : Placement) : Prop :=
  match p.filling with
  | .block _ path fileOffset =>
    ∃ node, fs.locate path = .ok node ∧ fileOffset + p.extent.length ≤ fs.size node
  | .padding | .header => True

/-- The placement is for a block that cannot be opened, and this is reported. -/
inductive FailsWith (fs : FileSystem) : Placement → LayoutError → Prop
  | missing {extent : Extent} {index : Nat} {path : Path} {fileOffset : Nat} {kind : IoErrorKind}
      (h : fs.locate path = .error kind) :
      FailsWith fs ⟨extent, .block index path fileOffset⟩ (.openBacking index path (.bare kind))
  | tooShort {extent : Extent} {index : Nat} {path : Path} {fileOffset : Nat} {node : NodeId}
      (h : fs.locate path = .ok node) (hsize : fs.size node < fileOffset + extent.length) :
      FailsWith fs ⟨extent, .block index path fileOffset⟩
        (.backingTooShort index path (min (fileOffset + extent.length) (addressSpace - 1))
          (fs.size node))

theorem FailsWith.not_backed {fs : FileSystem} {p : Placement} {cause : LayoutError}
    (h : p.FailsWith fs cause) : ¬ p.Backed fs := by
  intro hbacked
  cases h with
  | missing hmissing =>
    obtain ⟨node, hnode, -⟩ := hbacked
    cases hmissing.symm.trans hnode
  | tooShort hlocate hsize =>
    obtain ⟨node, hnode, hle⟩ := hbacked
    obtain rfl := Except.ok.inj (hlocate.symm.trans hnode)
    exact Nat.not_lt.mpr hle hsize

end Placement

namespace Plan

variable {fs : FileSystem} {header : Bytes} {p : Placement} {t : Segment}
variable {alignment headerLength index start stop : Nat} {filling : Filling}
variable {blocks : List Block} {placements : List Placement} {segments : List Segment}
variable {plan : Plan} {cause : LayoutError}

/-! ### The blocks of a plan -/

theorem Laid.filterMap_block? (h : Laid alignment index stop blocks placements) :
    placements.filterMap Placement.block? = blocks.mapIdx fun i b =>
      (.block (index + i) b.path b.fileOffset, b.length.toNat) := by
  induction h with
  | nil => rfl
  | @cons index stop block rest placed padding later hpadding hstart hlength _ ih =>
    rw [List.filterMap_append, hpadding.filterMap_eq_nil fun _ => rfl, List.nil_append]
    change (_, placed.length) :: later.filterMap Placement.block? = _
    rw [ih, List.mapIdx_cons, ← hlength, Int.toNat_natCast]
    simp only [Nat.add_assoc, Nat.add_comm 1, Nat.add_zero]

/-- A computed plan has a placement for every block, in the order of the blocks. -/
theorem filterMap_block?_of_compute (h : compute blocks headerLength alignment = .ok plan) :
    plan.placements.filterMap Placement.block? = blocks.mapIdx fun i b =>
      (.block i b.path b.fileOffset, b.length.toNat) := by
  obtain ⟨-, -, placements, headers, hlaid, hheader, rfl⟩ := compute_eq_ok_iff.mp h
  rw [List.filterMap_append, hlaid.filterMap_block?, hheader.filterMap_eq_nil fun _ => rfl,
    List.append_nil]
  simp only [Nat.zero_add]

/-! ### Opening one placement -/

/-- The segment fills the extent of the placement in the way that is planned, and its source is as
long as the extent. -/
structure Fits (p : Placement) (t : Segment) : Prop where
  extent_eq : t.extent = p.extent
  kind_eq : t.kind = p.filling.kind
  length_eq : t.source.length = p.extent.length

theorem fits_of_openPlacement (hheader : p.filling = .header → header.length = p.extent.length)
    (h : openPlacement fs header p = .ok t) : Fits p t := by
  obtain ⟨extent, filling⟩ := p
  cases filling with
  | block index path fileOffset =>
    obtain ⟨window, hwindow, h⟩ := bind_eq_ok_iff.mp h
    obtain ⟨node, -, rfl, -⟩ := openBlock_eq_ok_iff.mp hwindow
    cases h
    exact ⟨rfl, rfl, rfl⟩
  | padding =>
    cases h
    exact ⟨rfl, rfl, rfl⟩
  | header =>
    cases h
    exact ⟨rfl, rfl, hheader rfl⟩

theorem openPlacement_of_backed (h : p.Backed fs) (header : Bytes) :
    ∃ t, openPlacement fs header p = .ok t := by
  obtain ⟨extent, filling⟩ := p
  cases filling with
  | block index path fileOffset =>
    obtain ⟨node, hnode, hle⟩ := h
    have hsize : blockStop fileOffset extent.length ≤ fs.size node :=
      Nat.le_trans (Nat.min_le_left _ _) hle
    exact ⟨_, bind_eq_ok_iff.mpr ⟨_, openBlock_eq_ok_iff.mpr ⟨node, hnode, rfl, hsize⟩, rfl⟩⟩
  | padding => exact ⟨_, rfl⟩
  | header => exact ⟨_, rfl⟩

/-- A placement that is not backed fails to open: no file is as large as the address space, so
that the size asked for may stop there. -/
theorem exists_failsWith (hsizes : ∀ node, fs.size node ≤ FileSystem.maxOffset)
    (h : ¬ p.Backed fs) (header : Bytes) :
    ∃ cause, p.FailsWith fs cause ∧ openPlacement fs header p = .error cause := by
  obtain ⟨extent, filling⟩ := p
  cases filling with
  | block index path fileOffset =>
    cases hlocate : fs.locate path with
    | error kind =>
      have hblock : openBlock fs index path fileOffset extent.length =
          .error (.openBacking index path (.bare kind)) := by
        simp only [openBlock, FileWindow.open?, hlocate]
      refine ⟨_, .missing hlocate, ?_⟩
      simp only [openPlacement, hblock]
      rfl
    | ok node =>
      have hshort : fs.size node < fileOffset + extent.length :=
        Nat.lt_of_not_le fun hle => h ⟨node, hlocate, hle⟩
      have hstop : fs.size node < blockStop fileOffset extent.length := by
        have hsize := hsizes node
        have hspace := Source.maxOffset_add_one_lt
        rw [blockStop]
        omega
      have hblock : openBlock fs index path fileOffset extent.length =
          .error (.backingTooShort index path (blockStop fileOffset extent.length)
            (fs.size node)) := by
        simp only [openBlock, FileWindow.open?, hlocate, if_pos hstop]
      refine ⟨_, .tooShort hlocate hshort, ?_⟩
      simp only [openPlacement, hblock]
      rfl
  | padding => exact absurd trivial h
  | header => exact absurd trivial h

/-- A placement can be opened if and only if it is backed. -/
theorem backed_iff (hsizes : ∀ node, fs.size node ≤ FileSystem.maxOffset) :
    p.Backed fs ↔ ∃ t, openPlacement fs header p = .ok t := by
  constructor
  · intro h
    exact openPlacement_of_backed h header
  · rintro ⟨t, ht⟩
    by_contra hnot
    obtain ⟨cause, -, hcause⟩ := exists_failsWith hsizes hnot header
    cases ht.symm.trans hcause

/-! ### The segments of a plan -/

/-- The placements that are not empty. -/
def occupied (placements : List Placement) : List Placement :=
  placements.filter fun p => !p.extent.isEmpty

theorem mem_occupied_iff : p ∈ occupied placements ↔ p ∈ placements ∧ 0 < p.extent.length := by
  simp [occupied, Extent.isEmpty, Nat.pos_iff_ne_zero]

/-- The segment of a single placement tiles its extent. -/
theorem Fits.tiles (h : Fits p t) :
    Tiles p.extent.start (VirtualStream.dropEmpty [t]) p.extent.stop := by
  rw [← h.extent_eq]
  refine VirtualStream.tiles_singleton (Nat.le_of_eq ?_)
  rw [h.length_eq, h.extent_eq]

theorem Fills.tiles (h : Fills filling start stop placements)
    (hfits : List.Forall₂ Fits placements segments) :
    Tiles start (VirtualStream.dropEmpty segments) stop := by
  cases h with
  | nothing h =>
    cases hfits
    rw [h]
    exact .nil stop
  | extent r hstart hstop hlt =>
    obtain ⟨t, rest, ht, hrest, rfl⟩ := List.forall₂_cons_left_iff.mp hfits
    cases hrest
    rw [← hstart, ← hstop]
    exact ht.tiles

/-- The segments of the placements of blocks follow each other up to the end of the last block. -/
theorem Laid.tiles (h : Laid alignment index stop blocks placements)
    (hfits : List.Forall₂ Fits placements segments) :
    Tiles stop (VirtualStream.dropEmpty segments) (lastStop alignment stop blocks) := by
  induction h generalizing segments with
  | nil =>
    cases hfits
    exact .nil _
  | cons placed padding later hpadding hstart hlength _ ih =>
    obtain ⟨gap, others, rfl, hgap, hothers⟩ := forall₂_append_iff.mp hfits
    obtain ⟨t, rest, ht, hrest, rfl⟩ := List.forall₂_cons_left_iff.mp hothers
    rw [List.append_cons, VirtualStream.dropEmpty_append, VirtualStream.dropEmpty_append, lastStop,
      ← hstart, ← stop_of_length hlength]
    exact ((hpadding.tiles hgap).append ht.tiles).append (ih hrest)

/-- The segments of a computed plan form a stream as long as the plan. -/
theorem exists_ofSegments_of_compute (h : compute blocks headerLength alignment = .ok plan)
    (hfits : List.Forall₂ Fits plan.placements segments) :
    ∃ s, VirtualStream.ofSegments segments = .ok s ∧ s.length = plan.length := by
  obtain ⟨-, -, placements, headers, hlaid, hheader, rfl⟩ := compute_eq_ok_iff.mp h
  obtain ⟨first, last, rfl, hfirst, hlast⟩ := forall₂_append_iff.mp hfits
  have htiles := (hlaid.tiles hfirst).append (hheader.tiles hlast)
  rw [← VirtualStream.dropEmpty_append] at htiles
  exact ⟨_, VirtualStream.ofSegments_of_tiles htiles, rfl⟩

/-- The segments that are not empty are those of the placements that are not empty. -/
theorem map_dropEmpty_of_fits (h : List.Forall₂ Fits placements segments) :
    (VirtualStream.dropEmpty segments).map (fun t => (t.extent, t.kind)) =
      (occupied placements).map fun p => (p.extent, p.filling.kind) := by
  induction h with
  | nil => rfl
  | @cons p t placements segments hfits _ ih =>
    rcases Nat.eq_zero_or_pos t.extent.length with hzero | hpos
    · rw [VirtualStream.dropEmpty_cons_of_eq_zero hzero, ih, occupied, occupied,
        List.filter_cons_of_neg]
      simp [← hfits.extent_eq, hzero]
    · rw [VirtualStream.dropEmpty_cons_of_pos hpos, List.map_cons, ih, occupied, occupied,
        List.filter_cons_of_pos, List.map_cons, hfits.extent_eq, hfits.kind_eq]
      simp [← hfits.extent_eq, Extent.isEmpty, Nat.ne_of_gt hpos]

/-! ### Opening a plan -/

theorem headerLength_of_compute (h : compute blocks headerLength alignment = .ok plan) :
    plan.headerLength = headerLength := by
  obtain ⟨-, -, _, _, -, -, rfl⟩ := compute_eq_ok_iff.mp h
  rfl

/-- With a header of the planned length, opening a plan opens its placements one by one. -/
theorem open_eq_of_compute (fs : FileSystem)
    (hplan : compute blocks headerLength alignment = .ok plan)
    (hheader : header.length = headerLength) :
    plan.open fs header = (plan.placements.mapM (openPlacement fs header)).bind
      fun segments => (VirtualStream.ofSegments segments).mapError .assemble := by
  rw [Plan.open, if_neg (not_not.mpr (hheader.trans (headerLength_of_compute hplan).symm))]
  rfl

theorem forall₂_fits (hplan : compute blocks headerLength alignment = .ok plan)
    (hheader : header.length = headerLength)
    (h : List.Forall₂ (fun p t => openPlacement fs header p = .ok t) plan.placements segments) :
    List.Forall₂ Fits plan.placements segments := by
  have hlengths : ∀ p ∈ plan.placements, p.filling = .header → header.length = p.extent.length :=
    fun p hp hfilling => hheader.trans (length_header_of_compute hplan hp hfilling)
  exact ((List.forall₂_and_left _ _).mpr ⟨hlengths, h⟩).imp fun p t hp =>
    fits_of_openPlacement hp.1 hp.2

/-- With a header of the planned length, a plan is opened if all its placements are backed, and
otherwise fails at the first one that is not. -/
theorem open_cases (hplan : compute blocks headerLength alignment = .ok plan)
    (hsizes : ∀ node, fs.size node ≤ FileSystem.maxOffset) (hheader : header.length = headerLength) :
    (∃ s, plan.open fs header = .ok s ∧ (∀ p ∈ plan.placements, p.Backed fs) ∧
      s.length = plan.length ∧ s.segments.toList.map (fun t => (t.extent, t.kind)) =
        (occupied plan.placements).map fun p => (p.extent, p.filling.kind)) ∨
    ∃ before p after cause, plan.placements = before ++ p :: after ∧
      (∀ q ∈ before, q.Backed fs) ∧ p.FailsWith fs cause ∧
      plan.open fs header = .error cause := by
  have hopen := open_eq_of_compute fs hplan hheader
  cases hsegments : plan.placements.mapM (openPlacement fs header) with
  | ok segments =>
    have hopened := mapM_eq_ok_iff.mp hsegments
    have hfits := forall₂_fits hplan hheader hopened
    obtain ⟨s, hs, hlength⟩ := exists_ofSegments_of_compute hplan hfits
    refine .inl ⟨s, ?_, fun p hp => ?_, hlength, ?_⟩
    · rw [hopen, hsegments]
      exact mapError_eq_ok_iff.mpr hs
    · obtain ⟨t, -, ht⟩ := exists_result_of_mem hopened hp
      exact (backed_iff hsizes).mpr ⟨t, ht⟩
    · rw [VirtualStream.toList_segments_of_ofSegments hs]
      exact map_dropEmpty_of_fits hfits
  | error cause =>
    obtain ⟨before, p, after, hsplit, hbefore, hp⟩ := mapM_eq_error_iff.mp hsegments
    have hnot : ¬ p.Backed fs := by
      intro h
      obtain ⟨t, ht⟩ := openPlacement_of_backed h header
      cases ht.symm.trans hp
    obtain ⟨found, hfails, hfound⟩ := exists_failsWith hsizes hnot header
    obtain rfl : cause = found := Except.error.inj (hp.symm.trans hfound)
    refine .inr ⟨before, p, after, cause, hsplit, fun q hq => ?_, hfails, ?_⟩
    · exact (backed_iff hsizes).mpr (hbefore q hq)
    · rw [hopen, hsegments]
      rfl

/-- What opening a computed plan comes to, with file sizes as there are. The plan has a placement
for every block, in the order of the blocks. The segments never fail to form a stream. The plan is
opened exactly if the header has the planned length and every block, also one of length zero, is
backed; without such a header this is reported, and otherwise the first block that is not backed,
either because its file is not there or because the file is too short. The stream is as long as
the plan, and its table has the placements that are not empty, each with its extent and kind. -/
theorem open_of_compute (hplan : compute blocks headerLength alignment = .ok plan)
    (hsizes : ∀ node, fs.size node ≤ FileSystem.maxOffset) (header : Bytes) :
    (plan.placements.filterMap Placement.block? = blocks.mapIdx fun i b =>
        (.block i b.path b.fileOffset, b.length.toNat)) ∧
    (∀ cause, plan.open fs header ≠ .error (.assemble cause)) ∧
    ((∃ s, plan.open fs header = .ok s) ↔
      header.length = headerLength ∧ ∀ p ∈ plan.placements, p.Backed fs) ∧
    (header.length ≠ headerLength →
      plan.open fs header = .error (.headerMismatch headerLength header.length)) ∧
    (header.length = headerLength → ¬ (∀ p ∈ plan.placements, p.Backed fs) →
      ∃ before p after cause, plan.placements = before ++ p :: after ∧
        (∀ q ∈ before, q.Backed fs) ∧ p.FailsWith fs cause ∧
        plan.open fs header = .error cause) ∧
    ∀ s, plan.open fs header = .ok s → s.length = plan.length ∧
      s.segments.toList.map (fun t => (t.extent, t.kind)) =
        (occupied plan.placements).map fun p => (p.extent, p.filling.kind) := by
  have hmismatch : header.length ≠ headerLength →
      plan.open fs header = .error (.headerMismatch headerLength header.length) := by
    intro hne
    rw [Plan.open, headerLength_of_compute hplan, if_pos hne]
    rfl
  refine ⟨filterMap_block?_of_compute hplan, ?_⟩
  by_cases hheader : header.length = headerLength
  · rcases open_cases hplan hsizes hheader with ⟨s, hs, hbacked, hlength, htable⟩ |
      ⟨before, p, after, cause, hsplit, hbefore, hfails, hopen⟩
    · refine ⟨fun cause h => ?_, ⟨fun _ => ⟨hheader, hbacked⟩, fun _ => ⟨s, hs⟩⟩, hmismatch,
        fun _ hnot => absurd hbacked hnot, fun s' hs' => ?_⟩
      · cases hs.symm.trans h
      · obtain rfl : s = s' := Except.ok.inj (hs.symm.trans hs')
        exact ⟨hlength, htable⟩
    · have hnot : ¬ ∀ p ∈ plan.placements, p.Backed fs := fun hall =>
        hfails.not_backed (hall p (hsplit ▸ List.mem_append_right _ List.mem_cons_self))
      refine ⟨fun other h => ?_, ⟨?_, fun h => absurd h.2 hnot⟩, hmismatch,
        fun _ _ => ⟨before, p, after, cause, hsplit, hbefore, hfails, hopen⟩, fun s hs => ?_⟩
      · obtain rfl : cause = .assemble other := Except.error.inj (hopen.symm.trans h)
        cases hfails
      · rintro ⟨s, hs⟩
        cases hopen.symm.trans hs
      · cases hopen.symm.trans hs
  · have hopen := hmismatch hheader
    refine ⟨fun cause h => ?_, ⟨?_, fun h => absurd h.1 hheader⟩, hmismatch,
      fun h => absurd h hheader, fun s hs => ?_⟩
    · cases hopen.symm.trans h
    · rintro ⟨s, hs⟩
      cases hopen.symm.trans hs
    · cases hopen.symm.trans hs

/-- Two bytes of the file `a`, none from beyond its end, and three of the file `b`. -/
def emptyBeyond : List Block :=
  [⟨⟨[0x61]⟩, 3, 2, 1⟩, ⟨⟨[0x61]⟩, 5, 0, 9⟩, ⟨⟨[0x62]⟩, 6, 3, 0⟩]

theorem size_oneFile_le : ∀ node, oneFile.size node ≤ FileSystem.maxOffset
  | 0 => by decide
  | 1 => by decide
  | _ + 2 => Nat.zero_le _

theorem open_emptyBeyond : ∃ plan, compute emptyBeyond 1 4 = .ok plan ∧
    (∀ node, oneFile.size node ≤ FileSystem.maxOffset) ∧
    plan.open oneFile [] = .error (.headerMismatch 1 0) ∧
    plan.open oneFile [0xAA] = .error (.backingTooShort 1 ⟨[0x61]⟩ 9 8) ∧
    ¬ (∀ p ∈ plan.placements, p.Backed oneFile) := by
  obtain ⟨plan, hplan, hopen⟩ : ∃ plan, compute emptyBeyond 1 4 = .ok plan ∧
      plan.open oneFile [0xAA] = .error (.backingTooShort 1 ⟨[0x61]⟩ 9 8) := ⟨_, rfl, rfl⟩
  obtain ⟨-, -, -, hmismatch, -⟩ := open_of_compute hplan size_oneFile_le []
  obtain ⟨-, -, hopens, -⟩ := open_of_compute hplan size_oneFile_le [0xAA]
  refine ⟨plan, hplan, size_oneFile_le, hmismatch (by decide), hopen, fun hall => ?_⟩
  obtain ⟨s, hs⟩ := hopens.mpr ⟨rfl, hall⟩
  cases hopen.symm.trans hs

end Plan

end VirtualFiles
