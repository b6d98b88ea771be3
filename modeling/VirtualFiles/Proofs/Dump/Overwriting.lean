import VirtualFiles.Proofs.Dump.Contents
import VirtualFiles.Proofs.Layout.Opening

/-!
# Dumping a container over one of its files

A container keeps its files open, so a dump can be told to write to a file from which it reads.
The file is emptied first, and from then on a block of this file shows what the dump itself has
written. So a dump that succeeds leaves the layout of the contents that the files had before,
except that the target stands for its own new content.

A block of the target has nothing to read as long as the buffer keeps everything back. If the
dump succeeds all the same, such a block is empty or begins beyond what the buffer can hold.

## Main definitions

* `FileSystem.IsStored` — the nodes that blocks with bytes can be taken from
* `Dump.seenContents` — what the files hold for a dump to one of them

## Main results

* `Plan.shows_of_openPlacement` — what a placement shows during a dump
* `Container.capacity_le_of_copiesAll` — where blocks of the target begin
* `Container.files_of_dump` — what a dump of a container leaves in its target
-/

namespace VirtualFiles

open FileSystem Outcome

/-- The node is a regular file or a directory. -/
def FileSystem.IsStored (fs : FileSystem) (id : NodeId) : Prop :=
  (∃ content, fs.node? id = some (.regular content)) ∨
    ∃ above entries, fs.node? id = some (.directory above entries)

/-- What the files hold for a dump that leaves `final` in the file `target`: this file holds
`final`, and all others hold what they held before. -/
def Dump.seenContents (fs : FileSystem) (target : NodeId) (final : Bytes) (path : Path) : Bytes :=
  if fs.locate path = .ok target then final else (fs.contentOf path).toOption.getD []

variable {fs base opened : FileSystem} {target node : NodeId} {path : Path}
variable {final content header : Bytes} {old : Node} {alignment : Nat}

namespace Dump

theorem seenContents_of_target (h : fs.locate path = .ok target) :
    seenContents fs target final path = final := if_pos h

theorem seenContents_of_ne (h : fs.locate path ≠ .ok target) :
    seenContents fs target final path = (fs.contentOf path).toOption.getD [] := if_neg h

theorem seenContents_of_regular (hlocate : fs.locate path = .ok node) (hne : node ≠ target)
    (hnode : fs.node? node = some (.regular content)) :
    seenContents fs target final path = content := by
  have hother : fs.locate path ≠ .ok target := by
    rw [hlocate]
    exact fun h => hne (Except.ok.inj h)
  rw [seenContents_of_ne hother, contentOf_eq_ok_iff.mpr ⟨node, hlocate, hnode⟩]
  rfl

end Dump

/-- A dump that succeeds has opened its target. -/
theorem Dump.opened_of_dump {s : VirtualStream} {written : Nat}
    (hok : (s.dump fs path).result = .ok written) : ∃ grown target opened,
      Dump.prepare fs path = (.ok (), grown) ∧ grown.create path = .ok (target, opened) := by
  unfold VirtualStream.dump at hok
  split at hok
  · cases hok
  · next grown hprepare =>
    split at hok
    · cases hok
    · next target opened hcreate => exact ⟨grown, target, opened, hprepare, hcreate⟩

namespace Plan

open Dump

variable {p : Placement} {t : Segment} {index fileOffset : Nat}
variable {contents : Path → Bytes}

/-! ### Placements that are read during a dump -/

theorem extent_of_openPlacement (h : openPlacement fs header p = .ok t) : t.extent = p.extent := by
  obtain ⟨extent, filling⟩ := p
  cases filling with
  | block index path fileOffset =>
    obtain ⟨window, -, h⟩ := bind_eq_ok_iff.mp h
    cases h
    rfl
  | padding =>
    cases h
    rfl
  | header =>
    cases h
    rfl

/-- The segment of a block that is not empty reads a regular file or a directory. -/
theorem of_openPlacement_block {extent : Extent} (hpos : 0 < extent.length)
    (h : openPlacement fs header ⟨extent, .block index path fileOffset⟩ = .ok t) :
    ∃ node, fs.locate path = .ok node ∧
      t = ⟨FileWindow.source ⟨node, path, fileOffset, extent.length⟩, extent, .file⟩ ∧
      fs.IsStored node := by
  obtain ⟨window, hwindow, h⟩ := bind_eq_ok_iff.mp h
  cases h
  obtain ⟨node, hlocate, rfl, hsize⟩ := openBlock_eq_ok_iff.mp hwindow
  refine ⟨node, hlocate, rfl, ?_⟩
  have hstop : 0 < blockStop fileOffset extent.length := by
    have hspace : 1 < addressSpace := by decide
    rw [blockStop]
    omega
  -- nodes of the other kinds have size zero
  unfold FileSystem.size at hsize
  split at hsize
  · next content hnode => exact .inl ⟨content, hnode⟩
  · next above entries hnode => exact .inr ⟨above, entries, hnode⟩
  · exact absurd hsize (Nat.not_le_of_gt hstop)

theorem length_fillingBytes_le (hheader : p.filling = .header → header.length = p.extent.length) :
    (fillingBytes contents header p).length ≤ p.extent.length := by
  unfold fillingBytes
  split
  · exact Bytes.length_window_le _ _ _
  · rw [List.length_replicate]
  · next hfilling => exact Nat.le_of_eq (hheader hfilling)

/-- A window of a file shows the bytes of the file, one of the target the new bytes. -/
theorem shows_of_fileWindow
    (hkeeps : ∀ bytes, fs.KeepsAllBut (base.withContent target bytes) target)
    (htarget : base.node? target = some old) (hlocate : fs.locate path = .ok node)
    (hnode : fs.IsStored node)
    (hsource : t.source = FileWindow.source ⟨node, path, fileOffset, t.extent.length⟩) :
    Shows base target final t
      ((seenContents fs target final path).window fileOffset t.extent.length) := by
  intro flushed hflushed offset count piece hin hread
  have hlength := Source.length_of_readExactAt hread
  rw [hsource] at hread
  by_cases hown : node = target
  · subst hown
    rw [seenContents_of_target hlocate]
    have hpiece := Source.eq_window_of_fileWindow (node?_withContent htarget) hread
    rw [Bytes.window_window hin] at hpiece ⊢
    -- the target has all bytes of the piece already, so it keeps them
    exact hpiece.trans (Bytes.window_of_isPrefix hflushed (hpiece ▸ hlength)).symm
  · rcases hnode with ⟨content, hregular⟩ | ⟨above, entries, hdirectory⟩
    · rw [seenContents_of_regular hlocate hown hregular]
      exact Source.eq_window_of_fileWindow
        ((hkeeps flushed).regular node content hown hregular) hread
    · -- only reads of nothing succeed on a directory
      obtain ⟨more, hmore⟩ := (hkeeps flushed).directory node above entries hown hdirectory
      obtain rfl := Source.eq_nil_of_directory hmore hread
      obtain rfl : 0 = count := hlength
      exact Bytes.window_zero_right.symm

/-- A placement that is not empty shows what it stands for during a dump. -/
theorem shows_of_openPlacement
    (hkeeps : ∀ bytes, fs.KeepsAllBut (base.withContent target bytes) target)
    (htarget : base.node? target = some old) (hpos : 0 < p.extent.length)
    (hheader : p.filling = .header → header.length = p.extent.length)
    (h : openPlacement fs header p = .ok t) :
    Shows base target final t (fillingBytes (seenContents fs target final) header p) := by
  obtain ⟨extent, filling⟩ := p
  cases filling with
  | block index path fileOffset =>
    obtain ⟨node, hlocate, rfl, hnode⟩ := of_openPlacement_block hpos h
    exact shows_of_fileWindow hkeeps htarget hlocate hnode rfl
  | padding =>
    cases h
    have hsteady : Steady base target ⟨(Padding.zeros extent.length).source, extent, .padding⟩
        (List.replicate extent.length 0) := fun _ => Source.delivers_padding _
    exact hsteady.shows_of_length_le (Nat.le_of_eq List.length_replicate)
  | header =>
    cases h
    have hsteady : Steady base target ⟨.ofBytes header, extent, .memory⟩ header :=
      fun _ => Source.delivers_ofBytes header
    exact hsteady.shows_of_length_le (Nat.le_of_eq (hheader rfl))

/-- A block of the target has nothing to read as long as the target is empty. -/
theorem eq_zero_of_readExactAt {extent : Extent} {offset count : Nat} {piece : Bytes}
    (htarget : base.node? target = some old) (hlocate : fs.locate path = .ok target)
    (hpos : 0 < extent.length)
    (h : openPlacement fs header ⟨extent, .block index path fileOffset⟩ = .ok t)
    (hread : t.source.readExactAt (base.withContent target []) offset count = .ok piece) :
    count = 0 := by
  obtain ⟨node, hnode, rfl, -⟩ := of_openPlacement_block hpos h
  obtain rfl : target = node := Except.ok.inj (hlocate.symm.trans hnode)
  have hpiece := Source.eq_window_of_fileWindow (node?_withContent htarget) hread
  have hlength := Source.length_of_readExactAt hread
  rw [hpiece, Bytes.length_window, Bytes.length_window, List.length_nil] at hlength
  omega

/-! ### Empty placements -/

variable {placements : List Placement} {segments : List Segment}

/-- Empty placements stand for nothing. -/
theorem flatMap_occupied {shown : Placement → Bytes}
    (hle : ∀ p ∈ placements, (shown p).length ≤ p.extent.length) :
    (occupied placements).flatMap shown = placements.flatMap shown := by
  induction placements with
  | nil => rfl
  | cons p rest ih =>
    obtain ⟨hp, hrest⟩ := List.forall_mem_cons.mp hle
    by_cases hempty : p.extent.isEmpty
    · have hnothing : shown p = [] := by
        rw [Extent.isEmpty_iff.mp hempty] at hp
        exact List.eq_nil_of_length_eq_zero (Nat.le_zero.mp hp)
      rw [occupied, List.filter_cons_of_neg (by simp [hempty]), List.flatMap_cons, hnothing]
      exact ih hrest
    · rw [occupied, List.filter_cons_of_pos (by simp [hempty]), List.flatMap_cons,
        List.flatMap_cons]
      exact congrArg (shown p ++ ·) (ih hrest)

/-- The table of an opened plan has the segments of the placements that are not empty. -/
theorem forall₂_occupied
    (h : List.Forall₂ (fun p t => openPlacement fs header p = .ok t) placements segments) :
    List.Forall₂ (fun p t => openPlacement fs header p = .ok t) (occupied placements)
      (VirtualStream.dropEmpty segments) := by
  refine List.rel_filter (fun p t hopen => ?_) h
  simp only [extent_of_openPlacement hopen]

/-- All segments in the table of an opened plan show what their placements stand for. -/
theorem forall₂_shows (final : Bytes)
    (hkeeps : ∀ bytes, fs.KeepsAllBut (base.withContent target bytes) target)
    (htarget : base.node? target = some old)
    (hheader : ∀ p ∈ placements, p.filling = .header → header.length = p.extent.length)
    (hopened : List.Forall₂ (fun p t => openPlacement fs header p = .ok t) placements segments) :
    List.Forall₂ (fun p t => t.extent.length = p.extent.length ∧
        (fillingBytes (seenContents fs target final) header p).length ≤ p.extent.length ∧
        Shows base target final t (fillingBytes (seenContents fs target final) header p))
      (occupied placements) (VirtualStream.dropEmpty segments) := by
  refine ((List.forall₂_and_left _ _).mpr
    ⟨fun p hp => mem_occupied_iff.mp hp, forall₂_occupied hopened⟩).imp ?_
  rintro p t ⟨⟨hp, hpos⟩, hopen⟩
  exact ⟨congrArg Extent.length (extent_of_openPlacement hopen),
    length_fillingBytes_le (hheader p hp),
    shows_of_openPlacement hkeeps htarget hpos (hheader p hp) hopen⟩

end Plan

namespace Container

open BufferedWriter Dump Plan

variable {c : Container} {s : VirtualStream} {b : Block} {start : Nat}

/-- What was copied from an opened container is its layout, in which the target stands for its new
content. -/
theorem eq_append_of_copiesAll (hopen : c.open fs alignment = .ok s)
    (hkeeps : ∀ bytes, fs.KeepsAllBut (opened.withContent target bytes) target)
    (htarget : opened.node? target = some old)
    (h : CopiesAll opened target s.segments.toList [] final) :
    Covers (seenContents fs target final) c.blocks ∧
      final = blockBytes alignment (seenContents fs target final) 0 c.blocks ++ c.header := by
  obtain ⟨plan, segments, hplan, hsegments, hs⟩ := Container.open_eq_ok_iff.mp hopen
  have hheader := fun p hp => length_header_of_compute (p := p) hplan hp
  have hshows := forall₂_shows final hkeeps htarget hheader hsegments
  have htiles : Tiles ([] : Bytes).length s.segments.toList s.length := s.tiles
  rw [VirtualStream.toList_segments_of_ofSegments hs] at h htiles
  obtain ⟨hlengths, hfinal⟩ := h.eq_flatMap (List.prefix_refl final) htiles hshows
  have hle : ∀ p ∈ plan.placements,
      (fillingBytes (seenContents fs target final) c.header p).length ≤ p.extent.length :=
    fun p hp => length_fillingBytes_le (hheader p hp)
  -- the empty placements, which the table leaves out, can be put back
  rw [List.nil_append, flatMap_occupied hle] at hfinal
  obtain ⟨-, -, placements, headers, hlaid, hlast, rfl⟩ := compute_eq_ok_iff.mp hplan
  constructor
  · have hwhole : ∀ p ∈ placements,
        (fillingBytes (seenContents fs target final) c.header p).length = p.extent.length := by
      intro p hp
      have hmem : p ∈ placements ++ headers := List.mem_append_left headers hp
      by_cases hpos : 0 < p.extent.length
      · exact hlengths p (mem_occupied_iff.mpr ⟨hmem, hpos⟩)
      · have hshort := hle p hmem
        omega
    exact covers_of_laid hlaid hwhole
  · refine hfinal.trans ?_
    rw [List.flatMap_append, hlaid.flatMap_fillingBytes, hlast.flatMap_header]

/-- A block of the target is empty or begins beyond what the buffer keeps back. -/
theorem capacity_le_of_copiesAll (hopen : c.open fs alignment = .ok s)
    (htarget : opened.node? target = some old)
    (h : CopiesAll opened target s.segments.toList [] final)
    (hmem : (b, start) ∈ c.blocks.zip (earliest alignment 0 c.blocks)) (hpos : 0 < b.length)
    (hlocate : fs.locate b.path = .ok target) : capacity ≤ start := by
  obtain ⟨plan, segments, hplan, hsegments, hs⟩ := Container.open_eq_ok_iff.mp hopen
  obtain ⟨-, -, placements, headers, hlaid, -, rfl⟩ := compute_eq_ok_iff.mp hplan
  obtain ⟨index, extent, rfl, hlength, hplaced⟩ := hlaid.exists_placement hmem
  have hextent : 0 < extent.length := by omega
  -- the segment of the block is read while it is copied
  obtain ⟨t, ht, hblock⟩ := exists_result_of_mem (forall₂_occupied hsegments)
    (mem_occupied_iff.mpr ⟨List.mem_append_left headers hplaced, hextent⟩)
  have hsame : t.extent = extent := extent_of_openPlacement hblock
  have htiles : Tiles ([] : Bytes).length s.segments.toList s.length := s.tiles
  rw [← VirtualStream.toList_segments_of_ofSegments hs] at ht
  obtain ⟨earlier, middle, hcopies, hstart, hstop⟩ := h.exists_copies htiles ht
  rw [hsame] at hstart hstop
  rw [← hstart]
  refine hcopies.capacity_le ?_ fun offset count piece hread => ?_
  · rw [hstart, hstop, Extent.stop]
    omega
  · exact eq_zero_of_readExactAt htarget hlocate hextent hblock hread

/-- A dump of an opened container that succeeds leaves the layout of the contents that the files had
before it in the target, which stands for its new content itself. Blocks of the target begin
beyond what the buffer keeps back. The path may name a regular file or nothing before. -/
theorem files_of_dump {written : Nat} (hopen : c.open fs alignment = .ok s)
    (hregular : ∀ node, (Dump.prepare fs path).2.locate path = .ok node →
      ∃ content, (Dump.prepare fs path).2.node? node = some (.regular content))
    (hok : (s.dump fs path).result = .ok written) : ∃ target final,
      (s.dump fs path).files.locate path = .ok target ∧
      (s.dump fs path).files.contentOf path = .ok final ∧
      Covers (seenContents fs target final) c.blocks ∧
      final = blockBytes alignment (seenContents fs target final) 0 c.blocks ++ c.header ∧
      ∀ b start, (b, start) ∈ c.blocks.zip (earliest alignment 0 c.blocks) → 0 < b.length →
        fs.locate b.path = .ok target → capacity ≤ start := by
  obtain ⟨grown, target, opened, hprepare, hcreate⟩ := opened_of_dump hok
  rw [hprepare] at hregular
  have hempty := node?_of_create hcreate hregular
  have hopened := of_opened hprepare hcreate hempty
  have hend := dump_end (s := s) hprepare hcreate hempty
  generalize s.dump fs path = outcome at hok hend ⊢
  cases hend with
  | failed => cases hok
  | @whole final copies =>
    have hkeeps := fun bytes => (hopened bytes).2.2
    obtain ⟨hcovers, hfinal⟩ := eq_append_of_copiesAll hopen hkeeps hempty copies
    obtain ⟨hlocate, hcontent, -⟩ := hopened final
    exact ⟨target, final, hlocate, hcontent, hcovers, hfinal, fun b start hmem hpos hblock =>
      capacity_le_of_copiesAll hopen hempty copies hmem hpos hblock⟩

end Container

end VirtualFiles
