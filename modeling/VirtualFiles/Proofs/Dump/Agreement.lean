import VirtualFiles.Proofs.Dump.Overwriting

/-!
# Streams that read alike

Two file systems may differ in many ways and still give the same answers to all reads of one
node. The stream of a container reads the files of those blocks that are not empty, and nothing
else, so it cannot tell two file systems apart that read alike on these.

## Main definitions

* `FileSystem.ReadsAlike` — two file systems give the same answers to reads of a node
* `VirtualStream.ReadsAlike` — a stream gives the same answers with both of them

## Main results

* `Source.readExactAt_congr`, `VirtualStream.readsAlike_of_sources` — reads of streams are reads
  of sources
* `Container.readsAlike_of_open` — a stream depends only on the files of its blocks
-/

namespace VirtualFiles

open FileSystem Outcome

variable {fs fs' base : FileSystem} {offset count : Nat}

/-! ### Nodes -/

/-- Both file systems give the same answers to all reads of the node. -/
def FileSystem.ReadsAlike (fs fs' : FileSystem) (node : NodeId) : Prop :=
  ∀ offset count, fs.read node offset count = fs'.read node offset count

namespace FileSystem.ReadsAlike

variable {node : NodeId} {content : Bytes}

theorem refl (fs : FileSystem) (node : NodeId) : fs.ReadsAlike fs node := fun _ _ => rfl

theorem of_regular (h : fs.node? node = some (.regular content))
    (h' : fs'.node? node = some (.regular content)) : fs.ReadsAlike fs' node := by
  intro offset count
  rw [FileSystem.read, FileSystem.read, h, h']

/-- The entries of a directory do not show in reads. -/
theorem of_directory {above above' : NodeId} {entries entries' : List (Bytes × NodeId)}
    (h : fs.node? node = some (.directory above entries))
    (h' : fs'.node? node = some (.directory above' entries')) : fs.ReadsAlike fs' node := by
  intro offset count
  rw [FileSystem.read, FileSystem.read, h, h']

end FileSystem.ReadsAlike

/-- Files and directories that are kept read as before. -/
theorem FileSystem.Keeps.readsAlike {node : NodeId} (h : fs.Keeps fs' node)
    (hnode : fs.IsStored node) : fs.ReadsAlike fs' node := by
  rcases hnode with ⟨content, hregular⟩ | ⟨above, entries, hdirectory⟩
  · exact .of_regular hregular (h.regular content hregular)
  · obtain ⟨more, hmore⟩ := h.directory above entries hdirectory
    exact .of_directory hdirectory hmore

/-! ### Sources -/

namespace Source

variable {s : Source}

/-- An exact read depends only on the reads that it is made of. -/
theorem readExactAt_congr (h : ∀ offset count, s.readAt fs offset count = s.readAt fs' offset count)
    (offset count : Nat) : s.readExactAt fs offset count = s.readExactAt fs' offset count := by
  -- what is left to read gets less with each piece
  induction count using Nat.strongRecOn generalizing offset with
  | ind count ih =>
    rw [readExactAt, readExactAt, h]
    split
    · rfl
    · next hpos =>
      cases hread : s.readAt fs' offset count with
      | error e => rfl
      | ok bytes =>
        cases bytes with
        | nil => rfl
        | cons b bs =>
          simp only
          rw [ih]
          rw [List.length_cons]
          omega

/-- A window of a file depends only on the file. -/
theorem readAt_fileWindow_congr {w : FileWindow} (h : fs.ReadsAlike fs' w.node)
    (offset count : Nat) : w.source.readAt fs offset count = w.source.readAt fs' offset count := by
  change w.readAt fs offset count = w.readAt fs' offset count
  rw [FileWindow.readAt, FileWindow.readAt, h]

end Source

/-! ### Streams -/

namespace VirtualStream

variable {s : VirtualStream} {segments : List Segment}

/-- The stream gives the same answers with both file systems. -/
def ReadsAlike (s : VirtualStream) (fs fs' : FileSystem) : Prop :=
  ∀ offset count, s.readAt fs offset count = s.readAt fs' offset count

theorem readFrom_congr (h : ∀ t ∈ segments, ∀ offset count,
      t.source.readAt fs offset count = t.source.readAt fs' offset count)
    (index position remaining : Nat) :
    readFrom fs index segments position remaining =
      readFrom fs' index segments position remaining := by
  induction segments generalizing index position remaining with
  | nil => rfl
  | cons t rest ih =>
    obtain ⟨ht, hrest⟩ := List.forall_mem_cons.mp h
    simp only [readFrom]
    rw [Source.readExactAt_congr ht, ih hrest]

theorem readsAlike_of_sources (h : ∀ t ∈ s.segments.toList, ∀ offset count,
      t.source.readAt fs offset count = t.source.readAt fs' offset count) :
    s.ReadsAlike fs fs' := by
  intro offset count
  unfold readAt
  split
  · rfl
  · next index hindex =>
    rw [readFrom_congr fun t ht => h t (List.mem_of_mem_drop ht)]

end VirtualStream

/-! ### Containers -/

namespace Plan

variable {header : Bytes} {p : Placement} {t : Segment}

/-- The segment of a placement reads the file of its block, or no file at all. -/
theorem readAt_congr_of_openPlacement (hpos : 0 < p.extent.length)
    (hfile : ∀ index path fileOffset, p.filling = .block index path fileOffset →
      ∀ node, base.locate path = .ok node → fs.ReadsAlike fs' node)
    (h : openPlacement base header p = .ok t) (offset count : Nat) :
    t.source.readAt fs offset count = t.source.readAt fs' offset count := by
  obtain ⟨extent, filling⟩ := p
  cases filling with
  | block index path fileOffset =>
    obtain ⟨node, hlocate, rfl, -⟩ := of_openPlacement_block hpos h
    exact Source.readAt_fileWindow_congr (hfile index path fileOffset rfl node hlocate) offset count
  | padding =>
    cases h
    rfl
  | header =>
    cases h
    rfl

end Plan

namespace Container

open Plan

variable {c : Container} {s : VirtualStream} {alignment : Nat} {b : Block}

/-- The stream of a container depends only on the files of the blocks that are not empty. -/
theorem readsAlike_of_open (hopen : c.open base alignment = .ok s)
    (hfiles : ∀ b ∈ c.blocks, 0 < b.length → ∀ node, base.locate b.path = .ok node →
      fs.ReadsAlike fs' node) : s.ReadsAlike fs fs' := by
  obtain ⟨plan, segments, hplan, hsegments, hs⟩ := Container.open_eq_ok_iff.mp hopen
  apply VirtualStream.readsAlike_of_sources
  intro t ht
  rw [VirtualStream.toList_segments_of_ofSegments hs] at ht
  obtain ⟨p, hp, hopened⟩ := exists_entry_of_mem (forall₂_occupied hsegments) ht
  obtain ⟨hplaced, hpos⟩ := mem_occupied_iff.mp hp
  apply readAt_congr_of_openPlacement hpos _ hopened
  intro index path fileOffset hfilling node hlocate
  -- the placement is that of a block, which is as long as its extent
  rcases filling_of_compute hplan hplaced with hother | ⟨hother, -⟩ | ⟨i, b, hb, hblock, hlength⟩
  · cases hother.symm.trans hfilling
  · cases hother.symm.trans hfilling
  · cases hblock.symm.trans hfilling
    exact hfiles b hb (by omega) node hlocate

/-- A block that is not empty is taken from a regular file or a directory. -/
theorem isStored_of_open (hopen : c.open base alignment = .ok s) (hb : b ∈ c.blocks)
    (hpos : 0 < b.length) {node : NodeId} (hlocate : base.locate b.path = .ok node) :
    base.IsStored node := by
  obtain ⟨plan, segments, hplan, hsegments, hs⟩ := Container.open_eq_ok_iff.mp hopen
  obtain ⟨-, -, placements, headers, hlaid, -, rfl⟩ := compute_eq_ok_iff.mp hplan
  -- the block was placed, and its placement was opened
  obtain ⟨start, hstart⟩ := exists_mem_zip_earliest hb
  obtain ⟨i, extent, -, hlength, hplaced⟩ := hlaid.exists_placement hstart
  obtain ⟨t, -, hopened⟩ := exists_result_of_mem hsegments (List.mem_append_left headers hplaced)
  obtain ⟨found, hfound, -, hstored⟩ := of_openPlacement_block (by omega) hopened
  obtain rfl : node = found := Except.ok.inj (hlocate.symm.trans hfound)
  exact hstored

end Container

end VirtualFiles
