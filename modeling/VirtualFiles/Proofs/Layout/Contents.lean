import Mathlib.Tactic.Choose
import VirtualFiles.Layout.Open
import VirtualFiles.Proofs.Layout.Placement
import VirtualFiles.Proofs.VirtualStream.Reading

/-!
# The contents of a container

A container that was opened reads as its layout says: each block shows the bytes of its file
where the greedy placement puts it, the header follows the last block, and all else is zero.
This holds as long as the files keep their contents, whatever else happens to the file system.

## Main definitions

* `FileSystem.KeepsFile` — a path names a file that keeps its content
* `Plan.blockBytes` — the bytes of the blocks and of the gaps before them

## Main results

* `window_blockBytes`, `getElem?_blockBytes` — where the bytes of blocks and of gaps are
* `shown_of_eq_append` — what these bytes show with a header after them
* `Laid.flatMap_fillingBytes` — the placements of blocks stand for these bytes
* `readAt_eq_blockBytes`, `readAt_of_open` — what an opened container gives
-/

namespace VirtualFiles

/-- The path names a regular file that holds `content`, and the file still does when the file
system has become `later`. Its size is an offset, as that of every file is. -/
structure FileSystem.KeepsFile (fs later : FileSystem) (path : Path) (content : Bytes) :
    Prop where
  kept : ∃ node, fs.locate path = .ok node ∧ fs.node? node = some (.regular content) ∧
    later.node? node = some (.regular content)
  length_le : content.length ≤ maxOffset

namespace Plan

open Outcome

variable {alignment headerLength index stop start last n o : Nat}
variable {block : Block} {blocks rest : List Block}
variable {contents : Path → Bytes} {header : Bytes}

/-! ### The bytes of the blocks -/

/-- The bytes of the blocks, each placed as early as possible after data that ends at `stop`,
with zeros before it. `contents` are the contents of the files. -/
def blockBytes (alignment : Nat) (contents : Path → Bytes) : Nat → List Block → Bytes
  | _, [] => []
  | stop, block :: rest =>
    List.replicate (landing alignment stop block - stop) 0 ++
      ((contents block.path).window block.fileOffset block.length.toNat ++
        blockBytes alignment contents
          (landing alignment stop block + block.length.toNat) rest)

/-- Every block begins somewhere. -/
theorem exists_mem_zip_earliest (h : block ∈ blocks) :
    ∃ start, (block, start) ∈ blocks.zip (earliest alignment stop blocks) := by
  induction blocks generalizing stop with
  | nil => cases h
  | cons first rest ih =>
    rw [earliest, List.zip_cons_cons]
    rcases List.mem_cons.mp h with rfl | hrest
    · exact ⟨_, List.mem_cons_self⟩
    · obtain ⟨start, hmem⟩ := ih hrest
      exact ⟨start, List.mem_cons_of_mem _ hmem⟩

/-- The files hold all bytes of the blocks. -/
def Covers (contents : Path → Bytes) (blocks : List Block) : Prop :=
  ∀ b ∈ blocks, ((contents b.path).window b.fileOffset b.length.toNat).length = b.length.toNat

theorem length_blockBytes (hcovers : Covers contents blocks) :
    stop + (blockBytes alignment contents stop blocks).length = lastStop alignment stop blocks := by
  induction blocks generalizing stop with
  | nil => rfl
  | cons block rest ih =>
    obtain ⟨hblock, hrest⟩ := List.forall_mem_cons.mp hcovers
    have hstart : stop ≤ landing alignment stop block := le_landing
    rw [blockBytes, lastStop, List.length_append, List.length_append, List.length_replicate,
      hblock, ← ih hrest]
    omega

/-- From the end of the first block on, there are the bytes of the later blocks. -/
theorem drop_blockBytes_cons (hblock : ((contents block.path).window block.fileOffset
      block.length.toNat).length = block.length.toNat)
    (hle : landing alignment stop block + block.length.toNat ≤ o) :
    (blockBytes alignment contents stop (block :: rest)).drop (o - stop) =
      (blockBytes alignment contents (landing alignment stop block + block.length.toNat)
        rest).drop (o - (landing alignment stop block + block.length.toNat)) := by
  have hstart : stop ≤ landing alignment stop block := le_landing
  rw [blockBytes, ← List.append_assoc, List.drop_append, List.drop_eq_nil_of_le,
    List.nil_append, List.length_append, List.length_replicate, hblock]
  · congr 1
    omega
  · rw [List.length_append, List.length_replicate, hblock]
    omega

/-- Every block shows the bytes of its file where it begins. -/
theorem window_blockBytes (hcovers : Covers contents blocks)
    (hmem : (block, start) ∈ blocks.zip (earliest alignment stop blocks)) :
    stop ≤ start ∧
      (blockBytes alignment contents stop blocks).window (start - stop) block.length.toNat =
        (contents block.path).window block.fileOffset block.length.toNat := by
  induction blocks generalizing stop with
  | nil => cases hmem
  | cons first rest ih =>
    obtain ⟨hfirst, hrest⟩ := List.forall_mem_cons.mp hcovers
    have hstart : stop ≤ landing alignment stop first := le_landing
    rw [earliest, List.zip_cons_cons, List.mem_cons] at hmem
    rcases hmem with heq | hmem
    · cases heq
      refine ⟨hstart, ?_⟩
      rw [blockBytes, Bytes.window, List.drop_left' List.length_replicate, List.take_left' hfirst]
    · obtain ⟨hlater, hwindow⟩ := ih hrest hmem
      refine ⟨by omega, ?_⟩
      rw [Bytes.window, drop_blockBytes_cons hfirst hlater]
      exact hwindow

/-- All addresses that are not of a block are zero. -/
theorem getElem?_blockBytes (hcovers : Covers contents blocks) (hle : stop ≤ o)
    (hlt : o < lastStop alignment stop blocks)
    (hgap : ∀ b start, (b, start) ∈ blocks.zip (earliest alignment stop blocks) →
      ¬ (start ≤ o ∧ o < start + b.length.toNat)) :
    (blockBytes alignment contents stop blocks)[o - stop]? = some 0 := by
  induction blocks generalizing stop with
  | nil =>
    rw [lastStop] at hlt
    omega
  | cons first rest ih =>
    obtain ⟨hfirst, hrest⟩ := List.forall_mem_cons.mp hcovers
    rw [earliest, List.zip_cons_cons] at hgap
    have hhere := hgap first _ List.mem_cons_self
    have hstart : stop ≤ landing alignment stop first := le_landing
    by_cases hbefore : o < landing alignment stop first
    · rw [blockBytes, List.getElem?_append_left (by simp; omega), List.getElem?_replicate,
        if_pos (by omega)]
    · -- not before the block and not in it
      have hafter : landing alignment stop first + first.length.toNat ≤ o := by omega
      rw [← List.head?_drop, drop_blockBytes_cons hfirst hafter, List.head?_drop]
      exact ih hrest hafter hlt fun b s hmem => hgap b s (List.mem_cons_of_mem _ hmem)

/-- What bytes show that are those of the blocks with a header after them: each block where it
begins, the header after the last one, and zeros at all other addresses. -/
theorem shown_of_eq_append {bytes : Bytes} (hcovers : Covers contents blocks)
    (hbytes : bytes = blockBytes alignment contents 0 blocks ++ header) :
    bytes.length = lastStop alignment 0 blocks + header.length ∧
    (∀ b start, (b, start) ∈ blocks.zip (earliest alignment 0 blocks) →
      bytes.window start b.length.toNat =
          (contents b.path).window b.fileOffset b.length.toNat ∧
        (bytes.window start b.length.toNat).length = b.length.toNat) ∧
    bytes.window (lastStop alignment 0 blocks) header.length = header ∧
    ∀ o < lastStop alignment 0 blocks,
      (∀ b start, (b, start) ∈ blocks.zip (earliest alignment 0 blocks) →
        ¬ (start ≤ o ∧ o < start + b.length.toNat)) → bytes[o]? = some 0 := by
  have hlength : (blockBytes alignment contents 0 blocks).length =
      lastStop alignment 0 blocks := by
    rw [← length_blockBytes hcovers, Nat.zero_add]
  rw [hbytes]
  refine ⟨by rw [List.length_append, hlength], ?_, ?_, ?_⟩
  · intro b start hmem
    obtain ⟨-, hblock⟩ := window_blockBytes hcovers hmem
    have hwhole := hcovers b (List.of_mem_zip hmem).1
    -- the window of the block ends before the header
    have hwithin : b.length.toNat - ((blockBytes alignment contents 0 blocks).length - start) =
        0 := by
      rw [← hblock, Nat.sub_zero, Bytes.length_window] at hwhole
      omega
    rw [Bytes.window_append, hwithin, Bytes.window_zero_right, List.append_nil]
    rw [Nat.sub_zero] at hblock
    exact ⟨hblock, by rw [hblock, hwhole]⟩
  · rw [Bytes.window, List.drop_left' hlength, List.take_length]
  · intro o hlt hgap
    rw [List.getElem?_append_left (by omega)]
    exact getElem?_blockBytes hcovers (Nat.zero_le o) hlt hgap

/-! ### Opened placements -/

variable {fs later : FileSystem} {path : Path} {content : Bytes} {window : FileWindow}
variable {fileOffset length : Nat} {filling : Filling} {p : Placement} {t : Segment}
variable {placements : List Placement} {segments : List Segment}

/-- The bytes that a placement stands for. -/
def fillingBytes (contents : Path → Bytes) (header : Bytes) (p : Placement) : Bytes :=
  match p.filling with
  | .block _ path fileOffset => (contents path).window fileOffset p.extent.length
  | .padding => List.replicate p.extent.length 0
  | .header => header

/-- The segment fills the extent of the placement with the bytes that the placement stands
for, with the files as they are in `later`. -/
structure Backs (contents : Path → Bytes) (header : Bytes) (later : FileSystem) (p : Placement)
    (t : Segment) : Prop where
  extent_eq : t.extent = p.extent
  delivers : t.source.Delivers later (fillingBytes contents header p)
  length_eq : (fillingBytes contents header p).length = p.extent.length

/-- A block is opened if its path names something that is large enough. -/
theorem openBlock_eq_ok_iff : openBlock fs index path fileOffset length = .ok window ↔
    ∃ node, fs.locate path = .ok node ∧ window = ⟨node, path, fileOffset, length⟩ ∧
      blockStop fileOffset length ≤ fs.size node := by
  rw [openBlock, FileWindow.open?]
  cases fs.locate path with
  | error e => simp
  | ok node =>
    by_cases hshort : fs.size node < blockStop fileOffset length
    · simp [hshort]
    · simp [hshort, Nat.le_of_not_lt hshort, eq_comm]

/-- An opened block holds its bytes as long as its file is kept. -/
theorem delivers_of_openBlock (hfile : fs.KeepsFile later path content)
    (h : openBlock fs index path fileOffset length = .ok window) :
    window.source.Delivers later (content.window fileOffset length) ∧
      (content.window fileOffset length).length = length := by
  obtain ⟨⟨node, hlocate, hnow, hlater⟩, hmax⟩ := hfile
  obtain ⟨found, hfound, rfl, hsize⟩ := openBlock_eq_ok_iff.mp h
  obtain rfl : node = found := Except.ok.inj (hlocate.symm.trans hfound)
  simp only [FileSystem.size, hnow] at hsize
  -- the size that is asked for stops at the last address, which no file reaches
  have hend : fileOffset + length ≤ content.length := by
    have hspace := Source.maxOffset_add_one_lt
    rw [blockStop] at hsize
    omega
  exact ⟨Source.delivers_fileWindow hlater (Nat.le_trans hend hmax),
    Bytes.length_window_of_le hend⟩

theorem backs_of_openPlacement
    (hfiles : ∀ index path fileOffset, p.filling = .block index path fileOffset →
      fs.KeepsFile later path (contents path))
    (hheader : p.filling = .header → header.length = p.extent.length)
    (h : openPlacement fs header p = .ok t) : Backs contents header later p t := by
  obtain ⟨extent, filling⟩ := p
  cases filling with
  | block index path fileOffset =>
    obtain ⟨window, hwindow, h⟩ := bind_eq_ok_iff.mp h
    cases h
    obtain ⟨hdelivers, hlength⟩ :=
      delivers_of_openBlock (hfiles index path fileOffset rfl) hwindow
    exact ⟨rfl, hdelivers, hlength⟩
  | padding =>
    cases h
    exact ⟨rfl, Source.delivers_padding _, List.length_replicate⟩
  | header =>
    cases h
    exact ⟨rfl, Source.delivers_ofBytes header, hheader rfl⟩

/-! ### The placements of a plan -/

/-- The padding of a gap stands for zeros. -/
theorem Fills.flatMap_padding (h : Fills .padding start stop placements) :
    placements.flatMap (fillingBytes contents header) = List.replicate (stop - start) 0 := by
  cases h with
  | nothing h => rw [h, Nat.sub_self]; rfl
  | extent r hstart hstop hlt =>
    rw [List.flatMap_singleton, fillingBytes, show r.length = stop - start by
      rw [Extent.stop] at hstop
      omega]

theorem Fills.flatMap_header (h : Fills .header start (start + header.length) placements) :
    placements.flatMap (fillingBytes contents header) = header := by
  cases h with
  | nothing h => exact (List.eq_nil_of_length_eq_zero (by omega)).symm
  | extent r hstart hstop hlt => exact List.flatMap_singleton _ _

/-- The placements of blocks stand for the bytes of the blocks and of the gaps. -/
theorem Laid.flatMap_fillingBytes (h : Laid alignment index stop blocks placements) :
    placements.flatMap (fillingBytes contents header) =
      blockBytes alignment contents stop blocks := by
  induction h with
  | nil => rfl
  | cons placed padding later hpadding hstart hlength _ ih =>
    rw [List.flatMap_append, List.flatMap_cons, ih, hpadding.flatMap_padding, fillingBytes,
      blockBytes, stop_of_length hlength, hstart, ← hlength, Int.toNat_natCast]

/-- Every block has a placement where it begins. -/
theorem Laid.exists_placement (h : Laid alignment index stop blocks placements)
    (hmem : (block, start) ∈ blocks.zip (earliest alignment stop blocks)) :
    ∃ i extent, extent.start = start ∧ (extent.length : Int) = block.length ∧
      ⟨extent, .block i block.path block.fileOffset⟩ ∈ placements := by
  induction h with
  | nil => cases hmem
  | cons placed padding later _ hstart hlength _ ih =>
    rw [earliest, List.zip_cons_cons, List.mem_cons] at hmem
    rcases hmem with heq | hrest
    · cases heq
      exact ⟨_, placed, hstart, hlength, List.mem_append_right _ List.mem_cons_self⟩
    · rw [← hstart, ← stop_of_length hlength] at hrest
      obtain ⟨i, extent, hbegin, hextent, hlater⟩ := ih hrest
      exact ⟨i, extent, hbegin, hextent,
        List.mem_append_right _ (List.mem_cons_of_mem _ hlater)⟩

/-- Placements of data are those of blocks. -/
theorem Laid.exists_block (h : Laid alignment index stop blocks placements)
    (hmem : p ∈ placements) : p.filling = .padding ∨
      ∃ i, ∃ b ∈ blocks, p.filling = .block i b.path b.fileOffset ∧
        (p.extent.length : Int) = b.length := by
  induction h with
  | nil => cases hmem
  | @cons index stop block rest placed padding later hpadding _ hlength _ ih =>
    rcases List.mem_append.mp hmem with hgap | hlater
    · cases hpadding with
      | nothing => cases hgap
      | extent =>
        rw [List.mem_singleton.mp hgap]
        exact .inl rfl
    · rcases List.mem_cons.mp hlater with rfl | hlater
      · exact .inr ⟨index, block, List.mem_cons_self, rfl, hlength⟩
      · rcases ih hlater with hpad | ⟨i, b, hb, hfill⟩
        · exact .inl hpad
        · exact .inr ⟨i, b, List.mem_cons_of_mem _ hb, hfill⟩

/-- What a computed plan places. -/
theorem filling_of_compute {plan : Plan}
    (h : compute blocks headerLength alignment = .ok plan) (hmem : p ∈ plan.placements) :
    p.filling = .padding ∨ (p.filling = .header ∧ p.extent.length = headerLength) ∨
      ∃ i, ∃ b ∈ blocks, p.filling = .block i b.path b.fileOffset ∧
        (p.extent.length : Int) = b.length := by
  obtain ⟨-, -, placements, headers, hlaid, hheader, rfl⟩ := compute_eq_ok_iff.mp h
  rcases List.mem_append.mp hmem with hplaced | hlast
  · rcases hlaid.exists_block hplaced with hpad | hblock
    · exact .inl hpad
    · exact .inr (.inr hblock)
  · cases hheader with
    | nothing => cases hlast
    | extent r hstart hstop =>
      have hlength : r.length = headerLength := by
        rw [Extent.stop] at hstop
        omega
      rw [List.mem_singleton.mp hlast]
      exact .inr (.inl ⟨rfl, hlength⟩)

theorem length_header_of_compute {plan : Plan}
    (h : compute blocks headerLength alignment = .ok plan) (hmem : p ∈ plan.placements)
    (hheader : p.filling = .header) : headerLength = p.extent.length := by
  rcases filling_of_compute h hmem with hother | ⟨-, hlength⟩ | ⟨j, b, -, hother, -⟩
  · cases hother.symm.trans hheader
  · exact hlength.symm
  · cases hother.symm.trans hheader

/-- All segments of an opened plan hold what their placements stand for. -/
theorem forall₂_backs {plan : Plan}
    (hplan : compute blocks header.length alignment = .ok plan)
    (hfiles : ∀ b ∈ blocks, fs.KeepsFile later b.path (contents b.path))
    (hopened : List.Forall₂ (fun p t => openPlacement fs header p = .ok t) plan.placements
      segments) :
    List.Forall₂ (Backs contents header later) plan.placements segments := by
  have hplaced := (List.forall₂_and_left _ _).mpr
    ⟨fun p hp => And.intro (filling_of_compute hplan hp) (length_header_of_compute hplan hp),
      hopened⟩
  refine hplaced.imp fun p t ⟨⟨hfilling, hheader⟩, hopen⟩ => backs_of_openPlacement ?_ hheader hopen
  intro i path fileOffset hblock
  rw [hblock] at hfilling
  rcases hfilling with h | ⟨h, -⟩ | ⟨j, b, hb, h, -⟩
  · cases h
  · cases h
  · cases h
    exact hfiles b hb

/-- The image of the segments is what the placements stand for. -/
theorem image_eq_of_backs {held : Segment → Bytes} {fill : UInt8}
    (hbacks : List.Forall₂ (Backs contents header later) placements segments)
    (hheld : ∀ t ∈ segments, t.source.Delivers later (held t)) :
    VirtualStream.image held fill segments = placements.flatMap (fillingBytes contents header) := by
  induction hbacks with
  | nil => rfl
  | @cons p t placements segments hback _ ih =>
    obtain ⟨ht, hrest⟩ := List.forall_mem_cons.mp hheld
    have hsame : held t = fillingBytes contents header p := ht.unique hback.delivers
    have hlength : t.extent.length = (held t).length := by
      rw [hsame, hback.length_eq, hback.extent_eq]
    rw [VirtualStream.image_cons, List.flatMap_cons, ih hrest, hlength,
      List.takeD_eq_take _ (Nat.le_refl _), List.take_length, hsame]

theorem exists_held (hbacks : List.Forall₂ (Backs contents header later) placements segments) :
    ∃ held : Segment → Bytes, ∀ t ∈ segments,
      t.source.Delivers later (held t) ∧ t.extent.length ≤ (held t).length := by
  have hdelivers : ∀ t ∈ segments, ∃ data,
      t.source.Delivers later data ∧ t.extent.length ≤ data.length := by
    induction hbacks with
    | nil => exact fun t ht => absurd ht List.not_mem_nil
    | cons hback _ ih =>
      refine List.forall_mem_cons.mpr ⟨⟨_, hback.delivers, ?_⟩, ih⟩
      rw [hback.length_eq, hback.extent_eq]
  choose! held hheld using hdelivers
  exact ⟨held, hheld⟩

/-- The files hold all bytes of blocks whose placements are as long as the bytes they stand for. -/
theorem covers_of_laid (hlaid : Laid alignment index stop blocks placements)
    (hlengths : ∀ p ∈ placements, (fillingBytes contents header p).length = p.extent.length) :
    Covers contents blocks := by
  intro b hb
  obtain ⟨start, hstart⟩ := exists_mem_zip_earliest hb
  obtain ⟨i, extent, -, hextent, hmem⟩ := hlaid.exists_placement hstart
  have hlength := hlengths _ hmem
  rw [← hextent, Int.toNat_natCast]
  exact hlength

end Plan

open Outcome Plan

variable {alignment : Nat} {fs later : FileSystem} {c : Container} {s : VirtualStream}
variable {contents : Path → Bytes}

theorem Container.open_eq_ok_iff :
    c.open fs alignment = .ok s ↔ ∃ plan segments,
      compute c.blocks c.header.length alignment = .ok plan ∧
      List.Forall₂ (fun p t => openPlacement fs c.header p = .ok t) plan.placements segments ∧
      VirtualStream.ofSegments segments = .ok s := by
  have hlength : ∀ {plan}, compute c.blocks c.header.length alignment = .ok plan →
      c.header.length = plan.headerLength := by
    intro plan hplan
    obtain ⟨-, -, _, _, -, -, rfl⟩ := compute_eq_ok_iff.mp hplan
    rfl
  rw [Container.open, bind_eq_ok_iff]
  constructor
  · rintro ⟨plan, hplan, h⟩
    rw [mapError_eq_ok_iff] at hplan
    rw [Plan.open, if_neg (not_not.mpr (hlength hplan))] at h
    obtain ⟨segments, hsegments, h⟩ := bind_eq_ok_iff.mp h
    exact ⟨plan, segments, hplan, mapM_eq_ok_iff.mp hsegments, mapError_eq_ok_iff.mp h⟩
  · rintro ⟨plan, segments, hplan, hsegments, hs⟩
    refine ⟨plan, mapError_eq_ok_iff.mpr hplan, ?_⟩
    rw [Plan.open, if_neg (not_not.mpr (hlength hplan))]
    exact bind_eq_ok_iff.mpr ⟨segments, mapM_eq_ok_iff.mpr hsegments, mapError_eq_ok_iff.mpr hs⟩

/-- A container that was opened reads as the bytes of its blocks and the header after them. -/
theorem Container.readAt_eq_blockBytes (hopen : c.open fs alignment = .ok s)
    (hfiles : ∀ b ∈ c.blocks, fs.KeepsFile later b.path (contents b.path)) :
    Covers contents c.blocks ∧
      (blockBytes alignment contents 0 c.blocks ++ c.header).length = s.length ∧
      ∀ offset count, s.readAt later offset count =
        .ok ((blockBytes alignment contents 0 c.blocks ++ c.header).window offset count) := by
  obtain ⟨plan, segments, hplan, hsegments, hs⟩ := Container.open_eq_ok_iff.mp hopen
  have hbacks := forall₂_backs hplan hfiles hsegments
  obtain ⟨held, hfull⟩ := exists_held hbacks
  obtain ⟨-, -, placements, headers, hlaid, hheader, rfl⟩ := compute_eq_ok_iff.mp hplan
  -- every placement is as long as its bytes, so the image is a concatenation of these
  have hlengths := ((List.forall₂_and_left _ _).mp
    (hbacks.imp fun p t h => ⟨h.length_eq, h⟩)).1
  have himage : VirtualStream.image held 0 segments =
      blockBytes alignment contents 0 c.blocks ++ c.header := by
    rw [image_eq_of_backs hbacks fun t ht => (hfull t ht).1, List.flatMap_append,
      hlaid.flatMap_fillingBytes, hheader.flatMap_header]
  rw [← himage]
  refine ⟨?_, VirtualStream.length_image_of_ofSegments hs, fun offset count => ?_⟩
  · exact covers_of_laid hlaid fun p hp => hlengths p (List.mem_append_left _ hp)
  · exact VirtualStream.readAt_of_full hs hfull

/-- A container that was opened shows the bytes of its blocks where the greedy placement puts
them, the header after the last block, and zeros at all other addresses. The greedy placement
rounds up to the least multiple of the alignment. -/
theorem Container.readAt_of_open (hopen : c.open fs alignment = .ok s)
    (hfiles : ∀ b ∈ c.blocks, fs.KeepsFile later b.path (contents b.path)) :
    (∀ n, IsLeast {m | alignment ∣ m ∧ n ≤ m} (nextMultiple n alignment)) ∧
    s.length = lastStop alignment 0 c.blocks + c.header.length ∧
    ∃ bytes : Bytes, bytes.length = s.length ∧
      s.readAt later 0 s.length = .ok bytes ∧
      (∀ offset count, s.readAt later offset count = .ok (bytes.window offset count)) ∧
      (∀ b start, (b, start) ∈ c.blocks.zip (earliest alignment 0 c.blocks) →
        bytes.window start b.length.toNat =
            (contents b.path).window b.fileOffset b.length.toNat ∧
          (bytes.window start b.length.toNat).length = b.length.toNat) ∧
      bytes.window (lastStop alignment 0 c.blocks) c.header.length = c.header ∧
      ∀ o < lastStop alignment 0 c.blocks,
        (∀ b start, (b, start) ∈ c.blocks.zip (earliest alignment 0 c.blocks) →
          ¬ (start ≤ o ∧ o < start + b.length.toNat)) → bytes[o]? = some 0 := by
  obtain ⟨plan, -, hplan, -⟩ := Container.open_eq_ok_iff.mp hopen
  have hpos : 0 < alignment := Nat.pos_of_ne_zero (compute_eq_ok_iff.mp hplan).1
  obtain ⟨hcovers, hlength, hread⟩ := Container.readAt_eq_blockBytes hopen hfiles
  obtain ⟨hsum, hblocks, hheader, hzero⟩ := shown_of_eq_append hcovers rfl
  refine ⟨fun n => isLeast_nextMultiple hpos, hlength.symm.trans hsum, _, hlength, ?_, hread,
    hblocks, hheader, hzero⟩
  rw [hread, ← hlength, Bytes.window_zero_length]

/-- A directory with the file `a`. -/
def oneFile : FileSystem where
  nodes := #[.directory 0 [([0x61], 1)], .regular [1, 2, 3, 4, 5, 6, 7, 8]]
  working := 0

/-- The file `a` is there no more, but who has it open still reads it. -/
def unlinked : FileSystem := oneFile.replace 0 (.directory 0 [])

/-- A block that begins late, an empty one, one that is moved up, and a header. -/
def threeBlocks : Container where
  blocks := [⟨⟨[0x61]⟩, 3, 2, 1⟩, ⟨⟨[0x61]⟩, 5, 0, 8⟩, ⟨⟨[0x61]⟩, 6, 3, 0⟩]
  header := [0xAA]

/-- The content of the only file. -/
def oneContent (_ : Path) : Bytes := [1, 2, 3, 4, 5, 6, 7, 8]

theorem keepsFile_threeBlocks :
    ∀ b ∈ threeBlocks.blocks, oneFile.KeepsFile unlinked b.path (oneContent b.path) := by
  have hfile : oneFile.KeepsFile unlinked ⟨[0x61]⟩ (oneContent ⟨[0x61]⟩) :=
    ⟨⟨1, rfl, rfl, rfl⟩, by decide⟩
  simp [threeBlocks, hfile]

theorem Container.readAt_threeBlocks : ∃ s, threeBlocks.open oneFile 4 = .ok s ∧
    s.length = 12 ∧ ∃ bytes : Bytes, s.readAt unlinked 0 s.length = .ok bytes ∧
      bytes.window 3 2 = [2, 3] ∧ bytes.window 8 3 = [1, 2, 3] ∧ bytes.window 11 1 = [0xAA] ∧
      bytes[6]? = some 0 := by
  obtain ⟨s, hs⟩ : ∃ s, threeBlocks.open oneFile 4 = .ok s := ⟨_, rfl⟩
  obtain ⟨-, hlength, bytes, -, hwhole, -, hblocks, hheader, hzero⟩ :=
    readAt_of_open hs keepsFile_threeBlocks
  have hgap : ∀ q ∈ threeBlocks.blocks.zip (earliest 4 0 threeBlocks.blocks),
      ¬ (q.2 ≤ 6 ∧ 6 < q.2 + q.1.length.toNat) := by decide
  exact ⟨s, hs, hlength, bytes, hwhole, (hblocks ⟨⟨[0x61]⟩, 3, 2, 1⟩ 3 (by decide)).1,
    (hblocks ⟨⟨[0x61]⟩, 6, 3, 0⟩ 8 (by decide)).1, hheader,
    hzero 6 (by decide) fun b start hmem => hgap (b, start) hmem⟩

end VirtualFiles
