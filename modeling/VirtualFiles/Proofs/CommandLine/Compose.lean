import VirtualFiles.CommandLine.Run
import VirtualFiles.Proofs.Dump.Overwriting
import VirtualFiles.Proofs.Emulator.Creating

/-!
# Composing files

A file that is composed without a failure holds the blocks where the greedy placement puts them,
zeros between them and the header at the end, all with the contents that the files had before
the command ran.

There is one exception. The output may be one of the files that blocks are taken from, and it is
emptied before anything is read. A block of it is not refused: it repeats what the command itself
has written to the output. This needs what is written to be in the file already, so such a block
begins beyond what the buffer keeps back.

## Main results

* `open_of_composeFile` — a composed file is the stream of a container
* `of_runCompose` — a run without a failure has read the header, and composed and dumped a file
* `runCompose_shows` — what the output holds after a run without a failure
-/

namespace VirtualFiles

open VirtualFiles.Outcome

namespace CommandLine.Command

open BufferedWriter Dump Plan

variable {fs : FileSystem} {blocks : List Block} {header : Option Path} {headerBytes : Bytes}
variable {alignment : Nat} {output : Path} {quiet : Bool} {file : VirtualFile}

/-- The stream of a composed file is that of a container with the blocks and the header. -/
theorem open_of_composeFile (h : composeFile fs blocks headerBytes alignment output = .ok file) :
    Container.open { blocks, header := headerBytes } fs alignment = .ok file.stream := by
  obtain ⟨start, container, hs, hcontainer, hopen⟩ := Host.open_of_create (mapError_eq_ok_iff.mp h)
  obtain ⟨-, hbegins⟩ := Host.of_claimFor? hs
  -- the builder gives the blocks and the header, and leaves the files alone
  cases hcontainer
  have hfiles : start.inner.files = fs := hbegins.files_eq
  rw [← hfiles]
  exact hopen

/-- Writing a file ends without a failure if the dump of it succeeds. -/
theorem of_writeFile (hok : (writeFile fs output quiet file).failure = none) :
    (∃ written, (file.stream.dump fs output).result = .ok written) ∧
      (writeFile fs output quiet file).files = (file.stream.dump fs output).files := by
  unfold writeFile at hok ⊢
  simp only at hok ⊢
  split at hok
  · next written hwritten => exact ⟨⟨written, hwritten⟩, rfl⟩
  · cases hok

/-- A run that ends without a failure has read the header and written the composed file. -/
theorem of_runCompose (hok : (runCompose fs blocks header alignment output quiet).failure = none) :
    ∃ headerBytes file, readHeader fs header = .ok headerBytes ∧
      composeFile fs blocks headerBytes alignment output = .ok file ∧
      runCompose fs blocks header alignment output quiet = writeFile fs output quiet file := by
  unfold runCompose at hok ⊢
  simp only at hok ⊢
  split at hok
  · next file hcomposed =>
    obtain ⟨headerBytes, hheader, hfile⟩ := bind_eq_ok_iff.mp hcomposed
    exact ⟨headerBytes, file, hheader, hfile, rfl⟩
  · cases hok

/-- After a run without a failure the output holds the layout of the contents that the files had
before: the blocks at their places, the header after the last one, and zeros at all other
addresses. Blocks of the output itself begin beyond what the buffer keeps back and repeat what
the output holds now. The output may be a regular file or nothing before the run. -/
theorem runCompose_shows (fs : FileSystem) (blocks : List Block) (header : Option Path)
    (alignment : Nat) (output : Path) (quiet : Bool) {o : Outcome}
    (ho : runCompose fs blocks header alignment output quiet = o) (hok : o.failure = none)
    (hregular : ∀ node, (Dump.prepare fs output).2.locate output = .ok node →
      ∃ content, (Dump.prepare fs output).2.node? node = some (.regular content)) :
    ∃ headerBytes bytes, readHeader fs header = .ok headerBytes ∧
      o.files.contentOf output = .ok bytes ∧
      bytes.length = lastStop alignment 0 blocks + headerBytes.length ∧
      (∀ b start, (b, start) ∈ blocks.zip (earliest alignment 0 blocks) → 0 < b.length →
        (bytes.window start b.length.toNat).length = b.length.toNat ∧
        (fs.locate b.path ≠ o.files.locate output → ∃ content,
          fs.contentOf b.path = .ok content ∧ bytes.window start b.length.toNat =
            content.window b.fileOffset b.length.toNat) ∧
        (fs.locate b.path = o.files.locate output → capacity ≤ start ∧
          bytes.window start b.length.toNat = bytes.window b.fileOffset b.length.toNat)) ∧
      bytes.window (lastStop alignment 0 blocks) headerBytes.length = headerBytes ∧
      ∀ address < lastStop alignment 0 blocks,
        (∀ b start, (b, start) ∈ blocks.zip (earliest alignment 0 blocks) →
          ¬ (start ≤ address ∧ address < start + b.length.toNat)) →
        bytes[address]? = some 0 := by
  subst ho
  obtain ⟨headerBytes, file, hheader, hfile, hrun⟩ := of_runCompose hok
  rw [hrun] at hok
  obtain ⟨⟨written, hwritten⟩, hfiles⟩ := of_writeFile hok
  obtain ⟨target, bytes, hlocate, hcontent, hcovers, hbytes, hlate⟩ :=
    Container.files_of_dump (open_of_composeFile hfile) hregular hwritten
  obtain ⟨hlength, hblocks, hlast, hzero⟩ := shown_of_eq_append hcovers hbytes
  rw [hrun, hfiles, hlocate]
  refine ⟨headerBytes, bytes, hheader, hcontent, hlength, fun b start hmem hpos => ?_, hlast, hzero⟩
  obtain ⟨hblock, hwhole⟩ := hblocks b start hmem
  refine ⟨hwhole, fun hother => ?_, fun hown => ⟨hlate b start hmem hpos hown, ?_⟩⟩
  · rw [seenContents_of_ne hother] at hblock
    cases hfound : fs.contentOf b.path with
    | ok content =>
      rw [hfound] at hblock
      exact ⟨content, rfl, hblock⟩
    | error e =>
      -- nothing could have been read for the block
      rw [hblock, hfound, Bytes.length_window] at hwhole
      change min b.length.toNat (0 - b.fileOffset) = b.length.toNat at hwhole
      omega
  · rw [seenContents_of_target hown] at hblock
    exact hblock

/-- A directory with the file `a`, which is as long as the buffer, and the file `b`. -/
def bufferThenFour : FileSystem where
  nodes := #[.directory 0 [([0x61], 1), ([0x62], 2)],
    .regular (List.replicate 8192 0x41), .regular [0x42, 0x42, 0x42, 0x42]]
  working := 0

/-- All bytes of `a`, and all bytes of `b` after them. -/
def bothFiles : List Block := [⟨⟨[0x61]⟩, 0, 8192, 0⟩, ⟨⟨[0x62]⟩, 8192, 4, 0⟩]

/-- Composing both files into `b` itself. -/
theorem runCompose_bothFiles :
    (runCompose bufferThenFour bothFiles none 1 ⟨[0x62]⟩ true).failure.isNone = true ∧
      (runCompose bufferThenFour bothFiles none 1 ⟨[0x62]⟩ true).files.locate ⟨[0x62]⟩ = .ok 2 := by
  decide +kernel

theorem runCompose_shows_bothFiles : ∃ o : Outcome,
    runCompose bufferThenFour bothFiles none 1 ⟨[0x62]⟩ true = o ∧ o.failure = none ∧
      bufferThenFour.contentOf ⟨[0x62]⟩ = .ok [0x42, 0x42, 0x42, 0x42] ∧
      ∃ bytes, o.files.contentOf ⟨[0x62]⟩ = .ok bytes ∧
        bytes.window 0 8192 = List.replicate 8192 0x41 ∧
        bytes.window 8192 4 = [0x41, 0x41, 0x41, 0x41] := by
  obtain ⟨hnone, hlocate⟩ := runCompose_bothFiles
  have hok := Option.isNone_iff_eq_none.mp hnone
  have hregular : ∀ node, (Dump.prepare bufferThenFour ⟨[0x62]⟩).2.locate ⟨[0x62]⟩ = .ok node →
      ∃ content, (Dump.prepare bufferThenFour ⟨[0x62]⟩).2.node? node = some (.regular content) := by
    intro node hnode
    obtain rfl : 2 = node := Except.ok.inj hnode
    exact ⟨_, rfl⟩
  obtain ⟨-, bytes, -, hcontent, -, hblocks, -⟩ :=
    runCompose_shows bufferThenFour bothFiles none 1 ⟨[0x62]⟩ true rfl hok hregular
  rw [hlocate] at hblocks
  obtain ⟨-, ha, -⟩ := hblocks ⟨⟨[0x61]⟩, 0, 8192, 0⟩ 0 (by decide) (by decide)
  obtain ⟨-, -, hb⟩ := hblocks ⟨⟨[0x62]⟩, 8192, 4, 0⟩ 8192 (by decide) (by decide)
  obtain ⟨content, hfile, ha⟩ := ha (by decide)
  obtain ⟨-, hb⟩ := hb rfl
  obtain rfl : List.replicate 8192 0x41 = content := Except.ok.inj hfile
  have hwhole : bytes.window 0 8192 = List.replicate 8192 0x41 :=
    ha.trans (List.take_of_length_le (Nat.le_of_eq List.length_replicate))
  refine ⟨_, rfl, hok, rfl, bytes, hcontent, hwhole, hb.trans ?_⟩
  -- the block of the output repeats the first bytes of `a`
  calc bytes.window 0 4
    _ = (bytes.window 0 8192).window 0 4 := by rw [Bytes.window_window (by omega)]
    _ = (List.replicate 8192 0x41).take 4 := by rw [hwhole, Bytes.window, List.drop_zero]
    _ = [0x41, 0x41, 0x41, 0x41] := by rw [List.take_replicate]; rfl

end CommandLine.Command

end VirtualFiles
