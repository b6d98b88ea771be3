import VirtualFiles.Proofs.Dump.Agreement
import VirtualFiles.Proofs.FileSystem.Additions

/-!
# What a dump can change

A dump changes the content of one file at most, the one that its path names. Besides that it adds
directories, and the file if it was not there. This holds for all streams, also for those that read
the target, and whether or not the dump succeeds. A target that is no regular file takes no byte.

## Main definitions

* `Dump.Unmoved` — a dump that has changed no file

## Main results

* `append_of_not_regular`, `files_of_dump_not_regular` — nothing can be written to other nodes
* `changesOnly_dump`, `grows_dump` — all that a dump can change
* `locate_of_dump`, `keeps_of_dump` — what a dump keeps
* `readsAlike_of_dump` — who does not read the target does not notice the dump
-/

namespace VirtualFiles

open FileSystem Outcome

variable {fs grown opened : FileSystem} {target node : NodeId} {path : Path} {bytes : Bytes}
variable {s : VirtualStream}

/-! ### Targets that are not regular files -/

theorem FileSystem.append_of_not_regular (h : ∀ content, fs.node? target ≠ some (.regular content))
    {later : FileSystem} (happend : fs.append target bytes = .ok later) : later = fs := by
  unfold append at happend
  split at happend
  · cases happend
    rfl
  · split at happend
    · next content hnode => exact absurd hnode (h content)
    all_goals cases happend

namespace BufferedWriter

variable {w : BufferedWriter}

theorem flush_of_not_regular (h : ∀ content, fs.node? w.target ≠ some (.regular content)) :
    (w.flush fs).files = fs ∧ (w.flush fs).writer.target = w.target := by
  unfold flush
  split
  · next written happend => exact ⟨append_of_not_regular h happend, rfl⟩
  · exact ⟨rfl, rfl⟩

theorem place_of_not_regular (h : ∀ content, fs.node? w.target ≠ some (.regular content)) :
    (w.place fs bytes).files = fs ∧ (w.place fs bytes).writer.target = w.target := by
  unfold place
  split
  · exact ⟨rfl, rfl⟩
  · split
    · next written happend => exact ⟨append_of_not_regular h happend, rfl⟩
    · exact ⟨rfl, rfl⟩

theorem write_of_not_regular (h : ∀ content, fs.node? w.target ≠ some (.regular content))
    (bytes : Bytes) :
    (w.write fs bytes).files = fs ∧ (w.write fs bytes).writer.target = w.target := by
  unfold write
  split
  · exact place_of_not_regular h
  · -- the buffer is emptied first, and what is in it may not get anywhere
    have hflush := flush_of_not_regular h
    split
    · next written emptied hflushed =>
      rw [hflushed] at hflush
      obtain ⟨rfl, htarget⟩ := hflush
      rw [← htarget] at h ⊢
      exact place_of_not_regular h
    · exact hflush

end BufferedWriter

namespace Dump

open BufferedWriter

variable {d : Dump}

/-- The dump has changed no file so far. -/
structure Unmoved (fs : FileSystem) (target : NodeId) (d : Dump) : Prop where
  files_eq : d.files = fs
  target_eq : d.writer.target = target

section Unmoved

variable (h : ∀ content, fs.node? target ≠ some (.regular content))

include h

theorem unmoved_writePiece (hd : Unmoved fs target d) :
    Unmoved fs target (d.writePiece path bytes).2 := by
  obtain ⟨rfl, rfl⟩ := hd
  obtain ⟨hfiles, htarget⟩ := write_of_not_regular h bytes
  unfold writePiece
  simp only
  split
  · exact ⟨hfiles, htarget⟩
  · exact ⟨hfiles, htarget⟩

theorem unmoved_copyUpTo {stop offset : Nat} (hd : Unmoved fs target d) :
    Unmoved fs target (copyUpTo s path stop offset d).2 := by
  -- piece by piece, as the stream is copied: a failed read, the end of the stream before the stop,
  -- a piece that was written, one that could not be written, and the stop
  fun_induction copyUpTo s path stop offset d with
  | case1 offset d hlt cause hread => exact hd
  | case2 offset d hlt hread => exact hd
  | case3 offset d hlt b bs hread next hwrite ih =>
    have hnext : Unmoved fs target (d.writePiece path (b :: bs)).2 := unmoved_writePiece h hd
    rw [hwrite] at hnext
    exact ih hnext
  | case4 offset d hlt b bs hread => exact unmoved_writePiece h hd
  | case5 offset d hle => exact hd

theorem unmoved_copySegments {segments : List Segment} (hd : Unmoved fs target d) :
    Unmoved fs target (copySegments s path segments d).2 := by
  induction segments generalizing d with
  | nil => exact hd
  | cons t rest ih =>
    have hreached : Unmoved fs target (d.report (.segment t.extent t.kind)) := ⟨hd.1, hd.2⟩
    have hcopied : Unmoved fs target (copyUpTo s path t.extent.stop t.extent.start
        (d.report (.segment t.extent t.kind))).2 := unmoved_copyUpTo h hreached
    unfold copySegments
    simp only
    split
    · next next hcopy =>
      rw [hcopy] at hcopied
      exact ih hcopied
    · exact hcopied

theorem unmoved_copyAll (hd : Unmoved fs target d) : Unmoved fs target (copyAll s path d).2 := by
  have hstarted : Unmoved fs target (d.report (.started path s.length)) := ⟨hd.1, hd.2⟩
  have hcopied : Unmoved fs target (copySegments s path s.segments.toList
      (d.report (.started path s.length))).2 := unmoved_copySegments h hstarted
  unfold copyAll
  simp only
  split
  · next copied hcopy =>
    rw [hcopy] at hcopied
    obtain ⟨rfl, rfl⟩ := hcopied
    obtain ⟨hfiles, htarget⟩ := flush_of_not_regular h
    split
    · exact ⟨hfiles, htarget⟩
    · exact ⟨hfiles, htarget⟩
  · exact hcopied

end Unmoved

/-- A dump whose target is not a regular file leaves all files as they are. -/
theorem files_of_dump_not_regular (hprepare : Dump.prepare fs path = (.ok (), grown))
    (hcreate : grown.create path = .ok (target, grown))
    (h : ∀ content, grown.node? target ≠ some (.regular content)) :
    (s.dump fs path).files = grown := by
  have hstart : Unmoved grown target { files := grown, writer := ⟨target, []⟩ } := ⟨rfl, rfl⟩
  have hcopied : Unmoved grown target
      (copyAll s path { files := grown, writer := ⟨target, []⟩ }).2 := unmoved_copyAll h hstart
  obtain ⟨hfiles, htarget⟩ := hcopied
  simp only [VirtualStream.dump, hprepare, hcreate]
  rw [← htarget] at h
  rw [hfiles]
  exact (flush_of_not_regular h).1

/-- Only directories above the target are made before a dump. -/
theorem growsFor_prepare (fs : FileSystem) (path : Path) :
    fs.GrowsFor (Dump.prepare fs path).2 path := by
  rcases prepare_cases fs path with hnothing | ⟨dir, hparent, hmade⟩
  · rw [hnothing]
    exact .refl fs path
  · rw [hmade]
    exact GrowsFor.makeDirectories (.refl fs path) hparent

/-- A dump adds what is missing on the way to its target, and changes no file but this one. -/
theorem changesOnly_dump (s : VirtualStream) (fs : FileSystem) (path : Path) :
    fs.ChangesOnly (s.dump fs path).files path := by
  have hprepared := growsFor_prepare fs path
  rcases hprepare : Dump.prepare fs path with ⟨e | done, grown⟩
  · -- some directory on the way could not be made
    rw [hprepare] at hprepared
    refine ⟨grown, hprepared, .inl ?_⟩
    simp only [VirtualStream.dump, hprepare]
  rw [hprepare] at hprepared
  rcases hcreate : grown.create path with e | ⟨target, opened⟩
  · -- the target could not be opened
    refine ⟨grown, hprepared, .inl ?_⟩
    simp only [VirtualStream.dump, hprepare, hcreate]
  by_cases hempty : opened.node? target = some (.regular [])
  · obtain ⟨made, old, hmade, hnode, hlocate, rfl⟩ := made_of_create hcreate hempty
    have hgrown : fs.GrowsFor made path := by
      rcases hmade with rfl | ⟨directory, name, hdestination, habsent, hadd⟩
      · exact hprepared
      · exact hprepared.addFile hdestination habsent hadd
    refine ⟨made, hgrown, .inr ⟨target, old, ?_⟩⟩
    obtain ⟨after, hfiles⟩ := exists_files_of_dump (s := s) hprepare hcreate hempty
    refine ⟨after, hnode, hlocate, ?_⟩
    rw [hfiles, withContent, replace_replace, withContent]
  · -- what is open is no regular file, because such a file would be empty now
    rcases of_create hcreate with ⟨-, ⟨⟨content, hnode⟩, rfl⟩ | ⟨hother, rfl⟩⟩ |
      ⟨directory, name, -, habsent, hadd⟩
    · exact absurd (node?_replace_self hnode) hempty
    · exact ⟨_, hprepared, .inl (files_of_dump_not_regular hprepare hcreate hother)⟩
    · exact absurd (node?_of_addNode habsent hadd) hempty

/-- A dump loses nothing but the content of the file that its path names then, if there is one. -/
theorem grows_dump (s : VirtualStream) (fs : FileSystem) (path : Path) : ∃ grown, fs.Grows grown ∧
    ((s.dump fs path).files = grown ∨ ∃ target old new,
      grown.node? target = some (.regular old) ∧ grown.locate path = .ok target ∧
        (s.dump fs path).files = grown.withContent target new) := by
  obtain ⟨grown, hgrown, hfiles⟩ := changesOnly_dump s fs path
  exact ⟨grown, hgrown.toGrows, hfiles⟩

end Dump

/-- Paths go on to name what they named before a dump. -/
theorem locate_of_dump {other : Path} (h : fs.locate other = .ok node) :
    (s.dump fs path).files.locate other = .ok node := by
  obtain ⟨grown, hgrows, hfiles | ⟨target, old, new, hregular, -, hfiles⟩⟩ :=
    Dump.grows_dump s fs path
  · rw [hfiles]
    exact hgrows.locate h
  · rw [hfiles, withContent, locate_replace_regular hregular]
    exact hgrows.locate h

/-- A dump keeps all files and directories but the one to which it goes. -/
theorem keeps_of_dump (hother : (s.dump fs path).files.locate path ≠ .ok node) :
    fs.Keeps (s.dump fs path).files node := by
  obtain ⟨grown, hgrows, hfiles | ⟨target, old, new, hregular, hlocate, hfiles⟩⟩ :=
    Dump.grows_dump s fs path
  · rw [hfiles]
    exact hgrows.keeps node
  · rw [hfiles] at hother ⊢
    have hne : node ≠ target := by
      rintro rfl
      apply hother
      rw [withContent, locate_replace_regular hregular]
      exact hlocate
    exact (hgrows.keepsAllBut target (.regular new)).keeps hne

/-- Whoever does not read the file to which a dump went does not notice the dump. -/
theorem readsAlike_of_dump (hnode : fs.IsStored node)
    (hother : (s.dump fs path).files.locate path ≠ .ok node) :
    fs.ReadsAlike (s.dump fs path).files node := (keeps_of_dump hother).readsAlike hnode

end VirtualFiles
