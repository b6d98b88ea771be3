import VirtualFiles.Proofs.Dump.Chunking
import VirtualFiles.Proofs.Emulator.DumpDirectory
import VirtualFiles.Proofs.Source.Clipping

/-!
# Copies of many files

Files may be created one after the other, with a directory for copies. Each copy is written to the
name of its file in that directory, wherever the file itself is to appear. So the copies of two
files may have one place, although the files have different keys, and then the later copy takes the
place of the earlier one. A copy to whose place no later one goes stays what it is: all bytes of the
file, if the builder only adds files and no copy has the place of a file that is read.

## Main definitions

* `Dump.target?` — the file that a dump writes, if it can be made
* `Builder.OnlyAdds` — a builder that loses and changes no file
* `Creation`, `Creations` — files that are created one after the other
* `Creation.copyPath?`, `Creation.Reads` — where the copy goes, and what the file is read from

## Main results

* `Container.ordinarySources_of_open` — what can be read as a whole can be copied
* `Creations.locate`, `Creations.keeps` — what stays during a run
* `Creations.last_copy_stays` — which copies are there in the end, and what they hold
-/

namespace VirtualFiles

open FileSystem Outcome

variable {fs : FileSystem} {path : Path} {target node : NodeId} {bytes : Bytes}
variable {s : VirtualStream}

/-! ### One copy -/

namespace Dump

/-- The regular file that a dump opens and writes, if the directories above it and the file itself
can be made. -/
def target? (fs : FileSystem) (path : Path) : Option NodeId :=
  match Dump.prepare fs path with
  | (.error _, _) => none
  | (.ok (), grown) =>
    match grown.create path with
    | .error _ => none
    | .ok (target, opened) =>
      if opened.node? target = some (.regular []) then some target else none

theorem of_target? (h : target? fs path = some target) : ∃ grown opened,
    Dump.prepare fs path = (.ok (), grown) ∧ grown.create path = .ok (target, opened) ∧
      opened.node? target = some (.regular []) := by
  unfold target? at h
  split at h
  · cases h
  · next grown hprepare =>
    split at h
    · cases h
    · next found opened hcreate =>
      split at h
      · next hempty =>
        obtain rfl := Option.some.inj h
        exact ⟨grown, opened, hprepare, hcreate, hempty⟩
      · cases h

theorem locate_of_target? (h : target? fs path = some target) :
    (s.dump fs path).files.locate path = .ok target := by
  obtain ⟨grown, opened, hprepare, hcreate, hempty⟩ := of_target? h
  obtain ⟨after, hfiles⟩ := exists_files_of_dump (s := s) hprepare hcreate hempty
  rw [hfiles]
  exact (of_opened hprepare hcreate hempty after).1

/-- A stream of ordinary sources that can be read as a whole is copied as it is read. -/
theorem contentOf_of_readAt (h : target? fs path = some target)
    (hsources : OrdinarySources fs target s.segments.toList)
    (hread : s.readAt fs 0 s.length = .ok bytes) :
    (s.dump fs path).files.contentOf path = .ok bytes := by
  obtain ⟨grown, opened, hprepare, hcreate, hempty⟩ := of_target? h
  have hopened := of_opened hprepare hcreate hempty
  have hseen := fun content => (hopened content).2.2
  have hend := dump_end (s := s) hprepare hcreate hempty
  generalize s.dump fs path = outcome at hend ⊢
  cases hend with
  | @whole after copies =>
    have hwhole := readAt_of_copiesAll hseen hsources copies
    obtain rfl : bytes = after := Except.ok.inj (hread.symm.trans hwhole)
    exact (hopened bytes).2.1
  | @failed earlier later t middle after cause k split whole copies fails length_eq =>
    -- one read of everything would have failed too
    have hverdict := verdict_of_fails hseen hsources split whole copies fails
    rw [VirtualStream.verdict, hread] at hverdict
    cases hverdict

end Dump

/-- The sources of an opened container are ordinary if it can be read as a whole: its blocks are
windows of regular files that end at an offset which a file can have. -/
theorem Container.ordinarySources_of_open {c : Container} {alignment : Nat}
    (hopen : c.open fs alignment = .ok s)
    (hother : ∀ b ∈ c.blocks, 0 < b.length → fs.locate b.path ≠ .ok target)
    (hread : s.readAt fs 0 s.length = .ok bytes) :
    Dump.OrdinarySources fs target s.segments.toList := by
  obtain ⟨plan, segments, hplan, hsegments, hs⟩ := Container.open_eq_ok_iff.mp hopen
  obtain ⟨pieces, hpieces, -⟩ := VirtualStream.readAt_eq_ok_iff.mp hread
  intro t ht
  obtain ⟨piece, -, hpiece⟩ := exists_result_of_mem hpieces ht
  rw [Nat.zero_add, Segment.piece_of_le (Nat.zero_le _) (s.tiles.bounds_of_mem ht).2.2]
    at hpiece
  rw [VirtualStream.toList_segments_of_ofSegments hs] at ht
  obtain ⟨p, hp, hopened⟩ := exists_entry_of_mem (Plan.forall₂_occupied hsegments) ht
  obtain ⟨hplaced, hpos⟩ := Plan.mem_occupied_iff.mp hp
  have hfilling := Plan.filling_of_compute hplan hplaced
  obtain ⟨extent, filling⟩ := p
  cases filling with
  | padding =>
    cases hopened
    exact .padding (Padding.zeros extent.length) _
  | header =>
    cases hopened
    exact .memory c.header _
  | block index path fileOffset =>
    obtain ⟨node, hlocate, rfl, hstored⟩ := Plan.of_openPlacement_block hpos hopened
    rcases hfilling with hother' | ⟨hother', -⟩ | ⟨i, b, hb, hblock, hlength⟩
    · cases hother'
    · cases hother'
    cases hblock
    have hne : node ≠ target := by
      rintro rfl
      exact hother b hb (by omega) hlocate
    rcases hstored with ⟨content, hnode⟩ | ⟨above, entries, hdirectory⟩
    · have hend := ((FileWindow.readExactAt_eq_ok_iff hnode hpos).mp hpiece).1
      exact .window _ _ content hnode hne (.inl (by simp only at hend ⊢; omega))
    · -- nothing can be read from a directory
      have hlength' := Source.length_of_readExactAt hpiece
      obtain rfl := Source.eq_nil_of_directory hdirectory hpiece
      exact absurd hlength' (Nat.ne_of_lt hpos)

/-- A container whose blocks are all taken from regular files can be read as a whole. -/
theorem Container.exists_readAt {c : Container} {alignment : Nat}
    (hopen : c.open fs alignment = .ok s)
    (hfiles : ∀ b ∈ c.blocks, ∃ content, fs.contentOf b.path = .ok content ∧
      content.length ≤ maxOffset) : ∃ bytes, s.readAt fs 0 s.length = .ok bytes := by
  obtain ⟨contents, hcontents⟩ : ∃ contents : Path → Bytes,
      ∀ b ∈ c.blocks, fs.KeepsFile fs b.path (contents b.path) := by
    refine ⟨fun path => (fs.contentOf path).toOption.getD [], fun b hb => ?_⟩
    obtain ⟨content, hcontent, hlength⟩ := hfiles b hb
    obtain ⟨node, hlocate, hnode⟩ := contentOf_eq_ok_iff.mp hcontent
    simp only [hcontent]
    exact ⟨⟨node, hlocate, hnode, hnode⟩, hlength⟩
  obtain ⟨-, -, hread⟩ := Container.readAt_eq_blockBytes hopen hcontents
  exact ⟨_, hread 0 s.length⟩

/-! ### One creation -/

/-- Whatever files a builder finds, it leaves them as they are, and may add others. -/
def Builder.OnlyAdds (build : Builder) : Prop :=
  ∀ (number : Nat) (call : BuildCall) (inner : Host),
    inner.files.Grows (build number call inner).2.files

/-- A file that was created, and what it was made of. -/
structure Creation where
  call : BuildCall
  container : Container
  /-- The files as the builder has left them. -/
  left : FileSystem
  file : VirtualFile

namespace Creation

/-- The place of the copy in the directory for copies. -/
def copyPath? (dir : Path) (c : Creation) : Option Path := c.call.output.fileName?.map dir.join

/-- A block of the file that is not empty is taken from the node. -/
def Reads (c : Creation) (node : NodeId) : Prop :=
  ∃ b ∈ c.container.blocks, 0 < b.length ∧ c.left.locate b.path = .ok node

/-- The host `h` creates the file and becomes `next`. -/
structure Step (e : Emulator) (build : Builder) (h : Host) (c : Creation) (next : Host) : Prop where
  created : h.create e build c.call = (.ok c.file, next)
  built : ∃ s, h.claimFor? c.call = some s ∧ (h.called build s).1 = .ok c.container ∧
    (h.called build s).2.files = c.left

variable {e : Emulator} {build : Builder} {h next : Host} {c : Creation} {dir other : Path}

/-- Whenever a file is created, there is a container of which it was made. -/
theorem exists_step_of_create {call : BuildCall} {file : VirtualFile}
    (hcreate : h.create e build call = (.ok file, next)) :
    ∃ c : Creation, c.call = call ∧ c.file = file ∧ c.Step e build h next := by
  obtain ⟨s, container, hs, hcontainer, -⟩ := Host.open_of_create (congrArg Prod.fst hcreate)
  exact ⟨⟨call, container, (h.called build s).2.files, file⟩, rfl, rfl, hcreate, s, hs, hcontainer,
    rfl⟩

namespace Step

/-- The file is the stream of the container, and its copy is written at the end. -/
theorem open_and_copy (hstep : c.Step e build h next) :
    c.container.open c.left e.alignment = .ok c.file.stream ∧
      next.files = e.copy c.call.output c.file.stream c.left := by
  obtain ⟨hcreated, s, hs, hcontainer, hleft⟩ := hstep
  obtain ⟨hcall, -⟩ := Host.of_claimFor? hs
  have hending := Host.ending_create e build hs
  rw [hcreated, hcontainer] at hending
  generalize (h.called build s).2 = returned at hending hleft
  generalize c.file = file at hending ⊢
  cases hending with
  | built _ stream hopen =>
    rw [← hleft, ← hcall]
    exact ⟨hopen, rfl⟩

theorem grows_left (hstep : c.Step e build h next) (hadds : build.OnlyAdds) :
    h.files.Grows c.left := by
  obtain ⟨-, s, hs, -, hleft⟩ := hstep
  obtain ⟨-, hbegins⟩ := Host.of_claimFor? hs
  rw [← hleft, ← hbegins.files_eq]
  exact hadds _ _ _

variable (hdir : e.dumpDirectory = some dir)
include hdir

theorem files_of_copyPath? (hstep : c.Step e build h next) {path : Path}
    (hpath : c.copyPath? dir = some path) :
    next.files = (c.file.stream.dump c.left path).files := by
  obtain ⟨name, hname, rfl⟩ := Option.map_eq_some_iff.mp hpath
  rw [hstep.open_and_copy.2, Emulator.copy, hdir, hname]

theorem files_of_no_copyPath (hstep : c.Step e build h next) (hnone : c.copyPath? dir = none) :
    next.files = c.left := by
  rw [hstep.open_and_copy.2, Emulator.copy, hdir, Option.map_eq_none_iff.mp hnone]

/-- Paths go on to name what they named. -/
theorem locate (hstep : c.Step e build h next) (hadds : build.OnlyAdds)
    (hlocate : h.files.locate other = .ok node) : next.files.locate other = .ok node := by
  have hleft := (hstep.grows_left hadds).locate hlocate
  cases hpath : c.copyPath? dir with
  | none => rwa [hstep.files_of_no_copyPath hdir hpath]
  | some path =>
    rw [hstep.files_of_copyPath? hdir hpath]
    exact locate_of_dump hleft

/-- The copy is written over no other file. -/
theorem keeps_left (hstep : c.Step e build h next)
    (hother : ∀ path, c.copyPath? dir = some path → next.files.locate path ≠ .ok node) :
    c.left.Keeps next.files node := by
  cases hpath : c.copyPath? dir with
  | none =>
    rw [hstep.files_of_no_copyPath hdir hpath]
    exact .refl c.left node
  | some path =>
    have hplace := hother path hpath
    rw [hstep.files_of_copyPath? hdir hpath] at hplace ⊢
    exact keeps_of_dump hplace

end Step

end Creation

/-! ### Many creations -/

/-- Files that are created one after the other, and the host at the end. -/
inductive Creations (e : Emulator) (build : Builder) : Host → List Creation → Host → Prop
  | nil (h : Host) : Creations e build h [] h
  | cons {h next last : Host} {c : Creation} {rest : List Creation}
    (step : c.Step e build h next) (later : Creations e build next rest last) :
    Creations e build h (c :: rest) last

namespace Creations

variable {e : Emulator} {build : Builder} {h next last : Host} {dir other : Path}
variable {created before after : List Creation} {c : Creation}

/-- Every file of a run was created at some time, and the others after it. -/
theorem exists_step (hrun : Creations e build h (before ++ c :: after) last) :
    ∃ mid next, c.Step e build mid next ∧ Creations e build next after last := by
  induction before generalizing h with
  | nil =>
    cases hrun with
    | cons step later => exact ⟨_, _, step, later⟩
  | cons first before ih =>
    cases hrun with
    | cons _ later => exact ih later

section Adding

variable (hdir : e.dumpDirectory = some dir) (hadds : build.OnlyAdds)
include hdir hadds

/-- Paths go on to name what they named. -/
theorem locate (hrun : Creations e build h created last)
    (hlocate : h.files.locate other = .ok node) : last.files.locate other = .ok node := by
  induction hrun with
  | nil => exact hlocate
  | cons step _ ih => exact ih (step.locate hdir hadds hlocate)

/-- Files to which no copy goes are kept. -/
theorem keeps (hrun : Creations e build h created last)
    (hother : ∀ c ∈ created, ∀ path, c.copyPath? dir = some path →
      last.files.locate path ≠ .ok node) : h.files.Keeps last.files node := by
  induction hrun with
  | nil => exact .refl _ node
  | cons step later ih =>
    obtain ⟨hfirst, hrest⟩ := List.forall_mem_cons.mp hother
    have hleft := (step.grows_left hadds).keeps node
    -- what names the node after the copy was written still names it at the end
    have hcopied := step.keeps_left hdir fun path hpath hplace =>
      hfirst path hpath (later.locate hdir hadds hplace)
    exact (hleft.trans hcopied).trans (ih hrest)

/-- A file reads at the end as it did when the builder had left the files, if no copy has the place
of a file that it is read from. -/
theorem readsAlike_left (step : c.Step e build h next) (later : Creations e build next after last)
    (hapart : ∀ c' ∈ c :: after, ∀ path, c'.copyPath? dir = some path → ∀ node, c.Reads node →
      last.files.locate path ≠ .ok node) : c.file.stream.ReadsAlike c.left last.files := by
  obtain ⟨hfirst, hrest⟩ := List.forall_mem_cons.mp hapart
  obtain ⟨hopen, -⟩ := step.open_and_copy
  -- neither the copy of this file nor a later one goes to a file from which it is read
  refine Container.readsAlike_of_open hopen fun b hb hpos node hnode => ?_
  have hreads : c.Reads node := ⟨b, hb, hpos, hnode⟩
  have hcopied := step.keeps_left hdir fun path hpath hplace =>
    hfirst path hpath node hreads (later.locate hdir hadds hplace)
  have hlater := later.keeps hdir hadds fun c' hc' path hpath => hrest c' hc' path hpath node hreads
  exact (hcopied.trans hlater).readsAlike (Container.isStored_of_open hopen hb hpos hnode)

/-- The copy of a file holds all its bytes once it was written, and it does so until another copy
goes to its place. -/
theorem contentOf_copy (step : c.Step e build h next) (later : Creations e build next after last)
    (hpath : c.copyPath? dir = some path) (htarget : Dump.target? c.left path = some target)
    (hapart : ∀ node, c.Reads node → last.files.locate path ≠ .ok node)
    (hlast : ∀ c' ∈ after, ∀ path', c'.copyPath? dir = some path' →
      last.files.locate path' ≠ last.files.locate path)
    (hread : c.file.readAt c.left 0 c.file.length = .ok bytes) :
    last.files.contentOf path = .ok bytes := by
  obtain ⟨hopen, -⟩ := step.open_and_copy
  have hfiles := step.files_of_copyPath? hdir hpath
  have hplace : next.files.locate path = .ok target := by
    rw [hfiles]
    exact Dump.locate_of_target? htarget
  have hend := later.locate hdir hadds hplace
  -- so the target is not read, and the copy is what one read gives
  have hother : ∀ b ∈ c.container.blocks, 0 < b.length → c.left.locate b.path ≠ .ok target :=
    fun b hb hpos hnode => hapart target ⟨b, hb, hpos, hnode⟩ hend
  have hcopy : next.files.contentOf path = .ok bytes := by
    rw [hfiles]
    exact Dump.contentOf_of_readAt htarget (Container.ordinarySources_of_open hopen hother hread)
      hread
  -- from here on the copy is one of the files that are kept
  obtain ⟨node, hnode, hcontent⟩ := contentOf_eq_ok_iff.mp hcopy
  obtain rfl : target = node := Except.ok.inj (hplace.symm.trans hnode)
  have hkept := later.keeps hdir hadds fun c' hc' path' hpath' hlocate =>
    hlast c' hc' path' hpath' (hlocate.trans hend.symm)
  exact contentOf_eq_ok_iff.mpr ⟨target, hend, hkept.regular bytes hcontent⟩

/-- In the end the place of each copy holds all bytes of the last file whose copy went there. This
is every file if the copies have different places, and it can be read if its blocks are taken from
regular files. The builder is to add files only, the places can be written, and no file is read from
one of them. -/
theorem last_copy_stays (hrun : Creations e build h created last)
    (hwritable : ∀ c ∈ created, ∃ path, c.copyPath? dir = some path ∧
      (Dump.target? c.left path).isSome = true)
    (hapart : ∀ c ∈ created, ∀ node, c.Reads node → ∀ c' ∈ created, ∀ path,
      c'.copyPath? dir = some path → last.files.locate path ≠ .ok node)
    (hc : created = before ++ c :: after) :
    ∃ path, c.copyPath? dir = some path ∧
      ((∀ c' ∈ after, ∀ path', c'.copyPath? dir = some path' →
          last.files.locate path' ≠ last.files.locate path) →
        ∀ bytes, c.file.readAt last.files 0 c.file.length = .ok bytes →
          last.files.contentOf path = .ok bytes) ∧
      ((∀ b ∈ c.container.blocks, ∃ content, c.left.contentOf b.path = .ok content ∧
          content.length ≤ maxOffset) →
        ∃ bytes, c.file.readAt last.files 0 c.file.length = .ok bytes) := by
  subst hc
  have hmem : ∀ c' ∈ c :: after, c' ∈ before ++ c :: after := fun _ => List.mem_append_right before
  have hself := hmem c List.mem_cons_self
  obtain ⟨mid, next, step, later⟩ := hrun.exists_step
  obtain ⟨path, hpath, hsome⟩ := hwritable c hself
  obtain ⟨target, htarget⟩ := Option.isSome_iff_exists.mp hsome
  -- the claim about the end is one about the files as the builder had left them
  have halike := readsAlike_left hdir hadds step later fun c' hc' path' hpath' node hnode =>
    hapart c hself node hnode c' (hmem c' hc') path' hpath'
  refine ⟨path, hpath, fun hlast bytes hread => ?_, fun hfiles => ?_⟩
  · refine contentOf_copy hdir hadds step later hpath htarget
      (fun node hnode => hapart c hself node hnode c hself path hpath) hlast ?_
    exact (halike 0 c.file.length).trans hread
  · obtain ⟨bytes, hread⟩ := Container.exists_readAt step.open_and_copy.1 hfiles
    exact ⟨bytes, (halike 0 c.file.length).symm.trans hread⟩

end Adding

/-- A builder that makes every file of the file `a` and of the number of the call. -/
def numbered : Builder := fun number _ inner =>
  (.ok { blocks := [⟨⟨[0x61]⟩, 0, 4, 0⟩], header := [UInt8.ofNat number] }, inner)

/-- An emulator that keeps copies in the directory `d`. -/
def keeper : Emulator := { alignment := 1, dumpDirectory := some ⟨[0x64]⟩ }

/-- The host after a file was created for that path. -/
def createNumbered (h : Host) (output : Path) : Host :=
  (h.create keeper numbered ⟨output, output, ""⟩).2

/-- A file that is made of `a`, with its copy at that place. -/
structure IsNumbered (c : Creation) (number : UInt8) (output place : Path) : Prop where
  output_eq : c.call.output = output
  container_eq : c.container = { blocks := [⟨⟨[0x61]⟩, 0, 4, 0⟩], header := [number] }
  copyPath?_eq : c.copyPath? ⟨[0x64]⟩ = some place
  isSome_target? : (Dump.target? c.left place).isSome = true
  locate_left : c.left.locate ⟨[0x61]⟩ = .ok 1
  contentOf_left : c.left.contentOf ⟨[0x61]⟩ = .ok [1, 2, 3, 4]

theorem exists_isNumbered (h : Host) (output place : Path)
    (hok : (h.create keeper numbered ⟨output, output, ""⟩).1.toOption.isSome = true ∧
      output.fileName?.map (Path.join ⟨[0x64]⟩) = some place ∧
      (Dump.target? h.files place).isSome = true ∧ h.files.locate ⟨[0x61]⟩ = .ok 1 ∧
      h.files.contentOf ⟨[0x61]⟩ = .ok [1, 2, 3, 4]) :
    ∃ c : Creation, c.Step keeper numbered h (createNumbered h output) ∧
      IsNumbered c (UInt8.ofNat h.calls.length) output place := by
  obtain ⟨hcreated, hplace, htarget, hlocate, hcontent⟩ := hok
  obtain ⟨file, hfile⟩ := Option.isSome_iff_exists.mp hcreated
  obtain ⟨c, hcall, -, hstep⟩ :=
    Creation.exists_step_of_create (Prod.ext (toOption_eq_some_iff.mp hfile) rfl)
  obtain ⟨s, hs, hcontainer, hleft⟩ := hstep.built
  obtain ⟨-, hbegins⟩ := Host.of_claimFor? hs
  -- the builder leaves the files as they are
  have hleft : h.files = c.left := hbegins.files_eq.symm.trans hleft
  rw [hleft] at htarget hlocate hcontent
  refine ⟨c, hstep, congrArg BuildCall.output hcall, (Except.ok.inj hcontainer).symm, ?_, htarget,
    hlocate, hcontent⟩
  rw [Creation.copyPath?, hcall]
  exact hplace

theorem IsNumbered.eq_of_reads {c : Creation} {number : UInt8} {output place : Path}
    (hc : IsNumbered c number output place) (hreads : c.Reads node) : node = 1 := by
  obtain ⟨b, hb, -, hnode⟩ := hreads
  rw [hc.container_eq] at hb
  obtain rfl := List.mem_singleton.mp hb
  exact Except.ok.inj (hnode.symm.trans hc.locate_left)

/-- Before the first file is created there is the file `a` only. -/
def beforeAll : Host := { files := Host.fourBytes }

/-- After the creation of `x/m`, of `y/m` and of `n`. -/
def afterFirst : Host := createNumbered beforeAll ⟨[0x78, 0x2F, 0x6D]⟩
def afterSecond : Host := createNumbered afterFirst ⟨[0x79, 0x2F, 0x6D]⟩
def afterThird : Host := createNumbered afterSecond ⟨[0x6E]⟩

/-- Two files have the same name, and a third file has another one. The copy of the second file has
taken the place of the first copy, and the third copy leaves it alone. -/
theorem last_copy_stays_sameName : ∃ first second third : Creation,
    Creations keeper numbered beforeAll [first, second, third] afterThird ∧
    IsNumbered first 0 ⟨[0x78, 0x2F, 0x6D]⟩ ⟨[0x64, 0x2F, 0x6D]⟩ ∧
    IsNumbered second 1 ⟨[0x79, 0x2F, 0x6D]⟩ ⟨[0x64, 0x2F, 0x6D]⟩ ∧
    second.file.readAt afterThird.files 0 second.file.length = .ok [1, 2, 3, 4, 1] ∧
    afterThird.files.contentOf ⟨[0x64, 0x2F, 0x6D]⟩ = .ok [1, 2, 3, 4, 1] := by
  obtain ⟨first, hfirst, first_made⟩ := exists_isNumbered beforeAll ⟨[0x78, 0x2F, 0x6D]⟩
    ⟨[0x64, 0x2F, 0x6D]⟩ (by decide +kernel)
  obtain ⟨second, hsecond, second_made⟩ := exists_isNumbered afterFirst ⟨[0x79, 0x2F, 0x6D]⟩
    ⟨[0x64, 0x2F, 0x6D]⟩ (by decide +kernel)
  obtain ⟨third, hthird, third_made⟩ := exists_isNumbered afterSecond ⟨[0x6E]⟩
    ⟨[0x64, 0x2F, 0x6E]⟩ (by decide +kernel)
  rw [show UInt8.ofNat afterFirst.calls.length = 1 by decide +kernel] at second_made
  have hrun : Creations keeper numbered beforeAll [first, second, third] afterThird :=
    .cons hfirst (.cons hsecond (.cons hthird (.nil _)))
  have hmade : ∀ c ∈ [first, second, third], ∃ number output place,
      IsNumbered c number output place ∧ afterThird.files.locate place ≠ .ok 1 := by
    simp only [List.forall_mem_cons, List.not_mem_nil, false_implies, implies_true, and_true]
    exact ⟨⟨_, _, _, first_made, by decide +kernel⟩, ⟨_, _, _, second_made, by decide +kernel⟩,
      ⟨_, _, _, third_made, by decide +kernel⟩⟩
  have hwritable : ∀ c ∈ [first, second, third], ∃ path, c.copyPath? ⟨[0x64]⟩ = some path ∧
      (Dump.target? c.left path).isSome = true := by
    intro c hc
    obtain ⟨_, _, place, hcopied, -⟩ := hmade c hc
    exact ⟨place, hcopied.copyPath?_eq, hcopied.isSome_target?⟩
  have hapart : ∀ c ∈ [first, second, third], ∀ node, c.Reads node → ∀ c' ∈ [first, second, third],
      ∀ path, c'.copyPath? ⟨[0x64]⟩ = some path → afterThird.files.locate path ≠ .ok node := by
    intro c hc node hnode c' hc' path hpath
    obtain ⟨_, _, _, hreader, -⟩ := hmade c hc
    obtain ⟨_, _, place, hwriter, hplace⟩ := hmade c' hc'
    obtain rfl := hreader.eq_of_reads hnode
    obtain rfl := Option.some.inj (hwriter.copyPath?_eq.symm.trans hpath)
    exact hplace
  obtain ⟨path, hpath, hcopy, hreadable⟩ := last_copy_stays
    (show keeper.dumpDirectory = some ⟨[0x64]⟩ from rfl) (fun _ _ inner => .refl inner.files) hrun
    hwritable hapart (show [first, second, third] = [first] ++ second :: [third] from rfl)
  obtain rfl := Option.some.inj (second_made.copyPath?_eq.symm.trans hpath)
  obtain ⟨bytes, hread⟩ := hreadable fun b hb => by
    rw [second_made.container_eq] at hb
    obtain rfl := List.mem_singleton.mp hb
    exact ⟨_, second_made.contentOf_left, by decide⟩
  have hcontent : afterThird.files.contentOf ⟨[0x64, 0x2F, 0x6D]⟩ = .ok [1, 2, 3, 4, 1] := by
    decide +kernel
  -- the third copy goes to another place
  have hsame := hcopy (fun c hc path hpath => by
    obtain rfl := List.mem_singleton.mp hc
    obtain rfl := Option.some.inj (third_made.copyPath?_eq.symm.trans hpath)
    decide +kernel) bytes hread
  obtain rfl : [1, 2, 3, 4, 1] = bytes := Except.ok.inj (hcontent.symm.trans hsame)
  exact ⟨first, second, third, hrun, first_made, second_made, hread, hcontent⟩

end Creations

end VirtualFiles
