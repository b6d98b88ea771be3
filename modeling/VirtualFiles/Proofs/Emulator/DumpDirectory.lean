import VirtualFiles.Proofs.Dump.Confinement
import VirtualFiles.Proofs.Emulator.Creating

/-!
# Copies of new files

An emulator may have a directory that gets a copy of every new file. Whether a file is made, which
one it is and how long it is does not depend on that directory: the copy is written at the very end,
and nobody looks at how that went. What can depend on it is what the file holds, because a file is
read from the files of its blocks, and writing the copy empties the file that has its name. If none
of the blocks is taken from this file, nothing changes for whoever reads the new one.

## Main results

* `copy_of_no_directory`, `readsAlike_copy` — what the copy of a file changes
* `create_dumpDirectory` — creating a file with and without a directory for copies
-/

namespace VirtualFiles

open FileSystem

namespace Emulator

variable {e : Emulator} {output : Path} {stream : VirtualStream} {fs : FileSystem} {node : NodeId}
variable {dir : Path}

theorem copy_of_no_directory (h : e.dumpDirectory = none) : e.copy output stream fs = fs := by
  unfold copy
  rw [h]

/-- Files other than the one that has the name of the copy read as before. -/
theorem readsAlike_copy (hdir : e.dumpDirectory = some dir) (hnode : fs.IsStored node)
    (hother : ∀ name, output.fileName? = some name →
      (e.copy output stream fs).locate (dir.join name) ≠ .ok node) :
    fs.ReadsAlike (e.copy output stream fs) node := by
  unfold copy at hother ⊢
  rw [hdir] at hother ⊢
  cases hname : output.fileName? with
  | none => exact .refl fs node
  | some name =>
    rw [hname] at hother
    exact readsAlike_of_dump hnode (hother name rfl)

/-- The same for the files of the blocks of which the new file is made. -/
theorem readsAlike_copy_of_open {container : Container} {alignment : Nat} {b : Block}
    (hdir : e.dumpDirectory = some dir) (hopen : container.open fs alignment = .ok stream)
    (hb : b ∈ container.blocks) (hpos : 0 < b.length) (hnode : fs.locate b.path = .ok node)
    (hother : ∀ name, output.fileName? = some name →
      (e.copy output stream fs).locate (dir.join name) ≠ .ok node) :
    fs.ReadsAlike (e.copy output stream fs) node :=
  readsAlike_copy hdir (Container.isStored_of_open hopen hb hpos hnode) hother

end Emulator

namespace Host

/-- Creating a file with a directory for copies and without one. The outcomes are the same, and so
is the host but for its files, which are the same as well if no file is created. A file that is
created depends only on the files of its blocks that are not empty. All of these read alike on both
sides, except for a file that has the name of the copy; so if there is none, the new file reads
alike too. -/
theorem create_dumpDirectory (h : Host) (e : Emulator) (build : Builder) (call : BuildCall)
    (dir : Path) {plain dumped : Except CreateError VirtualFile × Host}
    (hplain : plain = h.create { e with dumpDirectory := none } build call)
    (hdumped : dumped = h.create { e with dumpDirectory := some dir } build call) :
    dumped.1 = plain.1 ∧ dumped.2 = { plain.2 with files := dumped.2.files } ∧
      ((∀ file, plain.1 ≠ .ok file) → dumped.2 = plain.2) ∧
      ∀ file, plain.1 = .ok file → ∃ claim cache container,
        h.cache.claim? call.output = some (claim, cache) ∧
        ({ h with cache }.callBuilder build call).1 = .ok container ∧
        container.open plain.2.files e.alignment = .ok file.stream ∧
        (∀ fs fs' : FileSystem,
          (∀ b ∈ container.blocks, 0 < b.length → ∀ node, plain.2.files.locate b.path = .ok node →
            fs.ReadsAlike fs' node) →
          ∀ offset count, file.readAt fs offset count = file.readAt fs' offset count) ∧
        (∀ b ∈ container.blocks, 0 < b.length → ∀ node, plain.2.files.locate b.path = .ok node →
          (∀ name, call.output.fileName? = some name →
            dumped.2.files.locate (dir.join name) ≠ .ok node) →
          plain.2.files.ReadsAlike dumped.2.files node) ∧
        ((∀ b ∈ container.blocks, 0 < b.length → ∀ name, call.output.fileName? = some name →
            dumped.2.files.locate (dir.join name) ≠ plain.2.files.locate b.path) →
          ∀ offset count,
            file.readAt plain.2.files offset count = file.readAt dumped.2.files offset count) := by
  subst hplain hdumped
  cases hs : h.claimFor? call with
  | none =>
    -- both are refused before the builder is asked
    rw [create_of_taken hs, create_of_taken hs]
    exact ⟨rfl, rfl, fun _ => rfl, fun file hfile => by cases hfile⟩
  | some start =>
    obtain ⟨rfl, -⟩ := of_claimFor? hs
    obtain ⟨claimed, hclaim, hcalled⟩ := claim?_of_claimFor? build hs
    -- the same call comes to an end twice, so only the copies can differ
    have hplain := ending_create { e with dumpDirectory := none } build hs
    have hdumped := ending_create { e with dumpDirectory := some dir } build hs
    obtain ⟨hresult, hlast⟩ := hplain.compare (by rfl) hdumped
    clear hplain hdumped
    generalize h.create { e with dumpDirectory := none } build start.call = plain at hresult hlast ⊢
    generalize h.create { e with dumpDirectory := some dir } build start.call = dumped
      at hresult hlast ⊢
    refine ⟨hresult, ?_⟩
    rcases hlast with ⟨hfailed, hsame⟩ | ⟨container, file, hcontainer, hopen, hfile, hfiles, hsame⟩
    · rw [hsame]
      exact ⟨rfl, fun _ => rfl, fun file hfile => absurd hfile (hfailed file)⟩
    · obtain ⟨result, ⟨files, cache, made, folders, calls, inProgress, log⟩⟩ := plain
      obtain ⟨result', last⟩ := dumped
      simp only at hfile hfiles hsame ⊢
      -- without a directory the files are as the builder has left them
      rw [Emulator.copy_of_no_directory rfl] at hfiles
      subst hfile hfiles hsame
      refine ⟨rfl, fun hnone => absurd rfl (hnone file), fun file' hfile' => ?_⟩
      obtain rfl : file = file' := Except.ok.inj hfile'
      rw [hcalled] at hcontainer
      refine ⟨start.claim, claimed, container, hclaim, hcontainer, hopen,
        fun fs fs' halike offset count => ?_, ?_, ?_⟩
      · exact Container.readsAlike_of_open hopen halike offset count
      · intro b hb hpos node hnode hother
        exact Emulator.readsAlike_copy_of_open rfl hopen hb hpos hnode hother
      · intro hother offset count
        apply Container.readsAlike_of_open hopen
        intro b hb hpos node hnode
        apply Emulator.readsAlike_copy_of_open rfl hopen hb hpos hnode
        intro name hname
        rw [← hnode]
        exact hother b hb hpos name hname

/-- A directory with the file `a` of four bytes. -/
def fourBytes : FileSystem where
  nodes := #[.directory 0 [([0x61], 1)], .regular [1, 2, 3, 4]]
  working := 0

/-- A builder that makes all files of the first four bytes of `a`. -/
def serveFour : Builder :=
  fun _ _ inner => (.ok { blocks := [⟨⟨[0x61]⟩, 0, 4, 0⟩] }, inner)

/-- The new file of that name, with copies written to the working directory or without copies. -/
def createFour (name : UInt8) (copies : Bool) : Except CreateError VirtualFile × Host :=
  create { files := fourBytes } { dumpDirectory := if copies then some ⟨Path.dot⟩ else none }
    serveFour ⟨⟨[0x61]⟩, ⟨[name]⟩, ""⟩

/-- The new file `b` reads as if there were no copy, and the new file `a` cannot be read because
its copy has taken the place of the file `a` from which it is read. -/
theorem create_dumpDirectory_fourBytes :
    (∃ file, (createFour 0x62 true).1 = .ok file ∧ (createFour 0x62 false).1 = .ok file ∧
      ∀ offset count, file.readAt (createFour 0x62 false).2.files offset count =
        file.readAt (createFour 0x62 true).2.files offset count) ∧
    (createFour 0x61 false).1.toOption.map (fun file =>
      (file.readAt (createFour 0x61 false).2.files 0 4).toOption) = some (some [1, 2, 3, 4]) ∧
    (createFour 0x61 true).1.toOption.map (fun file =>
      (file.readAt (createFour 0x61 true).2.files 0 4).toOption) = some none := by
  refine ⟨?_, by decide +kernel, by decide +kernel⟩
  have hsome : (createFour 0x62 false).1.toOption.isSome = true := by decide +kernel
  obtain ⟨file, hfile⟩ := Option.isSome_iff_exists.mp hsome
  have hmade := Outcome.toOption_eq_some_iff.mp hfile
  have hplain : createFour 0x62 false = create { files := fourBytes }
    { dumpDirectory := none } serveFour ⟨⟨[0x61]⟩, ⟨[0x62]⟩, ""⟩ := rfl
  have hdumped : createFour 0x62 true = create { files := fourBytes }
    { dumpDirectory := some ⟨Path.dot⟩ } serveFour ⟨⟨[0x61]⟩, ⟨[0x62]⟩, ""⟩ := rfl
  obtain ⟨hresult, -, -, hreads⟩ := create_dumpDirectory { files := fourBytes } {} serveFour
    ⟨⟨[0x61]⟩, ⟨[0x62]⟩, ""⟩ ⟨Path.dot⟩ hplain hdumped
  obtain ⟨claim, cache, container, hclaim, hcontainer, -, -, -, hreads⟩ := hreads file hmade
  obtain rfl : { blocks := [⟨⟨[0x61]⟩, 0, 4, 0⟩] } = container := Except.ok.inj hcontainer
  refine ⟨file, hresult.trans hmade, hmade, hreads fun b hb hpos name hname => ?_⟩
  obtain rfl := List.mem_singleton.mp hb
  obtain rfl : [0x62] = name := Option.some.inj hname
  decide +kernel

end Host

end VirtualFiles
