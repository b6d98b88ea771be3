import VirtualFiles.Proofs.CommandLine.Compose
import VirtualFiles.Proofs.Dump.Confinement

/-!
# What composing a file changes

Composing a file goes in two steps. First the header is read and the container is laid out and
opened, on a host that is given up afterwards; this changes no file, so a run that fails by then
leaves everything as it was. Only then the file is written, which adds the missing directories above
the output and the output, and changes no other file.

## Main definitions

* `composingHost` — the host that is given up

## Main results

* `map_stream_composeFile`, `files_composingHost` — the first step, its failures and its files
* `runCompose_frame` — all that a run can change, and what fails before anything is changed
-/

namespace VirtualFiles.CommandLine.Command

open FileSystem VirtualFiles.Outcome

variable {fs : FileSystem} {blocks : List Block} {header : Option Path} {headerBytes : Bytes}
variable {alignment : Nat} {output : Path} {quiet : Bool} {file : VirtualFile}

/-- The host behind the making of the composed file. -/
def composingHost (fs : FileSystem) (blocks : List Block) (headerBytes : Bytes) (alignment : Nat)
    (output : Path) : Host :=
  (({ files := fs } : Host).create { extension := none, alignment }
    (always { blocks, header := headerBytes }) ⟨output, output, output.display⟩).2

/-- On a host without entries a container is opened as the files are, and no file is changed. -/
theorem create_always (fs : FileSystem) (container : Container) (alignment : Nat)
    (call : BuildCall) :
    let created := ({ files := fs } : Host).create { extension := none, alignment }
      (always container) call
    created.1.map VirtualFile.stream =
      (container.open fs alignment).mapError (.layout call.output) ∧ created.2.files = fs := by
  have hfree : ({ files := fs } : Host).claimFor? call ≠ none := by
    rw [Ne, Host.claimFor?_eq_none_iff, not_not]
    rfl
  obtain ⟨start, hstart⟩ := Option.ne_none_iff_exists'.mp hfree
  obtain ⟨rfl, hbegins⟩ := Host.of_claimFor? hstart
  have hending := Host.ending_create { extension := none, alignment } (always container) hstart
  have hreturned : (({ files := fs } : Host).called (always container) start).2.files = fs :=
    hbegins.files_eq
  simp only
  generalize (({ files := fs } : Host).called (always container) start).2 = returned
    at hending hreturned
  generalize ({ files := fs } : Host).create _ _ _ = created at hending ⊢
  obtain ⟨result, last⟩ := created
  -- the builder leaves the files as they are, and nobody else changes them
  cases hending with
  | unplaced _ cause hopen =>
    rw [hreturned] at hopen
    rw [hopen]
    exact ⟨rfl, hreturned⟩
  | built _ stream hopen =>
    rw [hreturned] at hopen
    rw [hopen]
    exact ⟨rfl, hreturned⟩

/-- The composed file is the stream of the container, and it is refused for the reason for which the
container cannot be opened. -/
theorem map_stream_composeFile : (composeFile fs blocks headerBytes alignment output).map
      VirtualFile.stream =
    (Container.open { blocks, header := headerBytes } fs alignment).mapError fun cause =>
      .compose output (.layout output cause) := by
  have hcreated := create_always fs { blocks, header := headerBytes } alignment
    ⟨output, output, output.display⟩
  rw [composeFile, map_mapError, hcreated.1]
  cases Container.open { blocks, header := headerBytes } fs alignment <;> rfl

/-- No file is changed before the composed file is written. -/
theorem files_composingHost :
    (composingHost fs blocks headerBytes alignment output).files = fs :=
  (create_always fs { blocks, header := headerBytes } alignment _).2

theorem files_writeFile :
    (writeFile fs output quiet file).files = (file.stream.dump fs output).files := by
  unfold writeFile
  simp only
  split <;> rfl

theorem failure_writeFile {failure : Failure}
    (h : (writeFile fs output quiet file).failure = some failure) :
    ∃ cause, failure = .dump output cause := by
  unfold writeFile at h
  simp only at h
  split at h
  · cases h
  · next cause _ => exact ⟨cause, (Option.some.inj h).symm⟩

/-- The header is read, the file is composed and then it is written. -/
theorem runCompose_eq : runCompose fs blocks header alignment output quiet =
    match readHeader fs header with
    | .error failure => .failed fs failure
    | .ok headerBytes =>
      match composeFile fs blocks headerBytes alignment output with
      | .error failure => .failed fs failure
      | .ok file => writeFile fs output quiet file := by
  unfold runCompose
  cases readHeader fs header with
  | error failure => rfl
  | ok headerBytes =>
    simp only [ok_bind]
    cases composeFile fs blocks headerBytes alignment output <;> rfl

/-- A run that fails before the file is written leaves everything as it was. -/
theorem files_of_failure {failure : Failure}
    (h : (runCompose fs blocks header alignment output quiet).failure = some failure)
    (hearly : ∀ cause, failure ≠ .dump output cause) :
    (runCompose fs blocks header alignment output quiet).files = fs := by
  rw [runCompose_eq] at h ⊢
  split at h
  · rfl
  · split at h
    · rfl
    · obtain ⟨cause, hcause⟩ := failure_writeFile h
      exact absurd hcause (hearly cause)

theorem changesOnly_runCompose :
    fs.ChangesOnly (runCompose fs blocks header alignment output quiet).files output := by
  rw [runCompose_eq]
  split
  · exact .refl fs output
  · split
    · exact .refl fs output
    · rw [files_writeFile]
      exact Dump.changesOnly_dump _ fs output

/-- A run changes no file but the output, and adds nothing but the output and the missing
directories above it. A run that fails because the header cannot be read or the container cannot be
opened changes nothing at all, neither on the disk that the command leaves nor on that of the host
on which the file was composed. -/
theorem runCompose_frame (fs : FileSystem) (blocks : List Block) (header : Option Path)
    (alignment : Nat) (output : Path) (quiet : Bool) {o : Outcome}
    (ho : runCompose fs blocks header alignment output quiet = o) :
    fs.ChangesOnly o.files output ∧
      (∀ path content, fs.contentOf path = .ok content →
        o.files.locate path ≠ o.files.locate output → o.files.contentOf path = .ok content) ∧
      (∀ path cause, o.failure = some (.readHeader path cause) → o.files = fs) ∧
      (∀ path cause, o.failure = some (.compose path cause) → o.files = fs) ∧
      (∀ path kind, header = some path → fs.contentOf path = .error kind →
        o.failure = some (.readHeader path (.bare kind))) ∧
      ∀ headerBytes, readHeader fs header = .ok headerBytes →
        (composingHost fs blocks headerBytes alignment output).files = fs ∧
        ∀ cause, Container.open { blocks, header := headerBytes } fs alignment = .error cause →
          o.failure = some (.compose output (.layout output cause)) := by
  subst ho
  have hchanges : fs.ChangesOnly (runCompose fs blocks header alignment output quiet).files
      output := changesOnly_runCompose
  refine ⟨hchanges, fun path content => hchanges.contentOf, fun path cause h => ?_,
    fun path cause h => ?_, fun path kind hpath hkind => ?_, fun headerBytes hheader =>
    ⟨files_composingHost, fun cause hopen => ?_⟩⟩
  · exact files_of_failure h fun _ => Failure.noConfusion
  · exact files_of_failure h fun _ => Failure.noConfusion
  · have hheader : readHeader fs header = .error (.readHeader path (.bare kind)) := by
      rw [hpath, readHeader, hkind]
      rfl
    rw [runCompose_eq, hheader]
    rfl
  · have hrefused : composeFile fs blocks headerBytes alignment output =
        .error (.compose output (.layout output cause)) := by
      rw [← map_eq_error_iff, map_stream_composeFile, hopen]
      rfl
    rw [runCompose_eq, hheader]
    simp only [hrefused]
    rfl

/-- A directory with the files `a` and `o`. -/
def fourAndTwo : FileSystem where
  nodes := #[.directory 0 [([0x61], 1), ([0x6F], 2)], .regular [1, 2, 3, 4], .regular [5, 6]]
  working := 0

/-- The path `d/e/o`. -/
def deepOutput : Path := ⟨[0x64, 0x2F, 0x65, 0x2F, 0x6F]⟩

/-- The first bytes of `a`, as many as that. -/
def firstBytes (count : Int) : List Block := [⟨⟨[0x61]⟩, 0, count, 0⟩]

/-- Four bytes of `a` are composed into `d/e/o`, and five bytes of it cannot be composed into
`o`. -/
theorem runCompose_frame_fourAndTwo : (∃ o : Outcome,
    runCompose fourAndTwo (firstBytes 4) none 1 deepOutput true = o ∧
      fourAndTwo.ChangesOnly o.files deepOutput ∧
      o.files.contentOf deepOutput = .ok [1, 2, 3, 4] ∧
      o.files.contentOf ⟨[0x6F]⟩ = .ok [5, 6]) ∧
    ∃ o : Outcome, runCompose fourAndTwo (firstBytes 5) none 1 ⟨[0x6F]⟩ true = o ∧
      o.failure = some (.compose ⟨[0x6F]⟩ (.layout ⟨[0x6F]⟩ (.backingTooShort 0 ⟨[0x61]⟩ 5 4))) ∧
      o.files = fourAndTwo := by
  constructor
  · obtain ⟨hchanges, hkept, -⟩ :=
      runCompose_frame fourAndTwo (firstBytes 4) none 1 deepOutput true rfl
    have hdeep : (runCompose fourAndTwo (firstBytes 4) none 1 deepOutput true).files.contentOf
        deepOutput = .ok [1, 2, 3, 4] := by decide +kernel
    refine ⟨_, rfl, hchanges, hdeep, hkept ⟨[0x6F]⟩ [5, 6] rfl ?_⟩
    decide +kernel
  · obtain ⟨-, -, -, hunchanged, -, hrefused⟩ :=
      runCompose_frame fourAndTwo (firstBytes 5) none 1 ⟨[0x6F]⟩ true rfl
    have hfailure := (hrefused [] rfl).2 (.backingTooShort 0 ⟨[0x61]⟩ 5 4) rfl
    exact ⟨_, rfl, hfailure, hunchanged _ _ hfailure⟩

end VirtualFiles.CommandLine.Command
