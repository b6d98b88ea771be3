import VirtualFiles.Proofs.FileSystem.Writing

/-!
# What is added for a file

Before a file is written the directories above it are made as far as they are missing, and then
the file itself. So the file system grows, but not by anything else: each new entry of a directory
names a new node, and it is the entry of the file or of a missing directory above it. What was
there stays, and the only file whose content changes is the one that the path names.

## Main definitions

* `FileSystem.named?` — the node under a name of a directory
* `FileSystem.MadeFor` — the entries that may be added for a file
* `FileSystem.GrowsFor` — growth by such entries only
* `FileSystem.ChangesOnly` — growth for a file, and perhaps another content of it

## Main results

* `named?_addNode` — what a new node adds to the entries
* `GrowsFor.addNode` — one more node for the file
* `GrowsFor.makeDirectories` — all missing directories above it
* `ChangesOnly.contentOf` — the files under all other paths keep their contents
-/

namespace VirtualFiles.FileSystem

variable {fs mid later : FileSystem} {path dir outer other : Path} {directory id node : NodeId}
variable {name part content : Bytes} {new old : Node}

/-- The node under a name of a directory. -/
def named? (fs : FileSystem) (directory : NodeId) (name : Bytes) : Option NodeId :=
  match fs.node? directory with
  | some (.directory _ entries) => entries.lookup name
  | _ => none

/-- The entry was missing in `fs`, and it is needed for the file at the path: it is the entry of the
file itself, which is empty, or of a directory above it. -/
inductive MadeFor (fs later : FileSystem) (path : Path) (directory : NodeId) (name : Bytes)
    (node : NodeId) : Prop
  | file (missing : ∀ old, fs.locate path ≠ .ok old)
    (destination : later.destination path = .ok (.entry directory name false))
    (made : later.node? node = some (.regular []))
  | above {dir outer : Path} {slashed : Bool} {entries : List (Bytes × NodeId)}
    (parent : path.parent? = some dir) (outer_mem : outer ∈ dir.ancestors)
    (missing : ∀ old, fs.locate outer ≠ .ok old)
    (destination : later.destination outer = .ok (.entry directory name slashed))
    (made : later.node? node = some (.directory directory entries))

/-- Nothing is lost, and only new nodes under entries that were made for the file are added. -/
structure GrowsFor (fs later : FileSystem) (path : Path) : Prop extends fs.Grows later where
  device : ∀ id, fs.node? id = some .fullDevice → later.node? id = some .fullDevice
  added : ∀ directory name node, later.named? directory name = some node →
    fs.named? directory name = some node ∨
      fs.named? directory name = none ∧ fs.node? node = none ∧
        MadeFor fs later path directory name node

/-- Nothing has changed but what was made for the file, and perhaps the content of the file that the
path names then. -/
def ChangesOnly (fs later : FileSystem) (path : Path) : Prop :=
  ∃ grown, fs.GrowsFor grown path ∧ (later = grown ∨ ∃ target old new,
    grown.node? target = some (.regular old) ∧ grown.locate path = .ok target ∧
      later = grown.withContent target new)

/-! ### Entries -/

theorem node?_size (fs : FileSystem) : fs.node? fs.nodes.size = none :=
  Array.getElem?_eq_none (Nat.le_refl _)

theorem node?_addNode_of_ne {above : NodeId} {entries : List (Bytes × NodeId)}
    (h : fs.node? directory = some (.directory above entries)) (hne : id ≠ directory)
    (hold : id ≠ fs.nodes.size) :
    (fs.addNode directory name new).2.node? id = fs.node? id := by
  rw [addNode_eq name new h, node?_replace_of_ne hne, allocate, node?, node?, Array.getElem?_push,
    if_neg hold]

/-- A new node without entries adds its own entry and no other one. -/
theorem named?_addNode (h : fs.child directory name = .error .notFound)
    (hnew : ∀ above entries, new = .directory above entries → entries = []) :
    (fs.addNode directory name new).2.named? id part =
      if id = directory ∧ part = name then some fs.nodes.size else fs.named? id part := by
  obtain ⟨above, entries, hdirectory, -⟩ := of_child_notFound h
  obtain ⟨-, hmade, hnow, -⟩ := node?_addNode name new hdirectory
  unfold named?
  by_cases hid : id = directory
  · subst hid
    rw [hnow, hdirectory]
    by_cases hpart : part = name
    · rw [if_pos ⟨rfl, hpart⟩, hpart]
      exact List.lookup_cons_self
    · rw [if_neg fun h => hpart h.2]
      simp only [List.lookup_cons, beq_false_of_ne hpart]
  rw [if_neg fun h => hid h.1]
  by_cases hsize : id = fs.nodes.size
  · rw [hsize, hmade, node?_size]
    cases new with
    | directory above entries => rw [hnew above entries rfl]; rfl
    | _ => rfl
  · rw [node?_addNode_of_ne hdirectory hid hsize]

theorem Grows.named? (h : fs.Grows later) (hentry : fs.named? directory name = some node) :
    later.named? directory name = some node := by
  unfold FileSystem.named? at hentry ⊢
  split at hentry
  · next above entries hdirectory =>
    obtain ⟨more, hmore, hkept⟩ := h.directory directory above entries hdirectory
    rw [hmore]
    exact hkept name node hentry
  · cases hentry

/-! ### Growth for a file -/

/-- What was made for the file is still there after more was made. -/
theorem MadeFor.trans (h : MadeFor fs mid path directory name node) (hgrows : mid.Grows later) :
    MadeFor fs later path directory name node := by
  cases h with
  | file missing destination made =>
    exact .file missing (hgrows.destination destination) (hgrows.regular node [] made)
  | above parent outer_mem missing destination made =>
    obtain ⟨more, hmore, -⟩ := hgrows.directory node directory _ made
    exact .above parent outer_mem missing (hgrows.destination destination) hmore

namespace GrowsFor

theorem refl (fs : FileSystem) (path : Path) : fs.GrowsFor fs path where
  toGrows := .refl fs
  device _ h := h
  added _ _ _ h := .inl h

/-- No node is lost. -/
theorem node?_ne_none (h : fs.GrowsFor later path) (hnode : fs.node? id = some old) :
    later.node? id ≠ none := by
  cases old with
  | regular content => simp [h.regular id content hnode]
  | directory above entries =>
    obtain ⟨more, hmore, -⟩ := h.directory id above entries hnode
    simp [hmore]
  | fullDevice => simp [h.device id hnode]

/-- One more node for the file. -/
theorem addNode (h : fs.GrowsFor mid path) (habsent : mid.child directory name = .error .notFound)
    (hnew : ∀ above entries, new = .directory above entries → entries = [])
    (hmade : MadeFor fs (mid.addNode directory name new).2 path directory name
      (mid.addNode directory name new).1) :
    fs.GrowsFor (mid.addNode directory name new).2 path := by
  obtain ⟨above, entries, hdirectory, hname, -⟩ := of_child_notFound habsent
  obtain ⟨hsize, -, -, hkept⟩ := node?_addNode name new hdirectory
  have hgrows := grows_addNode new habsent
  refine ⟨h.toGrows.trans hgrows, fun id hid => ?_, fun other part node hentry => ?_⟩
  · -- the directory that has grown is not the device
    refine hkept id _ ?_ (h.device id hid)
    rintro rfl
    cases hdirectory.symm.trans (h.device id hid)
  · rw [named?_addNode habsent hnew] at hentry
    split at hentry
    · next hhere =>
      -- the new entry, which names a node that was not there
      obtain ⟨rfl, rfl⟩ := hhere
      obtain rfl := Option.some.inj hentry
      rw [hsize] at hmade
      refine .inr ⟨?_, ?_, hmade⟩
      -- neither the entry nor the node can have been lost before
      · have hnone : mid.named? other part = none := by
          rw [FileSystem.named?, hdirectory]
          exact hname
        by_contra hsome
        obtain ⟨found, hfound⟩ := Option.ne_none_iff_exists'.mp hsome
        cases hnone.symm.trans (h.toGrows.named? hfound)
      · by_contra hsome
        obtain ⟨found, hfound⟩ := Option.ne_none_iff_exists'.mp hsome
        exact h.node?_ne_none hfound (node?_size mid)
    · rcases h.added other part node hentry with hold | ⟨hnone, hnode, hmade'⟩
      · exact .inl hold
      · exact .inr ⟨hnone, hnode, hmade'.trans hgrows⟩

/-- One of the directories above the file. -/
theorem makeDirectory (h : fs.GrowsFor mid path) (hparent : path.parent? = some dir)
    (houter : outer ∈ dir.ancestors) (hmade : mid.makeDirectory outer = .ok later) :
    fs.GrowsFor later path := by
  obtain ⟨directory, name, slashed, hdestination, habsent, rfl⟩ := of_makeDirectory hmade
  obtain ⟨above, entries, hdirectory, -⟩ := of_child_notFound habsent
  obtain ⟨hsize, hnow, -⟩ := node?_addNode name (.directory directory []) hdirectory
  have hlater := (grows_addNode (.directory directory []) habsent).destination hdestination
  refine h.addNode habsent ?_ (.above hparent houter ?_ hlater (hsize ▸ hnow))
  · rintro _ _ ⟨⟩
    rfl
  · -- what was there before would still be there, and could not be made again
    intro old hold
    cases (locate_of_missing hdestination habsent).symm.trans (h.toGrows.locate hold)

/-- All of them that are missing, also if not all can be made. -/
theorem makeDirectories (h : fs.GrowsFor mid path) (hparent : path.parent? = some dir) :
    fs.GrowsFor (mid.makeDirectories dir).2 path :=
  makeOutermostFirst_induction (R := (fs.GrowsFor · path)) h fun _ houter _ _ hgrown hmade =>
    hgrown.makeDirectory hparent houter hmade

/-- The file itself. -/
theorem addFile (h : fs.GrowsFor mid path)
    (hdestination : mid.destination path = .ok (.entry directory name false))
    (habsent : mid.child directory name = .error .notFound)
    (hadd : mid.addNode directory name (.regular []) = (node, later)) :
    fs.GrowsFor later path := by
  have hnode := node?_of_addNode habsent hadd
  have hgrows := grows_addNode (.regular []) habsent
  rw [hadd] at hgrows
  have hmade : MadeFor fs later path directory name node := by
    refine .file ?_ (hgrows.destination hdestination) hnode
    intro old hold
    cases (locate_of_missing hdestination habsent).symm.trans (h.toGrows.locate hold)
  rw [show later = (mid.addNode directory name (.regular [])).2 by rw [hadd]]
  refine h.addNode habsent ?_ (by rwa [hadd])
  rintro _ _ ⟨⟩

end GrowsFor

/-! ### Contents -/

namespace ChangesOnly

theorem refl (fs : FileSystem) (path : Path) : fs.ChangesOnly fs path :=
  ⟨fs, .refl fs path, .inl rfl⟩

/-- The file under another path keeps its content, unless both paths name one file in the end. -/
theorem contentOf (h : fs.ChangesOnly later path) (hcontent : fs.contentOf other = .ok content)
    (hne : later.locate other ≠ later.locate path) : later.contentOf other = .ok content := by
  obtain ⟨grown, hgrows, hlater⟩ := h
  obtain ⟨id, hlocate, hid⟩ := contentOf_eq_ok_iff.mp hcontent
  have hlocate := hgrows.toGrows.locate hlocate
  have hid := hgrows.regular id content hid
  rcases hlater with rfl | ⟨target, old, new, htarget, hpath, rfl⟩
  · exact contentOf_eq_ok_iff.mpr ⟨id, hlocate, hid⟩
  · rw [withContent] at hne ⊢
    simp only [locate_replace_regular htarget, hlocate, hpath] at hne
    have hother : id ≠ target := fun heq => hne (congrArg Except.ok heq)
    refine contentOf_eq_ok_iff.mpr ⟨id, ?_, ?_⟩
    · rw [locate_replace_regular htarget, hlocate]
    · rw [node?_replace_of_ne hother, hid]

end ChangesOnly

end VirtualFiles.FileSystem
