import VirtualFiles.FileSystem.Operations
import VirtualFiles.Proofs.Outcome

/-!
# Growing file systems

Making directories and new files adds entries to directories and takes none away. So every path
that named a node still names it, and every file still has its content. Opening a file for writing
grows the file system in this sense, except for the file itself, which is empty from then on.

## Main definitions

* `FileSystem.Grows` — no file, no directory and no entry is lost
* `FileSystem.Keeps`, `FileSystem.KeepsAllBut` — a file or a directory stays what it is, and all of
  them do with the exception of one file

## Main results

* `Grows.locate`, `Grows.destination` — paths go on to name what they named
* `locate_of_missing` — a path whose entry is missing names nothing
* `locate_replace_regular` — another content of a file changes no path
* `makeOutermostFirst_induction` — what is kept when one directory is made is kept for all of them
* `grows_makeDirectories` — making directories is growth, also if it fails
* `of_create`, `made_of_create`, `create_eq_ok` — what opening a file for writing does, and what it
  leaves behind
-/

namespace VirtualFiles.FileSystem

open Outcome

variable {fs later last : FileSystem} {id directory node above target : NodeId} {part name : Bytes}
variable {entries : List (Bytes × NodeId)} {content other : Bytes} {path : Path}
variable {parts : List Bytes} {slashed : Bool}

/-! ### Single nodes -/

theorem node?_replace {new : Node} : (fs.replace id new).node? node =
    if node = id ∧ id < fs.nodes.size then some new else fs.node? node := by
  simp only [node?, replace, Array.getElem?_setIfInBounds]
  by_cases hnode : id = node
  · subst hnode
    by_cases hlt : id < fs.nodes.size
    · simp [hlt]
    · simp [hlt]
  · rw [if_neg hnode, if_neg fun h => hnode h.1.symm]

theorem lt_size_of_node? {old : Node} (h : fs.node? id = some old) : id < fs.nodes.size :=
  (Array.getElem?_eq_some_iff.mp h).1

theorem node?_replace_self {old new : Node} (h : fs.node? id = some old) :
    (fs.replace id new).node? id = some new := by
  rw [node?_replace, if_pos ⟨rfl, lt_size_of_node? h⟩]

theorem node?_replace_of_ne {new : Node} (hne : node ≠ id) :
    (fs.replace id new).node? node = fs.node? node := by
  rw [node?_replace, if_neg fun h => hne h.1]

@[simp] theorem replace_replace {first second : Node} :
    (fs.replace id first).replace id second = fs.replace id second := by
  simp [replace]

theorem replace_self {old : Node} (h : fs.node? id = some old) : fs.replace id old = fs := by
  obtain ⟨hlt, hget⟩ := Array.getElem?_eq_some_iff.mp h
  have hsame : fs.nodes.setIfInBounds id old = fs.nodes := by
    rw [Array.setIfInBounds, dif_pos hlt, ← hget, Array.set_getElem_self]
  rw [replace, hsame]

/-! ### Growth -/

/-- No file, no directory and no entry of `fs` is lost. -/
structure Grows (fs later : FileSystem) : Prop where
  working_eq : later.working = fs.working
  regular : ∀ id content, fs.node? id = some (.regular content) →
    later.node? id = some (.regular content)
  directory : ∀ id above entries, fs.node? id = some (.directory above entries) →
    ∃ more, later.node? id = some (.directory above more) ∧
      ∀ name node, entries.lookup name = some node → more.lookup name = some node

namespace Grows

theorem refl (fs : FileSystem) : fs.Grows fs :=
  ⟨rfl, fun _ _ h => h, fun _ _ entries h => ⟨entries, h, fun _ _ h => h⟩⟩

theorem trans (h : fs.Grows later) (h' : later.Grows last) : fs.Grows last where
  working_eq := h'.working_eq.trans h.working_eq
  regular id content hnode := h'.regular id content (h.regular id content hnode)
  directory id above entries hnode := by
    obtain ⟨more, hlater, hkept⟩ := h.directory id above entries hnode
    obtain ⟨most, hlast, hkept'⟩ := h'.directory id above more hlater
    exact ⟨most, hlast, fun name node hname => hkept' name node (hkept name node hname)⟩

theorem child (h : fs.Grows later) (hchild : fs.child id part = .ok node) :
    later.child id part = .ok node := by
  unfold FileSystem.child at hchild ⊢
  cases hnode : fs.node? id with
  | none => simp only [hnode] at hchild; cases hchild
  | some old =>
    cases old with
    | regular => simp only [hnode] at hchild; cases hchild
    | fullDevice => simp only [hnode] at hchild; cases hchild
    | directory above entries =>
      obtain ⟨more, hlater, hkept⟩ := h.directory id above entries hnode
      simp only [hnode] at hchild
      simp only [hlater]
      -- only the look-up of a name depends on the entries
      cases hname : entries.lookup part with
      | none =>
        simp only [hname] at hchild
        split at hchild
        · next hhere => rw [if_pos hhere]; exact hchild
        · next hhere =>
          rw [if_neg hhere]
          split at hchild
          · next habove => rw [if_pos habove]; exact hchild
          · split at hchild <;> cases hchild
      | some found =>
        rw [hkept part found hname]
        simpa only [hname] using hchild

theorem walk (h : fs.Grows later) (hwalk : fs.walk id parts = .ok node) :
    later.walk id parts = .ok node := by
  induction parts generalizing id with
  | nil => exact hwalk
  | cons part rest ih =>
    obtain ⟨next, hchild, hrest⟩ := bind_eq_ok_iff.mp hwalk
    exact bind_eq_ok_iff.mpr ⟨next, h.child hchild, ih hrest⟩

theorem isDirectoryNode (h : fs.Grows later) (hnode : fs.isDirectoryNode node = true) :
    later.isDirectoryNode node = true := by
  unfold FileSystem.isDirectoryNode at hnode ⊢
  split at hnode
  · next above entries hdirectory =>
    obtain ⟨more, hmore, -⟩ := h.directory node above entries hdirectory
    rw [hmore]
  · cases hnode

/-- A path that names a node still names it. -/
theorem locate (h : fs.Grows later) (hlocate : fs.locate path = .ok node) :
    later.locate path = .ok node := by
  obtain ⟨_, hspelling, hwalk⟩ := bind_eq_ok_iff.mp hlocate
  refine bind_eq_ok_iff.mpr ⟨_, hspelling, ?_⟩
  have horigin : later.origin path = fs.origin path := by
    rw [origin, origin, h.working_eq]
  rw [horigin]
  exact h.walk hwalk

/-- A path that led to a place still leads to it. -/
theorem destination {place : Destination} (h : fs.Grows later)
    (hplace : fs.destination path = .ok place) : later.destination path = .ok place := by
  have horigin : later.origin path = fs.origin path := by
    rw [origin, origin, h.working_eq]
  obtain ⟨_, hspelling, hplace⟩ := bind_eq_ok_iff.mp hplace
  refine bind_eq_ok_iff.mpr ⟨_, hspelling, ?_⟩
  simp only at hplace ⊢
  split at hplace
  · exact hplace
  · obtain ⟨directory, hwalk, hplace⟩ := bind_eq_ok_iff.mp hplace
    refine bind_eq_ok_iff.mpr ⟨directory, horigin ▸ h.walk hwalk, ?_⟩
    -- a part that is not a name leads to a directory, and a name to an entry of one
    split at hplace
    · next hdots =>
      rw [if_pos hdots]
      obtain ⟨node, hchild, hplace⟩ := bind_eq_ok_iff.mp hplace
      exact bind_eq_ok_iff.mpr ⟨node, h.child hchild, hplace⟩
    · next hdots =>
      rw [if_neg hdots]
      split at hplace
      · next hdirectory => rwa [if_pos (h.isDirectoryNode hdirectory)]
      · cases hplace

end Grows

/-! ### New nodes -/

/-- A name that is not found is a possible name of an entry that the directory does not have. -/
theorem of_child_notFound (h : fs.child directory name = .error .notFound) :
    ∃ above entries, fs.node? directory = some (.directory above entries) ∧
      entries.lookup name = none ∧ ¬ (name = [] || name = Path.dot) ∧ name ≠ Path.dotDot ∧
      name.length ≤ maxNameLength := by
  unfold child at h
  split at h
  · next above entries hnode =>
    split at h
    · cases h
    · next hhere =>
      split at h
      · cases h
      · next habove =>
        split at h
        · cases h
        · next hlength =>
          split at h
          · cases h
          · next hname => exact ⟨above, entries, hnode, hname, hhere, habove, by omega⟩
  · cases h

theorem node?_allocate {old : Node} (new : Node) (h : fs.node? id = some old) :
    (fs.allocate new).2.node? id = some old := by
  have hlt := lt_size_of_node? h
  rw [node?] at h ⊢
  rw [allocate, Array.getElem?_push_lt hlt, ← h, Array.getElem?_eq_getElem hlt]

theorem addNode_eq (name : Bytes) (new : Node)
    (h : fs.node? directory = some (.directory above entries)) :
    fs.addNode directory name new = (fs.nodes.size, (fs.allocate new).2.replace directory
      (.directory above ((name, fs.nodes.size) :: entries))) := by
  have hgrown := node?_allocate new h
  simp only [addNode, addEntry, hgrown]
  rfl

/-- What a new node under a new name changes: the directory has one more entry, and there is one
more node. -/
theorem node?_addNode (name : Bytes) (new : Node)
    (h : fs.node? directory = some (.directory above entries)) :
    (fs.addNode directory name new).1 = fs.nodes.size ∧
      (fs.addNode directory name new).2.node? fs.nodes.size = some new ∧
      (fs.addNode directory name new).2.node? directory =
        some (.directory above ((name, fs.nodes.size) :: entries)) ∧
      ∀ id old, id ≠ directory → fs.node? id = some old →
        (fs.addNode directory name new).2.node? id = some old := by
  have hlt := lt_size_of_node? h
  rw [addNode_eq name new h]
  refine ⟨rfl, ?_, node?_replace_self (node?_allocate new h), fun id old hne hold => ?_⟩
  · rw [node?_replace_of_ne (Nat.ne_of_gt hlt)]
    exact Array.getElem?_push_size
  · rw [node?_replace_of_ne hne]
    exact node?_allocate new hold

theorem grows_addNode (new : Node) (h : fs.child directory name = .error .notFound) :
    fs.Grows (fs.addNode directory name new).2 := by
  obtain ⟨above, entries, hdirectory, habsent, -⟩ := of_child_notFound h
  obtain ⟨-, -, hnow, hkept⟩ := node?_addNode name new hdirectory
  refine ⟨?_, fun id content hid => ?_, fun id above' entries' hid => ?_⟩
  · simp only [addNode, addEntry, allocate]
    split <;> rfl
  · refine hkept id _ ?_ hid
    rintro rfl
    rw [hdirectory] at hid
    cases hid
  · by_cases hsame : id = directory
    · subst hsame
      rw [hdirectory] at hid
      cases hid
      refine ⟨_, hnow, fun other node hother => ?_⟩
      -- the new name hides none of the others
      have hne : other ≠ name := by
        rintro rfl
        rw [habsent] at hother
        cases hother
      rw [List.lookup_cons, beq_false_of_ne hne]
      exact hother
    · exact ⟨entries', hkept id _ hsame hid, fun _ _ hname => hname⟩

/-- The new name names the new node. -/
theorem child_addNode (new : Node) (h : fs.child directory name = .error .notFound) :
    (fs.addNode directory name new).2.child directory name =
      .ok (fs.addNode directory name new).1 := by
  obtain ⟨above, entries, hdirectory, -, hhere, habove, hlength⟩ := of_child_notFound h
  obtain ⟨hid, -, hnow, -⟩ := node?_addNode name new hdirectory
  rw [hid]
  unfold child
  simp only [hnow]
  rw [if_neg hhere, if_neg habove, if_neg (by omega), List.lookup_cons, beq_self_eq_true]

/-! ### Making directories -/

/-- A directory is made under a name that is missing. -/
theorem of_makeDirectory (h : fs.makeDirectory path = .ok later) :
    ∃ directory name slashed, fs.destination path = .ok (.entry directory name slashed) ∧
      fs.child directory name = .error .notFound ∧
      later = (fs.addNode directory name (.directory directory [])).2 := by
  obtain ⟨destination, hdestination, h⟩ := bind_eq_ok_iff.mp h
  cases destination with
  | place => cases h
  | entry directory name slashed =>
    simp only at h
    split at h
    · cases h
    · next habsent =>
      cases h
      exact ⟨directory, name, slashed, hdestination, habsent, rfl⟩
    · cases h

theorem grows_makeDirectory (h : fs.makeDirectory path = .ok later) : fs.Grows later := by
  obtain ⟨directory, name, slashed, -, habsent, rfl⟩ := of_makeDirectory h
  exact grows_addNode _ habsent

/-- What holds of a file system and is kept whenever one of the directories is made holds after all
of them were made that are needed, also if it fails in the end. -/
theorem makeOutermostFirst_induction {R : FileSystem → Prop} {paths : List Path} (hstart : R fs)
    (hstep : ∀ p ∈ paths, ∀ mid made, R mid → mid.makeDirectory p = .ok made → R made) :
    R (fs.makeOutermostFirst paths).2 := by
  induction paths generalizing fs with
  | nil => exact hstart
  | cons path outer ih =>
    have hpath := hstep path List.mem_cons_self
    have houter : R (fs.makeOutermostFirst outer).2 :=
      ih hstart fun p hp => hstep p (List.mem_cons_of_mem path hp)
    -- the last question, whether there is a directory by now, changes nothing
    have hsettle : ∀ (e : IoErrorKind) (fs : FileSystem),
        (if fs.isDirectory path then (Except.ok (), fs) else (.error e, fs)).2 = fs := by
      intro e fs
      split <;> rfl
    unfold makeOutermostFirst
    simp only
    split
    · exact hstart
    · split
      · next made hmade => exact hpath fs made hstart hmade
      · split
        · next hstep =>
          rw [hstep] at houter
          exact houter
        · next grown hstep =>
          rw [hstep] at houter
          split
          · next made hmade => exact hpath grown made houter hmade
          · rw [hsettle]
            exact houter
      · rw [hsettle]
        exact hstart

/-- Making directories loses nothing, also if it fails in the end. -/
theorem grows_makeOutermostFirst (paths : List Path) :
    fs.Grows (fs.makeOutermostFirst paths).2 :=
  makeOutermostFirst_induction (.refl fs) fun _ _ _ _ hgrown hmade =>
    hgrown.trans (grows_makeDirectory hmade)

theorem grows_makeDirectories (path : Path) : fs.Grows (fs.makeDirectories path).2 :=
  grows_makeOutermostFirst _

/-! ### Contents of files -/

/-- Another content of a file changes no path. -/
theorem locate_replace_regular (h : fs.node? id = some (.regular content)) :
    (fs.replace id (.regular other)).locate path = fs.locate path := by
  have hchild : (fs.replace id (.regular other)).child = fs.child := by
    funext node part
    unfold child
    by_cases hnode : node = id
    · subst hnode
      rw [node?_replace_self h, h]
    · rw [node?_replace_of_ne hnode]
  simp only [locate, walk, hchild]
  rfl

theorem contentOf_eq_ok_iff : fs.contentOf path = .ok content ↔
    ∃ id, fs.locate path = .ok id ∧ fs.node? id = some (.regular content) := by
  rw [contentOf, bind_eq_ok_iff]
  refine exists_congr fun id => and_congr_right fun _ => ?_
  split
  · next held hnode => simp [hnode, pure, Except.pure]
  · next hnode => simp [hnode, throw, throwThe, MonadExceptOf.throw]
  · next hnode => simp [hnode, throw, throwThe, MonadExceptOf.throw]
  · next hnode => simp [hnode, throw, throwThe, MonadExceptOf.throw]

/-- The file keeps its content, or the directory stays one. -/
structure Keeps (fs later : FileSystem) (id : NodeId) : Prop where
  regular : ∀ content, fs.node? id = some (.regular content) →
    later.node? id = some (.regular content)
  directory : ∀ above entries, fs.node? id = some (.directory above entries) →
    ∃ more, later.node? id = some (.directory above more)

theorem Keeps.refl (fs : FileSystem) (id : NodeId) : fs.Keeps fs id :=
  ⟨fun _ h => h, fun _ entries h => ⟨entries, h⟩⟩

theorem Keeps.trans (h : fs.Keeps later id) (h' : later.Keeps last id) : fs.Keeps last id where
  regular content hid := h'.regular content (h.regular content hid)
  directory above entries hid := by
    obtain ⟨more, hmore⟩ := h.directory above entries hid
    exact h'.directory above more hmore

theorem Grows.keeps (h : fs.Grows later) (id : NodeId) : fs.Keeps later id where
  regular := h.regular id
  directory above entries hid := by
    obtain ⟨more, hmore, -⟩ := h.directory id above entries hid
    exact ⟨more, hmore⟩

/-- All files but `target` keep their contents, and directories stay directories. -/
structure KeepsAllBut (fs later : FileSystem) (target : NodeId) : Prop where
  regular : ∀ id content, id ≠ target → fs.node? id = some (.regular content) →
    later.node? id = some (.regular content)
  directory : ∀ id above entries, id ≠ target → fs.node? id = some (.directory above entries) →
    ∃ more, later.node? id = some (.directory above more)

theorem KeepsAllBut.keeps (h : fs.KeepsAllBut later target) (hne : id ≠ target) :
    fs.Keeps later id :=
  ⟨fun content => h.regular id content hne, fun above entries => h.directory id above entries hne⟩

theorem Grows.keepsAllBut (h : fs.Grows later) (target : NodeId) (new : Node) :
    fs.KeepsAllBut (later.replace target new) target where
  regular id content hne hid := by
    rw [node?_replace_of_ne hne]
    exact h.regular id content hid
  directory id above entries hne hid := by
    obtain ⟨more, hmore, -⟩ := h.directory id above entries hid
    exact ⟨more, (node?_replace_of_ne hne).trans hmore⟩

/-! ### Opening a file for writing -/

theorem dropTrailingEmpty_prefix : dropTrailingEmpty parts <+: parts := by
  rw [← List.reverse_suffix, dropTrailingEmpty, List.reverse_reverse]
  exact List.dropWhile_suffix _

/-- The name is a part of the path, and after it there is nothing or there are slashes. -/
theorem exists_of_destination (h : fs.destination path = .ok (.entry directory name slashed)) :
    ∃ front rest, checkSpelling path = .ok () ∧ path.parts = front ++ name :: rest ∧
      (slashed = false → rest = []) ∧ fs.walk (fs.origin path) front = .ok directory := by
  obtain ⟨_, hspelling, h⟩ := bind_eq_ok_iff.mp h
  simp only at h
  split at h
  · cases h
  · next last hlast =>
    obtain ⟨directory', hwalk, h⟩ := bind_eq_ok_iff.mp h
    split at h
    · obtain ⟨_, -, h⟩ := bind_eq_ok_iff.mp h
      cases h
    · split at h
      · obtain ⟨rfl, rfl, hslashed⟩ := Destination.entry.inj (Except.ok.inj h)
        have hprefix : dropTrailingEmpty path.parts <+: path.parts := dropTrailingEmpty_prefix
        obtain ⟨rest, hparts⟩ := hprefix
        have hname := List.dropLast_append_getLast? _ hlast
        refine ⟨_, rest, hspelling, ?_, fun hnone => ?_, hwalk⟩
        · calc path.parts
            _ = dropTrailingEmpty path.parts ++ rest := hparts.symm
            _ = (dropTrailingEmpty path.parts).dropLast ++ [last] ++ rest := by rw [hname]
            _ = (dropTrailingEmpty path.parts).dropLast ++ last :: rest := List.append_assoc _ _ _
        · -- nothing was taken off the end
          rw [hnone, decide_eq_false_iff_not] at hslashed
          have hlength := congrArg List.length hparts
          rw [List.length_append] at hlength
          exact List.eq_nil_of_length_eq_zero (by omega)
      · cases h

/-- The parts of a path that does not end in a slash. -/
theorem of_destination_entry (h : fs.destination path = .ok (.entry directory name false)) :
    checkSpelling path = .ok () ∧ path.parts = path.parts.dropLast ++ [name] ∧
      fs.walk (fs.origin path) path.parts.dropLast = .ok directory := by
  obtain ⟨front, rest, hspelling, hparts, hrest, hwalk⟩ := exists_of_destination h
  rw [hrest rfl] at hparts
  rw [hparts, List.dropLast_concat]
  exact ⟨hspelling, rfl, hwalk⟩

/-- A path whose entry is missing names nothing. -/
theorem locate_of_missing {kind : IoErrorKind}
    (h : fs.destination path = .ok (.entry directory name slashed))
    (hmissing : fs.child directory name = .error kind) : fs.locate path = .error kind := by
  obtain ⟨front, rest, hspelling, hparts, -, hwalk⟩ := exists_of_destination h
  rw [walk] at hwalk
  rw [locate, hspelling, walk, hparts, List.foldlM_append, hwalk]
  change (fs.child directory name >>= fun id => rest.foldlM fs.child id) = .error kind
  rw [hmissing]
  rfl

/-- The entry that a path names is the node that it names. -/
theorem locate_of_destination (h : fs.destination path = .ok (.entry directory name false))
    (hgrows : fs.Grows later) (hchild : later.child directory name = .ok id) :
    later.locate path = .ok id := by
  obtain ⟨hspelling, hparts, hwalk⟩ := of_destination_entry h
  refine bind_eq_ok_iff.mpr ⟨(), hspelling, ?_⟩
  have horigin : later.origin path = fs.origin path := by
    rw [origin, origin, hgrows.working_eq]
  rw [horigin, hparts, walk, List.foldlM_append]
  refine bind_eq_ok_iff.mpr ⟨directory, hgrows.walk hwalk, ?_⟩
  rw [List.foldlM_cons]
  exact bind_eq_ok_iff.mpr ⟨id, hchild, rfl⟩

/-- What opening for writing does: a regular file is emptied, a node of another kind is left alone,
and what is not there is made. -/
theorem of_create {opened : FileSystem} (h : fs.create path = .ok (id, opened)) :
    (fs.locate path = .ok id ∧
      ((∃ content, fs.node? id = some (.regular content)) ∧ opened = fs.replace id (.regular []) ∨
        (∀ content, fs.node? id ≠ some (.regular content)) ∧ opened = fs)) ∨
    ∃ directory name, fs.destination path = .ok (.entry directory name false) ∧
      fs.child directory name = .error .notFound ∧
      fs.addNode directory name (.regular []) = (id, opened) := by
  obtain ⟨destination, hdestination, h⟩ := bind_eq_ok_iff.mp h
  cases destination with
  | place => cases h
  | entry directory name slashed =>
    cases slashed with
    | true => cases h
    | false =>
      simp only [Bool.false_eq_true, if_false] at h
      split at h
      · next found hchild =>
        have hlocate := locate_of_destination hdestination (.refl fs) hchild
        split at h
        · cases h
        · next content hnode =>
          cases h
          exact .inl ⟨hlocate, .inl ⟨⟨content, hnode⟩, rfl⟩⟩
        · next hother =>
          cases h
          exact .inl ⟨hlocate, .inr ⟨hother, rfl⟩⟩
      · next habsent => exact .inr ⟨directory, name, hdestination, habsent, Except.ok.inj h⟩
      · cases h

/-- A regular file that was opened for writing was there before or was made for it, and then it was
emptied. -/
theorem made_of_create {opened : FileSystem} (h : fs.create path = .ok (id, opened))
    (hempty : opened.node? id = some (.regular [])) : ∃ made content,
      (made = fs ∨ ∃ directory name, fs.destination path = .ok (.entry directory name false) ∧
        fs.child directory name = .error .notFound ∧
        fs.addNode directory name (.regular []) = (id, made)) ∧
      made.node? id = some (.regular content) ∧ made.locate path = .ok id ∧
      opened = made.replace id (.regular []) := by
  rcases of_create h with ⟨hlocate, ⟨⟨content, hnode⟩, hopened⟩ | ⟨hother, rfl⟩⟩ |
    ⟨directory, name, hdestination, habsent, hadd⟩
  · exact ⟨fs, content, .inl rfl, hnode, hlocate, hopened⟩
  · exact absurd hempty (hother [])
  · have hgrows := grows_addNode (.regular []) habsent
    have hchild := child_addNode (.regular []) habsent
    rw [hadd] at hgrows hchild
    exact ⟨opened, [], .inr ⟨directory, name, hdestination, habsent, hadd⟩, hempty,
      locate_of_destination hdestination hgrows hchild, (replace_self hempty).symm⟩

/-- Opening a file for writing leaves the file system as it was, but for new entries and for the
file itself, which is empty. -/
theorem create_eq_ok {opened : FileSystem} (h : fs.create path = .ok (id, opened))
    (hempty : opened.node? id = some (.regular [])) : ∃ made content, fs.Grows made ∧
      made.node? id = some (.regular content) ∧ made.locate path = .ok id ∧
      opened = made.replace id (.regular []) := by
  obtain ⟨made, content, hmade, hkept⟩ := made_of_create h hempty
  refine ⟨made, content, ?_, hkept⟩
  rcases hmade with rfl | ⟨directory, name, -, habsent, hadd⟩
  · exact .refl made
  · have hgrows := grows_addNode (.regular []) habsent
    rwa [hadd] at hgrows

/-- A file that is made for writing is empty. -/
theorem node?_of_addNode {opened : FileSystem} (h : fs.child directory name = .error .notFound)
    (hadd : fs.addNode directory name (.regular []) = (id, opened)) :
    opened.node? id = some (.regular []) := by
  obtain ⟨above, entries, hdirectory, -⟩ := of_child_notFound h
  obtain ⟨hid, hnew, -⟩ := node?_addNode name (.regular []) hdirectory
  rw [← hid, hadd] at hnew
  exact hnew

/-- What is opened for writing is an empty file, unless the path names something that is not a
regular file. -/
theorem node?_of_create {opened : FileSystem} (h : fs.create path = .ok (id, opened))
    (hregular : ∀ node, fs.locate path = .ok node →
      ∃ content, fs.node? node = some (.regular content)) :
    opened.node? id = some (.regular []) := by
  rcases of_create h with ⟨hlocate, ⟨⟨content, hnode⟩, rfl⟩ | ⟨hother, -⟩⟩ |
    ⟨directory, name, -, habsent, hadd⟩
  · exact node?_replace_self hnode
  · obtain ⟨content, hnode⟩ := hregular id hlocate
    exact absurd hnode (hother content)
  · exact node?_of_addNode habsent hadd

end VirtualFiles.FileSystem
