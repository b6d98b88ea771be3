import VirtualFiles.IoError
import VirtualFiles.Path

/-!
# The file system

Files are nodes, and directories map names to nodes. A node outlives its name: whoever
holds it can read it after the name was removed or given to another node. That is what an
open file is here, and why it shows every later change of its content.

Paths are walked part by part from the root or the working directory. Besides directories
and regular files there is one device, which reads as zeros and has no room for any byte.

## Main definitions

* `Node`, `FileSystem` — the nodes and the working directory
* `FileSystem.child` — one step of a walk
* `FileSystem.locate` — the node that a path names
* `FileSystem.Destination`, `FileSystem.destination` — the place that a path names, whether
  or not there is a node
* `FileSystem.read` — a positional read of a node
-/

namespace VirtualFiles

/-- The number of a node. -/
abbrev NodeId := Nat

/-- What a node is. A directory knows the directory above it. -/
inductive Node
  | regular (content : Bytes)
  | directory (above : NodeId) (entries : List (Bytes × NodeId))
  | fullDevice
  deriving DecidableEq, Repr

/-- All nodes, by their number. Numbers are never given twice. -/
structure FileSystem where
  nodes : Array Node
  /-- The directory at which relative paths begin. -/
  working : NodeId
  /-- What a directory reports as its size, which differs between file systems and may depend on
  the directory and its entries. -/
  directorySize : NodeId → List (Bytes × NodeId) → Nat := fun _ _ => 4096

namespace FileSystem

/-- The node of the root directory. -/
def root : NodeId := 0

/-- A file system with an empty working directory and the device `/dev/full`. -/
def initial : FileSystem where
  nodes := #[
    .directory 0 [(Utf8.encodeString "dev", 1), (Utf8.encodeString "work", 3)],
    .directory 0 [(Utf8.encodeString "full", 2)],
    .fullDevice,
    .directory 0 []]
  working := 3

/-- The node of that number. -/
def node? (fs : FileSystem) (id : NodeId) : Option Node := fs.nodes[id]?

/-- The file system with another node of that number. -/
def replace (fs : FileSystem) (id : NodeId) (node : Node) : FileSystem :=
  { fs with nodes := fs.nodes.setIfInBounds id node }

/-- The file system with one more node, and the number of that node. -/
def allocate (fs : FileSystem) (node : Node) : NodeId × FileSystem :=
  (fs.nodes.size, { fs with nodes := fs.nodes.push node })

/-- Is the node a directory? -/
def isDirectoryNode (fs : FileSystem) (id : NodeId) : Bool :=
  match fs.node? id with
  | some (.directory _ _) => true
  | _ => false

/-! ### Walking a path -/

/-- The longest name that a directory takes, in bytes. -/
def maxNameLength : Nat := 255

/-- The longest path that can be walked, in bytes. -/
def maxPathLength : Nat := 4095

/-- The node that `part` names in the node `id`. -/
def child (fs : FileSystem) (id : NodeId) (part : Bytes) : Except IoErrorKind NodeId :=
  match fs.node? id with
  | some (.directory above entries) =>
    if part = [] || part = Path.dot then .ok id
    else if part = Path.dotDot then .ok above
    else if part.length > maxNameLength then .error .invalidFilename
    else
      match entries.lookup part with
      | some node => .ok node
      | none => .error .notFound
  | _ => .error .notADirectory

/-- The node reached from `id` along `parts`. -/
def walk (fs : FileSystem) (id : NodeId) (parts : List Bytes) : Except IoErrorKind NodeId :=
  parts.foldlM fs.child id

/-- Can the path be walked at all? A path with a zero byte cannot be spelled to the system,
and the empty path names nothing. -/
def checkSpelling (p : Path) : Except IoErrorKind Unit :=
  if p.bytes.contains 0 then .error .invalidInput
  else if p.bytes = [] then .error .notFound
  else if p.bytes.length > maxPathLength then .error .invalidFilename
  else .ok ()

/-- The node at which the path begins. -/
def origin (fs : FileSystem) (p : Path) : NodeId := if p.isAbsolute then root else fs.working

/-- The node that the path names. -/
def locate (fs : FileSystem) (p : Path) : Except IoErrorKind NodeId := do
  checkSpelling p
  fs.walk (fs.origin p) p.parts

/-- Does the path name a directory? -/
def isDirectory (fs : FileSystem) (p : Path) : Bool :=
  match fs.locate p with
  | .ok id => fs.isDirectoryNode id
  | .error _ => false

/-- The place that a path names. -/
inductive Destination
  /-- A directory that is named by where it is, not by an entry of another one. -/
  | place (id : NodeId)
  /-- The entry `name` of a directory, which may exist or not. `slashed` says whether the
  path goes on with a slash. -/
  | entry (directory : NodeId) (name : Bytes) (slashed : Bool)
  deriving DecidableEq, Repr

/-- The parts before the slashes at the end. -/
def dropTrailingEmpty (parts : List Bytes) : List Bytes :=
  (parts.reverse.dropWhile List.isEmpty).reverse

/-- The place that the path names. The directories on the way have to exist. -/
def destination (fs : FileSystem) (p : Path) : Except IoErrorKind Destination := do
  checkSpelling p
  let parts := dropTrailingEmpty p.parts
  match parts.getLast? with
  | none => return .place root
  | some last =>
    let directory ← fs.walk (fs.origin p) parts.dropLast
    if last = Path.dot || last = Path.dotDot then
      return .place (← fs.child directory last)
    else if fs.isDirectoryNode directory then
      return .entry directory last (parts.length < p.parts.length)
    else throw .notADirectory

/-! ### Reading a node -/

/-- The largest offset at which a read may end, `2 ^ 63 - 1`. -/
def maxOffset : Nat := 0x7FFFFFFFFFFFFFFF

/-- The size that the node reports. -/
def size (fs : FileSystem) (id : NodeId) : Nat :=
  match fs.node? id with
  | some (.regular content) => content.length
  | some (.directory _ entries) => fs.directorySize id entries
  | _ => 0

/-- At most `count` bytes of the node from `offset` on. What is asked for has to end at an
offset, whether or not the node reaches that far. -/
def read (fs : FileSystem) (id : NodeId) (offset count : Nat) : Except IoErrorKind Bytes :=
  if maxOffset < offset + count then .error .invalidInput
  else
    match fs.node? id with
    | some (.regular content) => .ok (Bytes.window content offset count)
    | some (.directory _ _) => .error .isADirectory
    | some .fullDevice => .ok (List.replicate count 0)
    | none => .error .notFound

theorem length_le_of_read {fs : FileSystem} {id : NodeId} {offset count : Nat} {bytes : Bytes}
    (h : fs.read id offset count = .ok bytes) : bytes.length ≤ count := by
  unfold read at h
  split at h
  · cases h
  · split at h
    · cases h
      exact Bytes.length_window_le _ _ _
    · cases h
    · cases h
      simp
    · cases h

theorem read_ne_interrupted {fs : FileSystem} {id : NodeId} {offset count : Nat}
    {kind : IoErrorKind} (h : fs.read id offset count = .error kind) : kind ≠ .interrupted := by
  unfold read at h
  split at h
  · cases h
    decide
  · split at h <;> cases h <;> decide

/-- The whole content of the file that the path names. The device has no end. -/
def contentOf (fs : FileSystem) (p : Path) : Except IoErrorKind Bytes := do
  let id ← fs.locate p
  match fs.node? id with
  | some (.regular content) => return content
  | some (.directory _ _) => throw .isADirectory
  | some .fullDevice => throw .outOfMemory
  | none => throw .notFound

end FileSystem

end VirtualFiles
