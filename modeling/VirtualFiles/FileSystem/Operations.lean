import VirtualFiles.FileSystem.Basic

/-!
# Changes of the file system

## Main definitions

* `FileSystem.create` — opens a file for writing, empties it, and makes it if there is none
* `FileSystem.append` — writes at the end of a node
* `FileSystem.makeDirectory`, `FileSystem.makeDirectories` — a directory, and with it the
  missing ones above it
* `FileChange`, `FileSystem.apply` — the changes that come from outside
-/

namespace VirtualFiles

namespace FileSystem

/-- The file system with one more entry in a directory. -/
def addEntry (fs : FileSystem) (directory : NodeId) (name : Bytes) (id : NodeId) : FileSystem :=
  match fs.node? directory with
  | some (.directory above entries) =>
    fs.replace directory (.directory above ((name, id) :: entries))
  | _ => fs

/-- The file system without one entry of a directory. -/
def removeEntry (fs : FileSystem) (directory : NodeId) (name : Bytes) : FileSystem :=
  match fs.node? directory with
  | some (.directory above entries) =>
    fs.replace directory (.directory above (entries.filter (·.1 ≠ name)))
  | _ => fs

/-- A new node under a new name of a directory. -/
def addNode (fs : FileSystem) (directory : NodeId) (name : Bytes) (node : Node) :
    NodeId × FileSystem :=
  let (id, grown) := fs.allocate node
  (id, grown.addEntry directory name id)

/-- Opens the file that the path names for writing. A file that exists is emptied, so
whoever holds its node reads an empty file from now on; one that does not is made. -/
def create (fs : FileSystem) (p : Path) : Except IoErrorKind (NodeId × FileSystem) := do
  match ← fs.destination p with
  | .place _ => throw .isADirectory
  | .entry directory name slashed =>
    if slashed then throw .isADirectory
    match fs.child directory name with
    | .ok id =>
      match fs.node? id with
      | some (.directory _ _) => throw .isADirectory
      | some (.regular _) => return (id, fs.replace id (.regular []))
      | _ => return (id, fs)
    | .error .notFound => return fs.addNode directory name (.regular [])
    | .error e => throw e

/-- Writes at the end of the node. -/
def append (fs : FileSystem) (id : NodeId) (bytes : Bytes) : Except IoErrorKind FileSystem :=
  if bytes = [] then .ok fs
  else
    match fs.node? id with
    | some (.regular content) => .ok (fs.replace id (.regular (content ++ bytes)))
    | some (.directory _ _) => .error .isADirectory
    | some .fullDevice => .error .storageFull
    | none => .error .notFound

/-- Makes one directory; the one above it has to exist. -/
def makeDirectory (fs : FileSystem) (p : Path) : Except IoErrorKind FileSystem := do
  match ← fs.destination p with
  | .place _ => throw .alreadyExists
  | .entry directory name _ =>
    match fs.child directory name with
    | .ok _ => throw .alreadyExists
    | .error .notFound => return (fs.addNode directory name (.directory directory [])).2
    | .error e => throw e

/-- Makes the first of the directories, and the later ones as far as they are needed for it.
A failure does not count if the directory is there all the same. -/
def makeOutermostFirst (fs : FileSystem) : List Path → Except IoErrorKind Unit × FileSystem
  | [] => (.ok (), fs)
  | p :: above =>
    let settle (e : IoErrorKind) (fs : FileSystem) : Except IoErrorKind Unit × FileSystem :=
      if fs.isDirectory p then (.ok (), fs) else (.error e, fs)
    if p.bytes = [] then (.ok (), fs)
    else
      match fs.makeDirectory p with
      | .ok made => (.ok (), made)
      -- the directory above is missing
      | .error .notFound =>
        match makeOutermostFirst fs above with
        | (.error e, partly) => (.error e, partly)
        | (.ok (), grown) =>
          match grown.makeDirectory p with
          | .ok made => (.ok (), made)
          | .error e => settle e grown
      | .error e => settle e fs

/-- Makes the directory that the path names, with the missing ones above it. What was made
before a failure stays. -/
def makeDirectories (fs : FileSystem) (p : Path) : Except IoErrorKind Unit × FileSystem :=
  fs.makeOutermostFirst p.ancestors

/-- Writes a whole file, with the missing directories above it. -/
def store (fs : FileSystem) (p : Path) (content : Bytes) : FileSystem :=
  let grown :=
    match p.parent? with
    | some dir => (fs.makeDirectories dir).2
    | none => fs
  match grown.create p with
  | .ok (id, opened) => (opened.append id content).toOption.getD opened
  | .error _ => grown

/-- Cuts a regular file to `length` bytes, or extends it with zeros. -/
def resize (fs : FileSystem) (p : Path) (length : Nat) : FileSystem :=
  match fs.locate p with
  | .ok id =>
    match fs.node? id with
    | some (.regular content) =>
      fs.replace id
        (.regular (content.take length ++ List.replicate (length - content.length) 0))
    | _ => fs
  | .error _ => fs

/-- Removes the name of a file. Its node stays for whoever holds it. -/
def remove (fs : FileSystem) (p : Path) : FileSystem :=
  match fs.destination p with
  | .ok (.entry directory name false) =>
    match fs.child directory name with
    | .ok id => if fs.isDirectoryNode id then fs else fs.removeEntry directory name
    | .error _ => fs
  | _ => fs

end FileSystem

/-- A change that comes from outside. -/
inductive FileChange
  | store (path : Path) (content : Bytes)
  | resize (path : Path) (length : Nat)
  | remove (path : Path)
  | makeDirectories (path : Path)
  deriving DecidableEq, Repr

/-- The file system after a change. A change that is not possible changes nothing. -/
def FileSystem.apply (fs : FileSystem) : FileChange → FileSystem
  | .store path content => fs.store path content
  | .resize path length => fs.resize path length
  | .remove path => fs.remove path
  | .makeDirectories path => (fs.makeDirectories path).2

end VirtualFiles
