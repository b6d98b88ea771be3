import VirtualFiles.Text.Quoted

/-!
# Paths

A path is a byte string whose parts are separated by slashes. Empty parts and the part
`.` are not components of a path, except for a `.` that begins it; so `a//b/./` has the
components `a` and `b`.

## Main definitions

* `Path.parts` — everything between slashes, as the file system walks it
* `Path.components` — the components with the place where each ends
* `Path.parent?`, `Path.ancestors` — the path up to an earlier component
* `Path.fileName?` — the last component, if it names a file
* `Path.join` — a name below a directory
* `Path.display` — the path as text
-/

namespace VirtualFiles

/-- A path of the file system. Its bytes need not be text. -/
structure Path where
  bytes : Bytes
  deriving DecidableEq, Repr

namespace Path

/-- The separator of the parts of a path. -/
def slash : UInt8 := 0x2F

/-- The part that stands for the directory it is in. -/
def dot : Bytes := [0x2E]

/-- The part that stands for the directory above. -/
def dotDot : Bytes := [0x2E, 0x2E]

/-- The path spelled by a text. -/
def ofString (text : String) : Path := ⟨Utf8.encodeString text⟩

/-- The path as text, with a replacement character for bytes that are no text. -/
def display (p : Path) : String := Utf8.lossy p.bytes

/-- The path between quotes. -/
def describe (p : Path) : String := Quoted.path p.bytes

/-- Does the path begin at the root directory? -/
def isAbsolute (p : Path) : Bool := p.bytes.head? == some slash

/-- The pieces of a byte string between slashes. -/
def splitSlashes : Bytes → List Bytes
  | [] => [[]]
  | b :: rest =>
    if b = slash then [] :: splitSlashes rest
    else
      match splitSlashes rest with
      | [] => [[b]]
      | part :: parts => (b :: part) :: parts

/-- The parts of the path between slashes, empty ones included. -/
def parts (p : Path) : List Bytes := splitSlashes p.bytes

/-- What a component of a path stands for. -/
inductive Component
  | root
  | current
  | above
  | name (bytes : Bytes)
  deriving DecidableEq, Repr

/-- A component and the length of the path up to its end. -/
structure Located where
  component : Component
  stop : Nat
  deriving DecidableEq, Repr

/-- The component that a part stands for, if any; `first` says whether it begins a relative
path. -/
def component? (first : Bool) (part : Bytes) : Option Component :=
  if part = [] then none
  else if part = dot then if first then some .current else none
  else if part = dotDot then some .above
  else some (.name part)

/-- The components among `parts`, of which the first begins at byte `start`. -/
def locate (start : Nat) (first : Bool) : List Bytes → List Located
  | [] => []
  | part :: rest =>
    let stop := start + part.length
    -- the next part begins after a slash
    let later := locate (stop + 1) false rest
    match component? first part with
    | some c => ⟨c, stop⟩ :: later
    | none => later

/-- The components of the path, each with the place where it ends. -/
def components (p : Path) : List Located :=
  if p.isAbsolute then ⟨.root, 1⟩ :: locate 1 false (p.parts.drop 1)
  else locate 0 true p.parts

/-- The first `n` bytes of the path. -/
def cut (p : Path) (n : Nat) : Path := ⟨p.bytes.take n⟩

/-- The paths that are left when components are taken off the end one by one. -/
def parentsOf (p : Path) : List Located → List Path
  | [] => []
  | c :: earlier =>
    match c.component, earlier with
    | .root, _ => []
    | _, [] => [p.cut 0]
    | _, e :: _ => p.cut e.stop :: parentsOf p earlier

/-- The path, the path without its last component, and so on: down to the root directory
or to the empty path. -/
def ancestors (p : Path) : List Path := p :: parentsOf p p.components.reverse

/-- The path without its last component. There is none for the empty path and the root. -/
def parent? (p : Path) : Option Path := (parentsOf p p.components.reverse).head?

/-- The last component, if it is a name. -/
def fileName? (p : Path) : Option Bytes :=
  match p.components.getLast? with
  | some ⟨.name bytes, _⟩ => some bytes
  | _ => none

/-- The path of `name` below the directory `dir`. -/
def join (dir : Path) (name : Bytes) : Path :=
  if dir.bytes.isEmpty || dir.bytes.getLast? == some slash then ⟨dir.bytes ++ name⟩
  else ⟨dir.bytes ++ slash :: name⟩

example : (ofString "a//b/./").parent? = some (ofString "a") := by decide +kernel

example : (ofString "a/x/.").fileName? = some (Utf8.encodeString "x") := by decide +kernel

end Path

end VirtualFiles
