import VirtualFiles.Cache.Basic
import VirtualFiles.Emulator.Basic
import VirtualFiles.FileSystem.Operations
import VirtualFiles.VirtualFile

/-!
# What is asked of an emulator

A host asks emulators for files. So does a builder, while it is building: it opens the files
it needs through the host, and some of them may be emulated themselves.

## Main definitions

* `Request`, `Answer` — what can be asked, and what is answered
* `Answered`, `Event` — the steps of a host, as its log keeps them
-/

namespace VirtualFiles

/-- What can be asked of an emulator, of its cache or of the files around it. -/
inductive Request
  /-- The emulated file of a path, for a host that opens the real one if there is none. -/
  | tryCreateFile (path : Path) (route : String)
  | create (call : BuildCall)
  | accepts (path : Path)
  | invalidate (path : Path)
  | lookup (path : Path)
  | clear
  /-- Claims a path and releases it at once. -/
  | claimAndRelease (path : Path)
  /-- Claims a path for good. -/
  | claimAndHold (path : Path)
  /-- Claims a path and completes it with a new file. -/
  | claimAndComplete (path : Path) (stream : VirtualStream)
  | modLoading (folder : Path)
  | contents (file : Nat)
  | segments (file : Nat)
  | readAt (file offset count : Nat)
  | describe
  | settings
  | change (change : FileChange)
  | fileContent (path : Path)

/-- What is answered. -/
inductive Answer
  /-- An emulated file, or none if the host is to open the real one. -/
  | offered (file : Option VirtualFile)
  | created (result : Except CreateError VirtualFile)
  | accepted (accepted : Bool)
  /-- Was there an entry? -/
  | removed (found : Bool)
  | state (state : Lookup VirtualFile)
  | claimed (claimed : Bool)
  /-- The generation of the claim, if there is one. -/
  | held (generation : Option UInt64)
  /-- The new file and whether it was stored, if the path could be claimed. -/
  | published (file : Option (VirtualFile × Bool))
  /-- The folders registered so far. -/
  | folders (folders : List Path)
  | bytes (result : Except ReadError Bytes)
  | contents (result : Except ReadError Bytes)
  | segments (file : VirtualFile)
  | noFile
  | description (text : String)
  | settings (emulator : Emulator)
  | done
  | fileContent (content : Option Bytes)

/-- A request that was answered. -/
structure Answered where
  /-- The numbers of the builder calls in progress, innermost first. -/
  inProgress : List Nat
  request : Request
  answer : Answer
  /-- The number of entries that the cache had then. -/
  entries : Nat
  /-- The number of builder calls that had begun by then. -/
  builds : Nat

/-- A step of a host. -/
inductive Event
  /-- A builder call has begun: the first of those in progress. -/
  | entered (inProgress : List Nat)
  | answered (step : Answered)

/-- The request that was answered in a step, if one was. -/
def Event.answered? : Event → Option Answered
  | .entered _ => none
  | .answered step => some step

end VirtualFiles
