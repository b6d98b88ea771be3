import VirtualFiles.Awb
import VirtualFiles.VirtualStream.Cursor

/-!
# Several cursors

Any number of cursors may look at one stream. Each has a number and a position of its own.

## Main definitions

* `CursorAction` — what can be asked of a cursor
* `CursorAnswer` — what it answers
* `Cursor.act` — one action
* `Cursors`, `Cursors.act` — one action of one cursor out of many
* `CursorRequest`, `Cursors.run` — a sequence of actions of many cursors
-/

namespace VirtualFiles

/-- What can be asked of a cursor. -/
inductive CursorAction
  | seekTo (offset : Nat)
  | seek (goal : SeekFrom)
  | readSegments (count : Nat)
  | read (count : Nat)
  | readExact (count : Nat)
  | readToEnd (buffers : Buffers)
  | drain (chunk : Nat)
  | isAwb

/-- What a cursor answers. -/
inductive CursorAnswer
  | position (offset : Nat)
  | bytes (bytes : Bytes)
  | awb (found : Bool)
  | seekFailed (cause : SeekError)
  | readFailed (cause : ReadError)
  | failed (cause : IoError)
  /-- What was read before a failure. -/
  | stopped (got : Bytes) (cause : IoError)
  deriving DecidableEq

namespace Cursor

/-- One action of a cursor, with the files as they are now. Some actions report failures of
the stream, and the others, which every seekable reader has, report failures of reading. -/
def act (c : Cursor) (fs : FileSystem) : CursorAction → CursorAnswer × Cursor
  | .seekTo offset => answer .position .seekFailed (c.seekTo offset)
  | .seek goal => answer .position .failed ((seekable fs).seek c goal)
  | .readSegments count => answer .bytes .readFailed (c.read fs count)
  | .drain chunk => answer .bytes .readFailed (c.drain fs chunk)
  | .read count => answer .bytes .failed ((seekable fs).read c count)
  | .readExact count => answer .bytes .failed ((seekable fs).readExact c count)
  | .readToEnd buffers => answerAll (c.readToEnd fs buffers)
  | .isAwb => answer .awb .failed (Awb.isAwb (seekable fs) c)
where
  /-- What is answered to a success and to a failure. -/
  answer {ε α : Type} (good : α → CursorAnswer) (bad : ε → CursorAnswer) :
      Except ε α × Cursor → CursorAnswer × Cursor
    | (.ok value, next) => (good value, next)
    | (.error e, next) => (bad e, next)
  /-- What is answered to all that was read, and to the failure that cut it short. -/
  answerAll : (Bytes × Option ReadError) × Cursor → CursorAnswer × Cursor
    | ((got, none), next) => (.bytes got, next)
    | ((got, some e), next) => (.stopped got e.toIoError, next)

end Cursor

/-- An action for the cursor of that number, and the files at that time. -/
structure CursorRequest where
  number : Nat
  action : CursorAction
  files : FileSystem

/-- Cursors by their number. -/
abbrev Cursors := List Cursor

namespace Cursors

/-- One action of the cursor of that number, if there is one. The others stay as they
are. -/
def act (cursors : Cursors) (fs : FileSystem) (number : Nat) (action : CursorAction) :
    Option (CursorAnswer × Cursors) :=
  cursors[number]?.map fun c =>
    let (answer, next) := c.act fs action
    (answer, cursors.set number next)

/-- A sequence of requests, with the answers and who gave them. Nobody answers a request to a
cursor that there is not. -/
def run (cursors : Cursors) : List CursorRequest → List (Nat × CursorAnswer) × Cursors
  | [] => ([], cursors)
  | request :: rest =>
    match cursors.act request.files request.number request.action with
    | some (answer, next) =>
      let (answers, last) := next.run rest
      ((request.number, answer) :: answers, last)
    | none => cursors.run rest

end Cursors

end VirtualFiles
