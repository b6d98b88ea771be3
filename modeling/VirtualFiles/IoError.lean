/-!
# Failures of reading and writing

A failure has a kind, which programs act on, and in some cases a text of its own, which
is shown to people. The text is a fixed remark of whoever met the failure, or the text of another
failure that is wrapped in this one. Failures that the operating system reports carry no text.

## Main definitions

* `IoErrorKind` — what went wrong
* `IoErrorDetail` — what is said besides the kind
* `IoError` — a kind, with the text of the failure if it has one
-/

namespace VirtualFiles

/-- What went wrong with a reading or writing operation. -/
inductive IoErrorKind
  | notFound | permissionDenied | connectionRefused | connectionReset | hostUnreachable
  | networkUnreachable | connectionAborted | notConnected | addressInUse
  | addressNotAvailable | networkDown | brokenPipe | alreadyExists | wouldBlock
  | notADirectory | isADirectory | directoryNotEmpty | readOnlyFileSystem
  | staleNetworkFileHandle | invalidInput | invalidData | timedOut | writeZero
  | storageFull | notSeekable | quotaExceeded | fileTooLarge | resourceBusy
  | executableFileBusy | deadlock | crossesDevices | tooManyLinks | invalidFilename
  | argumentListTooLong | interrupted | unsupported | unexpectedEof | outOfMemory
  | other | uncategorized
  deriving DecidableEq, Repr

/-- The kind in words. -/
def IoErrorKind.description : IoErrorKind → String
  | .notFound => "entity not found"
  | .permissionDenied => "permission denied"
  | .connectionRefused => "connection refused"
  | .connectionReset => "connection reset"
  | .hostUnreachable => "host unreachable"
  | .networkUnreachable => "network unreachable"
  | .connectionAborted => "connection aborted"
  | .notConnected => "not connected"
  | .addressInUse => "address in use"
  | .addressNotAvailable => "address not available"
  | .networkDown => "network down"
  | .brokenPipe => "broken pipe"
  | .alreadyExists => "entity already exists"
  | .wouldBlock => "operation would block"
  | .notADirectory => "not a directory"
  | .isADirectory => "is a directory"
  | .directoryNotEmpty => "directory not empty"
  | .readOnlyFileSystem => "read-only filesystem or storage medium"
  | .staleNetworkFileHandle => "stale network file handle"
  | .invalidInput => "invalid input parameter"
  | .invalidData => "invalid data"
  | .timedOut => "timed out"
  | .writeZero => "write zero"
  | .storageFull => "no storage space"
  | .notSeekable => "seek on unseekable file"
  | .quotaExceeded => "quota exceeded"
  | .fileTooLarge => "file too large"
  | .resourceBusy => "resource busy"
  | .executableFileBusy => "executable file busy"
  | .deadlock => "deadlock"
  | .crossesDevices => "cross-device link or rename"
  | .tooManyLinks => "too many links"
  | .invalidFilename => "invalid filename"
  | .argumentListTooLong => "argument list too long"
  | .interrupted => "operation interrupted"
  | .unsupported => "unsupported"
  | .unexpectedEof => "unexpected end of file"
  | .outOfMemory => "out of memory"
  | .other => "other error"
  | .uncategorized => "uncategorized error"

/-- What is said about a failure besides its kind. -/
inductive IoErrorDetail
  | nothing
  /-- A fixed text. -/
  | remark (text : String)
  /-- The text of the failure that is wrapped in this one. -/
  | wrapped (text : String)
  deriving DecidableEq, Repr

/-- A failure of a reading or writing operation. -/
structure IoError where
  kind : IoErrorKind
  detail : IoErrorDetail := .nothing
  deriving DecidableEq, Repr

namespace IoError

/-- A failure without a text of its own. -/
def bare (kind : IoErrorKind) : IoError := ⟨kind, .nothing⟩

/-- A failure with a fixed text. -/
def remarked (kind : IoErrorKind) (text : String) : IoError := ⟨kind, .remark text⟩

/-- A failure that wraps another one, with the text of that. -/
def explained (kind : IoErrorKind) (text : String) : IoError := ⟨kind, .wrapped text⟩

/-- The failure in words. -/
def message (e : IoError) : String :=
  match e.detail with
  | .nothing => e.kind.description
  | .remark text | .wrapped text => text

@[simp] theorem kind_bare (kind : IoErrorKind) : (bare kind).kind = kind := rfl

@[simp] theorem kind_remarked (kind : IoErrorKind) (text : String) :
    (remarked kind text).kind = kind := rfl

@[simp] theorem kind_explained (kind : IoErrorKind) (text : String) :
    (explained kind text).kind = kind := rfl

end IoError

end VirtualFiles
