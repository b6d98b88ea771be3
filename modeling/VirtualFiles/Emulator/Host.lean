import VirtualFiles.Dump
import VirtualFiles.Emulator.Request

/-!
# Hosts

A host is what emulators share: the files on disk, the cache, the virtual files made so far
and the builder. A request may lead to one call of the builder, and during that call the
builder may ask for more. So a builder is a function on hosts: it gets the host at the start
of the call and gives it back at the end, with an outcome.

Creating a file claims its path first and releases the claim if anything goes wrong after
that; a path that is being built cannot be claimed again, which is what ends requests that
lead back to themselves.

## Main definitions

* `Host`, `Builder` — the shared state, and what a builder does with it
* `Host.create`, `Host.tryCreateFile` — making an emulated file
* `Host.perform` — answers a request
* `Host.answersDuring` — what was answered during a call
-/

namespace VirtualFiles

/-- What emulators share. -/
structure Host where
  files : FileSystem := .initial
  cache : Cache VirtualFile := .empty
  made : Catalog := []
  /-- The folders that were registered as sources of replacement files. -/
  folders : List Path := []
  /-- All builder calls in the order in which they began. -/
  calls : List BuildCall := []
  /-- The numbers of the builder calls in progress, innermost first. -/
  inProgress : List Nat := []
  log : List Event := []

/-- How a builder goes about the call of that number. An outcome is a container, or the text
of a failure. -/
abbrev Builder := Nat → BuildCall → Host → Except String Container × Host

namespace Host

/-- The host with one more step in its log. -/
def record (h : Host) (event : Event) : Host := { h with log := h.log ++ [event] }

/-- The host at the start of a builder call. -/
def enter (h : Host) (call : BuildCall) : Host :=
  { h with
    calls := h.calls ++ [call]
    inProgress := h.calls.length :: h.inProgress }.record
      (.entered (h.calls.length :: h.inProgress))

/-- Makes a new file of a stream. -/
def make (h : Host) (stream : VirtualStream) : VirtualFile × Host :=
  let (file, made) := h.made.make stream
  (file, { h with made })

/-- Writes a copy of a new file to the directory for copies, if there is one and the path has
a file name. A failure goes unnoticed. -/
def dump (h : Host) (e : Emulator) (output : Path) (file : VirtualFile) : Host :=
  match e.dumpDirectory, output.fileName? with
  | some dir, some name => { h with files := (file.stream.dump h.files (dir.join name)).files }
  | _, _ => h

/-- Calls the builder. Behind the call, the calls in progress are what they were before. -/
def callBuilder (h : Host) (build : Builder) (call : BuildCall) :
    Except String Container × Host :=
  let (outcome, returned) := build h.calls.length call (h.enter call)
  (outcome, { returned with inProgress := h.inProgress })

/-- Builds the file that a call asks for, outside the cache. -/
def buildFile (h : Host) (e : Emulator) (build : Builder) (call : BuildCall) :
    Except CreateError VirtualFile × Host :=
  match h.callBuilder build call with
  | (.error message, returned) => (.error (.buildFailed call.output message), returned)
  | (.ok container, returned) =>
    match container.open returned.files e.alignment with
    | .error cause => (.error (.layout call.output cause), returned)
    | .ok stream =>
      let (file, grown) := returned.make stream
      (.ok file, grown.dump e call.output file)

/-- Makes the emulated file that a call asks for and stores it in the cache. If the path was
invalidated in the meantime, the file is made but not stored. -/
def create (h : Host) (e : Emulator) (build : Builder) (call : BuildCall) :
    Except CreateError VirtualFile × Host :=
  match h.cache.claim? call.output with
  | none => (.error (.cacheConflict call.output), h)
  | some (claim, cache) =>
    match { h with cache }.buildFile e build call with
    -- the path can be claimed again after a failure
    | (.error cause, left) => (.error cause, { left with cache := left.cache.release claim })
    | (.ok file, left) => (.ok file, { left with cache := (left.cache.complete claim file).2 })

/-- The emulated file of a path, for a host that opens a file. Whatever goes wrong, the host
is to open the real one. -/
def tryCreateFile (h : Host) (e : Emulator) (build : Builder) (path : Path) (route : String) :
    Option VirtualFile × Host :=
  match h.cache.get? path with
  | some file => (some file, h)
  | none =>
    if e.accepts path then
      let (result, last) := h.create e build ⟨path, path, route⟩
      (result.toOption, last)
    else (none, h)

/-- Claims a path and completes it with a new file. -/
def publish (h : Host) (path : Path) (stream : VirtualStream) :
    Option (VirtualFile × Bool) × Host :=
  match h.cache.claim? path with
  | none => (none, h)
  | some (claim, claimed) =>
    let (file, grown) := { h with cache := claimed }.make stream
    let (stored, cache) := grown.cache.complete claim file
    (some (file, stored), { grown with cache })

/-- An answer about the file of that number. -/
def aboutFile (h : Host) (number : Nat) (answer : VirtualFile → Answer) : Answer :=
  match h.made.file? number with
  | some file => answer file
  | none => .noFile

/-- Answers a request without writing it to the log. -/
def answer (h : Host) (e : Emulator) (build : Builder) (request : Request) : Answer × Host :=
  match request with
  | .tryCreateFile path route =>
    let (file, last) := h.tryCreateFile e build path route
    (.offered file, last)
  | .create call =>
    let (result, last) := h.create e build call
    (.created result, last)
  | .accepts path => (.accepted (e.accepts path), h)
  | .invalidate path =>
    let (found, cache) := h.cache.invalidate path
    (.removed found, { h with cache })
  | .lookup path => (.state (h.cache.lookup path), h)
  | .clear => (.done, { h with cache := h.cache.clear })
  | .claimAndRelease path =>
    match h.cache.claim? path with
    | some (claim, cache) => (.claimed true, { h with cache := cache.release claim })
    | none => (.claimed false, h)
  | .claimAndHold path =>
    match h.cache.claim? path with
    | some (claim, cache) => (.held (some claim.generation), { h with cache })
    | none => (.held none, h)
  | .claimAndComplete path stream =>
    let (file, last) := h.publish path stream
    (.published file, last)
  | .modLoading folder =>
    let folders := h.folders ++ [folder]
    (.folders folders, { h with folders })
  | .contents file => (h.aboutFile file fun f => .contents (f.contents h.files), h)
  | .segments file => (h.aboutFile file .segments, h)
  | .readAt file offset count =>
    (h.aboutFile file fun f => .bytes (f.readAt h.files offset count), h)
  | .describe => (.description (e.describe h.cache.size), h)
  | .settings => (.settings e, h)
  | .change change => (.done, { h with files := h.files.apply change })
  | .fileContent path => (.fileContent (h.files.contentOf path).toOption, h)

/-- Answers a request and writes it to the log. -/
def perform (h : Host) (e : Emulator) (build : Builder) (request : Request) : Answer × Host :=
  let (answer, last) := h.answer e build request
  let step : Answered :=
    { inProgress := last.inProgress, request, answer
      entries := last.cache.size, builds := last.calls.length }
  (answer, last.record (.answered step))

/-- The requests that were answered during the builder call of that number and not during a
call inside it, or those answered outside of all calls. -/
def answersDuring (h : Host) (call : Option Nat) : List Answered :=
  (h.log.filterMap Event.answered?).filter (·.inProgress.head? == call)

end Host

end VirtualFiles
