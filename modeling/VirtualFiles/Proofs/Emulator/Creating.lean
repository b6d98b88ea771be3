import VirtualFiles.Emulator.Script
import VirtualFiles.Proofs.Cache.Actions
import VirtualFiles.Proofs.Outcome

/-!
# How files are created

A request leads to one call of the builder or to none, and which of both is clear before the
builder is asked: it depends on the entry of the path and on the settings. What the builder may
do in its call is left open here. What the host does with the outcome is one of three things, and
they differ in what becomes of the claim: it is released after a failure of the builder or of the
layout, and completed with the new file otherwise.

## Main definitions

* `Start`, `Host.start?` — the builder call that a request leads to
* `Host.Begins` — what the host is at the start of a call
* `Host.Ending` — all that can happen after a call
* `Host.Settled` — what all of this has in common
* `Request.reply` — how the end of a call is reported
* `Request.key?`, `Request.Ends`, `Answer.file?` — what requests and answers are about

## Main results

* `of_start?`, `claimFor?_eq_none_iff` — when a request leads to a call
* `ending_create` — after a call one of the three things happens
* `open_of_create` — a file that was created is the stream of the container that the builder gave
* `answer_of_start?` — a request that leads to a call is answered with what follows the call
* `answer_of_no_start` — all other requests are answered without the builder
-/

namespace VirtualFiles

/-- A builder call that is about to begin. -/
structure Start where
  call : BuildCall
  claim : Claim
  /-- The host at the start of the call. -/
  inner : Host

/-- The files after the copy of a new file was written, if a copy is to be written. -/
def Emulator.copy (e : Emulator) (output : Path) (stream : VirtualStream) (fs : FileSystem) :
    FileSystem :=
  match e.dumpDirectory, output.fileName? with
  | some dir, some name => (stream.dump fs (dir.join name)).files
  | _, _ => fs

/-- How the outcome of creating a file is reported to whoever asked for the file. -/
def Request.reply (request : Request) (result : Except CreateError VirtualFile) : Answer :=
  match request with
  | .create _ => .created result
  | _ => .offered result.toOption

/-- The key of the path for which a file is asked, if one is. -/
def Request.key? : Request → Option CacheKey
  | .tryCreateFile path _ => some (.ofPath path)
  | .create call => some (.ofPath call.output)
  | _ => none

/-- The request removes the entry of the key whatever its state. -/
def Request.Ends (key : CacheKey) : Request → Prop
  | .invalidate path => .ofPath path = key
  | .clear => True
  | _ => False

/-- The file that an answer hands over, if there is one. -/
def Answer.file? : Answer → Option VirtualFile
  | .offered file => file
  | .created result => result.toOption
  | _ => none

@[simp] theorem Request.file?_reply (request : Request)
    (result : Except CreateError VirtualFile) : (request.reply result).file? = result.toOption := by
  cases request <;> rfl

namespace Host

variable {h returned : Host} {e : Emulator} {build other : Builder} {call : BuildCall}
variable {s : Start} {request : Request} {path : Path} {route : String} {file : VirtualFile}

/-- The call that a claim of its output leads to. -/
def claimFor? (h : Host) (call : BuildCall) : Option Start :=
  (h.cache.claim? call.output).map fun (claim, cache) => ⟨call, claim, { h with cache }.enter call⟩

/-- The call that a request leads to. -/
def start? (h : Host) (e : Emulator) : Request → Option Start
  | .create call => h.claimFor? call
  | .tryCreateFile path route =>
    if h.cache.get? path = none ∧ e.accepts path then h.claimFor? ⟨path, path, route⟩ else none
  | _ => none

/-- What the builder makes of a call, and the host behind the call. -/
def called (h : Host) (build : Builder) (s : Start) : Except String Container × Host :=
  let (outcome, returned) := build h.calls.length s.call s.inner
  (outcome, { returned with inProgress := h.inProgress })

/-! ### Before a call -/

/-- At the start of a call the host has a placeholder more and knows of the call. -/
structure Begins (h : Host) (s : Start) : Prop where
  key_eq : s.claim.key = .ofPath s.call.output
  claimed : h.cache.Claimed s.claim s.inner.cache
  files_eq : s.inner.files = h.files
  made_eq : s.inner.made = h.made
  folders_eq : s.inner.folders = h.folders
  calls_eq : s.inner.calls = h.calls ++ [s.call]
  inProgress_eq : s.inner.inProgress = h.calls.length :: h.inProgress
  log_eq : s.inner.log = h.log ++ [.entered (h.calls.length :: h.inProgress)]

theorem claim?_of_claimFor? (build : Builder) (hs : h.claimFor? call = some s) :
    ∃ cache, h.cache.claim? call.output = some (s.claim, cache) ∧
      h.called build s = { h with cache }.callBuilder build call := by
  obtain ⟨⟨claim, cache⟩, hclaim, rfl⟩ := Option.map_eq_some_iff.mp hs
  exact ⟨cache, hclaim, rfl⟩

theorem of_claimFor? (hs : h.claimFor? call = some s) : s.call = call ∧ h.Begins s := by
  obtain ⟨⟨claim, cache⟩, hclaim, rfl⟩ := Option.map_eq_some_iff.mp hs
  obtain ⟨hkey, hclaimed⟩ := Cache.claimed_of_claim? hclaim
  exact ⟨rfl, ⟨hkey, hclaimed, rfl, rfl, rfl, rfl, rfl, rfl⟩⟩

/-- Only a path without an entry can be claimed. -/
theorem claimFor?_eq_none_iff :
    h.claimFor? call = none ↔ h.cache.slot? (.ofPath call.output) ≠ none := by
  rw [claimFor?, Option.map_eq_none_iff]
  unfold Cache.claim?
  split
  · next slot hslot => simp [hslot]
  · next hslot => simp [hslot]

theorem start?_tryCreateFile (hs : h.start? e (.tryCreateFile path route) = some s) :
    h.cache.get? path = none ∧ e.accepts path ∧ h.claimFor? ⟨path, path, route⟩ = some s := by
  rw [start?] at hs
  split at hs
  · next hpath => exact ⟨hpath.1, hpath.2, hs⟩
  · cases hs

/-- Only requests for files lead to calls. -/
theorem of_start? (hs : h.start? e request = some s) : h.Begins s ∧
    (request = .create s.call ∨
      ∃ path route, request = .tryCreateFile path route ∧ s.call = ⟨path, path, route⟩) := by
  cases request with
  | create call =>
    obtain ⟨rfl, hbegins⟩ := of_claimFor? hs
    exact ⟨hbegins, .inl rfl⟩
  | tryCreateFile path route =>
    obtain ⟨hcall, hbegins⟩ := of_claimFor? (start?_tryCreateFile hs).2.2
    exact ⟨hbegins, .inr ⟨path, route, rfl, hcall⟩⟩
  | _ => cases hs

/-! ### After a call -/

/-- Writing the copy of a new file changes nothing but the files. -/
theorem dump_eq (output : Path) :
    h.dump e output file = { h with files := e.copy output file.stream h.files } := by
  unfold dump Emulator.copy
  rcases e.dumpDirectory with - | dir
  · rfl
  · rcases output.fileName? with - | name <;> rfl

/-- What follows the end of a call, by what the builder made of it. -/
inductive Ending (e : Emulator) (s : Start) (returned : Host) :
    Except String Container → Except CreateError VirtualFile → Host → Prop
  | failed (message : String) :
    Ending e s returned (.error message) (.error (.buildFailed s.call.output message))
      { returned with cache := returned.cache.release s.claim }
  | unplaced (container : Container) (cause : LayoutError)
    (hopen : container.open returned.files e.alignment = .error cause) :
    Ending e s returned (.ok container) (.error (.layout s.call.output cause))
      { returned with cache := returned.cache.release s.claim }
  | built (container : Container) (stream : VirtualStream)
    (hopen : container.open returned.files e.alignment = .ok stream) :
    Ending e s returned (.ok container) (.ok ⟨returned.made.length, stream⟩)
      { returned with
        files := e.copy s.call.output stream returned.files
        cache := (returned.cache.complete s.claim ⟨returned.made.length, stream⟩).2
        made := returned.made ++ [stream] }

/-- Two emulators with the same alignment end the same call in the same way, but for the copies that
they write. -/
theorem Ending.compare {e' : Emulator} {outcome : Except String Container}
    {result result' : Except CreateError VirtualFile} {last last' : Host}
    (halignment : e'.alignment = e.alignment)
    (hending : Ending e s returned outcome result last)
    (hending' : Ending e' s returned outcome result' last') :
    result' = result ∧ ((∀ file, result ≠ .ok file) ∧ last' = last ∨
      ∃ (container : Container) (file : VirtualFile), outcome = .ok container ∧
        container.open returned.files e.alignment = .ok file.stream ∧ result = .ok file ∧
        last.files = e.copy s.call.output file.stream returned.files ∧
        last' = { last with files := e'.copy s.call.output file.stream returned.files }) := by
  cases hending with
  | failed message =>
    cases hending'
    refine ⟨rfl, .inl ⟨?_, rfl⟩⟩
    intro file h
    cases h
  | unplaced container cause hopen =>
    cases hending' with
    | unplaced _ cause' hopen' =>
      rw [halignment] at hopen'
      obtain rfl : cause = cause' := Except.error.inj (hopen.symm.trans hopen')
      refine ⟨rfl, .inl ⟨?_, rfl⟩⟩
      intro file h
      cases h
    | built _ stream hopen' =>
      rw [halignment] at hopen'
      cases hopen.symm.trans hopen'
  | built container stream hopen =>
    -- the layout does not depend on where copies go
    cases hending' with
    | unplaced _ cause hopen' =>
      rw [halignment] at hopen'
      cases hopen.symm.trans hopen'
    | built _ stream' hopen' =>
      rw [halignment] at hopen'
      obtain rfl : stream = stream' := Except.ok.inj (hopen.symm.trans hopen')
      exact ⟨rfl, .inr ⟨container, ⟨returned.made.length, stream⟩, rfl, hopen, rfl, rfl, rfl⟩⟩

/-- What the three endings have in common. The new file, if there is one, is the last one made, and
only the entry of the claim changes: its placeholder, if it is still there, gives way to the new
file or to nothing. -/
structure Settled (s : Start) (returned : Host) (result : Except CreateError VirtualFile)
    (last : Host) : Prop where
  log_eq : last.log = returned.log
  calls_eq : last.calls = returned.calls
  inProgress_eq : last.inProgress = returned.inProgress
  made_eq : last.made = returned.made ++ (result.toOption.map VirtualFile.stream).toList
  number_eq : ∀ file, result = .ok file → file.number = returned.made.length
  slot_of_ne : ∀ key ≠ s.claim.key, last.cache.slot? key = returned.cache.slot? key
  slot_of_awaits : returned.cache.Awaits s.claim →
    last.cache.slot? s.claim.key = result.toOption.map .ready
  cache_of_not_awaits : ¬ returned.cache.Awaits s.claim → last.cache = returned.cache

theorem Settled.of_release {cause : CreateError} : Settled s returned (.error cause)
    { returned with cache := returned.cache.release s.claim } where
  log_eq := rfl
  calls_eq := rfl
  inProgress_eq := rfl
  made_eq := (List.append_nil _).symm
  number_eq := by
    intro file hfile
    cases hfile
  slot_of_ne := fun key hne => Cache.slot?_release_of_ne hne
  slot_of_awaits := by
    intro hawaits
    change (returned.cache.release s.claim).slot? s.claim.key = none
    rw [Cache.release_of_awaits hawaits, Cache.slot?_erase, if_pos rfl]
  cache_of_not_awaits := Cache.release_of_not_awaits

theorem Ending.settled {outcome : Except String Container}
    {result : Except CreateError VirtualFile} {last : Host}
    (hending : Ending e s returned outcome result last) : Settled s returned result last := by
  cases hending with
  | failed | unplaced => exact .of_release
  | built container stream hopen =>
    constructor
    case slot_of_ne => exact fun key hne => Cache.slot?_complete_of_ne hne
    case slot_of_awaits =>
      intro hawaits
      exact (Cache.slot?_complete hawaits).trans (if_pos rfl)
    case cache_of_not_awaits =>
      intro hawaits
      exact congrArg Prod.snd (Cache.complete_of_not_awaits hawaits)
    case number_eq =>
      intro file hfile
      cases hfile
      rfl
    all_goals rfl

/-- An entry at the end is the new file, or it was there when the builder returned and is not the
placeholder of the claim. -/
theorem Settled.slot_cases {result : Except CreateError VirtualFile} {last : Host} {key : CacheKey}
    {slot : Slot VirtualFile} (hsettled : Settled s returned result last)
    (hslot : last.cache.slot? key = some slot) :
    (∃ file, result = .ok file ∧ slot = .ready file) ∨
      (returned.cache.slot? key = some slot ∧
        (key = s.claim.key → ¬ returned.cache.Awaits s.claim)) := by
  by_cases hkey : key = s.claim.key
  · subst hkey
    by_cases hawaits : returned.cache.Awaits s.claim
    · rw [hsettled.slot_of_awaits hawaits] at hslot
      obtain ⟨file, hresult, hfile⟩ := Option.map_eq_some_iff.mp hslot
      exact .inl ⟨file, Outcome.toOption_eq_some_iff.mp hresult, hfile.symm⟩
    · rw [hsettled.cache_of_not_awaits hawaits] at hslot
      exact .inr ⟨hslot, fun _ => hawaits⟩
  · rw [hsettled.slot_of_ne key hkey] at hslot
    exact .inr ⟨hslot, fun hsame => absurd hsame hkey⟩

/-- Once a path has been claimed, the builder is called and one of the three things happens. -/
theorem ending_create (e : Emulator) (build : Builder) (hs : h.claimFor? call = some s) :
    Ending e s (h.called build s).2 (h.called build s).1
      (h.create e build call).1 (h.create e build call).2 := by
  obtain ⟨rfl, -⟩ := of_claimFor? hs
  obtain ⟨cache, hclaim, hcalled⟩ := claim?_of_claimFor? build hs
  unfold create buildFile
  rw [hclaim]
  simp only [← hcalled]
  generalize h.called build _ = called
  obtain ⟨outcome, returned⟩ := called
  cases outcome with
  | error message => exact .failed message
  | ok container =>
    cases hopen : container.open returned.files e.alignment with
    | error cause =>
      simp only [hopen]
      exact .unplaced container cause hopen
    | ok stream =>
      simp only [hopen, dump_eq]
      exact .built container stream hopen

/-- A path that cannot be claimed is refused, and nothing changes. -/
theorem create_of_taken (hs : h.claimFor? call = none) :
    h.create e build call = (.error (.cacheConflict call.output), h) := by
  have hclaim : h.cache.claim? call.output = none := Option.map_eq_none_iff.mp hs
  unfold create
  rw [hclaim]

/-- A file that was created is the stream of the container that the builder gave, with the files as
the builder left them. -/
theorem open_of_create (hcreate : (h.create e build call).1 = .ok file) : ∃ s container,
    h.claimFor? call = some s ∧ (h.called build s).1 = .ok container ∧
      container.open (h.called build s).2.files e.alignment = .ok file.stream := by
  cases hs : h.claimFor? call with
  | none =>
    rw [create_of_taken hs] at hcreate
    cases hcreate
  | some s =>
    have hending := ending_create e build hs
    rw [hcreate] at hending
    generalize (h.create e build call).2 = last at hending
    generalize houtcome : (h.called build s).1 = outcome at hending
    cases hending with
    | built container stream hopen => exact ⟨s, container, rfl, houtcome, hopen⟩

/-! ### Requests -/

/-- A request that leads to a call is answered with what follows the call. -/
theorem answer_of_start? (build : Builder) (hs : h.start? e request = some s) : ∃ result last,
    Ending e s (h.called build s).2 (h.called build s).1 result last ∧
      h.answer e build request = (request.reply result, last) := by
  cases request with
  | create call => exact ⟨_, _, ending_create e build hs, rfl⟩
  | tryCreateFile path route =>
    -- the path is claimed once the cache had no file and the emulator has accepted it
    obtain ⟨hget, haccepts, hclaim⟩ := start?_tryCreateFile hs
    refine ⟨_, _, ending_create e build hclaim, ?_⟩
    simp only [answer, tryCreateFile, hget, haccepts, if_true]
    rfl
  | _ => cases hs

/-- A request for a new file that leads to no call is refused because the path has an entry. -/
theorem answer_create_of_no_start (hs : h.start? e (.create call) = none) :
    h.answer e build (.create call) = (.created (.error (.cacheConflict call.output)), h) := by
  simp only [answer, create_of_taken hs]

/-- Whoever opens a file and leads to no call gets what the cache has. -/
theorem tryCreateFile_of_no_start (hs : h.start? e (.tryCreateFile path route) = none) :
    h.tryCreateFile e build path route = (h.cache.get? path, h) := by
  rw [start?] at hs
  unfold tryCreateFile
  cases hget : h.cache.get? path with
  | some file => rfl
  | none =>
    simp only
    split
    · next haccepts =>
      -- only a placeholder can be in the way now, and the refusal is not reported
      rw [if_pos ⟨hget, haccepts⟩] at hs
      rw [create_of_taken hs]
      rfl
    · rfl

theorem answer_tryCreateFile_of_no_start (hs : h.start? e (.tryCreateFile path route) = none) :
    h.answer e build (.tryCreateFile path route) = (.offered (h.cache.get? path), h) := by
  simp only [answer, tryCreateFile_of_no_start hs]

/-- A request that leads to no call is answered without the builder. -/
theorem answer_of_no_start (hs : h.start? e request = none) :
    h.answer e build request = h.answer e other request := by
  cases request with
  | create call => rw [answer_create_of_no_start hs, answer_create_of_no_start hs]
  | tryCreateFile path route =>
    rw [answer_tryCreateFile_of_no_start hs, answer_tryCreateFile_of_no_start hs]
  | _ => rfl

end Host

end VirtualFiles
