import Mathlib.Logic.Function.Basic
import VirtualFiles.Proofs.Emulator.Creating
import VirtualFiles.Proofs.Outcome

/-!
# Emulators as a shelf of files

If builders do not call back, a request begins and ends without another one in between, and claims
cannot be seen from outside: no request finds a placeholder. What is left of the cache is a map
from keys to finished files, a shelf. Every request is one step of the shelf, whatever the
settings of the emulator that gets it, and whether or not the builder and the layout succeed.

A builder that does not call back is given for each visit anew, so two emulators on the same cache
may have different ones, and a builder may change its mind between two calls.

## Main definitions

* `Maker` — a builder that does not call back
* `Errand`, `Visit` — a request to an emulator with such a builder
* `Shelf`, `Shelf.visit` — the finished files by key, and what a visit does to them
* `Host.Mirrors` — the host has what is on the shelf, and nothing is being built

## Main results

* `Mirrors.visit` — a visit to a host is a visit to the shelf
* `Shelf.visit_of_kept` — a file on the shelf is handed over and never built again
* `visitAll_mirrors` — all this for any number of visits
-/

namespace VirtualFiles

/-- A builder that does not call back. What it makes of a call may depend on the files and on how
many calls there were before, and the files are all that it can change. -/
abbrev Maker := Nat → BuildCall → FileSystem → Except String Container × FileSystem

/-- The builder that goes about its calls in this way. -/
def Maker.toBuilder (make : Maker) : Builder := fun number call h =>
  let (outcome, files) := make number call h.files
  (outcome, { h with files })

/-- What a host wants of an emulator, and what happens to the files between its requests. -/
inductive Errand
  | offer (path : Path) (route : String)
  | create (call : BuildCall)
  | invalidate (path : Path)
  | clear
  | change (edit : FileChange)

/-- The request that is made on the errand. -/
def Errand.request : Errand → Request
  | .offer path route => .tryCreateFile path route
  | .create call => .create call
  | .invalidate path => .invalidate path
  | .clear => .clear
  | .change edit => .change edit

/-- An errand to an emulator with a builder that does not call back. -/
structure Visit where
  emulator : Emulator
  make : Maker
  errand : Errand

/-- The finished files by key, together with all files and all builder calls so far. -/
structure Shelf where
  files : FileSystem := .initial
  made : Catalog := []
  calls : List BuildCall := []
  kept : CacheKey → Option VirtualFile := fun _ => none

namespace Shelf

/-- Calls the builder once. The file goes to the shelf if the builder gives a container that can be
laid out; otherwise the shelf stays as it is. -/
def build (s : Shelf) (e : Emulator) (make : Maker) (call : BuildCall) :
    Except CreateError VirtualFile × Shelf :=
  let (outcome, files) := make s.calls.length call s.files
  let asked := { s with files, calls := s.calls ++ [call] }
  match outcome with
  | .error message => (.error (.buildFailed call.output message), asked)
  | .ok container =>
    match container.open files e.alignment with
    | .error cause => (.error (.layout call.output cause), asked)
    | .ok stream =>
      let file : VirtualFile := ⟨s.made.length, stream⟩
      (.ok file,
        { asked with
          files := e.copy call.output stream files
          made := s.made ++ [stream]
          kept := Function.update s.kept (.ofPath call.output) (some file) })

/-- A visit. The builder is called only for a file that is not on the shelf, and for an offer only
if the emulator accepts the path. -/
def visit (s : Shelf) (v : Visit) : Answer × Shelf :=
  match v.errand with
  | .offer path route =>
    match s.kept (.ofPath path) with
    | some file => (.offered (some file), s)
    | none =>
      if v.emulator.accepts path then
        let (result, last) := s.build v.emulator v.make ⟨path, path, route⟩
        (.offered result.toOption, last)
      else (.offered none, s)
  | .create call =>
    match s.kept (.ofPath call.output) with
    | some _ => (.created (.error (.cacheConflict call.output)), s)
    | none =>
      let (result, last) := s.build v.emulator v.make call
      (.created result, last)
  | .invalidate path =>
    (.removed (s.kept (.ofPath path)).isSome,
      { s with kept := Function.update s.kept (.ofPath path) none })
  | .clear => (.done, { s with kept := fun _ => none })
  | .change edit => (.done, { s with files := s.files.apply edit })

/-- One visit after the other, with the answers. -/
def visitAll (s : Shelf) : List Visit → List Answer × Shelf
  | [] => ([], s)
  | v :: rest =>
    let (answer, next) := s.visit v
    let (answers, last) := next.visitAll rest
    (answer :: answers, last)

end Shelf

namespace Host

/-- A visit to the host. -/
def visit (h : Host) (v : Visit) : Answer × Host :=
  h.perform v.emulator v.make.toBuilder v.errand.request

/-- One visit after the other, with the answers. -/
def visitAll (h : Host) : List Visit → List Answer × Host
  | [] => ([], h)
  | v :: rest =>
    let (answer, next) := h.visit v
    let (answers, last) := next.visitAll rest
    (answer :: answers, last)

/-- The host has what is on the shelf, and nothing is being built. -/
structure Mirrors (h : Host) (s : Shelf) : Prop where
  files_eq : h.files = s.files
  made_eq : h.made = s.made
  calls_eq : h.calls = s.calls
  slot_eq : ∀ key, h.cache.slot? key = (s.kept key).map .ready

end Host

@[simp] theorem Host.visitAll_nil_snd (h : Host) : (h.visitAll []).2 = h := rfl

/-! ### The shelf -/

namespace Shelf

variable {s : Shelf} {v w : Visit} {key : CacheKey} {file other : VirtualFile}
variable {e : Emulator} {make : Maker} {call : BuildCall} {between : List Visit}

/-- A file that was built is on the shelf. -/
theorem kept_build (hbuild : (s.build e make call).1 = .ok file) :
    (s.build e make call).2.kept (.ofPath call.output) = some file := by
  unfold build at hbuild ⊢
  generalize make s.calls.length call s.files = outcome at hbuild ⊢
  obtain ⟨message | container, files⟩ := outcome
  · cases hbuild
  · simp only at hbuild ⊢
    cases hopen : container.open files e.alignment with
    | error cause =>
      rw [hopen] at hbuild
      cases hbuild
    | ok stream =>
      rw [hopen] at hbuild
      cases hbuild
      exact Function.update_self ..

/-- Building leaves the files of other keys on the shelf. -/
theorem kept_build_of_ne (hne : key ≠ .ofPath call.output) :
    (s.build e make call).2.kept key = s.kept key := by
  unfold build
  obtain ⟨message | container, files⟩ := make s.calls.length call s.files
  · rfl
  · simp only
    split
    · rfl
    · exact Function.update_of_ne hne ..

/-- Whoever gets a file finds it on the shelf afterwards. -/
theorem kept_of_file? (hkey : v.errand.request.key? = some key)
    (hfile : (s.visit v).1.file? = some file) : (s.visit v).2.kept key = some file := by
  obtain ⟨e, make, errand⟩ := v
  cases errand with
  | offer path route =>
    obtain rfl : CacheKey.ofPath path = key := Option.some.inj hkey
    simp only [visit] at hfile ⊢
    cases hkept : s.kept (.ofPath path) with
    | some found =>
      rw [hkept] at hfile
      exact hkept.trans hfile
    | none =>
      simp only [hkept] at hfile ⊢
      split at hfile
      · next haccepts =>
        rw [if_pos haccepts]
        exact kept_build (Outcome.toOption_eq_some_iff.mp hfile)
      · cases hfile
  | create call =>
    obtain rfl : CacheKey.ofPath call.output = key := Option.some.inj hkey
    simp only [visit] at hfile ⊢
    cases hkept : s.kept (.ofPath call.output) with
    | some found =>
      rw [hkept] at hfile
      cases hfile
    | none =>
      simp only [hkept] at hfile ⊢
      exact kept_build (Outcome.toOption_eq_some_iff.mp hfile)
  | _ => cases hkey

/-- A file on the shelf is handed over, or the visitor gets no file. It is not built again. -/
theorem visit_of_kept (hkept : s.kept key = some file) (hkey : v.errand.request.key? = some key) :
    ((s.visit v).1.file? = some file ∨ (s.visit v).1.file? = none) ∧ (s.visit v).2 = s := by
  obtain ⟨e, make, errand⟩ := v
  cases errand with
  | offer path route =>
    obtain rfl : CacheKey.ofPath path = key := Option.some.inj hkey
    simp only [visit, hkept]
    exact ⟨.inl rfl, trivial⟩
  | create call =>
    obtain rfl : CacheKey.ofPath call.output = key := Option.some.inj hkey
    simp only [visit, hkept]
    exact ⟨.inr rfl, trivial⟩
  | _ => cases hkey

/-- A file stays on the shelf until its key is invalidated or everything is cleared. -/
theorem kept_visit (hkept : s.kept key = some file) (hends : ¬ v.errand.request.Ends key) :
    (s.visit v).2.kept key = some file := by
  obtain ⟨e, make, errand⟩ := v
  cases errand with
  | offer path route =>
    simp only [visit]
    cases hpath : s.kept (.ofPath path) with
    | some found => exact hkept
    | none =>
      simp only
      split
      · -- a key with a file differs from the one that is built
        have hne : key ≠ .ofPath path := by
          rintro rfl
          cases hkept.symm.trans hpath
        exact (kept_build_of_ne hne).trans hkept
      · exact hkept
  | create call =>
    simp only [visit]
    cases hpath : s.kept (.ofPath call.output) with
    | some found => exact hkept
    | none =>
      have hne : key ≠ .ofPath call.output := by
        rintro rfl
        cases hkept.symm.trans hpath
      exact (kept_build_of_ne hne).trans hkept
  | invalidate path => exact (Function.update_of_ne (fun h => hends h.symm) ..).trans hkept
  | clear => exact absurd trivial hends
  | change edit => exact hkept

theorem kept_visitAll (hkept : s.kept key = some file)
    (hends : ∀ u ∈ between, ¬ u.errand.request.Ends key) :
    (s.visitAll between).2.kept key = some file := by
  induction between generalizing s with
  | nil => exact hkept
  | cons u rest ih =>
    obtain ⟨hu, hrest⟩ := List.forall_mem_cons.mp hends
    exact ih (kept_visit hkept hu) hrest

/-- Two visitors who get files for a key get the same file if the key was not ended in between, and
nothing is built for the second one. -/
theorem shared (hv : v.errand.request.key? = some key) (hw : w.errand.request.key? = some key)
    (hends : ∀ u ∈ between, ¬ u.errand.request.Ends key)
    (hfile : (s.visit v).1.file? = some file)
    (hother : (((s.visit v).2.visitAll between).2.visit w).1.file? = some other) :
    other = file ∧ (((s.visit v).2.visitAll between).2.visit w).2 =
      ((s.visit v).2.visitAll between).2 := by
  have hkept := kept_visitAll (kept_of_file? hv hfile) hends
  obtain ⟨hanswer, hsame⟩ := visit_of_kept hkept hw
  rw [hother] at hanswer
  rcases hanswer with hsome | hnone
  · exact ⟨Option.some.inj hsome, hsame⟩
  · cases hnone

end Shelf

/-! ### The host as a shelf -/

namespace Host

variable {h last : Host} {s : Shelf} {v : Visit} {key : CacheKey} {path : Path} {route : String}
variable {e : Emulator} {make : Maker} {call : BuildCall} {start : Start}
variable {result : Except CreateError VirtualFile}

namespace Mirrors

/-- Nothing is being built, so a key is absent or has a file on the shelf. -/
theorem slot?_eq_none_iff (hm : h.Mirrors s) : h.cache.slot? key = none ↔ s.kept key = none := by
  rw [hm.slot_eq, Option.map_eq_none_iff]

/-- A finished file is one on the shelf. -/
theorem get?_eq (hm : h.Mirrors s) : h.cache.get? path = s.kept (.ofPath path) := by
  unfold Cache.get? Cache.lookup
  rw [hm.slot_eq]
  cases s.kept (.ofPath path) <;> rfl

/-- A path without a file on the shelf can be claimed. -/
theorem exists_claimFor? (hm : h.Mirrors s) (call : BuildCall)
    (hkept : s.kept (.ofPath call.output) = none) : ∃ start, h.claimFor? call = some start := by
  rw [← Option.ne_none_iff_exists', Ne, claimFor?_eq_none_iff, not_not]
  exact hm.slot?_eq_none_iff.mpr hkept

/-- A path with a file on the shelf cannot be claimed. -/
theorem claimFor?_eq_none (hm : h.Mirrors s) {file : VirtualFile}
    (hkept : s.kept (.ofPath call.output) = some file) : h.claimFor? call = none := by
  rw [claimFor?_eq_none_iff, hm.slot_eq, hkept]
  exact Option.some_ne_none _

/-- Claiming a path, calling the builder and ending the claim is one step of the shelf. -/
theorem build (hm : h.Mirrors s) (hbegins : h.Begins start)
    (hending : Ending e start (h.called make.toBuilder start).2 (h.called make.toBuilder start).1
      result last) :
    result = (s.build e make start.call).1 ∧ last.Mirrors (s.build e make start.call).2 := by
  unfold called Maker.toBuilder at hending
  unfold Shelf.build
  -- both builders see the same files and the same number of calls
  rw [hbegins.files_eq, hm.files_eq, hm.calls_eq] at hending
  generalize make s.calls.length start.call s.files = made at hending ⊢
  obtain ⟨outcome, files⟩ := made
  have hcalls : start.inner.calls = s.calls ++ [start.call] := by
    rw [hbegins.calls_eq, hm.calls_eq]
  have hmade : start.inner.made = s.made := by rw [hbegins.made_eq, hm.made_eq]
  -- a claim that was released leaves all entries as they were before it
  cases hending with
  | failed message =>
    refine ⟨rfl, rfl, hmade, hcalls, fun key => ?_⟩
    exact hbegins.claimed.slot?_release.trans (hm.slot_eq key)
  | unplaced container cause hopen =>
    simp only at hopen ⊢
    rw [hopen]
    refine ⟨rfl, rfl, hmade, hcalls, fun key => ?_⟩
    exact hbegins.claimed.slot?_release.trans (hm.slot_eq key)
  | built container stream hopen =>
    simp only at hopen ⊢
    rw [hopen, hmade]
    refine ⟨rfl, rfl, rfl, hcalls, fun key => hbegins.claimed.slot?_complete.trans ?_⟩
    simp only [Function.update_apply, hbegins.key_eq, hm.slot_eq]
    split <;> rfl

/-- A request that leads to a call is answered with what the shelf builds for it. -/
theorem answer_of_start {request : Request} (hm : h.Mirrors s) (make : Maker)
    (hstart : h.start? e request = some start) :
    (h.answer e make.toBuilder request).1 = request.reply (s.build e make start.call).1 ∧
      (h.answer e make.toBuilder request).2.Mirrors (s.build e make start.call).2 := by
  obtain ⟨hbegins, -⟩ := of_start? hstart
  obtain ⟨result, last, hending, hanswer⟩ := answer_of_start? make.toBuilder hstart
  obtain ⟨rfl, hlast⟩ := hm.build hbegins hending
  rw [hanswer]
  exact ⟨rfl, hlast⟩

/-- An answer that is written to the log leaves everything else as it is. -/
theorem record {event : Event} (hm : h.Mirrors s) : (h.record event).Mirrors s :=
  ⟨hm.files_eq, hm.made_eq, hm.calls_eq, hm.slot_eq⟩

/-- A visit to a host is a visit to its shelf. -/
theorem visit (hm : h.Mirrors s) (v : Visit) :
    (h.visit v).1 = (s.visit v).1 ∧ (h.visit v).2.Mirrors (s.visit v).2 := by
  obtain ⟨e, make, errand⟩ := v
  suffices hanswer : (h.answer e make.toBuilder errand.request).1 = (s.visit ⟨e, make, errand⟩).1 ∧
      (h.answer e make.toBuilder errand.request).2.Mirrors (s.visit ⟨e, make, errand⟩).2 from
    ⟨hanswer.1, hanswer.2.record⟩
  cases errand with
  | offer path route =>
    simp only [Shelf.visit, Errand.request]
    cases hkept : s.kept (.ofPath path) with
    | some file =>
      have hnone : h.start? e (.tryCreateFile path route) = none := by
        rw [start?, hm.get?_eq, hkept, if_neg (by simp)]
      rw [answer_tryCreateFile_of_no_start hnone, hm.get?_eq, hkept]
      exact ⟨rfl, hm⟩
    | none =>
      simp only
      split
      · next haccepts =>
        obtain ⟨start, hclaim⟩ := hm.exists_claimFor? ⟨path, path, route⟩ hkept
        have hstart : h.start? e (.tryCreateFile path route) = some start := by
          rw [start?, hm.get?_eq, if_pos ⟨hkept, haccepts⟩, hclaim]
        rw [← (of_claimFor? hclaim).1]
        exact hm.answer_of_start make hstart
      · next haccepts =>
        have hnone : h.start? e (.tryCreateFile path route) = none := by
          rw [start?, if_neg (fun hpath => haccepts hpath.2)]
        rw [answer_tryCreateFile_of_no_start hnone, hm.get?_eq, hkept]
        exact ⟨rfl, hm⟩
  | create call =>
    simp only [Shelf.visit, Errand.request]
    cases hkept : s.kept (.ofPath call.output) with
    | some file =>
      rw [answer_create_of_no_start (hm.claimFor?_eq_none hkept)]
      exact ⟨rfl, hm⟩
    | none =>
      obtain ⟨start, hclaim⟩ := hm.exists_claimFor? call hkept
      obtain ⟨rfl, -⟩ := of_claimFor? hclaim
      exact hm.answer_of_start make hclaim
  | invalidate path =>
    refine ⟨?_, hm.files_eq, hm.made_eq, hm.calls_eq, fun key => ?_⟩
    · change Answer.removed (h.cache.slot? _).isSome = .removed _
      rw [hm.slot_eq, Option.isSome_map]
    · change (h.cache.erase _).slot? key = _
      rw [Cache.slot?_erase, hm.slot_eq]
      simp only [Shelf.visit, Function.update_apply]
      split <;> rfl
  | clear => exact ⟨rfl, hm.files_eq, hm.made_eq, hm.calls_eq, fun key => rfl⟩
  | change edit =>
    refine ⟨rfl, ?_, hm.made_eq, hm.calls_eq, hm.slot_eq⟩
    change h.files.apply edit = s.files.apply edit
    rw [hm.files_eq]

theorem visitAll (hm : h.Mirrors s) (visits : List Visit) :
    (h.visitAll visits).1 = (s.visitAll visits).1 ∧
      (h.visitAll visits).2.Mirrors (s.visitAll visits).2 := by
  -- each visit finds the host and the shelf as the visits before have left them
  induction visits generalizing h s with
  | nil => exact ⟨rfl, hm⟩
  | cons v rest ih =>
    obtain ⟨hfirst, hnext⟩ := hm.visit v
    obtain ⟨hrest, hlast⟩ := ih hnext
    exact ⟨congrArg₂ List.cons hfirst hrest, hlast⟩

end Mirrors

/-- Visits to a host are visits to its shelf, with the same answers and the same builder calls.
Visitors who get files for spellings of one path get the same file, unless the path was invalidated
or everything was cleared between them, and nothing is built for the later ones. -/
theorem visitAll_mirrors (hm : h.Mirrors s) (visits : List Visit) :
    (h.visitAll visits).1 = (s.visitAll visits).1 ∧
      (h.visitAll visits).2.Mirrors (s.visitAll visits).2 ∧
      ∀ before v between w after key file other first last,
        visits = before ++ v :: (between ++ w :: after) →
        first = (h.visitAll before).2 → last = ((first.visit v).2.visitAll between).2 →
        v.errand.request.key? = some key → w.errand.request.key? = some key →
        (∀ u ∈ between, ¬ u.errand.request.Ends key) →
        (first.visit v).1.file? = some file → (last.visit w).1.file? = some other →
        other = file ∧ (last.visit w).2.calls = last.calls := by
  obtain ⟨hanswers, hlast⟩ := hm.visitAll visits
  refine ⟨hanswers, hlast, ?_⟩
  rintro before v between w after key file other first last - rfl rfl hv hw hends hfile hother
  -- the hosts at both visits and the shelves that they mirror
  obtain ⟨-, hfirst⟩ := hm.visitAll before
  obtain ⟨hfirstAnswer, hnext⟩ := hfirst.visit v
  obtain ⟨-, hmiddle⟩ := hnext.visitAll between
  obtain ⟨hlastAnswer, hend⟩ := hmiddle.visit w
  rw [hfirstAnswer] at hfile
  rw [hlastAnswer] at hother
  obtain ⟨hsame, hshelf⟩ := Shelf.shared hv hw hends hfile hother
  refine ⟨hsame, ?_⟩
  rw [hend.calls_eq, hshelf, hmiddle.calls_eq]

/-- A host that opens a path of that spelling while the builder makes this of it. -/
def offerTo (spelling : String) (outcome : Except String Container) : Visit :=
  ⟨{}, fun _ _ files => (outcome, files), .offer (.ofString spelling) ""⟩

/-- The builder fails, succeeds for another spelling of the path, and would then fail again. -/
theorem visitAll_mirrors_retry : ∃ (first last : Host) (file other : VirtualFile),
    first = (visitAll {} [offerTo "a.utoc" (.error "later")]).2 ∧
      last = (first.visit (offerTo "A.UTOC" (.ok { header := [1, 2] }))).2 ∧
      (first.visit (offerTo "A.UTOC" (.ok { header := [1, 2] }))).1.file? = some file ∧
      (last.visit (offerTo "a.utoc" (.error "later"))).1.file? = some other ∧
      last.calls.length = 2 ∧ other = file ∧
      (last.visit (offerTo "a.utoc" (.error "later"))).2.calls = last.calls := by
  have hm : Mirrors {} {} := ⟨rfl, rfl, rfl, fun key => rfl⟩
  -- both files are there, and two calls were made for the first one
  have hfile : ((visitAll {} [offerTo "a.utoc" (.error "later")]).2.visit
      (offerTo "A.UTOC" (.ok { header := [1, 2] }))).1.file?.isSome = true := by decide +kernel
  have hother : (((visitAll {} [offerTo "a.utoc" (.error "later")]).2.visit
      (offerTo "A.UTOC" (.ok { header := [1, 2] }))).2.visit
      (offerTo "a.utoc" (.error "later"))).1.file?.isSome = true := by decide +kernel
  have hcalls : ((visitAll {} [offerTo "a.utoc" (.error "later")]).2.visit
      (offerTo "A.UTOC" (.ok { header := [1, 2] }))).2.calls.length = 2 := by decide +kernel
  obtain ⟨file, hfile⟩ := Option.isSome_iff_exists.mp hfile
  obtain ⟨other, hother⟩ := Option.isSome_iff_exists.mp hother
  have hkey : (offerTo "A.UTOC" (.ok { header := [1, 2] })).errand.request.key? =
      some (.ofPath (.ofString "a.utoc")) := by decide +kernel
  have hlater : (offerTo "a.utoc" (.error "later")).errand.request.key? =
      some (.ofPath (.ofString "a.utoc")) := rfl
  obtain ⟨-, -, hshared⟩ := visitAll_mirrors hm
    [offerTo "a.utoc" (.error "later"), offerTo "A.UTOC" (.ok { header := [1, 2] }),
      offerTo "a.utoc" (.error "later")]
  obtain ⟨hsame, hnone⟩ := hshared [offerTo "a.utoc" (.error "later")]
    (offerTo "A.UTOC" (.ok { header := [1, 2] })) [] (offerTo "a.utoc" (.error "later")) []
    (.ofPath (.ofString "a.utoc")) file other _ _ rfl rfl (visitAll_nil_snd _).symm hkey hlater
    (fun u hu => absurd hu List.not_mem_nil) hfile hother
  exact ⟨_, _, file, other, rfl, rfl, hfile, hother, hcalls, hsame, hnone⟩

end Host

end VirtualFiles
