import Mathlib.Logic.Relation
import VirtualFiles.Proofs.Emulator.Creating
import VirtualFiles.Proofs.Outcome

/-!
# Nested calls

While a builder is being called, it may ask for files itself, and so may the builder in the calls
that this leads to. The tree of these calls is the run of a script. This file describes what a
part of a run can do to the host, whatever is nested in it: the log and the lists of calls and
files grow, and a placeholder that was there before goes away only if its key is ended.

The moments of a run are the points at which a builder is about to ask for something or to give
its outcome. From one moment a run goes on to the next one of the same builder, or into a call.

## Main definitions

* `AnsweredIn`, `Host.since` — the requests that were answered in a part of a run
* `Host.Follows` — what a part of a run can do to the host
* `Script.Leads`, `Script.Reaches` — the moments of a run
* `Host.keysInProgress` — the keys of the calls that are not over yet

## Main results

* `Follows.of_call` — what a call does to the host, given what is nested in it
* `follows_perform`, `follows_play` — requests and runs follow these rules
* `Reaches.answeredIn` — what is answered from a moment on is answered in the run
-/

namespace VirtualFiles

/-- The request claims the key for good. -/
def Request.Holds (key : CacheKey) : Request → Prop
  | .claimAndHold path => .ofPath path = key
  | _ => False

/-- Does the request claim something for good? -/
def Request.isHold : Request → Bool
  | .claimAndHold _ => true
  | _ => false

/-- Does the request remove entries whatever their state? -/
def Request.isEnd : Request → Bool
  | .invalidate _ | .clear => true
  | _ => false

theorem Request.Holds.isHold {request : Request} {key : CacheKey} (h : request.Holds key) :
    request.isHold := by
  cases request with
  | claimAndHold path => rfl
  | _ => exact absurd h id

theorem Request.Ends.isEnd {request : Request} {key : CacheKey} (h : request.Ends key) :
    request.isEnd := by
  cases request with
  | invalidate path => rfl
  | clear => rfl
  | _ => exact absurd h id

/-- Some request of that kind was answered among the events. -/
def AnsweredIn (p : Request → Prop) (events : List Event) : Prop :=
  ∃ step, .answered step ∈ events ∧ p step.request

section AnsweredIn

variable {p q : Request → Prop} {events later : List Event} {step : Answered}

instance [DecidablePred p] : Decidable (AnsweredIn p events) :=
  decidable_of_iff (∃ step ∈ events.filterMap Event.answered?, p step.request) <| by
    simp only [AnsweredIn, List.mem_filterMap]
    constructor
    · rintro ⟨step, ⟨event | step', hmem, hstep⟩, hp⟩
      · cases hstep
      · cases hstep
        exact ⟨_, hmem, hp⟩
    · rintro ⟨step, hmem, hp⟩
      exact ⟨step, ⟨_, hmem, rfl⟩, hp⟩

theorem answeredIn_append :
    AnsweredIn p (events ++ later) ↔ AnsweredIn p events ∨ AnsweredIn p later := by
  simp only [AnsweredIn, List.mem_append, or_and_right, exists_or]

theorem answeredIn_singleton : AnsweredIn p [.answered step] ↔ p step.request := by
  simp [AnsweredIn]

/-- The beginning of a call answers nothing. -/
theorem answeredIn_entered {numbers : List Nat} :
    AnsweredIn p (.entered numbers :: events) ↔ AnsweredIn p events := by
  simp [AnsweredIn]

theorem not_answeredIn_nil : ¬ AnsweredIn p [] := by
  simp [AnsweredIn]

theorem AnsweredIn.imp (h : AnsweredIn p events) (himp : ∀ request, p request → q request) :
    AnsweredIn q events := by
  obtain ⟨step, hmem, hp⟩ := h
  exact ⟨step, hmem, himp _ hp⟩

end AnsweredIn

namespace Host

variable {h h' h'' last returned : Host} {e : Emulator} {build : Builder} {request : Request}
variable {s : Start} {events later : List Event} {step : Answered} {key : CacheKey}
variable {result : Except CreateError VirtualFile}

/-- What has been added to the log since then. -/
def since (h now : Host) : List Event := now.log.drop h.log.length

/-- What a part of a run can do to the host. The calls in progress are the same at its end, and so
are the placeholders, but for keys that were ended or claimed for good. A finished file that is in
the cache was there before or has been made since. -/
structure Follows (h h' : Host) (events : List Event) : Prop where
  log_eq : h'.log = h.log ++ events
  inProgress_eq : h'.inProgress = h.inProgress
  calls_prefix : h.calls <+: h'.calls
  made_prefix : h.made <+: h'.made
  keeps : ∀ key g, h.cache.slot? key = some (.building g) →
    ¬ AnsweredIn (Request.Ends key) events → h'.cache.slot? key = some (.building g)
  building : ∀ key g, h'.cache.slot? key = some (.building g) →
    (h.cache.slot? key = some (.building g) ∧ ¬ AnsweredIn (Request.Ends key) events) ∨
      AnsweredIn (Request.Holds key) events
  ready : ∀ key file, h'.cache.slot? key = some (.ready file) →
    h.cache.slot? key = some (.ready file) ∨
      (h.made.length ≤ file.number ∧ file.number < h'.made.length)

namespace Follows

theorem refl (h : Host) : h.Follows h [] where
  log_eq := (List.append_nil _).symm
  inProgress_eq := rfl
  calls_prefix := List.prefix_refl _
  made_prefix := List.prefix_refl _
  keeps := fun _ _ hslot _ => hslot
  building := fun _ _ hslot => .inl ⟨hslot, not_answeredIn_nil⟩
  ready := fun _ _ hslot => .inl hslot

theorem trans (hf : h.Follows h' events) (hf' : h'.Follows h'' later) :
    h.Follows h'' (events ++ later) where
  log_eq := by rw [hf'.log_eq, hf.log_eq, List.append_assoc]
  inProgress_eq := hf'.inProgress_eq.trans hf.inProgress_eq
  calls_prefix := hf.calls_prefix.trans hf'.calls_prefix
  made_prefix := hf.made_prefix.trans hf'.made_prefix
  keeps := by
    intro key g hslot hends
    rw [answeredIn_append, not_or] at hends
    exact hf'.keeps key g (hf.keeps key g hslot hends.1) hends.2
  building := by
    intro key g hslot
    rw [answeredIn_append, answeredIn_append, not_or]
    rcases hf'.building key g hslot with ⟨hslot, hlater⟩ | hheld
    · rcases hf.building key g hslot with ⟨hslot, hevents⟩ | hheld
      · exact .inl ⟨hslot, hevents, hlater⟩
      · exact .inr (.inl hheld)
    · exact .inr (.inr hheld)
  ready := by
    intro key file hslot
    -- files are numbered in the order in which they are made
    rcases hf'.ready key file hslot with hslot | ⟨hge, hlt⟩
    · rcases hf.ready key file hslot with hslot | ⟨hge, hlt⟩
      · exact .inl hslot
      · exact .inr ⟨hge, Nat.lt_of_lt_of_le hlt hf'.made_prefix.length_le⟩
    · exact .inr ⟨Nat.le_trans hf.made_prefix.length_le hge, hlt⟩

theorem since_eq (hf : h.Follows h' events) : h.since h' = events := by
  rw [since, hf.log_eq, List.drop_left]

/-- If nothing is claimed for good, the placeholders at the end are those from before whose keys
were not ended. -/
theorem building_iff (hf : h.Follows h' events)
    (hheld : ¬ AnsweredIn (·.isHold) events) {g : UInt64} :
    h'.cache.slot? key = some (.building g) ↔
      h.cache.slot? key = some (.building g) ∧ ¬ AnsweredIn (Request.Ends key) events := by
  constructor
  · intro hslot
    refine (hf.building key g hslot).resolve_right ?_
    intro h
    exact hheld (h.imp fun _ => Request.Holds.isHold)
  · rintro ⟨hslot, hends⟩
    exact hf.keeps key g hslot hends

/-- A request that makes no file, by what becomes of the entry of each key. -/
theorem of_answered (hlog : last.log = h.log ++ [.answered step])
    (hinProgress : last.inProgress = h.inProgress) (hcalls : last.calls = h.calls)
    (hmade : last.made = h.made)
    (hslots : ∀ key, (¬ step.request.Ends key ∧ last.cache.slot? key = h.cache.slot? key) ∨
      (step.request.Ends key ∧ last.cache.slot? key = none) ∨
      (step.request.Holds key ∧ h.cache.slot? key = none ∧
        ∃ g, last.cache.slot? key = some (.building g))) :
    h.Follows last [.answered step] where
  log_eq := hlog
  inProgress_eq := hinProgress
  calls_prefix := hcalls ▸ List.prefix_refl _
  made_prefix := hmade ▸ List.prefix_refl _
  keeps := by
    intro key g hslot hends
    rw [answeredIn_singleton] at hends
    rcases hslots key with ⟨-, hsame⟩ | ⟨hended, -⟩ | ⟨-, hnone, -⟩
    · exact hsame.trans hslot
    · exact absurd hended hends
    · cases hnone.symm.trans hslot
  building := by
    intro key g hslot
    rw [answeredIn_singleton, answeredIn_singleton]
    rcases hslots key with ⟨hends, hsame⟩ | ⟨-, hnone⟩ | ⟨hheld, -, -⟩
    · exact .inl ⟨hsame.symm.trans hslot, hends⟩
    · cases hnone.symm.trans hslot
    · exact .inr hheld
  ready := by
    intro key file hslot
    rcases hslots key with ⟨-, hsame⟩ | ⟨-, hnone⟩ | ⟨-, -, g, hbuilding⟩
    · exact .inl (hsame.symm.trans hslot)
    · cases hnone.symm.trans hslot
    · cases hbuilding.symm.trans hslot

/-- A part of a run and an entry of the log for it. -/
theorem record (hf : h.Follows last events) (hends : ∀ key, ¬ step.request.Ends key) :
    h.Follows (last.record (.answered step)) (events ++ [.answered step]) :=
  hf.trans (of_answered rfl rfl rfl rfl fun key => .inl ⟨hends key, rfl⟩)

/-- A call, with everything that is nested in it. Its own placeholder is gone at the end. -/
theorem of_call (hbegins : h.Begins s) (hinner : s.inner.Follows returned events)
    (hsettled : Settled s { returned with inProgress := h.inProgress } result last) :
    h.Follows last (.entered (h.calls.length :: h.inProgress) :: events) where
  log_eq := by
    rw [hsettled.log_eq, hinner.log_eq, hbegins.log_eq, List.append_assoc]
    rfl
  inProgress_eq := hsettled.inProgress_eq
  calls_prefix := by
    rw [hsettled.calls_eq]
    refine List.IsPrefix.trans ?_ hinner.calls_prefix
    rw [hbegins.calls_eq]
    exact List.prefix_append _ _
  made_prefix := by
    rw [hsettled.made_eq, ← hbegins.made_eq]
    exact hinner.made_prefix.trans (List.prefix_append _ _)
  keeps := by
    intro key g hslot hends
    rw [answeredIn_entered] at hends
    have hne : key ≠ s.claim.key := by
      rintro rfl
      cases hslot.symm.trans hbegins.claimed.absent
    rw [hsettled.slot_of_ne key hne]
    exact hinner.keeps key g ((hbegins.claimed.slot?_of_ne hne).trans hslot) hends
  building := by
    intro key g hslot
    rw [answeredIn_entered, answeredIn_entered]
    rcases hsettled.slot_cases hslot with ⟨_, -, hfile⟩ | ⟨hreturned, hown⟩
    · cases hfile
    · rcases hinner.building key g hreturned with ⟨hbuilding, hends⟩ | hheld
      · -- only the placeholder of the claim itself can have been there since the beginning
        have hne : key ≠ s.claim.key := by
          rintro rfl
          rw [hbegins.claimed.awaits] at hbuilding
          exact hown rfl (hreturned.trans hbuilding.symm)
        exact .inl ⟨(hbegins.claimed.slot?_of_ne hne).symm.trans hbuilding, hends⟩
      · exact .inr hheld
  ready := by
    intro key file hslot
    rw [hsettled.made_eq, List.length_append, ← hbegins.made_eq]
    rcases hsettled.slot_cases hslot with ⟨_, hresult, hfile⟩ | ⟨hreturned, -⟩
    · cases hfile
      -- the file of the call is the one made last
      have hnumber := hsettled.number_eq file hresult
      have hgrown := hinner.made_prefix.length_le
      right
      rw [hresult, hnumber]
      exact ⟨hgrown, Nat.lt_succ_self _⟩
    · rcases hinner.ready key file hreturned with hready | ⟨hge, hlt⟩
      · have hne : key ≠ s.claim.key := by
          rintro rfl
          rw [hbegins.claimed.awaits] at hready
          cases hready
        exact .inl ((hbegins.claimed.slot?_of_ne hne).symm.trans hready)
      · exact .inr ⟨hge, Nat.lt_add_right _ hlt⟩

end Follows

/-! ### Requests -/

/-- The entry that the log gets for a request. -/
def answeredStep (last : Host) (request : Request) (answer : Answer) : Answered where
  inProgress := last.inProgress
  request := request
  answer := answer
  entries := last.cache.size
  builds := last.calls.length

theorem perform_eq : h.perform e build request =
    ((h.answer e build request).1, (h.answer e build request).2.record
      (.answered (answeredStep (h.answer e build request).2 request
        (h.answer e build request).1))) := rfl

/-- Claiming a path and completing it with a new file at once. -/
theorem follows_publish (path : Path) (stream : VirtualStream) :
    h.Follows (h.publish path stream).2 [] := by
  unfold publish
  split
  · exact .refl h
  · next claim claimed hclaim =>
    obtain ⟨-, hclaimed⟩ := Cache.claimed_of_claim? hclaim
    have hslots : ∀ key, (claimed.complete claim ⟨h.made.length, stream⟩).2.slot? key =
        if key = claim.key then some (.ready ⟨h.made.length, stream⟩) else h.cache.slot? key :=
      fun key => hclaimed.slot?_complete
    have hfollows : h.Follows
        { h with cache := (claimed.complete claim ⟨h.made.length, stream⟩).2,
                 made := h.made ++ [stream] } [] := by
      constructor
      case made_prefix => exact List.prefix_append _ _
      case keeps =>
        intro key g hslot _
        refine (hslots key).trans ((if_neg ?_).trans hslot)
        rintro rfl
        cases hslot.symm.trans hclaimed.absent
      case building =>
        intro key g hslot
        have hslot := (hslots key).symm.trans hslot
        split at hslot
        · cases hslot
        · exact .inl ⟨hslot, not_answeredIn_nil⟩
      case ready =>
        intro key file hslot
        have hslot := (hslots key).symm.trans hslot
        split at hslot
        · cases hslot
          exact .inr ⟨Nat.le_refl _, by simp⟩
        · exact .inl hslot
      all_goals simp
    exact hfollows

/-- A path that is claimed for good keeps its placeholder, if there was room for one. -/
theorem follows_claimAndHold (e : Emulator) (build : Builder) (path : Path) :
    ∃ events, h.Follows (h.perform e build (.claimAndHold path)).2 events := by
  rw [perform_eq]
  cases hclaim : h.cache.claim? path with
  | none =>
    have hanswer : h.answer e build (.claimAndHold path) = (.held none, h) := by
      simp only [answer, hclaim]
    rw [hanswer]
    exact ⟨_, (Follows.refl h).record fun key => id⟩
  | some given =>
    obtain ⟨hpath, hclaimed⟩ := Cache.claimed_of_claim? hclaim
    have hanswer : h.answer e build (.claimAndHold path) =
        (.held (some given.1.generation), { h with cache := given.2 }) := by
      simp only [answer, hclaim]
    rw [hanswer]
    refine ⟨_, Follows.of_answered rfl rfl rfl rfl fun key => ?_⟩
    by_cases hkey : key = given.1.key
    · rw [hkey]
      exact .inr (.inr ⟨hpath.symm, hclaimed.absent, _, hclaimed.awaits⟩)
    · exact .inl ⟨id, hclaimed.slot?_of_ne hkey⟩

/-- A claim that is released at once leaves nothing behind. -/
theorem follows_claimAndRelease (e : Emulator) (build : Builder) (path : Path) :
    ∃ events, h.Follows (h.perform e build (.claimAndRelease path)).2 events := by
  rw [perform_eq]
  cases hclaim : h.cache.claim? path with
  | none =>
    have hanswer : h.answer e build (.claimAndRelease path) = (.claimed false, h) := by
      simp only [answer, hclaim]
    rw [hanswer]
    exact ⟨_, (Follows.refl h).record fun key => id⟩
  | some given =>
    obtain ⟨-, hclaimed⟩ := Cache.claimed_of_claim? hclaim
    have hanswer : h.answer e build (.claimAndRelease path) =
        (.claimed true, { h with cache := given.2.release given.1 }) := by
      simp only [answer, hclaim]
    rw [hanswer]
    exact ⟨_, Follows.of_answered rfl rfl rfl rfl fun key => .inl ⟨id, hclaimed.slot?_release⟩⟩

/-- Whatever is asked for, the host follows the rules if builders do. -/
theorem follows_perform (h : Host) (e : Emulator) (request : Request)
    (hbuild : ∀ number call (inner : Host),
      ∃ events, inner.Follows (build number call inner).2 events) :
    ∃ events, h.Follows (h.perform e build request).2 events := by
  rw [perform_eq]
  cases hs : h.start? e request with
  | some start =>
    obtain ⟨hbegins, hrequest⟩ := of_start? hs
    obtain ⟨result, last, hending, hanswer⟩ := answer_of_start? build hs
    obtain ⟨events, hinner⟩ := hbuild h.calls.length start.call start.inner
    rw [hanswer]
    refine ⟨_, (Follows.of_call hbegins hinner hending.settled).record fun key => ?_⟩
    -- a request that leads to a call ends no key
    rcases hrequest with rfl | ⟨path, route, rfl, -⟩ <;> exact id
  | none =>
    -- all other requests are over at once, with one entry of the log
    cases request with
    | create call =>
      rw [answer_create_of_no_start hs]
      exact ⟨_, (Follows.refl h).record fun key => id⟩
    | tryCreateFile path route =>
      rw [answer_tryCreateFile_of_no_start hs]
      exact ⟨_, (Follows.refl h).record fun key => id⟩
    | invalidate path =>
      refine ⟨_, Follows.of_answered rfl rfl rfl rfl fun key => ?_⟩
      by_cases hkey : CacheKey.ofPath path = key
      · exact .inr (.inl ⟨hkey, Cache.slot?_erase.trans (if_pos hkey.symm)⟩)
      · exact .inl ⟨hkey, Cache.slot?_erase.trans (if_neg (Ne.symm hkey))⟩
    | clear =>
      exact ⟨_, Follows.of_answered rfl rfl rfl rfl fun key => .inr (.inl ⟨trivial, rfl⟩)⟩
    | claimAndHold path => exact follows_claimAndHold e build path
    | claimAndRelease path => exact follows_claimAndRelease e build path
    | claimAndComplete path stream =>
      exact ⟨_, (follows_publish path stream).record fun key => id⟩
    | _ => exact ⟨_, Follows.of_answered rfl rfl rfl rfl fun key => .inl ⟨id, rfl⟩⟩

end Host

namespace Script

open Host

variable {s t : Script} {h now : Host} {e : Emulator} {request : Request} {start : Start}
variable {nested : Nat → BuildCall → Script} {resume : Answer → Script}

/-- The builder whose calls go by these scripts. -/
def builder (nested : Nat → BuildCall → Script) : Builder :=
  fun number call inner => (nested number call).play inner

theorem play_ask : (ask e request nested resume).play h =
    (resume (h.perform e (builder nested) request).1).play
      (h.perform e (builder nested) request).2 := rfl

theorem exists_follows_play (s : Script) (h : Host) : ∃ events, h.Follows (s.play h).2 events := by
  induction s generalizing h with
  | finish outcome => exact ⟨[], .refl h⟩
  | ask e request nested resume ihNested ihResume =>
    -- the scripts of the nested calls are parts of this one, so their builder follows the rules
    obtain ⟨events, hfirst⟩ := follows_perform h e request ihNested
    obtain ⟨later, hrest⟩ := ihResume _ _
    exact ⟨events ++ later, hfirst.trans hrest⟩

/-- A run follows the rules, whatever it asks for and however deeply calls are nested in it. -/
theorem follows_play (s : Script) (h : Host) : h.Follows (s.play h).2 (h.since (s.play h).2) := by
  obtain ⟨events, hf⟩ := exists_follows_play s h
  rwa [hf.since_eq]

theorem exists_follows_builder (nested : Nat → BuildCall → Script) (number : Nat)
    (call : BuildCall) (inner : Host) :
    ∃ events, inner.Follows (builder nested number call inner).2 events :=
  exists_follows_play (nested number call) inner

/-- So does every request of a run. -/
theorem follows_ask (h : Host) (e : Emulator) (request : Request)
    (nested : Nat → BuildCall → Script) :
    h.Follows (h.perform e (builder nested) request).2
      (h.since (h.perform e (builder nested) request).2) := by
  obtain ⟨events, hf⟩ := follows_perform h e request (exists_follows_builder nested)
  rwa [hf.since_eq]

/-! ### Moments -/

/-- From one moment of a run to another: into the call that a request leads to, or behind the
request. -/
inductive Leads : Script × Host → Script × Host → Prop
  | enter {e : Emulator} {request : Request} {nested : Nat → BuildCall → Script}
    {resume : Answer → Script} {h : Host} {start : Start}
    (hs : h.start? e request = some start) :
    Leads (ask e request nested resume, h) (nested h.calls.length start.call, start.inner)
  | resume {e : Emulator} {request : Request} {nested : Nat → BuildCall → Script}
    {resume : Answer → Script} {h : Host} :
    Leads (ask e request nested resume, h)
      (resume (h.perform e (builder nested) request).1, (h.perform e (builder nested) request).2)

/-- The second is a moment of the run that starts with the first. -/
abbrev Reaches : Script × Host → Script × Host → Prop := Relation.ReflTransGen Leads

/-- A request that leads to a call, with everything that is nested in the call. -/
theorem perform_of_start? (hs : h.start? e request = some start)
    (nested : Nat → BuildCall → Script) : ∃ result last step events,
    Settled start (h.called (builder nested) start).2 result last ∧
      h.perform e (builder nested) request =
        (request.reply result, last.record (.answered step)) ∧
      step.request = request ∧
      start.inner.Follows ((nested h.calls.length start.call).play start.inner).2 events ∧
      h.Follows (last.record (.answered step))
        (.entered (h.calls.length :: h.inProgress) :: events ++ [.answered step]) := by
  obtain ⟨hbegins, hrequest⟩ := of_start? hs
  obtain ⟨result, last, hending, hanswer⟩ := answer_of_start? (builder nested) hs
  have hinner := follows_play (nested h.calls.length start.call) start.inner
  have hends : ∀ key, ¬ request.Ends key := by
    intro key
    rcases hrequest with rfl | ⟨path, route, rfl, -⟩ <;> exact id
  refine ⟨result, last, answeredStep last request (request.reply result), _, hending.settled, ?_,
    rfl, hinner, (Follows.of_call hbegins hinner hending.settled).record hends⟩
  rw [perform_eq, hanswer]

/-- What is answered from the next moment on is answered from this one on. -/
theorem Leads.answeredIn {p : Request → Prop} {m m' : Script × Host} (hlead : Leads m m')
    (hp : AnsweredIn p (m'.2.since (m'.1.play m'.2).2)) :
    AnsweredIn p (m.2.since (m.1.play m.2).2) := by
  cases hlead with
  | @enter e request nested resume h start hs =>
    obtain ⟨result, last, step, events, -, hperform, -, hinner, hf⟩ := perform_of_start? hs nested
    simp only [hinner.since_eq] at hp
    simp only [play_ask, hperform]
    rw [(hf.trans (follows_play _ _)).since_eq]
    -- the call is a part of the log between its beginning and the answer
    exact answeredIn_append.mpr (.inl (answeredIn_append.mpr (.inl (answeredIn_entered.mpr hp))))
  | @resume e request nested resume h =>
    simp only [play_ask]
    rw [((follows_ask h e request nested).trans (follows_play _ _)).since_eq]
    exact answeredIn_append.mpr (.inr hp)

/-- What is answered from some moment of a run on is answered in the run. -/
theorem Reaches.answeredIn {p : Request → Prop} {m m' : Script × Host} (hreach : Reaches m m')
    (hp : AnsweredIn p (m'.2.since (m'.1.play m'.2).2)) :
    AnsweredIn p (m.2.since (m.1.play m.2).2) := by
  induction hreach with
  | refl => exact hp
  | tail _ hlead ih => exact ih (hlead.answeredIn hp)

/-- What is answered by a request at some moment of a run is answered in the run. -/
theorem Reaches.answeredIn_perform {p : Request → Prop} {m : Script × Host}
    (hreach : Reaches m (ask e request nested resume, now))
    (hp : AnsweredIn p (now.since (now.perform e (builder nested) request).2)) :
    AnsweredIn p (m.2.since (m.1.play m.2).2) := by
  refine hreach.answeredIn ?_
  simp only [play_ask]
  rw [((follows_ask now e request nested).trans (follows_play _ _)).since_eq]
  exact answeredIn_append.mpr (.inl hp)

/-! ### Calls in progress -/

end Script

namespace Host

variable {h h' : Host} {s : Start} {events : List Event}

/-- The keys of the calls that are not over yet, innermost first. -/
def keysInProgress (h : Host) : List CacheKey :=
  h.inProgress.filterMap fun number => h.calls[number]?.map fun call => .ofPath call.output

/-- The calls in progress have begun. -/
def Stacked (h : Host) : Prop := ∀ number ∈ h.inProgress, number < h.calls.length

theorem keysInProgress_of_inProgress_nil (hidle : h.inProgress = []) : h.keysInProgress = [] := by
  rw [keysInProgress, hidle]
  rfl

/-- More calls change nothing for those in progress. -/
theorem keysInProgress_of_prefix (hstacked : h.Stacked) (hinProgress : h'.inProgress = h.inProgress)
    (hcalls : h.calls <+: h'.calls) : h'.keysInProgress = h.keysInProgress := by
  rw [keysInProgress, keysInProgress, hinProgress]
  apply List.filterMap_congr
  intro number hnumber
  obtain ⟨later, hlater⟩ := hcalls
  rw [← hlater, List.getElem?_append_left (hstacked number hnumber)]

theorem length_keysInProgress (hstacked : h.Stacked) :
    h.keysInProgress.length = h.inProgress.length := by
  rw [keysInProgress, List.filterMap_length_eq_length]
  intro number hnumber
  rw [Option.isSome_map, List.getElem?_eq_getElem (hstacked number hnumber)]
  rfl

namespace Begins

/-- A call that begins is the innermost one. -/
theorem keysInProgress_eq (hbegins : h.Begins s) (hstacked : h.Stacked) :
    s.inner.keysInProgress = s.claim.key :: h.keysInProgress := by
  -- the host with the new call in its list, but not yet in progress
  have hlisted : keysInProgress { s.inner with inProgress := h.inProgress } = h.keysInProgress := by
    refine keysInProgress_of_prefix hstacked rfl ?_
    rw [hbegins.calls_eq]
    exact List.prefix_append _ _
  have hnew : s.inner.calls[h.calls.length]? = some s.call := by
    rw [hbegins.calls_eq, List.getElem?_concat_length]
  rw [← hlisted, keysInProgress, hbegins.inProgress_eq, List.filterMap_cons, hnew, hbegins.key_eq]
  rfl

theorem stacked (hbegins : h.Begins s) (hstacked : h.Stacked) : s.inner.Stacked := by
  intro number hnumber
  rw [hbegins.inProgress_eq] at hnumber
  rw [hbegins.calls_eq, List.length_append]
  rcases List.mem_cons.mp hnumber with rfl | hmem
  · exact Nat.lt_succ_self _
  · exact Nat.lt_add_right _ (hstacked number hmem)

end Begins

namespace Follows

theorem stacked (hf : h.Follows h' events) (hstacked : h.Stacked) : h'.Stacked := by
  intro number hnumber
  rw [hf.inProgress_eq] at hnumber
  exact Nat.lt_of_lt_of_le (hstacked number hnumber) hf.calls_prefix.length_le

theorem keysInProgress_eq (hf : h.Follows h' events) (hstacked : h.Stacked) :
    h'.keysInProgress = h.keysInProgress :=
  keysInProgress_of_prefix hstacked hf.inProgress_eq hf.calls_prefix

end Follows

end Host

end VirtualFiles
