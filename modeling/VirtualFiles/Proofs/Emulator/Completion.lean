import VirtualFiles.Proofs.Emulator.Nesting

/-!
# What a call leaves in the cache

While a file is being built, its key has a placeholder, and the calls nested in it may put further
ones. When a call is over, whatever failed in it, all of them are gone: the cache has no other
placeholders than those of the calls around it. The file is stored unless its key was ended during
the build, and then its completion is without effect.

Nobody but a request that claims a path for good leaves a placeholder behind. Such requests come
from outside of all emulators, and the runs of this file have none.

## Main definitions

* `Host.Orderly` — all placeholders belong to calls in progress or were there before the run

## Main results

* `orderly_of_reaches` — this holds at all moments of a run
* `awaits_iff_of_call` — a claim is awaited at the end of its call if its key was not ended
* `stored_iff_of_call` — and only then the file of the call is stored
* `left_by_request` — what is left of a request at any moment of a run
-/

namespace VirtualFiles

namespace Host

variable {h now now' returned last : Host} {s : Start} {events : List Event} {file : VirtualFile}

/-- All placeholders belong to calls in progress or were there at the beginning. -/
structure Orderly (h now : Host) : Prop where
  stacked : now.Stacked
  placed : ∀ key g, now.cache.slot? key = some (.building g) →
    h.cache.slot? key = some (.building g) ∨ key ∈ now.keysInProgress

namespace Orderly

theorem start (hidle : h.inProgress = []) : h.Orderly h where
  stacked := by
    intro number hnumber
    rw [hidle] at hnumber
    cases hnumber
  placed := fun _ _ hslot => .inl hslot

/-- A call that begins brings its own placeholder. -/
theorem enter (ho : h.Orderly now) (hbegins : now.Begins s) : h.Orderly s.inner where
  stacked := hbegins.stacked ho.stacked
  placed := by
    intro key g hslot
    rw [hbegins.keysInProgress_eq ho.stacked, List.mem_cons]
    by_cases hkey : key = s.claim.key
    · exact .inr (.inl hkey)
    · rw [hbegins.claimed.slot?_of_ne hkey] at hslot
      exact (ho.placed key g hslot).imp_right .inr

/-- A request that was answered has left no placeholder. -/
theorem follows (ho : h.Orderly now) (hf : now.Follows now' events)
    (hheld : ¬ AnsweredIn (·.isHold) events) : h.Orderly now' where
  stacked := hf.stacked ho.stacked
  placed := by
    intro key g hslot
    rw [hf.keysInProgress_eq ho.stacked]
    exact ho.placed key g ((hf.building_iff hheld).mp hslot).1

/-- Outside of all calls there are only the placeholders from the beginning. -/
theorem slot?_of_idle (ho : h.Orderly now) (hidle : now.inProgress = []) {key : CacheKey}
    {g : UInt64} (hslot : now.cache.slot? key = some (.building g)) :
    h.cache.slot? key = some (.building g) := by
  refine (ho.placed key g hslot).resolve_right ?_
  rw [keysInProgress_of_inProgress_nil hidle]
  exact List.not_mem_nil

end Orderly

/-- A claim is awaited at the end of its call if and only if its key was not ended in between. -/
theorem awaits_iff_of_call (hbegins : h.Begins s) (hinner : s.inner.Follows returned events)
    (hheld : ¬ AnsweredIn (·.isHold) events) :
    returned.cache.Awaits s.claim ↔ ¬ AnsweredIn (Request.Ends s.claim.key) events := by
  rw [Cache.Awaits, hinner.building_iff hheld]
  exact and_iff_right hbegins.claimed.awaits

/-- The file of a call is stored if and only if its key was not ended during the call. If it was,
completing the claim changes nothing. -/
theorem stored_iff_of_call (hbegins : h.Begins s) (hinner : s.inner.Follows returned events)
    (hheld : ¬ AnsweredIn (·.isHold) events)
    (hsettled : Settled s { returned with inProgress := h.inProgress } (.ok file) last) :
    (last.cache.slot? s.claim.key = some (.ready file) ↔
      ¬ AnsweredIn (Request.Ends s.claim.key) events) ∧
    (AnsweredIn (Request.Ends s.claim.key) events → last.cache = returned.cache) := by
  have hawaits := awaits_iff_of_call hbegins hinner hheld
  have hsame : AnsweredIn (Request.Ends s.claim.key) events → last.cache = returned.cache :=
    fun hended => hsettled.cache_of_not_awaits fun h => hawaits.mp h hended
  refine ⟨⟨?_, fun hended => hsettled.slot_of_awaits (hawaits.mpr hended)⟩, hsame⟩
  intro hslot hended
  rw [hsame hended] at hslot
  rcases hinner.ready _ file hslot with hold | ⟨-, hlt⟩
  · -- at the start of the call, the entry of the key was a placeholder
    cases hold.symm.trans hbegins.claimed.awaits
  · -- the file was made after everything else that the call made
    have hnumber : file.number = returned.made.length := hsettled.number_eq file rfl
    exact absurd hnumber (Nat.ne_of_lt hlt)

end Host

namespace Script

open Host

variable {s : Script} {h now after : Host} {e : Emulator} {request : Request} {start : Start}
variable {nested : Nat → BuildCall → Script} {resume : Answer → Script} {m : Script × Host}

/-- At all moments of a run, all placeholders belong to calls in progress or were there before. -/
theorem orderly_of_reaches (hidle : h.inProgress = [])
    (hheld : ¬ AnsweredIn (·.isHold) (h.since (s.play h).2)) (hreach : Reaches (s, h) m) :
    h.Orderly m.2 := by
  induction hreach with
  | refl => exact .start hidle
  | tail hbefore hlead ih =>
    cases hlead with
    | enter hs => exact ih.enter (of_start? hs).1
    | resume =>
      exact ih.follows (follows_ask _ _ _ _) fun hp => hheld (Reaches.answeredIn_perform hbefore hp)

/-- What is left of a request at any moment of a run. All placeholders behind it were there before
it, and their keys have not been ended since; outside of all calls they were there before the run.
If a file was built for the request, it is in the cache unless its key was ended during the build,
and in this case its completion has changed nothing. -/
theorem left_by_request (hidle : h.inProgress = [])
    (hheld : ¬ AnsweredIn (·.isHold) (h.since (s.play h).2))
    (hreach : Reaches (s, h) (ask e request nested resume, now))
    (hafter : after = (now.perform e (builder nested) request).2) :
    (∀ key g, after.cache.slot? key = some (.building g) →
      now.cache.slot? key = some (.building g) ∧
        ¬ AnsweredIn (Request.Ends key) (now.since after)) ∧
    (now.inProgress = [] → ∀ key g, after.cache.slot? key = some (.building g) →
      h.cache.slot? key = some (.building g)) ∧
    (∀ call file, (now.perform e (builder nested) request).1 = .created (.ok file) →
      request = .create call → ∃ start, now.start? e request = some start ∧ start.call = call) ∧
    ∀ start returned file, now.start? e request = some start →
      returned = (now.called (builder nested) start).2 →
      (now.perform e (builder nested) request).1.file? = some file →
      (after.cache.slot? (.ofPath start.call.output) = some (.ready file) ↔
        ¬ AnsweredIn (Request.Ends (.ofPath start.call.output)) (start.inner.since returned)) ∧
      (AnsweredIn (Request.Ends (.ofPath start.call.output)) (start.inner.since returned) →
        after.cache = returned.cache) := by
  subst hafter
  have hf := follows_ask now e request nested
  have hnone : ¬ AnsweredIn (·.isHold) (now.since (now.perform e (builder nested) request).2) :=
    fun hp => hheld (Reaches.answeredIn_perform hreach hp)
  have horderly := orderly_of_reaches hidle hheld hreach
  refine ⟨fun key g => (hf.building_iff hnone).mp, ?_, ?_, ?_⟩
  · -- outside of all calls, no call in progress can own a placeholder
    intro houtermost key g hslot
    exact (horderly.follows hf hnone).slot?_of_idle (hf.inProgress_eq.trans houtermost) hslot
  · rintro call file hanswer rfl
    cases hs : now.start? e (.create call) with
    | some start => exact ⟨start, rfl, (of_claimFor? hs).1⟩
    | none =>
      rw [perform_eq, answer_create_of_no_start hs] at hanswer
      cases hanswer
  · rintro start returned file hs rfl hfile
    obtain ⟨hbegins, -⟩ := of_start? hs
    obtain ⟨result, last, step, events, hsettled, hperform, -, hinner, hcall⟩ :=
      perform_of_start? hs nested
    rw [hperform] at hfile hf hnone ⊢
    rw [hcall.since_eq] at hnone
    have hinnerHeld : ¬ AnsweredIn (·.isHold) events := fun hp =>
      hnone (answeredIn_append.mpr (.inl (answeredIn_entered.mpr hp)))
    rw [Request.file?_reply, Outcome.toOption_eq_some_iff] at hfile
    subst hfile
    have hsince : start.inner.since (now.called (builder nested) start).2 = events :=
      hinner.since_eq
    rw [hsince, ← hbegins.key_eq]
    -- the host behind a call has the cache that the builder left
    have hstored := stored_iff_of_call hbegins hinner hinnerHeld hsettled
    exact hstored

/-- The builder of the file `a` asks for `b`, for which it fails, invalidates `a`, and asks for `a`,
which is built inside the call that is building it. -/
def rebuildInside : Nat → BuildCall → Script :=
  fun _ _ => ofRequests
    (fun number _ => .finish (if number = 1 then .error "no" else .ok { header := [2] }))
    (.ok { header := [1] })
    [({}, .create ⟨⟨[0x61]⟩, ⟨[0x62]⟩, ""⟩), ({}, .invalidate ⟨[0x61]⟩),
      ({}, .create ⟨⟨[0x61]⟩, ⟨[0x61]⟩, ""⟩)]

/-- The file of the outer call is not stored, and the cache is as the inner calls have left it. -/
theorem left_by_request_rebuildInside : ∃ (after returned : Host) (file : VirtualFile),
    after = (perform {} {} (builder rebuildInside) (.create ⟨⟨[0x61]⟩, ⟨[0x61]⟩, ""⟩)).2 ∧
      (perform {} {} (builder rebuildInside) (.create ⟨⟨[0x61]⟩, ⟨[0x61]⟩, ""⟩)).1.file? =
        some file ∧
      file.number = 1 ∧ after.cache = returned.cache ∧
      (after.cache.get? ⟨[0x61]⟩).map VirtualFile.number = some 0 ∧
      ∀ key g, after.cache.slot? key ≠ some (.building g) := by
  have hheld : ¬ AnsweredIn (·.isHold) (since {} ((ask {} (.create ⟨⟨[0x61]⟩, ⟨[0x61]⟩, ""⟩)
      rebuildInside fun _ => .finish (.ok {})).play {}).2) := by decide +kernel
  have hnumber : ((perform {} {} (builder rebuildInside)
      (.create ⟨⟨[0x61]⟩, ⟨[0x61]⟩, ""⟩)).1.file?).map VirtualFile.number = some 1 := by
    decide +kernel
  have hinner : ((perform {} {} (builder rebuildInside)
      (.create ⟨⟨[0x61]⟩, ⟨[0x61]⟩, ""⟩)).2.cache.get? ⟨[0x61]⟩).map VirtualFile.number =
        some 0 := by
    decide +kernel
  have hstart : (start? {} {} (.create ⟨⟨[0x61]⟩, ⟨[0x61]⟩, ""⟩)).isSome = true := by
    decide +kernel
  obtain ⟨start, hs⟩ := Option.isSome_iff_exists.mp hstart
  obtain ⟨file, hfile, hone⟩ := Option.map_eq_some_iff.mp hnumber
  obtain ⟨-, hplaced, -, hleft⟩ := left_by_request rfl hheld .refl rfl
  obtain ⟨hstored, hsame⟩ := hleft start _ file hs rfl hfile
  refine ⟨_, _, file, rfl, hfile, hone, hsame ?_, hinner, fun key g hslot => ?_⟩
  · -- if the key were not ended, the file with the number 1 would be there
    by_contra hnot
    have hready := hstored.mpr hnot
    rw [(of_claimFor? hs).1] at hready
    rw [Cache.get?, Cache.lookup, hready] at hinner
    have hzero : file.number = 0 := Option.some.inj hinner
    omega
  · cases hplaced rfl key g hslot

end Script

end VirtualFiles
