import Mathlib.Data.Finset.Card
import VirtualFiles.Proofs.Emulator.Nesting

/-!
# Requests that lead back to themselves

A builder that asks for the file it is building, directly or through files that need each other,
would never come to an end if it were called again. The placeholder of the file prevents this: as
long as nobody invalidates anything, it stays until the call is over, so a path that is being built
cannot be claimed, and the calls in progress have different keys. The number of paths that are asked
for is therefore a bound on how deeply calls are nested.

## Main definitions

* `Host.Guarded` — the keys of the calls in progress have placeholders and are different
* `Script.Requested` — a request for the key is made in a run

## Main results

* `refused_of_building` — a path with a placeholder is refused without a call
* `guarded_of_reaches` — hosts are guarded at all moments of a run
* `requested_of_reaches` — what is being built was asked for
* `recursion_guard` — all of this for runs in which nothing is invalidated
-/

namespace VirtualFiles

namespace Host

variable {h h' : Host} {s : Start} {events : List Event} {e : Emulator} {build : Builder}

/-- The calls in progress have different keys, and each of these has a placeholder. -/
structure Guarded (h : Host) : Prop where
  stacked : h.Stacked
  nodup : h.keysInProgress.Nodup
  placed : ∀ key ∈ h.keysInProgress, ∃ g, h.cache.slot? key = some (.building g)

/-- A path with a placeholder is refused, and nothing changes. -/
theorem refused_of_building {path : Path} {g : UInt64}
    (hslot : h.cache.slot? (.ofPath path) = some (.building g)) :
    (∀ route, h.tryCreateFile e build path route = (none, h)) ∧
      ∀ call : BuildCall, call.output = path →
        h.create e build call = (.error (.cacheConflict path), h) := by
  have hclaim : ∀ call : BuildCall, call.output = path → h.claimFor? call = none := by
    rintro call rfl
    rw [claimFor?_eq_none_iff, hslot]
    exact Option.some_ne_none _
  constructor
  · intro route
    have hstart : h.start? e (.tryCreateFile path route) = none := by
      rw [start?]
      split
      · exact hclaim ⟨path, path, route⟩ rfl
      · rfl
    rw [tryCreateFile_of_no_start hstart, Cache.get?, Cache.lookup, hslot]
    rfl
  · rintro call rfl
    exact create_of_taken (hclaim call rfl)

namespace Guarded

theorem start (hidle : h.inProgress = []) : h.Guarded where
  stacked := by
    intro number hnumber
    rw [hidle] at hnumber
    cases hnumber
  nodup := by
    rw [keysInProgress_of_inProgress_nil hidle]
    exact .nil
  placed := by
    intro key hkey
    rw [keysInProgress_of_inProgress_nil hidle] at hkey
    cases hkey

/-- Only a path without a placeholder can be claimed, so a call that begins has a new key. -/
theorem enter (hg : h.Guarded) (hbegins : h.Begins s) : s.inner.Guarded := by
  have hkeys := hbegins.keysInProgress_eq hg.stacked
  -- a placeholder belongs to every call around it, and there was none for this key
  have hnew : s.claim.key ∉ h.keysInProgress := by
    intro hmem
    obtain ⟨g, hslot⟩ := hg.placed _ hmem
    cases hslot.symm.trans hbegins.claimed.absent
  refine ⟨hbegins.stacked hg.stacked, ?_, ?_⟩
  · rw [hkeys]
    exact List.nodup_cons.mpr ⟨hnew, hg.nodup⟩
  · intro key hmem
    rw [hkeys] at hmem
    rcases List.mem_cons.mp hmem with rfl | hold
    · exact ⟨_, hbegins.claimed.awaits⟩
    · obtain ⟨g, hslot⟩ := hg.placed key hold
      have hne : key ≠ s.claim.key := ne_of_mem_of_not_mem hold hnew
      exact ⟨g, (hbegins.claimed.slot?_of_ne hne).trans hslot⟩

/-- The calls in progress keep their placeholders while nothing is invalidated. -/
theorem follows (hg : h.Guarded) (hf : h.Follows h' events)
    (hends : ¬ AnsweredIn (·.isEnd) events) : h'.Guarded := by
  have hkeys := hf.keysInProgress_eq hg.stacked
  refine ⟨hf.stacked hg.stacked, ?_, ?_⟩
  · rw [hkeys]
    exact hg.nodup
  · intro key hmem
    rw [hkeys] at hmem
    obtain ⟨g, hslot⟩ := hg.placed key hmem
    exact ⟨g, hf.keeps key g hslot fun h => hends (h.imp fun _ => Request.Ends.isEnd)⟩

end Guarded

end Host

namespace Script

open Host

variable {s t : Script} {h now : Host} {m : Script × Host} {e : Emulator} {request : Request}
variable {start : Start} {key : CacheKey}

/-- Hosts are guarded at all moments of a run in which nothing is invalidated. -/
theorem guarded_of_reaches (hidle : h.inProgress = [])
    (hends : ¬ AnsweredIn (·.isEnd) (h.since (s.play h).2)) (hreach : Reaches (s, h) m) :
    m.2.Guarded := by
  induction hreach with
  | refl => exact .start hidle
  | tail hbefore hlead ih =>
    cases hlead with
    | enter hs => exact ih.enter (of_start? hs).1
    | resume =>
      exact ih.follows (follows_ask _ _ _ _) fun hp => hends (Reaches.answeredIn_perform hbefore hp)

/-- At some moment of the run, a file is asked for whose path has that key. -/
def Requested (s : Script) (h : Host) (key : CacheKey) : Prop :=
  ∃ e request nested resume now,
    Reaches (s, h) (ask e request nested resume, now) ∧ request.key? = some key

theorem key?_of_start? (hs : h.start? e request = some start) :
    request.key? = some start.claim.key := by
  obtain ⟨hbegins, hrequest⟩ := of_start? hs
  rw [hbegins.key_eq]
  rcases hrequest with rfl | ⟨path, route, rfl, hcall⟩
  · rfl
  · rw [hcall]
    rfl

/-- What is being built was asked for. -/
theorem requested_of_reaches (hidle : h.inProgress = [])
    (hends : ¬ AnsweredIn (·.isEnd) (h.since (s.play h).2)) (hreach : Reaches (s, h) m) :
    ∀ key ∈ m.2.keysInProgress, Requested s h key := by
  induction hreach with
  | refl =>
    intro key hmem
    rw [keysInProgress_of_inProgress_nil hidle] at hmem
    cases hmem
  | tail hbefore hlead ih =>
    intro key hmem
    have hstacked := (guarded_of_reaches hidle hends hbefore).stacked
    cases hlead with
    | enter hs =>
      rw [(of_start? hs).1.keysInProgress_eq hstacked] at hmem
      rcases List.mem_cons.mp hmem with rfl | hold
      · exact ⟨_, _, _, _, _, hbefore, key?_of_start? hs⟩
      · exact ih key hold
    | resume =>
      rw [(follows_ask _ _ _ _).keysInProgress_eq hstacked] at hmem
      exact ih key hmem

/-- At every moment of a run in which nothing is invalidated, the calls in progress have different
keys, requests for these keys are refused without a call, and there are no more calls in progress
than keys that are asked for in the run. -/
theorem recursion_guard (hidle : h.inProgress = [])
    (hends : ¬ AnsweredIn (·.isEnd) (h.since (s.play h).2)) (hreach : Reaches (s, h) (t, now)) :
    now.keysInProgress.length = now.inProgress.length ∧ now.keysInProgress.Nodup ∧
      (∀ e build path route, .ofPath path ∈ now.keysInProgress →
        now.tryCreateFile e build path route = (none, now)) ∧
      (∀ e build (call : BuildCall), .ofPath call.output ∈ now.keysInProgress →
        now.create e build call = (.error (.cacheConflict call.output), now)) ∧
      ∀ keys : Finset CacheKey, (∀ key, Requested s h key → key ∈ keys) →
        now.inProgress.length ≤ keys.card := by
  have hguarded : now.Guarded := guarded_of_reaches hidle hends hreach
  have hlength := length_keysInProgress hguarded.stacked
  refine ⟨hlength, hguarded.nodup, ?_, ?_, ?_⟩
  · intro e build path route hmem
    obtain ⟨g, hslot⟩ := hguarded.placed _ hmem
    exact (refused_of_building hslot).1 route
  · intro e build call hmem
    obtain ⟨g, hslot⟩ := hguarded.placed _ hmem
    exact (refused_of_building hslot).2 call rfl
  · intro keys hkeys
    have hsub : now.keysInProgress.toFinset ⊆ keys := by
      intro key hmem
      exact hkeys key (requested_of_reaches hidle hends hreach key (List.mem_toFinset.mp hmem))
    calc now.inProgress.length
        = now.keysInProgress.toFinset.card := by
          rw [List.toFinset_card_of_nodup hguarded.nodup, hlength]
      _ ≤ keys.card := Finset.card_le_card hsub

/-- Opens a path, which takes the builder this far. -/
def openThen (name : UInt8) (inside : Script) : Script :=
  ask { extension := none } (.tryCreateFile ⟨[name]⟩ "") (fun _ _ => inside)
    fun _ => .finish (.ok { header := [name] })

/-- The builder of `a` opens `b`, and the builder of `b` opens `A`. -/
def mutualRecursion : Script := openThen 0x61 (openThen 0x62 (openThen 0x41 default))

/-- Two calls are in progress when `A` is opened, and there is no third one. -/
theorem recursion_guard_mutualRecursion :
    ∃ now, Reaches (mutualRecursion, {}) (openThen 0x41 default, now) ∧ now.inProgress = [1, 0] ∧
      now.keysInProgress.Nodup ∧
      now.tryCreateFile { extension := none } (builder fun _ _ => default) ⟨[0x41]⟩ "" =
        (none, now) := by
  have hends : ¬ AnsweredIn (·.isEnd) (since {} (mutualRecursion.play {}).2) := by decide +kernel
  have hsome : ((start? {} { extension := none } (.tryCreateFile ⟨[0x61]⟩ "")).bind fun start =>
      start.inner.start? { extension := none } (.tryCreateFile ⟨[0x62]⟩ "")).isSome = true := by
    decide +kernel
  have hkey : CacheKey.ofPath ⟨[0x41]⟩ = .ofPath ⟨[0x61]⟩ := by decide +kernel
  obtain ⟨second, hboth⟩ := Option.isSome_iff_exists.mp hsome
  obtain ⟨first, hfirst, hsecond⟩ := Option.bind_eq_some_iff.mp hboth
  obtain ⟨hbegins, -⟩ := of_start? hfirst
  obtain ⟨hbegins', -⟩ := of_start? hsecond
  have hreach : Reaches (mutualRecursion, {}) (openThen 0x41 default, second.inner) :=
    .tail (.single (.enter hfirst)) (.enter hsecond)
  have hinProgress : second.inner.inProgress = [1, 0] := by
    rw [hbegins'.inProgress_eq, hbegins.inProgress_eq, hbegins.calls_eq]
    rfl
  have hstacked : Stacked {} := (Guarded.start rfl).stacked
  have hmem : .ofPath ⟨[0x41]⟩ ∈ second.inner.keysInProgress := by
    -- the other spelling of the path is the key of the outer call
    have hclaim := key?_of_start? hfirst
    rw [hbegins'.keysInProgress_eq (hbegins.stacked hstacked), hbegins.keysInProgress_eq hstacked,
      hkey, Option.some.inj hclaim]
    exact List.mem_cons_of_mem _ List.mem_cons_self
  obtain ⟨-, hnodup, hrefused, -⟩ := recursion_guard rfl hends hreach
  exact ⟨second.inner, hreach, hinProgress, hnodup, hrefused _ _ _ _ hmem⟩

end Script

end VirtualFiles
