import VirtualFiles.Proofs.Cache.Ended
import VirtualFiles.Proofs.Cache.Isolation

/-!
# Whose placeholder it is

A placeholder carries nothing but a generation. As long as there are fewer claims than words, that
tells whose it is: generations count the claims, so one claim has it, and every placeholder is that
of a claim on its key which was neither completed nor released. Such a claim is still held or was
forgotten. So once the held claims are released, in any order, all placeholders that are left are
those of forgotten claims, and none of these is lost.

## Main definitions

* `ClaimStatus.IsOpen` — the claim was neither completed nor released
* `Clients.Owned` — every placeholder is that of an open claim
* `Clients.Placed` — a claim was given in a run, and its placeholder has been there since

## Main results

* `awaits_complete_iff`, `awaits_release_iff` — a claim takes away its own placeholder only
* `Change.owned`, `owned_run` — one action, and a run
* `placed_of_awaits` — a placeholder has been there since its claim was given
* `awaits_run_release_iff`, `awaits_releaseAll_iff` — what is left after releasing claims
* `generations_of_run` — generations, placeholders and claims in every state that is reached
-/

namespace VirtualFiles

variable {α : Type}

theorem Claim.eq_of_fields {claim other : Claim} (hkey : claim.key = other.key)
    (hgeneration : claim.generation = other.generation) : claim = other := by
  cases claim
  cases other
  exact congr (congrArg Claim.mk hkey) hgeneration

namespace Cache

variable {c : Cache α} {claim other : Claim} {value : α}

/-- A claim that is completed is awaited no longer, and all others are as before. -/
theorem awaits_complete_iff :
    (c.complete other value).2.Awaits claim ↔ c.Awaits claim ∧ claim ≠ other := by
  constructor
  · intro h
    have hbefore := h.of_complete
    refine ⟨hbefore, ?_⟩
    rintro rfl
    rw [Awaits, slot?_complete hbefore, if_pos rfl] at h
    cases h
  · rintro ⟨h, hne⟩
    by_cases hkey : claim.key = other.key
    · exact h.complete_other fun hgeneration => hne (Claim.eq_of_fields hkey hgeneration)
    · rw [Awaits, slot?_complete_of_ne hkey]
      exact h

/-- A claim that is released is awaited no longer, and all others are as before. -/
theorem awaits_release_iff :
    (c.release other).Awaits claim ↔ c.Awaits claim ∧ claim ≠ other := by
  constructor
  · intro h
    have hbefore := h.of_release
    refine ⟨hbefore, ?_⟩
    rintro rfl
    rw [Awaits, release_of_awaits hbefore, slot?_erase, if_pos rfl] at h
    cases h
  · rintro ⟨h, hne⟩
    by_cases hkey : claim.key = other.key
    · exact h.release_other fun hgeneration => hne (Claim.eq_of_fields hkey hgeneration)
    · rw [Awaits, slot?_release_of_ne hkey]
      exact h

end Cache

/-- The claim was neither completed nor released. -/
def ClaimStatus.IsOpen (status : ClaimStatus) : Prop := status = .held ∨ status = .forgotten

namespace Clients

variable {c c' : Clients α} {action : ClientAction α} {actions : List (ClientAction α)}
variable {claim other : Claim} {cache : Cache α} {status : ClaimStatus} {n k : Nat}

/-! ### Open claims -/

/-- Every placeholder is that of a claim that was given, and neither completed nor released. -/
def Owned (c : Clients α) : Prop :=
  ∀ claim, c.cache.Awaits claim → ∃ (n : Nat) (status : ClaimStatus),
    c.claims[n]? = some ⟨claim, status⟩ ∧ status.IsOpen

theorem owned_empty : Owned ({} : Clients α) := nofun

/-- A claim that is settled keeps its placeholder only if it stays open. -/
theorem Owned.settle (howned : Owned c) (hheld : c.held? n = some claim)
    (hcache : ∀ other, cache.Awaits other →
      c.cache.Awaits other ∧ (other ≠ claim ∨ status.IsOpen)) :
    Owned (c.settle n claim status cache) := by
  intro other hawaits
  obtain ⟨hbefore, hsettled⟩ := hcache other hawaits
  obtain ⟨k, given, hk, hopen⟩ := howned other hbefore
  by_cases heq : k = n
  · rw [heq, held?_eq_some_iff.mp hheld] at hk
    cases hk
    exact ⟨n, status, List.getElem?_set_self (lt_of_held? hheld),
      hsettled.resolve_left (absurd rfl)⟩
  · exact ⟨k, given, (List.getElem?_set_ne (Ne.symm heq)).trans hk, hopen⟩

/-- Actions leave no placeholder without an open claim. -/
theorem Change.owned (h : Change c action c') (howned : Owned c) : Owned c' := by
  cases h with
  | nothing => exact howned
  | @claimed path _ _ h =>
    obtain ⟨-, rfl, -, hslots⟩ := Cache.claim?_eq_some h
    intro other hawaits
    rw [Cache.Awaits, hslots] at hawaits
    split at hawaits
    · next hkey =>
      have hgeneration := Slot.building.inj (Option.some.inj hawaits)
      have hnew : other = ⟨.ofPath path, c.cache.nextGeneration⟩ :=
        Claim.eq_of_fields hkey hgeneration.symm
      refine ⟨c.claims.length, .held, ?_, .inl rfl⟩
      rw [List.getElem?_concat_length, hnew]
    · obtain ⟨k, given, hk, hopen⟩ := howned other hawaits
      refine ⟨k, given, ?_, hopen⟩
      rw [List.getElem?_append_left (List.getElem?_eq_some_iff.mp hk).1, hk]
  | completed h =>
    exact howned.settle h fun other hawaits => (Cache.awaits_complete_iff.mp hawaits).imp_right .inl
  | released h =>
    exact howned.settle h fun other hawaits => (Cache.awaits_release_iff.mp hawaits).imp_right .inl
  | forgotten h => exact howned.settle h fun other hawaits => ⟨hawaits, .inr (.inr rfl)⟩
  | invalidated => exact fun other hawaits => howned other hawaits.of_erase
  | cleared =>
    intro other hawaits
    rw [Cache.Awaits, Cache.slot?_clear] at hawaits
    cases hawaits

theorem owned_run (howned : Owned c) : Owned (c.run actions).2 := by
  induction actions generalizing c with
  | nil => exact howned
  | cons action rest ih => exact ih ((change_act c action).owned howned)

/-! ### Where a claim was given -/

/-- Only a claim adds to the claims. -/
theorem exists_claimed_of_lt (h : c.claims.length < (c.act action).2.claims.length) :
    ∃ path claim, action = .claim path ∧ (c.act action).1 = .claimed c.claims.length claim ∧
      (c.act action).2.claims.length = c.claims.length + 1 := by
  have hchange := change_act c action
  generalize hact : (c.act action).2 = c' at h hchange ⊢
  cases hchange with
  | nothing | invalidated | cleared => exact absurd h (Nat.lt_irrefl _)
  | @claimed path claim _ hgiven =>
    exact ⟨path, claim, rfl, by simp only [act, hgiven], List.length_append⟩
  | completed | released | forgotten =>
    rw [settle, List.length_set] at h
    exact absurd h (Nat.lt_irrefl _)

/-- A claim that a run adds was given by one of its actions. -/
theorem exists_act_claim (hle : c.claims.length ≤ n)
    (hn : (c.run actions).2.issued[n]? = some claim) :
    ∃ before path after, actions = before ++ .claim path :: after ∧
      ((c.run before).2.act (.claim path)).1 = .claimed n claim := by
  induction actions generalizing c with
  | nil =>
    have hlt := (List.getElem?_eq_some_iff.mp hn).1
    rw [length_issued] at hlt
    exact absurd hlt (Nat.not_lt.mpr hle)
  | cons action rest ih =>
    rw [run_cons_snd] at hn
    by_cases hlater : (c.act action).2.claims.length ≤ n
    · obtain ⟨before, path, after, rfl, hclaim⟩ := ih hlater hn
      exact ⟨action :: before, path, after, rfl, hclaim⟩
    · -- the first action is the one that gave it
      have hgrown : c.claims.length < (c.act action).2.claims.length := by omega
      obtain ⟨path, other, rfl, hanswer, hlength⟩ := exists_claimed_of_lt hgrown
      obtain rfl : n = c.claims.length := by omega
      obtain ⟨-, -, hissued, -⟩ := of_act_claim hanswer
      rw [getElem?_issued_run hissued] at hn
      cases hn
      exact ⟨[], path, rest, rfl, hanswer⟩

/-- Claim `n` was given in a run that began with an empty cache, and the cache has held its
placeholder ever since. -/
def Placed (actions : List (ClientAction α)) (n : Nat) (claim : Claim) : Prop :=
  ∃ before path after, actions = before ++ .claim path :: after ∧
    ((({} : Clients α).run before).2.act (.claim path)).1 = .claimed n claim ∧
    ∀ during, during <+: after →
      (({} : Clients α).run (before ++ .claim path :: during)).2.cache.Awaits claim

/-- A claim that is awaited was given, and has been awaited since then. -/
theorem placed_of_awaits (hc : (({} : Clients α).run actions).2 = c)
    (hfew : c.claims.length ≤ UInt64.size) (hn : c.issued[n]? = some claim)
    (hawaits : c.cache.Awaits claim) : Placed actions n claim := by
  subst hc
  obtain ⟨before, path, after, rfl, hclaim⟩ := exists_act_claim (Nat.zero_le n) hn
  refine ⟨before, path, after, rfl, hclaim, ?_⟩
  rintro during ⟨rest, rfl⟩
  obtain ⟨-, -, hissued, -⟩ := of_act_claim hclaim
  have hsplit : (({} : Clients α).run (before ++ .claim path :: (during ++ rest))).2 =
      ((({} : Clients α).run (before ++ .claim path :: during)).2.run rest).2 := by
    rw [← run_append_snd, List.append_assoc, List.cons_append]
  rw [hsplit] at hfew hawaits
  have hgiven : (({} : Clients α).run (before ++ .claim path :: during)).2.issued[n]? =
      some claim := by
    rw [run_append_snd, run_cons_snd]
    exact getElem?_issued_run hissued
  -- had the placeholder been taken away meanwhile, it would not have come back
  by_contra hnot
  exact not_awaits_run (numbered_run numbered_empty) hfew hgiven hnot hawaits

/-! ### Releasing claims -/

theorem held?_act_release :
    (c.act (.release n)).2.held? k = if k = n then none else c.held? k := by
  cases hheld : c.held? n with
  | none =>
    rw [act_release_of_not_held hheld]
    split
    · next heq => rw [heq, hheld]
    · rfl
  | some claim =>
    rw [act_release_of_held hheld]
    split
    · next heq => rw [heq, held?_settle (by decide)]
    · next hne => exact held?_settle_of_ne hne

theorem awaits_act_release_iff : (c.act (.release n)).2.cache.Awaits claim ↔
    c.cache.Awaits claim ∧ c.held? n ≠ some claim := by
  cases hheld : c.held? n with
  | none => simp [act_release_of_not_held hheld]
  | some other =>
    rw [act_release_of_held hheld, ne_eq, Option.some.injEq, eq_comm]
    exact Cache.awaits_release_iff

/-- Releasing claims one after the other takes away the placeholders of those that are held, and
no other. -/
theorem awaits_run_release_iff {numbers : List Nat} :
    (c.run (numbers.map .release)).2.cache.Awaits claim ↔
      c.cache.Awaits claim ∧ ∀ n ∈ numbers, c.held? n ≠ some claim := by
  induction numbers generalizing c with
  | nil => simp [run]
  | cons n rest ih =>
    rw [List.map_cons, run_cons_snd, ih, awaits_act_release_iff, and_assoc, List.forall_mem_cons]
    refine and_congr_right fun _ => and_congr_right fun hn => forall₂_congr fun k _ => ?_
    -- a number that comes up again is that of a claim which is held no longer
    rw [held?_act_release]
    split
    · next heq => simp [heq, hn]
    · rfl

theorem releaseAll_eq_run :
    c.releaseAll = (c.run ((List.range c.claims.length).map .release)).2 := by
  suffices h : ∀ (numbers : List Nat) (c : Clients α),
      numbers.foldl releaseNumber c = (c.run (numbers.map .release)).2 from h _ c
  intro numbers
  induction numbers with
  | nil => exact fun _ => rfl
  | cons n rest ih => exact fun c => ih _

/-- Once all held claims are released, the placeholders left are those of forgotten claims. -/
theorem awaits_iff_forgotten {numbers : List Nat} (hc : Numbered c)
    (hfew : c.claims.length ≤ UInt64.size) (howned : Owned c)
    (hall : ∀ n claim, c.held? n = some claim → n ∈ numbers) (claim : Claim) :
    (c.run (numbers.map .release)).2.cache.Awaits claim ↔
      c.cache.Awaits claim ∧ ∃ n : Nat, c.claims[n]? = some ⟨claim, .forgotten⟩ := by
  rw [awaits_run_release_iff]
  refine and_congr_right fun hawaits => ?_
  constructor
  · intro hnone
    obtain ⟨n, status, hn, rfl | rfl⟩ := howned claim hawaits
    · have hheld := held?_eq_some_iff.mpr hn
      exact absurd hheld (hnone n (hall n claim hheld))
    · exact ⟨n, hn⟩
  · -- the placeholder would have to be that of two claims
    rintro ⟨n, hn⟩ k - hk
    have hne : n ≠ k := by
      rintro rfl
      rw [held?_eq_some_iff, hn] at hk
      cases hk
    exact hc.generation_ne hfew hne (getElem?_issued_of_claims hn) (getElem?_issued_of_held? hk) rfl

/-- What `releaseAll` leaves of the placeholders. -/
theorem awaits_releaseAll_iff (hc : Numbered c) (hfew : c.claims.length ≤ UInt64.size)
    (howned : Owned c) : c.releaseAll.cache.Awaits claim ↔
      c.cache.Awaits claim ∧ ∃ n : Nat, c.claims[n]? = some ⟨claim, .forgotten⟩ := by
  rw [releaseAll_eq_run]
  exact awaits_iff_forgotten hc hfew howned
    (fun n claim h => List.mem_range.mpr (lt_of_held? h)) claim

/-! ### Generations -/

theorem Numbered.pairwise_generation_ne (hc : Numbered c)
    (hfew : c.claims.length ≤ UInt64.size) :
    c.issued.Pairwise fun claim other => claim.generation ≠ other.generation := by
  refine List.pairwise_iff_getElem.mpr fun i j hi hj hlt => ?_
  exact hc.generation_ne hfew (Nat.ne_of_lt hlt) (List.getElem?_eq_getElem hi)
    (List.getElem?_eq_getElem hj)

/-- As long as the counter has not started over, it is above all generations. -/
theorem Numbered.generation_lt (hc : Numbered c) (hfew : c.claims.length < UInt64.size)
    (hn : c.issued[n]? = some claim) : claim.generation < c.cache.nextGeneration := by
  have hlt := (List.getElem?_eq_some_iff.mp hn).1
  rw [length_issued] at hlt
  rw [hc.generation_eq n claim hn, hc.next, UInt64.lt_iff_toNat_lt, UInt64.toNat_ofNat',
    UInt64.toNat_ofNat', Nat.mod_eq_of_lt (Nat.lt_trans hlt hfew), Nat.mod_eq_of_lt hfew]
  exact hlt

/-- A generation belongs to one claim. -/
theorem Numbered.eq_of_generation_eq (hc : Numbered c) (hfew : c.claims.length ≤ UInt64.size)
    (hn : c.issued[n]? = some claim) (hk : c.issued[k]? = some other)
    (heq : claim.generation = other.generation) : n = k := by
  by_contra hne
  exact hc.generation_ne hfew hne hn hk heq

/-- Let a run begin with an empty cache, with fewer claims in it than there are generations. All
generations given are different and below the counter. Every placeholder is that of the one claim
with its generation; this claim is on its key, was neither completed nor released, and the cache has
held its placeholder since it was given. So no two keys await the same generation. Once the held
claims are released, in any order and among any others, the placeholders left are exactly those of
forgotten claims. -/
theorem generations_of_run (actions : List (ClientAction α))
    (hc : (({} : Clients α).run actions).2 = c) (hfew : c.claims.length < UInt64.size) :
    (c.issued.Pairwise fun claim other => claim.generation ≠ other.generation) ∧
    (∀ claim ∈ c.issued, claim.generation < c.cache.nextGeneration) ∧
    (∀ key generation, c.cache.slot? key = some (.building generation) →
      ∃ (n : Nat) (status : ClaimStatus), c.claims[n]? = some ⟨⟨key, generation⟩, status⟩ ∧
        (status = .held ∨ status = .forgotten) ∧ Placed actions n ⟨key, generation⟩ ∧
        ∀ k other, c.issued[k]? = some other → other.generation = generation → k = n) ∧
    (∀ key key' generation, c.cache.slot? key = some (.building generation) →
      c.cache.slot? key' = some (.building generation) → key = key') ∧
    ∀ numbers : List Nat, (∀ n claim, c.held? n = some claim → n ∈ numbers) →
      ∀ key generation, (c.run (numbers.map .release)).2.cache.slot? key =
          some (.building generation) ↔
        c.cache.slot? key = some (.building generation) ∧
          ∃ n : Nat, c.claims[n]? = some ⟨⟨key, generation⟩, .forgotten⟩ := by
  have hnumbered : Numbered c := hc ▸ numbered_run numbered_empty
  have howned : Owned c := hc ▸ owned_run owned_empty
  have hle := Nat.le_of_lt hfew
  refine ⟨hnumbered.pairwise_generation_ne hle, fun claim hmem => ?_,
    fun key generation hslot => ?_, fun key key' generation hslot hslot' => ?_,
    fun numbers hall key generation =>
      awaits_iff_forgotten hnumbered hle howned hall ⟨key, generation⟩⟩
  · obtain ⟨n, hn⟩ := List.mem_iff_getElem?.mp hmem
    exact hnumbered.generation_lt hfew hn
  · obtain ⟨n, status, hn, hopen⟩ := howned ⟨key, generation⟩ hslot
    have hissued := getElem?_issued_of_claims hn
    exact ⟨n, status, hn, hopen, placed_of_awaits hc hle hissued hslot,
      fun k other hk heq => hnumbered.eq_of_generation_eq hle hk hissued heq⟩
  · obtain ⟨n, _, hn, -⟩ := howned ⟨key, generation⟩ hslot
    obtain ⟨k, _, hk, -⟩ := howned ⟨key', generation⟩ hslot'
    have hissued := getElem?_issued_of_claims hn
    have hissued' := getElem?_issued_of_claims hk
    -- both are the placeholder of one claim, and a claim has one key
    obtain rfl := hnumbered.eq_of_generation_eq hle hissued hissued' rfl
    rw [hissued] at hissued'
    cases hissued'
    rfl

/-- Two claims are ended by clearing the cache. Of three later ones the first is forgotten, the
second completed and the third held. -/
def leftBehind : List (ClientAction Nat) :=
  [.claim ⟨[0x61]⟩, .claim ⟨[0x62]⟩, .clear, .claim ⟨[0x62]⟩, .forget 2, .claim ⟨[0x63]⟩,
    .complete 3 7, .claim ⟨[0x61]⟩]

theorem generations_of_run_leftBehind :
    Placed leftBehind 2 ⟨⟨[0x62]⟩, 2⟩ ∧
    (({} : Clients Nat).run (leftBehind ++ [.release 4, .release 1, .release 0])).2.cache.slot?
      ⟨[0x62]⟩ = some (.building 2) ∧
    (({} : Clients Nat).run (leftBehind ++ [.release 4, .release 1, .release 0])).2.cache.slot?
      ⟨[0x61]⟩ ≠ some (.building 4) := by
  obtain ⟨-, -, hplaced, -, hreleased⟩ := generations_of_run leftBehind rfl (by decide +kernel)
  have hothers : ∀ n < 5, n ∉ [4, 1, 0] →
      (({} : Clients Nat).run leftBehind).2.held? n = none := by decide +kernel
  have hall : ∀ n claim, (({} : Clients Nat).run leftBehind).2.held? n = some claim →
      n ∈ [4, 1, 0] := by
    intro n claim h
    by_contra hnot
    rw [hothers n (lt_of_held? h) hnot] at h
    cases h
  have hleft := hreleased [4, 1, 0] hall
  rw [run_append_snd]
  refine ⟨?_, (hleft _ _).mpr ⟨by decide +kernel, 2, by decide +kernel⟩, fun h => ?_⟩
  · obtain ⟨n, status, -, -, hsince, hone⟩ := hplaced ⟨[0x62]⟩ 2 (by decide +kernel)
    obtain rfl : 2 = n := hone 2 ⟨⟨[0x62]⟩, 2⟩ (by decide +kernel) rfl
    exact hsince
  · obtain ⟨-, n, hn⟩ := (hleft _ _).mp h
    have hheld : ∀ n < 5, (({} : Clients Nat).run leftBehind).2.claims[n]? ≠
        some ⟨⟨⟨[0x61]⟩, 4⟩, .forgotten⟩ := by decide +kernel
    exact hheld n (List.getElem?_eq_some_iff.mp hn).1 hn

end Clients

end VirtualFiles
