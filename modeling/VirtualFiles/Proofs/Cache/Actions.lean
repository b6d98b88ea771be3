import VirtualFiles.Cache.Clients

/-!
# What the clients of a cache can change

A claim is awaited if the cache holds its placeholder. Completing or releasing a claim changes
the cache only if the claim is awaited, and then only in the entry of its key. So what an action
does to a cache follows from which claims are awaited.

Claims are numbered in the order in which they were given, and the number of a claim determines
its generation. Two claims have the same generation only if their numbers differ by a multiple of
the number of words, so with no more claims than words all generations are different.

## Main definitions

* `Cache.Awaits` — the cache holds the placeholder of a claim
* `Cache.Claimed` — what giving a claim changes in the cache
* `ClientAction.Ends` — the action removes the entry of a key whatever its state
* `Clients.Change` — all that an action can do to the cache and the claims
* `Clients.Numbered` — the generation of every claim is its number

## Main results

* `Awaits.complete_other`, `Awaits.release_other` — a claim is without effect on another one
* `change_act` — every action is one of the changes
* `Change.numbered` — actions keep the numbering
-/

namespace VirtualFiles

variable {α : Type}

namespace Cache

variable {c c' : Cache α} {claim other : Claim} {key : CacheKey} {path : Path} {value : α}

/-- The entry of the claim's key is the placeholder that the claim put there. -/
def Awaits (c : Cache α) (claim : Claim) : Prop :=
  c.slot? claim.key = some (.building claim.generation)

theorem complete_of_awaits (h : c.Awaits claim) :
    c.complete claim value = (true, c.replace claim.key (.ready value)) := by
  rw [Awaits] at h
  simp [complete, h]

theorem complete_of_not_awaits (h : ¬ c.Awaits claim) : c.complete claim value = (false, c) := by
  unfold complete
  split
  · next generation hslot =>
    rw [if_neg]
    rintro rfl
    exact h hslot
  · rfl

theorem release_of_awaits (h : c.Awaits claim) : c.release claim = c.erase claim.key := by
  rw [Awaits] at h
  simp [release, h]

theorem release_of_not_awaits (h : ¬ c.Awaits claim) : c.release claim = c := by
  unfold release
  split
  · next generation hslot =>
    rw [if_neg]
    rintro rfl
    exact h hslot
  · rfl

/-- A claim is given for a key without entry, and its placeholder becomes the entry. -/
theorem claim?_eq_some (h : c.claim? path = some (claim, c')) :
    c.slot? (.ofPath path) = none ∧ claim = ⟨.ofPath path, c.nextGeneration⟩ ∧
      c'.nextGeneration = c.nextGeneration + 1 ∧
      ∀ key, c'.slot? key =
        if key = .ofPath path then some (.building c.nextGeneration) else c.slot? key := by
  unfold claim? at h
  split at h
  · cases h
  · next habsent =>
    cases h
    exact ⟨habsent, rfl, rfl, fun key => slot?_insert habsent⟩

@[simp] theorem slot?_clear : c.clear.slot? key = none := rfl

/-- Completing a claim puts the value in the place of its placeholder and changes nothing else. -/
theorem slot?_complete (h : c.Awaits claim) :
    (c.complete claim value).2.slot? key =
      if key = claim.key then some (.ready value) else c.slot? key := by
  rw [complete_of_awaits h, slot?_replace, h]
  rfl

theorem nextGeneration_complete : (c.complete claim value).2.nextGeneration = c.nextGeneration := by
  by_cases h : c.Awaits claim
  · rw [complete_of_awaits h]
    rfl
  · rw [complete_of_not_awaits h]

theorem nextGeneration_release : (c.release claim).nextGeneration = c.nextGeneration := by
  by_cases h : c.Awaits claim
  · rw [release_of_awaits h]
    rfl
  · rw [release_of_not_awaits h]

namespace Awaits

/-- A key awaits one generation at a time. -/
theorem key_ne (h : c.Awaits claim) (h' : c.Awaits other)
    (hne : claim.generation ≠ other.generation) : claim.key ≠ other.key := by
  intro hkey
  rw [Awaits, hkey, h'] at h
  exact hne (Slot.building.inj (Option.some.inj h)).symm

/-- Completing a claim is without effect on claims of other generations. -/
theorem complete_other (h : c.Awaits claim) (hne : claim.generation ≠ other.generation) :
    (c.complete other value).2.Awaits claim := by
  by_cases hother : c.Awaits other
  · rw [Awaits, slot?_complete hother, if_neg (h.key_ne hother hne)]
    exact h
  · rwa [complete_of_not_awaits hother]

/-- Releasing a claim is without effect on claims of other generations. -/
theorem release_other (h : c.Awaits claim) (hne : claim.generation ≠ other.generation) :
    (c.release other).Awaits claim := by
  by_cases hother : c.Awaits other
  · rw [Awaits, release_of_awaits hother, slot?_erase, if_neg (h.key_ne hother hne)]
    exact h
  · rwa [release_of_not_awaits hother]

/-- No claim is awaited because an entry was removed. -/
theorem of_erase (h : (c.erase key).Awaits claim) : c.Awaits claim := by
  rw [Awaits, slot?_erase] at h
  split at h
  · cases h
  · exact h

/-- No claim is awaited because another one was completed. -/
theorem of_complete (h : (c.complete other value).2.Awaits claim) : c.Awaits claim := by
  by_cases hother : c.Awaits other
  · rw [Awaits, slot?_complete hother] at h
    split at h
    · cases h
    · exact h
  · rwa [complete_of_not_awaits hother] at h

/-- No claim is awaited because another one was released. -/
theorem of_release (h : (c.release other).Awaits claim) : c.Awaits claim := by
  by_cases hother : c.Awaits other
  · rw [release_of_awaits hother] at h
    exact h.of_erase
  · rwa [release_of_not_awaits hother] at h

end Awaits

/-! ### A claim from its beginning to its end -/

theorem slot?_release_of_ne (hne : key ≠ claim.key) :
    (c.release claim).slot? key = c.slot? key := by
  by_cases h : c.Awaits claim
  · rw [release_of_awaits h, slot?_erase, if_neg hne]
  · rw [release_of_not_awaits h]

theorem slot?_complete_of_ne (hne : key ≠ claim.key) :
    (c.complete claim value).2.slot? key = c.slot? key := by
  by_cases h : c.Awaits claim
  · rw [slot?_complete h, if_neg hne]
  · rw [complete_of_not_awaits h]

/-- The key of a claim was without entry, and now its entry is the placeholder of the claim. -/
structure Claimed (c : Cache α) (claim : Claim) (c' : Cache α) : Prop where
  absent : c.slot? claim.key = none
  slot_eq : ∀ key, c'.slot? key =
    if key = claim.key then some (.building claim.generation) else c.slot? key

theorem claimed_of_claim? (h : c.claim? path = some (claim, c')) :
    claim.key = .ofPath path ∧ c.Claimed claim c' := by
  obtain ⟨habsent, rfl, -, hslots⟩ := claim?_eq_some h
  exact ⟨rfl, habsent, hslots⟩

namespace Claimed

theorem awaits (h : c.Claimed claim c') : c'.Awaits claim := by
  rw [Awaits, h.slot_eq, if_pos rfl]

theorem slot?_of_ne (h : c.Claimed claim c') (hne : key ≠ claim.key) :
    c'.slot? key = c.slot? key := by
  rw [h.slot_eq, if_neg hne]

/-- A claim that is released at once leaves no trace. -/
theorem slot?_release (h : c.Claimed claim c') :
    (c'.release claim).slot? key = c.slot? key := by
  by_cases hkey : key = claim.key
  · rw [release_of_awaits h.awaits, slot?_erase, if_pos hkey, hkey, h.absent]
  · rw [slot?_release_of_ne hkey, h.slot?_of_ne hkey]

/-- A claim that is completed at once leaves the value. -/
theorem slot?_complete (h : c.Claimed claim c') :
    (c'.complete claim value).2.slot? key =
      if key = claim.key then some (.ready value) else c.slot? key := by
  rw [Cache.slot?_complete h.awaits]
  split
  · rfl
  · next hne => exact h.slot?_of_ne hne

end Claimed

end Cache

/-- The action removes the entry of the key whatever its state. -/
def ClientAction.Ends (key : CacheKey) : ClientAction α → Prop
  | .invalidate path => .ofPath path = key
  | .clear => True
  | _ => False

namespace Clients

variable {c c' : Clients α} {action : ClientAction α} {claim : Claim} {given : Given} {n : Nat}

theorem held?_eq_some_iff : c.held? n = some claim ↔ c.claims[n]? = some ⟨claim, .held⟩ := by
  unfold held?
  split
  · next held hget => simp [hget]
  · next hnone =>
    constructor
    · intro h
      cases h
    · intro hget
      exact absurd hget (hnone claim)

theorem lt_of_held? (h : c.held? n = some claim) : n < c.claims.length :=
  (List.getElem?_eq_some_iff.mp (held?_eq_some_iff.mp h)).1

theorem act_complete_of_held (h : c.held? n = some claim) (value : α) :
    c.act (.complete n value) = (.completed (c.cache.complete claim value).1,
      c.settle n claim .completed (c.cache.complete claim value).2) := by
  simp only [act, h]

theorem act_release_of_held (h : c.held? n = some claim) :
    c.act (.release n) = (.done, c.settle n claim .released (c.cache.release claim)) := by
  simp only [act, h]

/-- Who holds no claim of that number changes nothing by it. -/
theorem act_of_not_held (h : c.held? n = none) (value : α) :
    c.act (.complete n value) = (.noClaim, c) ∧ c.act (.release n) = (.noClaim, c) := by
  simp only [act, h, and_self]

/-- All that an action can do to the cache and the claims. -/
inductive Change (c : Clients α) : ClientAction α → Clients α → Prop
  | nothing {action : ClientAction α} (h : ∀ key, ¬ action.Ends key) : Change c action c
  | claimed {path : Path} {claim : Claim} {cache : Cache α}
    (h : c.cache.claim? path = some (claim, cache)) :
    Change c (.claim path) ⟨cache, c.claims ++ [⟨claim, .held⟩]⟩
  | completed {n : Nat} {claim : Claim} {value : α} (h : c.held? n = some claim) :
    Change c (.complete n value)
      (c.settle n claim .completed (c.cache.complete claim value).2)
  | released {n : Nat} {claim : Claim} (h : c.held? n = some claim) :
    Change c (.release n) (c.settle n claim .released (c.cache.release claim))
  | forgotten {n : Nat} {claim : Claim} (h : c.held? n = some claim) :
    Change c (.forget n) (c.settle n claim .forgotten c.cache)
  | invalidated {path : Path} :
    Change c (.invalidate path) { c with cache := c.cache.erase (.ofPath path) }
  | cleared : Change c .clear { c with cache := c.cache.clear }

/-- Every action is one of the changes. -/
theorem change_act (c : Clients α) (action : ClientAction α) :
    Change c action (c.act action).2 := by
  cases action with
  | claim path =>
    simp only [act]
    split
    · next claim cache h => exact .claimed h
    · exact .nothing fun _ => id
  | complete n value =>
    simp only [act]
    split
    · next claim h => exact .completed h
    · exact .nothing fun _ => id
  | release n =>
    simp only [act]
    split
    · next claim h => exact .released h
    · exact .nothing fun _ => id
  | forget n =>
    simp only [act]
    split
    · next claim h => exact .forgotten h
    · exact .nothing fun _ => id
  | lookup path => exact .nothing fun _ => id
  | invalidate path => exact .invalidated
  | clear => exact .cleared

/-! ### The claims -/

/-- All claims that were ever given, in their order. -/
def issued (c : Clients α) : List Claim := c.claims.map Given.claim

@[simp] theorem length_issued : c.issued.length = c.claims.length := List.length_map _

variable {status : ClaimStatus} {cache : Cache α} {k : Nat} {other : Claim} {path : Path}

theorem getElem?_issued_of_claims (h : c.claims[n]? = some ⟨claim, status⟩) :
    c.issued[n]? = some claim := by
  rw [issued, List.getElem?_map, h]
  rfl

theorem getElem?_issued_of_held? (h : c.held? n = some claim) : c.issued[n]? = some claim :=
  getElem?_issued_of_claims (held?_eq_some_iff.mp h)

/-- Settling a claim gives and takes none. -/
theorem issued_settle (h : c.held? n = some claim) :
    (c.settle n claim status cache).issued = c.issued := by
  obtain ⟨hlt, hget⟩ := List.getElem?_eq_some_iff.mp (getElem?_issued_of_held? h)
  calc (c.settle n claim status cache).issued
      = c.issued.set n claim := List.map_set
    _ = c.issued.set n c.issued[n] := by rw [hget]
    _ = c.issued := List.set_getElem_self hlt

/-- A claim that was settled is held no longer, and all others are as before. -/
theorem held?_of_settle (hstatus : status ≠ .held)
    (hk : (c.settle n claim status cache).held? k = some other) :
    k ≠ n ∧ c.held? k = some other := by
  rw [held?_eq_some_iff, settle, List.getElem?_set] at hk
  split at hk
  · split at hk
    · cases hk
      exact absurd rfl hstatus
    · cases hk
  · next hne => exact ⟨Ne.symm hne, held?_eq_some_iff.mpr hk⟩

namespace Change

/-- An action gives one claim at most, which has the next generation. -/
theorem issued_eq (h : Change c action c') :
    (c'.issued = c.issued ∧ c'.cache.nextGeneration = c.cache.nextGeneration) ∨
      ∃ claim, c'.issued = c.issued ++ [claim] ∧ claim.generation = c.cache.nextGeneration ∧
        c'.cache.nextGeneration = c.cache.nextGeneration + 1 := by
  cases h with
  | nothing | invalidated | cleared => exact .inl ⟨rfl, rfl⟩
  | claimed h =>
    obtain ⟨-, rfl, hnext, -⟩ := Cache.claim?_eq_some h
    exact .inr ⟨_, List.map_append, rfl, hnext⟩
  | completed h => exact .inl ⟨issued_settle h, Cache.nextGeneration_complete⟩
  | released h => exact .inl ⟨issued_settle h, Cache.nextGeneration_release⟩
  | forgotten h => exact .inl ⟨issued_settle h, rfl⟩

theorem length_le (h : Change c action c') : c.claims.length ≤ c'.claims.length := by
  rw [← length_issued, ← length_issued]
  rcases h.issued_eq with ⟨hissued, -⟩ | ⟨claim, hissued, -⟩
  · exact Nat.le_of_eq (congrArg List.length hissued).symm
  · rw [hissued, List.length_append]
    exact Nat.le_add_right _ _

/-- A claim keeps its number. -/
theorem getElem?_issued (h : Change c action c') (hn : c.issued[n]? = some claim) :
    c'.issued[n]? = some claim := by
  rcases h.issued_eq with ⟨hissued, -⟩ | ⟨other, hissued, -⟩
  · rw [hissued, hn]
  · obtain ⟨hlt, -⟩ := List.getElem?_eq_some_iff.mp hn
    rw [hissued, List.getElem?_append_left hlt, hn]

/-- No claim is held again. -/
theorem held?_of_held? (h : Change c action c') (hn : n < c.claims.length)
    (hheld : c'.held? n = some claim) : c.held? n = some claim := by
  cases h with
  | nothing | invalidated | cleared => exact hheld
  | claimed h =>
    rw [held?_eq_some_iff, List.getElem?_append_left hn] at hheld
    exact held?_eq_some_iff.mpr hheld
  | completed | released | forgotten => exact (held?_of_settle (by decide) hheld).2

end Change

theorem eq_of_held? (hn : c.issued[n]? = some claim) (h : c.held? n = some other) :
    other = claim := by
  rw [getElem?_issued_of_held? h] at hn
  exact Option.some.inj hn

/-- What is known of a claim when it is given. -/
theorem of_act_claim (h : (c.act (.claim path)).1 = .claimed n claim) :
    n = c.claims.length ∧ claim.key = .ofPath path ∧
      (c.act (.claim path)).2.issued[n]? = some claim ∧
      (c.act (.claim path)).2.cache.Awaits claim := by
  simp only [act] at h ⊢
  split at h
  · next given cache hgiven =>
    cases h
    obtain ⟨-, rfl, -, hslots⟩ := Cache.claim?_eq_some hgiven
    refine ⟨rfl, rfl, ?_, ?_⟩
    · simp [issued]
    · rw [Cache.Awaits, hslots, if_pos rfl]
  · cases h

/-! ### Generations -/

/-- The generation of every claim is its number, and the next claim has the next number. -/
structure Numbered (c : Clients α) : Prop where
  next : c.cache.nextGeneration = UInt64.ofNat c.claims.length
  generation_eq : ∀ n claim, c.issued[n]? = some claim → claim.generation = UInt64.ofNat n

theorem numbered_empty : Numbered ({} : Clients α) :=
  ⟨rfl, fun n claim h => by simp [issued] at h⟩

theorem Change.numbered (h : Change c action c') (hc : Numbered c) : Numbered c' := by
  rcases h.issued_eq with ⟨hissued, hnext⟩ | ⟨claim, hissued, hgeneration, hnext⟩
  · refine ⟨?_, fun n claim hn => hc.generation_eq n claim (hissued ▸ hn)⟩
    rw [hnext, hc.next, ← length_issued, ← length_issued, hissued]
  · constructor
    · rw [hnext, hc.next, ← length_issued, ← length_issued, hissued, List.length_append,
        UInt64.ofNat_add]
      rfl
    · intro n other hn
      rw [hissued, List.getElem?_append] at hn
      split at hn
      · exact hc.generation_eq n other hn
      · rw [List.getElem?_singleton] at hn
        split at hn
        · next hge hlast =>
          -- the claim just given took the generation that was next
          cases hn
          rw [hgeneration, hc.next, ← length_issued]
          exact congrArg UInt64.ofNat (by omega)
        · cases hn

/-- Numbers of claims differ in their generations as long as they are words. -/
theorem ofNat_ne (hne : n ≠ k) (hn : n < UInt64.size) (hk : k < UInt64.size) :
    UInt64.ofNat n ≠ UInt64.ofNat k := by
  intro h
  -- both numbers are below the modulus, so they are the values of the words
  have hvalue := congrArg UInt64.toNat h
  rw [UInt64.toNat_ofNat', UInt64.toNat_ofNat', Nat.mod_eq_of_lt hn, Nat.mod_eq_of_lt hk] at hvalue
  exact hne hvalue

/-- With no more claims than words, different claims have different generations. -/
theorem Numbered.generation_ne (hc : Numbered c) (hfew : c.claims.length ≤ UInt64.size)
    (hne : n ≠ k) (hn : c.issued[n]? = some claim) (hk : c.issued[k]? = some other) :
    claim.generation ≠ other.generation := by
  obtain ⟨hnlt, -⟩ := List.getElem?_eq_some_iff.mp hn
  obtain ⟨hklt, -⟩ := List.getElem?_eq_some_iff.mp hk
  rw [length_issued] at hnlt hklt
  rw [hc.generation_eq n claim hn, hc.generation_eq k other hk]
  exact ofNat_ne hne (by omega) (by omega)

/-- With fewer claims than words, the next claim has a generation of its own. -/
theorem Numbered.generation_ne_next (hc : Numbered c) (hfew : c.claims.length < UInt64.size)
    (hn : c.issued[n]? = some claim) : claim.generation ≠ c.cache.nextGeneration := by
  obtain ⟨hnlt, -⟩ := List.getElem?_eq_some_iff.mp hn
  rw [length_issued] at hnlt
  rw [hc.generation_eq n claim hn, hc.next]
  exact ofNat_ne (by omega) (by omega) hfew

/-! ### Runs -/

variable {actions before after : List (ClientAction α)}

@[simp] theorem run_cons_snd : (c.run (action :: actions)).2 = ((c.act action).2.run actions).2 :=
  rfl

theorem run_append_snd : (c.run (before ++ after)).2 = ((c.run before).2.run after).2 := by
  induction before generalizing c with
  | nil => rfl
  | cons action rest ih => exact ih

theorem numbered_run (hc : Numbered c) : Numbered (c.run actions).2 := by
  induction actions generalizing c with
  | nil => exact hc
  | cons action rest ih => exact ih ((change_act c action).numbered hc)

theorem length_le_run : c.claims.length ≤ (c.run actions).2.claims.length := by
  induction actions generalizing c with
  | nil => exact Nat.le_refl _
  | cons action rest ih => exact Nat.le_trans (change_act c action).length_le ih

theorem getElem?_issued_run (hn : c.issued[n]? = some claim) :
    (c.run actions).2.issued[n]? = some claim := by
  induction actions generalizing c with
  | nil => exact hn
  | cons action rest ih => exact ih ((change_act c action).getElem?_issued hn)

theorem held?_of_run (hn : n < c.claims.length)
    (hheld : (c.run actions).2.held? n = some claim) : c.held? n = some claim := by
  induction actions generalizing c with
  | nil => exact hheld
  | cons action rest ih =>
    have hchange := change_act c action
    exact hchange.held?_of_held? hn (ih (Nat.lt_of_lt_of_le hn hchange.length_le) hheld)

end Clients

end VirtualFiles
