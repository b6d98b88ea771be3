import VirtualFiles.Proofs.Cache.Actions

/-!
# Claims that were ended

An invalidation of its key, or clearing the cache, ends a claim. Until then a held claim is
awaited, whatever other clients do: they can neither claim the key nor touch the placeholder,
which carries a generation of its own. From then on the claim is never awaited again, for no
later placeholder carries its generation. So a claim that was ended stores nothing and removes
nothing, whatever the cache holds for its key by then.

## Main results

* `Change.awaits`, `Change.awaits_of_awaits` — which claims are awaited after an action
* `awaits_run_iff` — a held claim is awaited if and only if it was not ended
* `stored_iff_not_ended` — when a completed value is stored, and what happens if it is not
-/

namespace VirtualFiles.Clients

variable {α : Type} {c c' : Clients α} {action : ClientAction α} {claim other : Claim} {n : Nat}
variable {key : CacheKey} {path : Path} {actions : List (ClientAction α)}

/-! ### Actions -/

/-- An action that ends a key leaves it without entry. -/
theorem Change.slot?_of_ends (h : Change c action c') (hends : action.Ends key) :
    c'.cache.slot? key = none := by
  cases h with
  | nothing h => exact absurd hends (h key)
  | claimed | completed | released | forgotten => exact hends.elim
  | invalidated =>
    have hkey : key = .ofPath _ := Eq.symm hends
    rw [Cache.slot?_erase, if_pos hkey]
  | cleared => exact Cache.slot?_clear

/-- A held claim that is awaited stays so until its key is ended. -/
theorem Change.awaits (h : Change c action c') (hc : Numbered c)
    (hfew : c.claims.length ≤ UInt64.size) (hn : c.issued[n]? = some claim)
    (hheld : c'.held? n = some claim) (hends : ¬ action.Ends claim.key)
    (hawaits : c.cache.Awaits claim) : c'.cache.Awaits claim := by
  cases h with
  | nothing | forgotten => exact hawaits
  | @claimed path _ _ h =>
    -- only a key without entry can be claimed
    obtain ⟨habsent, -, -, hslots⟩ := Cache.claim?_eq_some h
    have hkey : claim.key ≠ .ofPath path := by
      intro hkey
      rw [Cache.Awaits, hkey, habsent] at hawaits
      cases hawaits
    rw [Cache.Awaits, hslots, if_neg hkey]
    exact hawaits
  | completed h =>
    have hne := (held?_of_settle (by decide) hheld).1
    exact hawaits.complete_other (hc.generation_ne hfew hne hn (getElem?_issued_of_held? h))
  | released h =>
    have hne := (held?_of_settle (by decide) hheld).1
    exact hawaits.release_other (hc.generation_ne hfew hne hn (getElem?_issued_of_held? h))
  | invalidated =>
    have hkey : claim.key ≠ .ofPath _ := fun hkey => hends hkey.symm
    rw [Cache.Awaits, Cache.slot?_erase, if_neg hkey]
    exact hawaits
  | cleared => exact absurd trivial hends

/-- A claim that is awaited after an action was given before was awaited before. -/
theorem Change.awaits_of_awaits (h : Change c action c') (hc : Numbered c)
    (hfew : c'.claims.length ≤ UInt64.size) (hn : c.issued[n]? = some claim)
    (hawaits : c'.cache.Awaits claim) : c.cache.Awaits claim := by
  cases h with
  | nothing | forgotten => exact hawaits
  | claimed h =>
    -- the new placeholder has a generation that no earlier claim has
    obtain ⟨-, -, -, hslots⟩ := Cache.claim?_eq_some h
    rw [List.length_append, List.length_singleton] at hfew
    rw [Cache.Awaits, hslots] at hawaits
    split at hawaits
    · have hnext := hc.generation_ne_next (Nat.lt_of_succ_le hfew) hn
      exact absurd (Slot.building.inj (Option.some.inj hawaits)).symm hnext
    · exact hawaits
  | completed => exact hawaits.of_complete
  | released => exact hawaits.of_release
  | invalidated => exact hawaits.of_erase
  | cleared =>
    rw [Cache.Awaits, Cache.slot?_clear] at hawaits
    cases hawaits

/-- A completed value is stored if the claim is held and awaited. -/
theorem act_complete_eq_iff (hn : c.issued[n]? = some claim) (value : α) :
    (c.act (.complete n value)).1 = .completed true ↔
      c.held? n = some claim ∧ c.cache.Awaits claim := by
  cases hheld : c.held? n with
  | none => simp [(act_of_not_held hheld value).1]
  | some other =>
    obtain rfl := eq_of_held? hn hheld
    rw [act_complete_of_held hheld]
    by_cases hawaits : c.cache.Awaits other
    · simp [Cache.complete_of_awaits hawaits, hawaits]
    · simp [Cache.complete_of_not_awaits hawaits, hawaits]

/-- Whoever has a claim that is not awaited changes nothing by it. -/
theorem cache_act_of_not_awaits (hn : c.issued[n]? = some claim)
    (hawaits : ¬ c.cache.Awaits claim) (value : α) :
    (c.act (.complete n value)).2.cache = c.cache ∧ (c.act (.release n)).2.cache = c.cache := by
  cases hheld : c.held? n with
  | none =>
    obtain ⟨hcomplete, hrelease⟩ := act_of_not_held hheld value
    rw [hcomplete, hrelease]
    exact ⟨rfl, rfl⟩
  | some other =>
    obtain rfl := eq_of_held? hn hheld
    rw [act_complete_of_held hheld, act_release_of_held hheld]
    exact ⟨congrArg Prod.snd (Cache.complete_of_not_awaits hawaits),
      Cache.release_of_not_awaits hawaits⟩

/-! ### Runs -/

/-- A held claim that is awaited stays so as long as its key is not ended. -/
theorem awaits_run (hc : Numbered c) (hfew : (c.run actions).2.claims.length ≤ UInt64.size)
    (hn : c.issued[n]? = some claim) (hheld : (c.run actions).2.held? n = some claim)
    (hends : ∀ action ∈ actions, ¬ action.Ends claim.key) (hawaits : c.cache.Awaits claim) :
    (c.run actions).2.cache.Awaits claim := by
  induction actions generalizing c with
  | nil => exact hawaits
  | cons action rest ih =>
    rw [run_cons_snd] at hfew hheld ⊢
    obtain ⟨haction, hrest⟩ := List.forall_mem_cons.mp hends
    have hchange := change_act c action
    have hn' := hchange.getElem?_issued hn
    have hlast := Nat.le_trans length_le_run hfew
    -- who holds the claim at the end has held it all along
    have hnow : (c.act action).2.held? n = some claim := by
      refine held?_of_run ?_ hheld
      rw [← length_issued]
      exact (List.getElem?_eq_some_iff.mp hn').1
    refine ih (hchange.numbered hc) hfew hn' hheld hrest ?_
    exact hchange.awaits hc (Nat.le_trans hchange.length_le hlast) hn hnow haction hawaits

/-- A claim that is not awaited will not be awaited again. -/
theorem not_awaits_run (hc : Numbered c) (hfew : (c.run actions).2.claims.length ≤ UInt64.size)
    (hn : c.issued[n]? = some claim) (hawaits : ¬ c.cache.Awaits claim) :
    ¬ (c.run actions).2.cache.Awaits claim := by
  induction actions generalizing c with
  | nil => exact hawaits
  | cons action rest ih =>
    rw [run_cons_snd] at hfew ⊢
    have hchange := change_act c action
    have hlast := Nat.le_trans length_le_run hfew
    exact ih (hchange.numbered hc) hfew (hchange.getElem?_issued hn)
      fun h => hawaits (hchange.awaits_of_awaits hc hlast hn h)

/-- A claim whose key was ended is not awaited. -/
theorem not_awaits_run_of_ends (hc : Numbered c)
    (hfew : (c.run actions).2.claims.length ≤ UInt64.size) (hn : c.issued[n]? = some claim)
    (hends : ∃ action ∈ actions, action.Ends claim.key) :
    ¬ (c.run actions).2.cache.Awaits claim := by
  obtain ⟨action, hmem, haction⟩ := hends
  obtain ⟨before, after, rfl⟩ := List.append_of_mem hmem
  rw [run_append_snd, run_cons_snd] at hfew ⊢
  have hbefore : Numbered (c.run before).2 := numbered_run hc
  have hchange := change_act (c.run before).2 action
  -- right after the key was ended it has no entry at all
  refine not_awaits_run (hchange.numbered hbefore) hfew
    (hchange.getElem?_issued (getElem?_issued_run hn)) ?_
  rw [Cache.Awaits, hchange.slot?_of_ends haction]
  intro h
  cases h

/-- At the end of a run, a held claim is awaited if and only if its key was not ended. -/
theorem awaits_run_iff (hc : Numbered c) (hfew : (c.run actions).2.claims.length ≤ UInt64.size)
    (hn : c.issued[n]? = some claim) (hawaits : c.cache.Awaits claim)
    (hheld : (c.run actions).2.held? n = some claim) :
    (c.run actions).2.cache.Awaits claim ↔ ∀ action ∈ actions, ¬ action.Ends claim.key := by
  constructor
  · intro h action hmem haction
    exact not_awaits_run_of_ends hc hfew hn ⟨action, hmem, haction⟩ h
  · intro hends
    exact awaits_run hc hfew hn hheld hends hawaits

/-- Let a claim be given in a run that began with an empty cache, with no more claims in it than
there are generations. When it is completed, the value is stored if and only if the claim is
still held and no action since then has ended its key; all other entries stay as they are. Once
its key was ended, neither completing nor releasing the claim changes any entry. -/
theorem stored_iff_not_ended (before between : List (ClientAction α)) (path : Path)
    (hclaim : ((({} : Clients α).run before).2.act (.claim path)).1 = .claimed n claim)
    (hc : (({} : Clients α).run (before ++ .claim path :: between)).2 = c)
    (hfew : c.claims.length ≤ UInt64.size) (value : α) :
    claim.key = .ofPath path ∧
    ((c.act (.complete n value)).1 = .completed true ↔
      c.held? n = some claim ∧ ∀ action ∈ between, ¬ action.Ends claim.key) ∧
    ((c.act (.complete n value)).1 = .completed true → ∀ key,
      (c.act (.complete n value)).2.cache.slot? key =
        if key = claim.key then some (.ready value) else c.cache.slot? key) ∧
    ((∃ action ∈ between, action.Ends claim.key) →
      (c.held? n = some claim → (c.act (.complete n value)).1 = .completed false) ∧
      (c.act (.complete n value)).2.cache = c.cache ∧
      (c.act (.release n)).2.cache = c.cache) := by
  obtain ⟨-, hkey, hissued, hawaits⟩ := of_act_claim hclaim
  have hnumbered : Numbered ((({} : Clients α).run before).2.act (.claim path)).2 :=
    (change_act _ _).numbered (numbered_run numbered_empty)
  -- what went before the claim matters no more
  rw [run_append_snd, run_cons_snd] at hc
  generalize ((({} : Clients α).run before).2.act (.claim path)).2 = given at *
  subst hc
  have hlast : (given.run between).2.issued[n]? = some claim := getElem?_issued_run hissued
  have hstored := act_complete_eq_iff hlast value
  refine ⟨hkey, ?_, ?_, ?_⟩
  · rw [hstored]
    exact and_congr_right fun hheld => awaits_run_iff hnumbered hfew hissued hawaits hheld
  · intro hcompleted key
    obtain ⟨hheld, hawaited⟩ := hstored.mp hcompleted
    rw [act_complete_of_held hheld]
    exact Cache.slot?_complete hawaited
  · intro hends
    have hnot := not_awaits_run_of_ends hnumbered hfew hissued hends
    refine ⟨fun hheld => ?_, cache_act_of_not_awaits hlast hnot value⟩
    rw [act_complete_of_held hheld, Cache.complete_of_not_awaits hnot]

/-- A claim is ended, and then its key is claimed again. -/
def reclaimed : Clients Nat :=
  (({} : Clients Nat).run [.claim ⟨[0x61]⟩, .clear, .claim ⟨[0x61]⟩]).2

theorem stored_iff_reclaimed :
    (reclaimed.act (.complete 0 7)).1 = .completed false ∧
      (reclaimed.act (.complete 0 7)).2.cache = reclaimed.cache ∧
      (reclaimed.act (.release 0)).2.cache = reclaimed.cache ∧
      (reclaimed.act (.complete 1 7)).1 = .completed true := by
  obtain ⟨-, -, -, hended⟩ := stored_iff_not_ended (c := reclaimed) [] [.clear, .claim ⟨[0x61]⟩]
    ⟨[0x61]⟩ rfl rfl (by decide) 7
  obtain ⟨hfalse, hcomplete, hrelease⟩ := hended ⟨.clear, List.mem_cons_self, trivial⟩
  obtain ⟨-, hstored, -⟩ := stored_iff_not_ended (c := reclaimed)
    [.claim ⟨[0x61]⟩, .clear] [] ⟨[0x61]⟩ rfl rfl (by decide) 7
  exact ⟨hfalse rfl, hcomplete, hrelease, hstored.mpr ⟨rfl, nofun⟩⟩

end VirtualFiles.Clients
