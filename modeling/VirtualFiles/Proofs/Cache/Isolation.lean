import VirtualFiles.Proofs.Cache.History

/-!
# Keys do not interfere

All keys share one counter of generations, so what happens to one key moves the generations of
the others. It moves nothing else. Of a run, keep the actions that concern one key and number the
claims on it from zero: the run of these actions gives the answers that they got among all the
others, up to the numbers of the claims.

The claim with a number in the long run corresponds to the claim with its rank in the short one.
Generations follow the numbers in both runs, so the entries of the key correspond as well, and a
placeholder awaits a claim in one run if it awaits the corresponding claim in the other.

## Main definitions

* `rankOn` — the number that a claim has among the claims on its key
* `actionsOn`, `eventsOn` — the part of a run that concerns a key
* `Clients.SameEntry`, `Clients.Restricts` — clients of one key that correspond to clients of all
* `Clients.ActsAlike` — an action after which they correspond again

## Main results

* `Restricts.act`, `Restricts.act_of_not_concerns` — one action
* `Restricts.history` — a run
* `history_actionsOn` — what happens to a key does not depend on the other keys
-/

namespace VirtualFiles

variable {α : Type}

/-! ### The claims on a key -/

section Rank

variable {key other : CacheKey} {keys : List CacheKey} {n k : Nat}

/-- How many of the claims before claim `n` are on the key, if `keys` are the keys of the claims in
their order. -/
def rankOn (key : CacheKey) (keys : List CacheKey) (n : Nat) : Nat := (keys.take n).count key

theorem rankOn_le : rankOn key keys n ≤ n :=
  List.count_le_length.trans (List.length_take_le n keys)

theorem rankOn_mono (h : n ≤ k) : rankOn key keys n ≤ rankOn key keys k :=
  (List.take_prefix_take_left h).sublist.count_le key

theorem rankOn_succ (h : keys[n]? = some other) :
    rankOn key keys (n + 1) = rankOn key keys n + if other = key then 1 else 0 := by
  rw [rankOn, List.take_add_one, h, List.count_append, Option.toList_some, List.count_singleton]
  simp only [beq_iff_eq, rankOn]

/-- The claims on the key keep their order. -/
theorem rankOn_lt (hn : keys[n]? = some key) (h : n < k) :
    rankOn key keys n < rankOn key keys k := by
  have hmono : rankOn key keys (n + 1) ≤ rankOn key keys k := rankOn_mono h
  rw [rankOn_succ hn, if_pos rfl] at hmono
  exact hmono

/-- Different claims on the key have different ranks. -/
theorem rankOn_inj (hn : keys[n]? = some key) (hk : keys[k]? = some key) :
    rankOn key keys n = rankOn key keys k ↔ n = k := by
  constructor
  · intro h
    rcases Nat.lt_trichotomy n k with hlt | heq | hlt
    · exact absurd h (rankOn_lt hn hlt).ne
    · exact heq
    · exact absurd h (rankOn_lt hk hlt).ne'
  · rintro rfl
    rfl

end Rank

/-! ### The part of a run that concerns a key -/

/-- The action is on a path of the key, or uses a claim on the key, or is on all keys. -/
def ClientAction.Concerns (key : CacheKey) (keys : List CacheKey) : ClientAction α → Prop
  | .claim path | .lookup path | .invalidate path => .ofPath path = key
  | .complete n _ | .release n | .forget n => keys[n]? = some key
  | .clear => True

instance (key : CacheKey) (keys : List CacheKey) :
    (action : ClientAction α) → Decidable (action.Concerns key keys)
  | .claim path | .lookup path | .invalidate path =>
    inferInstanceAs (Decidable (.ofPath path = key))
  | .complete n _ | .release n | .forget n => inferInstanceAs (Decidable (keys[n]? = some key))
  | .clear => .isTrue trivial

/-- The action with other numbers for the claims. -/
def ClientAction.renumber (number : Nat → Nat) : ClientAction α → ClientAction α
  | .complete n value => .complete (number n) value
  | .release n => .release (number n)
  | .forget n => .forget (number n)
  | action => action

/-- The answer with other numbers for the claims, and the generations that belong to them. -/
def ClientAnswer.renumber (number : Nat → Nat) : ClientAnswer α → ClientAnswer α
  | .claimed n claim => .claimed (number n) ⟨claim.key, .ofNat (number n)⟩
  | answer => answer

/-- The actions that concern a key, with the claims on the key numbered from zero. -/
def actionsOn (key : CacheKey) (keys : List CacheKey) (actions : List (ClientAction α)) :
    List (ClientAction α) :=
  (actions.filter (·.Concerns key keys)).map (·.renumber (rankOn key keys))

/-- The events that concern a key, with the claims on the key numbered from zero. -/
def eventsOn (key : CacheKey) (keys : List CacheKey) (events : List (ClientEvent α)) :
    List (ClientEvent α) :=
  (events.filter (·.1.Concerns key keys)).map fun (action, answer) =>
    (action.renumber (rankOn key keys), answer.renumber (rankOn key keys))

section On

variable {key : CacheKey} {keys : List CacheKey} {action : ClientAction α}
variable {actions : List (ClientAction α)} {answer : ClientAnswer α}
variable {events : List (ClientEvent α)}

theorem actionsOn_cons_of_concerns (h : action.Concerns key keys) :
    actionsOn key keys (action :: actions) =
      action.renumber (rankOn key keys) :: actionsOn key keys actions := by
  rw [actionsOn, List.filter_cons_of_pos (by simpa using h), List.map_cons]
  rfl

theorem actionsOn_cons_of_not_concerns (h : ¬ action.Concerns key keys) :
    actionsOn key keys (action :: actions) = actionsOn key keys actions := by
  rw [actionsOn, List.filter_cons_of_neg (by simpa using h)]
  rfl

theorem eventsOn_cons_of_concerns (h : action.Concerns key keys) :
    eventsOn key keys ((action, answer) :: events) =
      (action.renumber (rankOn key keys), answer.renumber (rankOn key keys)) ::
        eventsOn key keys events := by
  rw [eventsOn, List.filter_cons_of_pos (by simpa using h), List.map_cons]
  rfl

theorem eventsOn_cons_of_not_concerns (h : ¬ action.Concerns key keys) :
    eventsOn key keys ((action, answer) :: events) = eventsOn key keys events := by
  rw [eventsOn, List.filter_cons_of_neg (by simpa using h)]
  rfl

end On

namespace Clients

/-- The keys of all claims that were ever given, in their order. -/
def keys (c : Clients α) : List CacheKey := c.issued.map Claim.key

variable {c d : Clients α} {cache cache' : Cache α} {action : ClientAction α}
variable {actions : List (ClientAction α)} {key : CacheKey} {keys : List CacheKey}
variable {slot slot' : Option (Slot α)} {claim : Claim} {status : ClaimStatus} {path : Path}
variable {n k : Nat} {value : α}

/-! ### The claims of a run and their keys -/

theorem Change.keys_grow {c' : Clients α} (h : Change c action c') : c.keys <+: c'.keys := by
  rcases h.issued_eq with ⟨hissued, -⟩ | ⟨claim, hissued, -⟩
  · simp only [keys, hissued, List.prefix_rfl]
  · rw [keys, keys, hissued, List.map_append]
    exact List.prefix_append _ _

theorem keys_grow_run : c.keys <+: (c.run actions).2.keys := by
  induction actions generalizing c with
  | nil => exact List.prefix_rfl
  | cons action rest ih => exact (change_act c action).keys_grow.trans ih

theorem key_of_issued (hkeys : c.keys <+: keys) (hn : c.issued[n]? = some claim) :
    keys[n]? = some claim.key := by
  obtain ⟨later, rfl⟩ := hkeys
  have hkey : c.keys[n]? = some claim.key := by
    rw [Clients.keys, List.getElem?_map, hn]
    rfl
  rw [List.getElem?_append_left (List.getElem?_eq_some_iff.mp hkey).1, hkey]

/-- The claim just given is the last one. -/
theorem key_of_given (hkeys : (⟨cache, c.claims ++ [⟨claim, .held⟩]⟩ : Clients α).keys <+: keys) :
    keys[c.claims.length]? = some claim.key := by
  apply key_of_issued hkeys
  rw [issued, List.map_append, ← length_issued]
  exact List.getElem?_concat_length

/-- Who settles a claim holds the others as before. -/
theorem held?_settle_of_ne (hne : k ≠ n) :
    (c.settle n claim status cache).held? k = c.held? k := by
  unfold held? settle
  rw [List.getElem?_set_ne hne.symm]

/-- A claim that is given is held, and the others are as before. -/
theorem held?_concat : (⟨cache, c.claims ++ [⟨claim, .held⟩]⟩ : Clients α).held? k =
    if k = c.claims.length then some claim else c.held? k := by
  split
  · next hlast =>
    rw [held?_eq_some_iff, hlast, List.getElem?_concat_length]
  · next hne =>
    unfold held?
    rcases Nat.lt_or_gt_of_ne hne with hlt | hgt
    · rw [List.getElem?_append_left hlt]
    · rw [List.getElem?_eq_none hgt.le, List.getElem?_eq_none]
      rw [List.length_append, List.length_singleton]
      exact hgt

/-- A claim on the key that is held has the generation that belongs to its number. -/
theorem Numbered.eq_of_held? (hc : Numbered c) (hkeys : c.keys <+: keys)
    (hn : keys[n]? = some key) (hheld : c.held? n = some claim) : claim = ⟨key, .ofNat n⟩ := by
  have hissued := getElem?_issued_of_held? hheld
  have hkey := key_of_issued hkeys hissued
  rw [hn, Option.some_inj] at hkey
  rw [hkey, ← hc.generation_eq n claim hissued]

/-- Numbers that are words are equal if the words are. -/
theorem ofNat_inj (hn : n < UInt64.size) (hk : k < UInt64.size) :
    UInt64.ofNat n = UInt64.ofNat k ↔ n = k := by
  constructor
  · intro h
    by_contra hne
    exact ofNat_ne hne hn hk h
  · rintro rfl
    rfl

/-! ### Corresponding entries -/

/-- The entry of the key among all others, and the entry that corresponds to it in a cache with
this key only. -/
inductive SameEntry (key : CacheKey) (keys : List CacheKey) :
    Option (Slot α) → Option (Slot α) → Prop
  | absent : SameEntry key keys none none
  | building {n : Nat} (hn : keys[n]? = some key) :
    SameEntry key keys (some (.building (.ofNat n)))
      (some (.building (.ofNat (rankOn key keys n))))
  | ready (value : α) : SameEntry key keys (some (.ready value)) (some (.ready value))

namespace SameEntry

theorem isSome_eq (h : SameEntry key keys slot slot') : slot'.isSome = slot.isSome := by
  cases h <;> rfl

theorem lookup_eq (h : SameEntry key keys (cache.slot? key) (cache'.slot? key))
    (hpath : .ofPath path = key) : cache'.lookup path = cache.lookup path := by
  unfold Cache.lookup
  rw [hpath]
  generalize cache.slot? key = slot at h
  generalize cache'.slot? key = slot' at h
  cases h <;> rfl

/-- Corresponding claims are awaited alike. -/
theorem awaits_iff (h : SameEntry key keys (cache.slot? key) (cache'.slot? key))
    (hfew : keys.length ≤ UInt64.size) (hn : keys[n]? = some key) :
    cache'.Awaits ⟨key, .ofNat (rankOn key keys n)⟩ ↔ cache.Awaits ⟨key, .ofNat n⟩ := by
  unfold Cache.Awaits
  dsimp only
  generalize cache.slot? key = slot at h
  generalize cache'.slot? key = slot' at h
  cases h with
  | absent => exact iff_of_false nofun nofun
  | ready value => exact iff_of_false nofun nofun
  | @building k hk =>
    have hnlt := (List.getElem?_eq_some_iff.mp hn).1.trans_le hfew
    have hklt := (List.getElem?_eq_some_iff.mp hk).1.trans_le hfew
    -- ranks are no greater than numbers, so they are words as well
    rw [Option.some_inj, Option.some_inj, Slot.building.injEq, Slot.building.injEq,
      ofNat_inj hklt hnlt, ofNat_inj (rankOn_le.trans_lt hklt) (rankOn_le.trans_lt hnlt),
      rankOn_inj hk hn]

theorem erase :
    SameEntry key keys ((cache.erase key).slot? key) ((cache'.erase key).slot? key) := by
  rw [Cache.slot?_erase, Cache.slot?_erase, if_pos rfl, if_pos rfl]
  exact .absent

/-- Completing corresponding claims has the same outcome, and leaves corresponding entries. -/
theorem complete (h : SameEntry key keys (cache.slot? key) (cache'.slot? key))
    (hfew : keys.length ≤ UInt64.size) (hn : keys[n]? = some key) (value : α) :
    (cache'.complete ⟨key, .ofNat (rankOn key keys n)⟩ value).1 =
        (cache.complete ⟨key, .ofNat n⟩ value).1 ∧
      SameEntry key keys ((cache.complete ⟨key, .ofNat n⟩ value).2.slot? key)
        ((cache'.complete ⟨key, .ofNat (rankOn key keys n)⟩ value).2.slot? key) := by
  have hiff := h.awaits_iff hfew hn
  by_cases hawaits : cache.Awaits ⟨key, .ofNat n⟩
  · have hawaits' := hiff.mpr hawaits
    constructor
    · rw [Cache.complete_of_awaits hawaits, Cache.complete_of_awaits hawaits']
    · rw [Cache.slot?_complete hawaits, Cache.slot?_complete hawaits', if_pos rfl, if_pos rfl]
      exact .ready value
  · rw [Cache.complete_of_not_awaits hawaits, Cache.complete_of_not_awaits (mt hiff.mp hawaits)]
    exact ⟨rfl, h⟩

/-- Releasing corresponding claims leaves corresponding entries. -/
theorem release (h : SameEntry key keys (cache.slot? key) (cache'.slot? key))
    (hfew : keys.length ≤ UInt64.size) (hn : keys[n]? = some key) :
    SameEntry key keys ((cache.release ⟨key, .ofNat n⟩).slot? key)
      ((cache'.release ⟨key, .ofNat (rankOn key keys n)⟩).slot? key) := by
  have hiff := h.awaits_iff hfew hn
  by_cases hawaits : cache.Awaits ⟨key, .ofNat n⟩
  · rw [Cache.release_of_awaits hawaits, Cache.release_of_awaits (hiff.mpr hawaits)]
    exact .erase
  · rw [Cache.release_of_not_awaits hawaits, Cache.release_of_not_awaits (mt hiff.mp hawaits)]
    exact h

end SameEntry

/-! ### Corresponding clients -/

/-- The clients `d` have the claims on the key that `c` has, numbered from zero, and a
corresponding entry. -/
structure Restricts (key : CacheKey) (keys : List CacheKey) (c d : Clients α) : Prop where
  length_eq : d.claims.length = rankOn key keys c.claims.length
  /-- Corresponding claims are held alike. Those that are yet to be given are held in neither. -/
  held?_eq : ∀ n, keys[n]? = some key → d.held? (rankOn key keys n) =
    (c.held? n).map fun _ => ⟨key, .ofNat (rankOn key keys n)⟩
  entry : SameEntry key keys (c.cache.slot? key) (d.cache.slot? key)

/-- Both learn the same from the action, up to the numbers of the claims, and they correspond after
it. -/
def ActsAlike (key : CacheKey) (keys : List CacheKey) (c d : Clients α)
    (action : ClientAction α) : Prop :=
  (d.act (action.renumber (rankOn key keys))).1 = (c.act action).1.renumber (rankOn key keys) ∧
    Restricts key keys (c.act action).2 (d.act (action.renumber (rankOn key keys))).2

theorem restricts_empty : Restricts key keys ({} : Clients α) {} where
  length_eq := rfl
  held?_eq _ _ := rfl
  entry := .absent

namespace Restricts

/-! #### Actions on other keys -/

/-- Clients that have the same claims on the key and the same entry correspond to the same. -/
theorem of_same {c' : Clients α} (h : Restricts key keys c d)
    (hlength : rankOn key keys c'.claims.length = rankOn key keys c.claims.length)
    (hheld : ∀ n, keys[n]? = some key → c'.held? n = c.held? n)
    (hslot : c'.cache.slot? key = c.cache.slot? key) : Restricts key keys c' d where
  length_eq := h.length_eq.trans hlength.symm
  held?_eq n hn := by rw [h.held?_eq n hn, hheld n hn]
  entry := by
    rw [hslot]
    exact h.entry

/-- Settling a claim on another key changes nothing for the key. -/
theorem settle_other (h : Restricts key keys c d) (hn : keys[n]? ≠ some key)
    (hslot : cache.slot? key = c.cache.slot? key) :
    Restricts key keys (c.settle n claim status cache) d := by
  refine h.of_same ?_ (fun k hk => held?_settle_of_ne ?_) hslot
  · rw [settle, List.length_set]
  · rintro rfl
    exact hn hk

/-- What does not concern the key changes nothing for it. -/
theorem act_of_not_concerns (h : Restricts key keys c d)
    (hkeys : (c.act action).2.keys <+: keys)
    (hother : ¬ action.Concerns key keys) : Restricts key keys (c.act action).2 d := by
  have hchange := change_act c action
  have hkeys' : c.keys <+: keys := hchange.keys_grow.trans hkeys
  generalize (c.act action).2 = c' at hchange hkeys ⊢
  cases hchange with
  | nothing => exact h
  | @claimed path claim cache hclaim =>
    obtain ⟨-, rfl, -, hslots⟩ := Cache.claim?_eq_some hclaim
    have hlast := key_of_given hkeys
    refine h.of_same ?_ (fun n hn => ?_) ?_
    · rw [List.length_append, List.length_singleton, rankOn_succ hlast]
      exact congrArg _ (if_neg hother)
    · rw [held?_concat, if_neg]
      -- the claim just given is on another key
      rintro rfl
      rw [hn] at hlast
      exact hother (Option.some.inj hlast).symm
    · exact (hslots key).trans (if_neg (Ne.symm hother))
  | completed hheld =>
    refine h.settle_other hother (Cache.slot?_complete_of_ne ?_)
    rintro rfl
    exact hother (key_of_issued hkeys' (getElem?_issued_of_held? hheld))
  | released hheld =>
    refine h.settle_other hother (Cache.slot?_release_of_ne ?_)
    rintro rfl
    exact hother (key_of_issued hkeys' (getElem?_issued_of_held? hheld))
  | forgotten => exact h.settle_other hother rfl
  | invalidated =>
    exact h.of_same rfl (fun _ _ => rfl) (Cache.slot?_erase.trans (if_neg (Ne.symm hother)))
  | cleared => exact absurd trivial hother

/-! #### Actions on the key -/

/-- A claim is given in both runs or in neither, and corresponding claims are given. -/
theorem act_claim (h : Restricts key keys c d) (hc : Numbered c) (hd : Numbered d)
    (hkeys : (c.act (.claim path)).2.keys <+: keys) (hpath : .ofPath path = key) :
    ActsAlike key keys c d (.claim path) := by
  unfold ActsAlike ClientAction.renumber
  subst hpath
  have hsome := h.entry.isSome_eq
  cases hslot : c.cache.slot? (.ofPath path) with
  | some slot =>
    rw [hslot] at hsome
    obtain ⟨slot', hslot'⟩ := Option.isSome_iff_exists.mp hsome
    rw [act_claim_of_present hslot, act_claim_of_present hslot']
    exact ⟨rfl, h⟩
  | none =>
    rw [hslot] at hsome
    obtain ⟨cache, hact, hslots⟩ := act_claim_of_absent hslot
    have habsent := Option.isNone_iff_eq_none.mp (Option.isSome_eq_false_iff.mp hsome)
    obtain ⟨cache', hact', hslots'⟩ := act_claim_of_absent habsent
    rw [hact] at hkeys
    -- both counters stand at the numbers of claims given so far, which correspond
    rw [hact, hact', hc.next, hd.next, h.length_eq]
    have hlast := key_of_given hkeys
    refine ⟨rfl, ?_, fun n hn => ?_, ?_⟩
    · rw [List.length_append, List.length_append, h.length_eq, List.length_singleton,
        List.length_singleton, rankOn_succ hlast, if_pos rfl]
    · rw [held?_concat, held?_concat, h.length_eq]
      by_cases heq : n = c.claims.length
      · rw [heq, if_pos rfl, if_pos rfl]
        rfl
      · rw [if_neg heq, if_neg (mt (rankOn_inj hn hlast).mp heq)]
        exact h.held?_eq n hn
    · rw [hslots, hslots', if_pos rfl, if_pos rfl, hc.next, hd.next, h.length_eq]
      exact .building hlast

/-- Settling corresponding claims leaves corresponding clients. -/
theorem settle {other : Claim} (h : Restricts key keys c d) (hn : keys[n]? = some key)
    (hstatus : status ≠ .held) (hentry : SameEntry key keys (cache.slot? key) (cache'.slot? key)) :
    Restricts key keys (c.settle n claim status cache)
      (d.settle (rankOn key keys n) other status cache') where
  length_eq := by
    rw [Clients.settle, Clients.settle, List.length_set, List.length_set, h.length_eq]
  held?_eq k hk := by
    by_cases heq : k = n
    · rw [heq, held?_settle hstatus, held?_settle hstatus]
      rfl
    · rw [held?_settle_of_ne heq, held?_settle_of_ne (mt (rankOn_inj hk hn).mp heq)]
      exact h.held?_eq k hk
  entry := hentry

/-- A claim that is held in one run is held in the other. -/
theorem held_of_held (h : Restricts key keys c d) (hn : keys[n]? = some key)
    (hheld : c.held? n = some claim) :
    d.held? (rankOn key keys n) = some ⟨key, .ofNat (rankOn key keys n)⟩ := by
  rw [h.held?_eq n hn, hheld]
  rfl

theorem not_held_of_not_held (h : Restricts key keys c d) (hn : keys[n]? = some key)
    (hheld : c.held? n = none) : d.held? (rankOn key keys n) = none := by
  rw [h.held?_eq n hn, hheld]
  rfl

theorem act_complete (h : Restricts key keys c d) (hc : Numbered c) (hkeys : c.keys <+: keys)
    (hfew : keys.length ≤ UInt64.size) (hn : keys[n]? = some key) :
    ActsAlike key keys c d (.complete n value) := by
  unfold ActsAlike ClientAction.renumber
  cases hheld : c.held? n with
  | none =>
    have hheld' := h.not_held_of_not_held hn hheld
    rw [(act_of_not_held hheld value).1, (act_of_not_held hheld' value).1]
    exact ⟨rfl, h⟩
  | some claim =>
    rw [act_complete_of_held hheld, act_complete_of_held (h.held_of_held hn hheld),
      hc.eq_of_held? hkeys hn hheld]
    obtain ⟨hstored, hentry⟩ := h.entry.complete hfew hn value
    exact ⟨congrArg ClientAnswer.completed hstored, h.settle hn nofun hentry⟩

theorem act_release (h : Restricts key keys c d) (hc : Numbered c) (hkeys : c.keys <+: keys)
    (hfew : keys.length ≤ UInt64.size) (hn : keys[n]? = some key) :
    ActsAlike key keys c d (.release n) := by
  unfold ActsAlike ClientAction.renumber
  cases hheld : c.held? n with
  | none =>
    rw [act_release_of_not_held hheld, act_release_of_not_held (h.not_held_of_not_held hn hheld)]
    exact ⟨rfl, h⟩
  | some claim =>
    rw [act_release_of_held hheld, act_release_of_held (h.held_of_held hn hheld),
      hc.eq_of_held? hkeys hn hheld]
    exact ⟨rfl, h.settle hn nofun (h.entry.release hfew hn)⟩

theorem act_forget (h : Restricts key keys c d) (hn : keys[n]? = some key) :
    ActsAlike key keys c d (.forget n) := by
  unfold ActsAlike ClientAction.renumber
  cases hheld : c.held? n with
  | none =>
    rw [act_forget_of_not_held hheld, act_forget_of_not_held (h.not_held_of_not_held hn hheld)]
    exact ⟨rfl, h⟩
  | some claim =>
    rw [act_forget_of_held hheld, act_forget_of_held (h.held_of_held hn hheld)]
    exact ⟨rfl, h.settle hn nofun h.entry⟩

theorem act_invalidate (h : Restricts key keys c d) (hpath : .ofPath path = key) :
    ActsAlike key keys c d (.invalidate path) := by
  subst hpath
  exact ⟨congrArg ClientAnswer.removed h.entry.isSome_eq, h.length_eq, h.held?_eq, .erase⟩

/-- Corresponding clients act alike where the key is concerned. -/
theorem act (h : Restricts key keys c d) (hc : Numbered c) (hd : Numbered d)
    (hkeys : (c.act action).2.keys <+: keys) (hfew : keys.length ≤ UInt64.size)
    (hon : action.Concerns key keys) : ActsAlike key keys c d action := by
  have hkeys' : c.keys <+: keys := (change_act c action).keys_grow.trans hkeys
  cases action with
  | claim path => exact h.act_claim hc hd hkeys hon
  | complete n value => exact h.act_complete hc hkeys' hfew hon
  | release n => exact h.act_release hc hkeys' hfew hon
  | forget n => exact h.act_forget hon
  | lookup path => exact ⟨congrArg ClientAnswer.found (h.entry.lookup_eq hon), h⟩
  | invalidate path => exact h.act_invalidate hon
  | clear => exact ⟨rfl, h.length_eq, h.held?_eq, .absent⟩

/-! #### Runs -/

/-- Corresponding clients go through the same events where the key is concerned, and correspond in
the end. -/
theorem history (h : Restricts key keys c d) (hc : Numbered c) (hd : Numbered d)
    (hkeys : (c.run actions).2.keys <+: keys) (hfew : keys.length ≤ UInt64.size) :
    d.history (actionsOn key keys actions) = eventsOn key keys (c.history actions) ∧
      Restricts key keys (c.run actions).2 (d.run (actionsOn key keys actions)).2 := by
  -- the keys are those of the whole run, so ranks stay what they are along it
  induction actions generalizing c d with
  | nil => exact ⟨rfl, h⟩
  | cons action rest ih =>
    rw [run_cons_snd] at hkeys
    rw [history_cons, run_cons_snd]
    have hc' := (change_act c action).numbered hc
    have hstep := keys_grow_run.trans hkeys
    by_cases hon : action.Concerns key keys
    · obtain ⟨hanswer, hnext⟩ := h.act hc hd hstep hfew hon
      have hd' := (change_act d (action.renumber (rankOn key keys))).numbered hd
      rw [actionsOn_cons_of_concerns hon, eventsOn_cons_of_concerns hon, history_cons, run_cons_snd,
        hanswer]
      obtain ⟨hevents, hlast⟩ := ih hnext hc' hd' hkeys
      exact ⟨congrArg _ hevents, hlast⟩
    · rw [actionsOn_cons_of_not_concerns hon, eventsOn_cons_of_not_concerns hon]
      exact ih (h.act_of_not_concerns hstep hon) hc' hd hkeys

end Restricts

/-- Let a run begin with an empty cache, with no more claims in it than there are generations. Take
the actions that concern a key, and number the claims on the key from zero. The run of these
actions alone has the events that they had among all the others, in which a claim of the long run
has its rank as its number and its generation. In the end the paths of the key look the same. -/
theorem history_actionsOn (key : CacheKey) (actions : List (ClientAction α))
    (hc : (({} : Clients α).run actions).2 = c) (hfew : c.claims.length ≤ UInt64.size)
    (hd : (({} : Clients α).run (actionsOn key c.keys actions)).2 = d) :
    ({} : Clients α).history (actionsOn key c.keys actions) =
        eventsOn key c.keys (({} : Clients α).history actions) ∧
      ∀ path, .ofPath path = key →
        d.cache.lookup path = c.cache.lookup path ∧ d.cache.get? path = c.cache.get? path ∧
          d.cache.isBuilding path = c.cache.isBuilding path := by
  subst hc hd
  have hlength : (({} : Clients α).run actions).2.keys.length ≤ UInt64.size := by
    rw [keys, List.length_map, length_issued]
    exact hfew
  obtain ⟨hevents, hlast⟩ :=
    restricts_empty.history numbered_empty numbered_empty List.prefix_rfl hlength
  refine ⟨hevents, fun path hpath => ?_⟩
  have hlookup := hlast.entry.lookup_eq hpath
  exact ⟨hlookup, congrArg Lookup.value? hlookup, congrArg Lookup.isBuilding hlookup⟩

/-- A claim on one key, and two on another one whose first claim was ended. -/
def twoKeys : List (ClientAction Nat) :=
  [.claim ⟨[0x61]⟩, .claim ⟨[0x62]⟩, .invalidate ⟨[0x42]⟩, .complete 0 5, .claim ⟨[0x62]⟩,
    .complete 1 6, .complete 2 7, .lookup ⟨[0x42]⟩]

theorem history_actionsOn_twoKeys :
    ({} : Clients Nat).history [.claim ⟨[0x62]⟩, .invalidate ⟨[0x42]⟩, .claim ⟨[0x62]⟩,
        .complete 0 6, .complete 1 7, .lookup ⟨[0x42]⟩] =
      [(.claim ⟨[0x62]⟩, .claimed 0 ⟨⟨[0x62]⟩, 0⟩), (.invalidate ⟨[0x42]⟩, .removed true),
        (.claim ⟨[0x62]⟩, .claimed 1 ⟨⟨[0x62]⟩, 1⟩), (.complete 0 6, .completed false),
        (.complete 1 7, .completed true), (.lookup ⟨[0x42]⟩, .found (.ready 7))] := by
  obtain ⟨hevents, -⟩ := history_actionsOn ⟨[0x62]⟩ twoKeys rfl (by decide +kernel) rfl
  have hkept : actionsOn ⟨[0x62]⟩ (({} : Clients Nat).run twoKeys).2.keys twoKeys =
      [.claim ⟨[0x62]⟩, .invalidate ⟨[0x42]⟩, .claim ⟨[0x62]⟩, .complete 0 6, .complete 1 7,
        .lookup ⟨[0x42]⟩] := by
    decide +kernel
  rw [hkept] at hevents
  rw [hevents]
  decide +kernel

end Clients

end VirtualFiles
