import VirtualFiles.Proofs.Cache.Ended
import VirtualFiles.Proofs.Cache.History

/-!
# One builder at a time

The entry of a key is told by the history of the key since it was last ended. As long as all
claims on it were released, there is none. Otherwise there is one claim that was not released, the
flight of the key: the entry awaits it until it is completed, and is the value that it was completed
with from then on. Nothing but the end of the key ends a flight that was completed or forgotten.

## Main definitions

* `Clients.Flight` — the claim of a key that was not released
* `Clients.Standing` — the entry of a key, by the events since the key was last ended

## Main results

* `Standing.act`, `standing_history` — one action, and a run
* `claimed_iff_released` — who can claim a path, and what a look-up gives
-/

namespace VirtualFiles.Clients

variable {α : Type} {c : Clients α} {action : ClientAction α} {key : CacheKey} {path : Path}
variable {events : List (ClientEvent α)} {n k : Nat} {value : α} {claim : Claim}

/-- Of the claims on the key that were given in the events, `n` is the one that was not
released. -/
structure Flight (key : CacheKey) (n : Nat) (events : List (ClientEvent α)) : Prop where
  given : GivenIn key n events
  released_iff : ∀ k, GivenIn key k events → (ReleasedIn k events ↔ k ≠ n)

theorem Flight.unreleased (h : Flight key n events) : ¬ ReleasedIn n events :=
  fun hreleased => (h.released_iff n h.given).mp hreleased rfl

/-- A flight goes on while no other claim is given and its own is not released. -/
theorem Flight.concat {event : ClientEvent α} (h : Flight key n events)
    (hgiven : ∀ k, ¬ GivenIn key k [event]) (hreleased : ¬ ReleasedIn n [event]) :
    Flight key n (events ++ [event]) where
  given := givenIn_append.mpr (.inl h.given)
  released_iff k hk := by
    have hbefore := h.released_iff k ((givenIn_append.mp hk).resolve_right (hgiven k))
    rw [releasedIn_append, hbefore]
    constructor
    · rintro (hne | hnow) rfl
      · exact hne rfl
      · exact hreleased hnow
    · exact .inl

/-- The entry of a key, by the events since the key was last ended. -/
inductive Standing (key : CacheKey) (c : Clients α) (events : List (ClientEvent α)) : Prop
  | free (absent : c.cache.slot? key = none)
    (released : ∀ k, GivenIn key k events → ReleasedIn k events)
    (unstored : ∀ k value, c.IsOn key k → ¬ StoredIn k value events)
  | building (n : Nat) (claim : Claim) (issued : c.issued[n]? = some claim)
    (key_eq : claim.key = key) (awaits : c.cache.Awaits claim) (flight : Flight key n events)
    (unstored : ∀ k value, c.IsOn key k → ¬ StoredIn k value events)
  | ready (n : Nat) (value : α) (present : c.cache.slot? key = some (.ready value))
    (flight : Flight key n events)
    (stored_iff : ∀ k other, c.IsOn key k → (StoredIn k other events ↔ k = n ∧ other = value))

/-- Right after a key was ended nothing has happened to it. -/
theorem standing_of_absent (h : c.cache.slot? key = none) : Standing key c [] :=
  .free h (fun _ ⟨_, _, _, hmem⟩ => absurd hmem List.not_mem_nil) fun _ _ _ => List.not_mem_nil

/-- What was stored before an action and in it, for claims on the key. -/
theorem storedIn_concat_iff (hrecords : Records c events)
    (hon : (c.act action).2.IsOn key k) :
    StoredIn k value (events ++ [(action, (c.act action).1)]) ↔
      c.IsOn key k ∧ (StoredIn k value events ∨ StoredIn k value [(action, (c.act action).1)]) := by
  rw [storedIn_append, iff_and_self]
  rintro (hbefore | hnow)
  · exact hon.of_act (hrecords.of_storedIn hbefore).1
  · -- a claim that is completed now was held before
    have huses : ClientEvent.Uses k (action, (c.act action).1) := by
      rw [← List.mem_singleton.mp hnow]
      rfl
    obtain ⟨⟨claim, hheld⟩, -⟩ := held?_of_uses huses
    exact hon.of_act (lt_of_held? hheld)

/-- Where nothing was stored for a key, an action that stores nothing for it leaves it so. -/
theorem unstored_concat (hrecords : Records c events)
    (hbefore : ∀ k value, c.IsOn key k → ¬ StoredIn k value events)
    (hnow : ∀ k value, c.IsOn key k → ¬ StoredIn k value [(action, (c.act action).1)]) :
    ∀ k value, (c.act action).2.IsOn key k →
      ¬ StoredIn k value (events ++ [(action, (c.act action).1)]) := by
  intro k value hon hin
  obtain ⟨hon', hin | hin⟩ := (storedIn_concat_iff hrecords hon).mp hin
  · exact hbefore k value hon' hin
  · exact hnow k value hon' hin

/-- Of the claims on a key one is awaited at most. -/
theorem Numbered.eq_of_awaits (hnumbered : Numbered c) (hfew : c.claims.length ≤ UInt64.size)
    {other : Claim} (hn : c.issued[n]? = some claim) (hk : c.issued[k]? = some other)
    (hawaits : c.cache.Awaits claim) (hawaits' : c.cache.Awaits other)
    (hkey : claim.key = other.key) : n = k := by
  by_contra hne
  exact hawaits.key_ne hawaits' (hnumbered.generation_ne hfew hne hn hk) hkey

namespace Standing

/-- An action that leaves the entry of a key as it is, and uses no claim on it but one that the
entry does not await, leaves all as it stands. -/
theorem quiet (h : Standing key c events) (hrecords : Records c events)
    (hslot : (c.act action).2.cache.slot? key = c.cache.slot? key)
    (hgiven : ∀ k, ¬ GivenIn key k [(action, (c.act action).1)])
    (hstored : ∀ k value, c.IsOn key k → ¬ StoredIn k value [(action, (c.act action).1)])
    (hreleased : ∀ k, ReleasedIn k [(action, (c.act action).1)] → ∃ claim,
      c.held? k = some claim ∧ (claim.key = key → ¬ c.cache.Awaits claim)) :
    Standing key (c.act action).2 (events ++ [(action, (c.act action).1)]) := by
  cases h with
  | free absent released unstored =>
    refine .free (hslot.trans absent) (fun k hk => ?_) (unstored_concat hrecords unstored hstored)
    exact releasedIn_append.mpr
      (.inl (released k ((givenIn_append.mp hk).resolve_right (hgiven k))))
  | building n claim issued key_eq awaits flight unstored =>
    refine .building n claim ((change_act c action).getElem?_issued issued) key_eq ?_
      (flight.concat hgiven fun hnow => ?_) (unstored_concat hrecords unstored hstored)
    · rw [Cache.Awaits, key_eq, hslot, ← key_eq]
      exact awaits
    · obtain ⟨other, hheld, hnot⟩ := hreleased n hnow
      obtain rfl := eq_of_held? issued hheld
      exact hnot key_eq awaits
  | ready n value present flight stored_iff =>
    refine .ready n value (hslot.trans present) (flight.concat hgiven fun hnow => ?_) ?_
    · -- the claim was used when it was completed
      have hin := (stored_iff n value (hrecords.isOn flight.given)).mpr ⟨rfl, rfl⟩
      obtain ⟨other, hheld, -⟩ := hreleased n hnow
      rw [(hrecords.of_storedIn hin).2] at hheld
      cases hheld
    · intro k other hon
      rw [storedIn_concat_iff hrecords hon]
      constructor
      · rintro ⟨hon', hin | hin⟩
        · exact (stored_iff k other hon').mp hin
        · exact absurd hin (hstored k other hon')
      · rintro ⟨rfl, rfl⟩
        have hon' := hrecords.isOn flight.given
        exact ⟨hon', .inl ((stored_iff k other hon').mpr ⟨rfl, rfl⟩)⟩

/-- A key with an entry that awaits a claim has this claim in flight, and nothing was stored. -/
theorem of_awaits (h : Standing key c events) (hnumbered : Numbered c)
    (hfew : c.claims.length ≤ UInt64.size) (hissued : c.issued[n]? = some claim)
    (hkey : claim.key = key) (hawaits : c.cache.Awaits claim) :
    Flight key n events ∧ ∀ k value, c.IsOn key k → ¬ StoredIn k value events := by
  have hslot : c.cache.slot? key = some (.building claim.generation) := by
    rw [← hkey]
    exact hawaits
  cases h with
  | free absent =>
    rw [absent] at hslot
    cases hslot
  | building k other issued key_eq awaits flight unstored =>
    obtain rfl := hnumbered.eq_of_awaits hfew hissued issued hawaits awaits (hkey.trans key_eq.symm)
    exact ⟨flight, unstored⟩
  | ready k value present =>
    rw [present] at hslot
    cases hslot

/-- A claim that is given for a key without entry is the flight of the key from then on. -/
theorem act_claim (h : Standing key c events) (hrecords : Records c events) :
    Standing key (c.act (.claim path)).2 (events ++ [(.claim path, (c.act (.claim path)).1)]) := by
  cases hslot : c.cache.slot? (.ofPath path) with
  | some slot =>
    have hact := act_claim_of_present hslot
    refine h.quiet hrecords ?_ ?_ ?_ ?_ <;> simp [hact, GivenIn, StoredIn, ReleasedIn]
  | none =>
    obtain ⟨cache, hact, hslots⟩ := act_claim_of_absent hslot
    by_cases hkey : .ofPath path = key
    · cases h with
      | building n claim issued key_eq awaits =>
        rw [Cache.Awaits, key_eq, ← hkey, hslot] at awaits
        cases awaits
      | ready n value present =>
        rw [← hkey, hslot] at present
        cases present
      | free absent released unstored =>
        have hanswer := congrArg Prod.fst hact
        obtain ⟨-, hclaimed, hissued, hawaits⟩ := of_act_claim hanswer
        refine .building _ _ hissued (hclaimed.trans hkey) hawaits ⟨?_, fun k hk => ?_⟩ ?_
        · rw [hanswer]
          exact givenIn_append.mpr (.inr ⟨path, _, hkey, List.mem_singleton_self _⟩)
        · have hnow : ¬ ReleasedIn k [(.claim path, (c.act (.claim path)).1)] := by
            simp [ReleasedIn]
          rw [releasedIn_append, or_iff_left hnow]
          rcases givenIn_append.mp hk with hbefore | ⟨path', claim', -, hmem⟩
          · have hreleased := released k hbefore
            exact iff_of_true hreleased (hrecords.of_releasedIn hreleased).1.ne
          · -- the number of the new claim was not in use before
            rw [hanswer, List.mem_singleton] at hmem
            cases hmem
            refine iff_of_false (fun hreleased => ?_) (not_not_intro rfl)
            exact (hrecords.of_releasedIn hreleased).1.ne rfl
        · exact unstored_concat hrecords unstored fun k value _ hin => by simp [StoredIn] at hin
    · refine h.quiet hrecords ?_ ?_ ?_ ?_
      · rw [hact, hslots, if_neg (Ne.symm hkey)]
      · simp [hact, GivenIn, hkey]
      · simp [StoredIn]
      · simp [ReleasedIn]

/-- A claim that is completed while the entry of its key awaits it becomes that entry. -/
theorem act_complete (h : Standing key c events) (hrecords : Records c events)
    (hnumbered : Numbered c) (hfew : c.claims.length ≤ UInt64.size) :
    Standing key (c.act (.complete n value)).2
      (events ++ [(.complete n value, (c.act (.complete n value)).1)]) := by
  cases hheld : c.held? n with
  | none =>
    have hact := (act_of_not_held hheld value).1
    refine h.quiet hrecords ?_ ?_ ?_ ?_ <;> simp [hact, GivenIn, StoredIn, ReleasedIn]
  | some claim =>
    have hact := act_complete_of_held hheld value
    have hissued := getElem?_issued_of_held? hheld
    by_cases hawaits : c.cache.Awaits claim
    · have hanswer : (c.act (.complete n value)).1 = .completed true := by
        rw [hact, Cache.complete_of_awaits hawaits]
      have hslots : ∀ key, (c.act (.complete n value)).2.cache.slot? key =
          if key = claim.key then some (.ready value) else c.cache.slot? key := by
        rw [hact]
        exact fun key => Cache.slot?_complete hawaits
      by_cases hkey : claim.key = key
      · obtain ⟨flight, unstored⟩ := h.of_awaits hnumbered hfew hissued hkey hawaits
        refine .ready n value ?_ (flight.concat ?_ ?_) fun k other hon => ?_
        · rw [hslots, if_pos hkey.symm]
        · simp [GivenIn]
        · simp [ReleasedIn]
        · rw [storedIn_concat_iff hrecords hon, hanswer]
          constructor
          · rintro ⟨hon', hin | hin⟩
            · exact absurd hin (unstored k other hon')
            · cases List.mem_singleton.mp hin
              exact ⟨rfl, rfl⟩
          · rintro ⟨rfl, rfl⟩
            exact ⟨⟨claim, hissued, hkey⟩, .inr (List.mem_singleton_self _)⟩
      · refine h.quiet hrecords ?_ ?_ ?_ ?_
        · rw [hslots, if_neg (Ne.symm hkey)]
        · simp [GivenIn]
        · -- the claim that is completed is on another key
          rintro k other ⟨claim', hissued', hkey'⟩ hin
          rw [hanswer] at hin
          cases List.mem_singleton.mp hin
          obtain rfl := eq_of_held? hissued' hheld
          exact hkey hkey'
        · simp [ReleasedIn]
    · refine h.quiet hrecords ?_ ?_ ?_ ?_
      · rw [hact, Cache.complete_of_not_awaits hawaits]
        rfl
      · simp [GivenIn]
      · simp [hact, StoredIn, Cache.complete_of_not_awaits hawaits]
      · simp [ReleasedIn]

/-- A key whose claim is released while the entry awaits it is free again. -/
theorem act_release (h : Standing key c events) (hrecords : Records c events)
    (hnumbered : Numbered c) (hfew : c.claims.length ≤ UInt64.size) :
    Standing key (c.act (.release n)).2 (events ++ [(.release n, (c.act (.release n)).1)]) := by
  cases hheld : c.held? n with
  | none =>
    have hact := act_release_of_not_held hheld
    refine h.quiet hrecords ?_ ?_ ?_ ?_ <;> simp [hact, GivenIn, StoredIn, ReleasedIn]
  | some claim =>
    have hact := act_release_of_held hheld
    have hcache : (c.act (.release n)).2.cache = c.cache.release claim := by
      rw [hact]
      rfl
    by_cases hlast : claim.key = key ∧ c.cache.Awaits claim
    · obtain ⟨hkey, hawaits⟩ := hlast
      obtain ⟨flight, unstored⟩ :=
        h.of_awaits hnumbered hfew (getElem?_issued_of_held? hheld) hkey hawaits
      refine .free ?_ (fun k hk => ?_) ?_
      · rw [hcache, Cache.release_of_awaits hawaits, Cache.slot?_erase, if_pos hkey.symm]
      · rw [releasedIn_append, hact]
        by_cases hkn : k = n
        · rw [hkn]
          exact .inr (List.mem_singleton_self _)
        · have hgiven := (givenIn_append.mp hk).resolve_right (by simp [GivenIn])
          exact .inl ((flight.released_iff k hgiven).mpr hkn)
      · exact unstored_concat hrecords unstored fun k value _ hin => by simp [StoredIn] at hin
    · rw [not_and] at hlast
      refine h.quiet hrecords ?_ ?_ ?_ fun k hk => ?_
      · rw [hcache]
        by_cases hawaits : c.cache.Awaits claim
        · rw [Cache.release_of_awaits hawaits, Cache.slot?_erase,
            if_neg fun hkey => hlast hkey.symm hawaits]
        · rw [Cache.release_of_not_awaits hawaits]
      · simp [GivenIn]
      · simp [StoredIn]
      · rw [hact] at hk
        cases List.mem_singleton.mp hk
        exact ⟨claim, hheld, hlast⟩

/-- What an action that does not end the key does to it. -/
theorem act (h : Standing key c events) (hrecords : Records c events) (hnumbered : Numbered c)
    (hfew : c.claims.length ≤ UInt64.size) (hends : ¬ action.Ends key) :
    Standing key (c.act action).2 (events ++ [(action, (c.act action).1)]) := by
  cases action with
  | claim path => exact h.act_claim hrecords
  | complete n value => exact h.act_complete hrecords hnumbered hfew
  | release n => exact h.act_release hrecords hnumbered hfew
  | forget n =>
    refine h.quiet hrecords ?_ ?_ ?_ ?_
    · cases hheld : c.held? n with
      | none => rw [act_forget_of_not_held hheld]
      | some claim => rw [act_forget_of_held hheld]; rfl
    all_goals simp [GivenIn, StoredIn, ReleasedIn]
  | lookup path => refine h.quiet hrecords rfl ?_ ?_ ?_ <;> simp [GivenIn, StoredIn, ReleasedIn]
  | invalidate path =>
    refine h.quiet hrecords ?_ ?_ ?_ ?_
    · exact Cache.slot?_erase.trans (if_neg (Ne.symm hends))
    all_goals simp [GivenIn, StoredIn, ReleasedIn]
  | clear => exact absurd trivial hends

end Standing

/-- The entry of a key at the end of a run is told by the history since the key was last ended. -/
theorem standing_history {actions : List (ClientAction α)}
    (hfew : (({} : Clients α).run actions).2.claims.length ≤ UInt64.size) :
    Standing key (({} : Clients α).run actions).2
      (sinceEnd key (({} : Clients α).history actions)) := by
  induction actions using List.reverseRecOn with
  | nil => exact standing_of_absent rfl
  | append_singleton actions action ih =>
    rw [run_concat_snd] at hfew ⊢
    rw [history_concat, sinceEnd_concat]
    have hchange := change_act (({} : Clients α).run actions).2 action
    have hfew' := Nat.le_trans hchange.length_le hfew
    by_cases hends : action.Ends key
    · rw [if_pos hends]
      exact standing_of_absent (hchange.slot?_of_ends hends)
    · rw [if_neg hends]
      refine (ih hfew').act ?_ (numbered_run numbered_empty) hfew' hends
      exact records_history.of_subset fun _ => mem_of_mem_sinceEnd

/-! ### What clients see -/

theorem act_claim_eq_claimed_iff :
    (∃ n claim, (c.act (.claim path)).1 = .claimed n claim) ↔
      c.cache.slot? (.ofPath path) = none := by
  constructor
  · rintro ⟨n, claim, hclaimed⟩
    by_contra hpresent
    obtain ⟨slot, hslot⟩ := Option.ne_none_iff_exists'.mp hpresent
    rw [act_claim_of_present hslot] at hclaimed
    cases hclaimed
  · intro habsent
    obtain ⟨cache, hact, -⟩ := act_claim_of_absent habsent
    rw [hact]
    exact ⟨_, _, rfl⟩

theorem act_claim_eq_refused_iff :
    (c.act (.claim path)).1 = .refused ↔ c.cache.slot? (.ofPath path) ≠ none := by
  constructor
  · intro hrefused habsent
    obtain ⟨n, claim, hclaimed⟩ := act_claim_eq_claimed_iff.mpr habsent
    rw [hrefused] at hclaimed
    cases hclaimed
  · intro hpresent
    obtain ⟨slot, hslot⟩ := Option.ne_none_iff_exists'.mp hpresent
    rw [act_claim_of_present hslot]

theorem lookup_eq_ready_iff {cache : Cache α} :
    cache.lookup path = .ready value ↔ cache.slot? (.ofPath path) = some (.ready value) := by
  unfold Cache.lookup
  split <;> simp_all

theorem get?_eq_some_iff {cache : Cache α} :
    cache.get? path = some value ↔ cache.slot? (.ofPath path) = some (.ready value) := by
  rw [← lookup_eq_ready_iff, Cache.get?]
  cases cache.lookup path <;> simp [Lookup.value?]

namespace Standing

theorem slot?_eq_none_iff (h : Standing key c events) :
    c.cache.slot? key = none ↔ ∀ n, GivenIn key n events → ReleasedIn n events := by
  cases h with
  | free absent released => exact iff_of_true absent released
  | building n claim issued key_eq awaits flight =>
    refine iff_of_false (fun habsent => ?_) fun h => flight.unreleased (h n flight.given)
    rw [Cache.Awaits, key_eq, habsent] at awaits
    cases awaits
  | ready n value present flight =>
    refine iff_of_false (fun habsent => ?_) fun h => flight.unreleased (h n flight.given)
    rw [habsent] at present
    cases present

theorem slot?_eq_ready_iff {all : List (ClientEvent α)} (h : Standing key c events)
    (hrecords : Records c all) (hall : ∀ n, GivenIn key n events → GivenIn key n all) (value : α) :
    c.cache.slot? key = some (.ready value) ↔
      ∃ n, GivenIn key n all ∧ StoredIn n value events := by
  cases h with
  | free absent released unstored =>
    refine iff_of_false (by simp [absent]) ?_
    rintro ⟨n, hgiven, hstored⟩
    exact unstored n value (hrecords.isOn hgiven) hstored
  | building n claim issued key_eq awaits flight unstored =>
    rw [Cache.Awaits, key_eq] at awaits
    refine iff_of_false (by simp [awaits]) ?_
    rintro ⟨k, hgiven, hstored⟩
    exact unstored k value (hrecords.isOn hgiven) hstored
  | ready n other present flight stored_iff =>
    rw [present, Option.some_inj, Slot.ready.injEq]
    have hgiven := hall n flight.given
    constructor
    · rintro rfl
      exact ⟨n, hgiven, (stored_iff n other (hrecords.isOn hgiven)).mpr ⟨rfl, rfl⟩⟩
    · rintro ⟨k, hgiven', hstored⟩
      exact ((stored_iff k value (hrecords.isOn hgiven')).mp hstored).2.symm

/-- Two claims on a key that were not released are one. -/
theorem eq_of_not_released (h : Standing key c events) (hn : GivenIn key n events)
    (hk : GivenIn key k events) (hn' : ¬ ReleasedIn n events) (hk' : ¬ ReleasedIn k events) :
    n = k := by
  cases h with
  | free absent released => exact absurd (released n hn) hn'
  | building m _ _ _ _ flight | ready m _ _ flight =>
    have hn := not_not.mp (mt (flight.released_iff n hn).mpr hn')
    have hk := not_not.mp (mt (flight.released_iff k hk).mpr hk')
    rw [hn, hk]

end Standing

/-- Let a run begin with an empty cache, with no more claims in it than there are generations, and
take a key at its end. What happened since the key was last ended tells all: the paths of the key
can be claimed if and only if every claim on it given since then was released. At most one was
not, and it keeps the others out when it was forgotten or its value was stored. The paths have a
value if and only if it was stored for a claim on the key since then. -/
theorem claimed_iff_released {all since : List (ClientEvent α)} (key : CacheKey)
    (actions : List (ClientAction α))
    (hc : (({} : Clients α).run actions).2 = c) (hall : ({} : Clients α).history actions = all)
    (hsince : sinceEnd key all = since) (hfew : c.claims.length ≤ UInt64.size) :
    (∀ n k, GivenIn key n since → GivenIn key k since → ¬ ReleasedIn n since →
      ¬ ReleasedIn k since → n = k) ∧
    ∀ path, .ofPath path = key →
      ((∃ n claim, (c.act (.claim path)).1 = .claimed n claim) ↔
        ∀ n, GivenIn key n since → ReleasedIn n since) ∧
      (∀ n, GivenIn key n since → ForgottenIn n since → (c.act (.claim path)).1 = .refused) ∧
      (∀ n value, GivenIn key n all → StoredIn n value since →
        (c.act (.claim path)).1 = .refused) ∧
      (∀ value, c.cache.lookup path = .ready value ↔
        ∃ n, GivenIn key n all ∧ StoredIn n value since) ∧
      (∀ value, c.cache.get? path = some value ↔
        ∃ n, GivenIn key n all ∧ StoredIn n value since) := by
  have hrecords : Records c all := hc ▸ hall ▸ records_history
  have hstanding : Standing key c since := by
    subst hc hall hsince
    exact standing_history hfew
  have hgiven : ∀ n, GivenIn key n since → GivenIn key n all := by
    intro n hn
    rw [← hsince] at hn
    exact hn.of_sinceEnd
  have hready := hstanding.slot?_eq_ready_iff hrecords hgiven
  refine ⟨fun n k hn hk hn' hk' => hstanding.eq_of_not_released hn hk hn' hk', ?_⟩
  rintro path rfl
  refine ⟨?_, fun n hn hforgotten => ?_, fun n value hn hstored => ?_, fun value => ?_,
    fun value => ?_⟩
  · rw [act_claim_eq_claimed_iff, hstanding.slot?_eq_none_iff]
  · rw [act_claim_eq_refused_iff, Ne, hstanding.slot?_eq_none_iff]
    -- a claim is not released after it was forgotten
    have hsubset : ∀ event ∈ since, event ∈ all := by
      subst hsince
      exact fun _ => mem_of_mem_sinceEnd
    exact fun h => (hrecords.of_subset hsubset).once n hforgotten (h n hn)
  · have hslot := (hready value).mpr ⟨n, hn, hstored⟩
    rw [act_claim_eq_refused_iff, hslot]
    exact Option.some_ne_none _
  · rw [lookup_eq_ready_iff, hready]
  · rw [get?_eq_some_iff, hready]

/-- One claim is completed, one is forgotten and one is released. -/
def threeClaims : List (ClientAction Nat) :=
  [.claim ⟨[0x61]⟩, .complete 0 7, .claim ⟨[0x62]⟩, .forget 1, .claim ⟨[0x63]⟩, .release 2]

theorem claimed_iff_released_threeClaims :
    (({} : Clients Nat).run threeClaims).2.cache.get? ⟨[0x41]⟩ = some 7 ∧
      ((({} : Clients Nat).run threeClaims).2.act (.claim ⟨[0x42]⟩)).1 = .refused ∧
      ∃ n claim, ((({} : Clients Nat).run threeClaims).2.act (.claim ⟨[0x43]⟩)).1 =
        .claimed n claim := by
  obtain ⟨-, ha⟩ := claimed_iff_released ⟨[0x61]⟩ threeClaims rfl rfl rfl (by decide)
  obtain ⟨-, hb⟩ := claimed_iff_released ⟨[0x62]⟩ threeClaims rfl rfl rfl (by decide)
  obtain ⟨-, hc⟩ := claimed_iff_released ⟨[0x63]⟩ threeClaims rfl rfl rfl (by decide)
  obtain ⟨-, -, -, -, hvalue⟩ := ha ⟨[0x41]⟩ (by decide +kernel)
  obtain ⟨-, hforgotten, -⟩ := hb ⟨[0x42]⟩ (by decide +kernel)
  obtain ⟨hreleased, -⟩ := hc ⟨[0x43]⟩ (by decide +kernel)
  refine ⟨(hvalue 7).mpr ⟨0, ⟨⟨[0x61]⟩, ⟨⟨[0x61]⟩, 0⟩, ?_, ?_⟩, ?_⟩,
    hforgotten 1 ⟨⟨[0x62]⟩, ⟨⟨[0x62]⟩, 1⟩, ?_, ?_⟩ ?_, hreleased.mpr ?_⟩
  · decide +kernel
  · decide +kernel
  · unfold StoredIn
    decide +kernel
  · decide +kernel
  · decide +kernel
  · unfold ForgottenIn
    decide +kernel
  · rintro n ⟨path, claim, hkey, hmem⟩
    have hevents : sinceEnd ⟨[0x63]⟩ (({} : Clients Nat).history threeClaims) =
        [(.claim ⟨[0x61]⟩, .claimed 0 ⟨⟨[0x61]⟩, 0⟩), (.complete 0 7, .completed true),
          (.claim ⟨[0x62]⟩, .claimed 1 ⟨⟨[0x62]⟩, 1⟩), (.forget 1, .done),
          (.claim ⟨[0x63]⟩, .claimed 2 ⟨⟨[0x63]⟩, 2⟩), (.release 2, .done)] := by
      decide +kernel
    rw [hevents] at hmem ⊢
    have ha : CacheKey.ofPath ⟨[0x61]⟩ ≠ ⟨[0x63]⟩ := by decide +kernel
    have hb : CacheKey.ofPath ⟨[0x62]⟩ ≠ ⟨[0x63]⟩ := by decide +kernel
    simp only [List.mem_cons, Prod.mk.injEq, ClientAction.claim.injEq] at hmem
    rcases hmem with ⟨rfl, -⟩ | ⟨h, -⟩ | ⟨rfl, -⟩ | ⟨h, -⟩ | ⟨rfl, hn⟩ | ⟨h, -⟩ | h
    · exact absurd hkey ha
    · cases h
    · exact absurd hkey hb
    · cases h
    · cases hn
      simp [ReleasedIn]
    · cases h
    · cases h

end VirtualFiles.Clients
