import Mathlib.Data.List.DropRight
import VirtualFiles.Proofs.Cache.Actions

/-!
# The history of a cache

The history of a run lists its actions together with what was learned from each. It tells the
claims apart by their numbers: when a claim was given and for which key, and whether it was used
since. A claim is used once at most, so after it was completed, released or forgotten it is held
no longer, and its number does not come up again.

## Main definitions

* `ClientEvent`, `Clients.history` — actions with their answers
* `GivenIn`, `StoredIn`, `ReleasedIn`, `ForgottenIn` — what events say about a claim
* `sinceEnd` — the events after the last one that ended a key
* `Clients.Records` — what the events of a run say about its claims is so

## Main results

* `history_concat`, `sinceEnd_concat` — histories and their latest parts, one action at a time
* `records_history` — the history of a run records its claims
-/

namespace VirtualFiles

variable {α : Type}

/-- An action and what was learned from it. -/
abbrev ClientEvent (α : Type) := ClientAction α × ClientAnswer α

instance (key : CacheKey) : (action : ClientAction α) → Decidable (action.Ends key)
  | .invalidate path => inferInstanceAs (Decidable (.ofPath path = key))
  | .clear => .isTrue trivial
  | .claim _ | .complete _ _ | .release _ | .forget _ | .lookup _ => .isFalse id

section Events

variable (key : CacheKey) (n : Nat) (value : α) (events : List (ClientEvent α))

/-- Claim `n` was given for the key. -/
def GivenIn : Prop :=
  ∃ path claim, CacheKey.ofPath path = key ∧ (.claim path, .claimed n claim) ∈ events

/-- Claim `n` was completed with the value, which was stored. -/
def StoredIn : Prop := (.complete n value, .completed true) ∈ events

/-- Claim `n` was released. -/
def ReleasedIn : Prop := (.release n, .done) ∈ events

/-- Claim `n` was forgotten. -/
def ForgottenIn : Prop := (.forget n, .done) ∈ events

/-- The event used claim `n`: it was completed, released or forgotten. -/
def ClientEvent.Uses : ClientEvent α → Prop
  | (.complete k _, .completed _) | (.release k, .done) | (.forget k, .done) => k = n
  | _ => False

/-- The events after the last one that ended the key. -/
def sinceEnd : List (ClientEvent α) := events.rtakeWhile (¬ ·.1.Ends key)

end Events

variable {key : CacheKey} {n : Nat} {value : α} {events earlier later : List (ClientEvent α)}
variable {event : ClientEvent α}

theorem sinceEnd_concat : sinceEnd key (events ++ [event]) =
    if event.1.Ends key then [] else sinceEnd key events ++ [event] := by
  simp only [sinceEnd, List.rtakeWhile_concat, decide_eq_true_eq, ite_not]

theorem mem_of_mem_sinceEnd (h : event ∈ sinceEnd key events) : event ∈ events :=
  (List.rtakeWhile_suffix _ _).subset h

theorem givenIn_append :
    GivenIn key n (earlier ++ later) ↔ GivenIn key n earlier ∨ GivenIn key n later := by
  simp only [GivenIn, List.mem_append, ← exists_or, ← and_or_left]

theorem storedIn_append :
    StoredIn n value (earlier ++ later) ↔ StoredIn n value earlier ∨ StoredIn n value later :=
  List.mem_append

theorem releasedIn_append :
    ReleasedIn n (earlier ++ later) ↔ ReleasedIn n earlier ∨ ReleasedIn n later :=
  List.mem_append

theorem GivenIn.of_sinceEnd (h : GivenIn key n (sinceEnd key events)) : GivenIn key n events := by
  obtain ⟨path, claim, hkey, hmem⟩ := h
  exact ⟨path, claim, hkey, mem_of_mem_sinceEnd hmem⟩

namespace Clients

variable {c : Clients α} {actions before after : List (ClientAction α)} {action : ClientAction α}
variable {claim : Claim} {path : Path}

/-! ### Histories -/

/-- The actions of a run, each with what was learned from it. -/
def history (c : Clients α) (actions : List (ClientAction α)) : List (ClientEvent α) :=
  actions.zip (c.run actions).1

@[simp] theorem history_nil : c.history [] = [] := rfl

theorem history_cons : c.history (action :: actions) =
    (action, (c.act action).1) :: (c.act action).2.history actions := rfl

theorem history_append : c.history (before ++ after) =
    c.history before ++ (c.run before).2.history after := by
  induction before generalizing c with
  | nil => rfl
  | cons action rest ih => rw [List.cons_append, history_cons, history_cons, ih]; rfl

theorem history_concat : c.history (actions ++ [action]) =
    c.history actions ++ [(action, ((c.run actions).2.act action).1)] := by
  rw [history_append, history_cons, history_nil]

theorem run_concat_snd : (c.run (actions ++ [action])).2 = ((c.run actions).2.act action).2 := by
  rw [run_append_snd, run_cons_snd]
  rfl

/-! ### What is learned from an action -/

/-- A path without entry can be claimed. -/
theorem act_claim_of_absent (h : c.cache.slot? (.ofPath path) = none) :
    ∃ cache, c.act (.claim path) =
        (.claimed c.claims.length ⟨.ofPath path, c.cache.nextGeneration⟩,
          ⟨cache, c.claims ++ [⟨⟨.ofPath path, c.cache.nextGeneration⟩, .held⟩]⟩) ∧
      ∀ key, cache.slot? key =
        if key = .ofPath path then some (.building c.cache.nextGeneration)
        else c.cache.slot? key := by
  cases hgiven : c.cache.claim? path with
  | none =>
    unfold Cache.claim? at hgiven
    split at hgiven
    · next hslot => rw [h] at hslot; cases hslot
    · cases hgiven
  | some given =>
    obtain ⟨claim, cache⟩ := given
    obtain ⟨-, rfl, -, hslots⟩ := Cache.claim?_eq_some hgiven
    exact ⟨cache, by simp only [act, hgiven], hslots⟩

/-- A path with an entry cannot be claimed. -/
theorem act_claim_of_present {slot : Slot α} (h : c.cache.slot? (.ofPath path) = some slot) :
    c.act (.claim path) = (.refused, c) := by
  have hrefused : c.cache.claim? path = none := by
    unfold Cache.claim?
    split
    · rfl
    · next habsent => rw [h] at habsent; cases habsent
  simp only [act, hrefused]

theorem act_release_of_not_held (h : c.held? n = none) : c.act (.release n) = (.noClaim, c) := by
  simp only [act, h]

theorem act_forget_of_held (h : c.held? n = some claim) :
    c.act (.forget n) = (.done, c.settle n claim .forgotten c.cache) := by
  simp only [act, h]

theorem act_forget_of_not_held (h : c.held? n = none) : c.act (.forget n) = (.noClaim, c) := by
  simp only [act, h]

/-- A claim that was used is held no longer. -/
theorem held?_settle {status : ClaimStatus} {cache : Cache α} (hstatus : status ≠ .held) :
    (c.settle n claim status cache).held? n = none :=
  Option.eq_none_iff_forall_ne_some.mpr fun _ hheld => (held?_of_settle hstatus hheld).1 rfl

/-- Who uses a claim held it before and holds it no longer. -/
theorem held?_of_uses (h : ClientEvent.Uses n (action, (c.act action).1)) :
    (∃ claim, c.held? n = some claim) ∧ (c.act action).2.held? n = none := by
  cases action with
  | claim path => simp only [act] at h; split at h <;> exact h.elim
  | complete k v =>
    cases hheld : c.held? k with
    | none => rw [(act_of_not_held hheld v).1] at h; exact h.elim
    | some claim =>
      rw [act_complete_of_held hheld] at h ⊢
      obtain rfl : k = n := h
      exact ⟨⟨claim, hheld⟩, held?_settle (by decide)⟩
  | release k =>
    cases hheld : c.held? k with
    | none => rw [act_release_of_not_held hheld] at h; exact h.elim
    | some claim =>
      rw [act_release_of_held hheld] at h ⊢
      obtain rfl : k = n := h
      exact ⟨⟨claim, hheld⟩, held?_settle (by decide)⟩
  | forget k =>
    cases hheld : c.held? k with
    | none => rw [act_forget_of_not_held hheld] at h; exact h.elim
    | some claim =>
      rw [act_forget_of_held hheld] at h ⊢
      obtain rfl : k = n := h
      exact ⟨⟨claim, hheld⟩, held?_settle (by decide)⟩
  | lookup path | invalidate path | clear => exact h.elim

/-! ### The record of the claims -/

/-- Claim `n` is on the key. -/
def IsOn (c : Clients α) (key : CacheKey) (n : Nat) : Prop :=
  ∃ claim, c.issued[n]? = some claim ∧ claim.key = key

theorem IsOn.of_act (hlt : n < c.claims.length) (h : (c.act action).2.IsOn key n) :
    c.IsOn key n := by
  obtain ⟨claim, hissued, hkey⟩ := h
  rw [← length_issued] at hlt
  have hkept := (change_act c action).getElem?_issued (List.getElem?_eq_getElem hlt)
  rw [hissued] at hkept
  exact ⟨claim, by rw [List.getElem?_eq_getElem hlt, hkept], hkey⟩

/-- What the events say about claims is so: claims have the numbers under which they were given,
and one that was used is held no longer and was not used in another way. -/
structure Records (c : Clients α) (events : List (ClientEvent α)) : Prop where
  given : ∀ path n claim, (.claim path, .claimed n claim) ∈ events →
    c.issued[n]? = some claim ∧ claim.key = .ofPath path
  used : ∀ event ∈ events, ∀ n, event.Uses n → n < c.claims.length ∧ c.held? n = none
  once : ∀ n, ForgottenIn n events → ¬ ReleasedIn n events

namespace Records

theorem of_subset (h : Records c events) (hsubset : ∀ event ∈ earlier, event ∈ events) :
    Records c earlier where
  given path n claim hmem := h.given path n claim (hsubset _ hmem)
  used event hmem := h.used event (hsubset _ hmem)
  once n hforgotten hreleased := h.once n (hsubset _ hforgotten) (hsubset _ hreleased)

theorem isOn (h : Records c events) (hgiven : GivenIn key n events) : c.IsOn key n := by
  obtain ⟨path, claim, rfl, hmem⟩ := hgiven
  obtain ⟨hissued, hkey⟩ := h.given path n claim hmem
  exact ⟨claim, hissued, hkey⟩

theorem of_storedIn (h : Records c events) (hstored : StoredIn n value events) :
    n < c.claims.length ∧ c.held? n = none := h.used _ hstored n rfl

theorem of_releasedIn (h : Records c events) (hreleased : ReleasedIn n events) :
    n < c.claims.length ∧ c.held? n = none := h.used _ hreleased n rfl

/-- No claim is used twice. -/
theorem not_used_again (h : Records c events) (action : ClientAction α) (hmem : event ∈ events)
    (huses : event.Uses n) (hagain : ClientEvent.Uses n (action, (c.act action).1)) : False := by
  obtain ⟨⟨claim, hheld⟩, -⟩ := held?_of_uses hagain
  rw [(h.used event hmem n huses).2] at hheld
  cases hheld

/-- The record goes on with every action. -/
theorem act (h : Records c events) :
    Records (c.act action).2 (events ++ [(action, (c.act action).1)]) where
  given path n claim hmem := by
    rcases List.mem_append.mp hmem with hmem | hmem
    · obtain ⟨hissued, hkey⟩ := h.given path n claim hmem
      exact ⟨(change_act c action).getElem?_issued hissued, hkey⟩
    · have heq := List.mem_singleton.mp hmem
      obtain ⟨rfl, hanswer⟩ := Prod.mk.inj heq
      obtain ⟨-, hkey, hissued, -⟩ := of_act_claim hanswer.symm
      exact ⟨hissued, hkey⟩
  used event hmem n huses := by
    have hlength := (change_act c action).length_le
    rcases List.mem_append.mp hmem with hmem | hmem
    · obtain ⟨hlt, hnone⟩ := h.used event hmem n huses
      refine ⟨Nat.lt_of_lt_of_le hlt hlength, ?_⟩
      -- no claim is held again
      exact Option.eq_none_iff_forall_ne_some.mpr fun claim hheld => by
        rw [(change_act c action).held?_of_held? hlt hheld] at hnone
        cases hnone
    · rw [List.mem_singleton.mp hmem] at huses
      obtain ⟨⟨claim, hheld⟩, hnone⟩ := held?_of_uses huses
      refine ⟨Nat.lt_of_lt_of_le ?_ hlength, hnone⟩
      exact lt_of_held? hheld
  once n hforgotten hreleased := by
    rcases List.mem_append.mp hforgotten with hbefore | hnow
    · rcases List.mem_append.mp hreleased with hbefore' | hnow'
      · exact h.once n hbefore hbefore'
      · -- a claim that was forgotten is not there to be released
        refine not_used_again h action hbefore rfl ?_
        rw [← List.mem_singleton.mp hnow']
        rfl
    · rcases List.mem_append.mp hreleased with hbefore' | hnow'
      · refine not_used_again h action hbefore' rfl ?_
        rw [← List.mem_singleton.mp hnow]
        rfl
      · cases (List.mem_singleton.mp hnow).trans (List.mem_singleton.mp hnow').symm

end Records

/-- The history of a run records its claims. -/
theorem records_history : Records (({} : Clients α).run actions).2
    (({} : Clients α).history actions) := by
  induction actions using List.reverseRecOn with
  | nil => exact ⟨nofun, nofun, nofun⟩
  | append_singleton actions action ih =>
    rw [run_concat_snd, history_concat]
    exact ih.act

end Clients

end VirtualFiles
