import Mathlib.Algebra.GroupWithZero.Nat
import Mathlib.Data.List.Pairwise
import VirtualFiles.Extent

/-!
# Consecutive extents

Extents that follow each other without gap or overlap cover an interval. Some of them may be
empty; such an extent takes no part in the covering, but it has its place in the order. Every
address of the interval lies in exactly one of the extents.

## Main definitions

* `Extent.Consecutive` — extents that follow each other from one address to another

## Main results

* `consecutive_append_iff` — such a list can be cut between any two extents
* `Consecutive.stop_eq_sum` — the lengths of the extents add up
* `Consecutive.existsUnique_owner` — every address lies in the extent of exactly one entry
-/

namespace VirtualFiles.Extent

/-- The extents follow each other from `start` to `stop` without gap or overlap. -/
def Consecutive : (start : Nat) → List Extent → (stop : Nat) → Prop
  | start, [], stop => start = stop
  | start, r :: rest, stop => r.start = start ∧ Consecutive r.stop rest stop

variable {start middle stop offset i j : Nat} {r q : Extent}
variable {extents before after rest : List Extent}

@[simp] theorem consecutive_nil_iff : Consecutive start [] stop ↔ start = stop := Iff.rfl

@[simp] theorem consecutive_cons_iff :
    Consecutive start (r :: rest) stop ↔ r.start = start ∧ Consecutive r.stop rest stop := Iff.rfl

theorem start_le_stop (r : Extent) : r.start ≤ r.stop := Nat.le_add_right _ _

/-- Consecutive extents can be cut between any two of them. -/
theorem consecutive_append_iff : Consecutive start (before ++ after) stop ↔
    ∃ middle, Consecutive start before middle ∧ Consecutive middle after stop := by
  induction before generalizing start with
  | nil => simp
  | cons r rest ih => simp [ih, and_assoc]

namespace Consecutive

theorem append (h : Consecutive start before middle) (h' : Consecutive middle after stop) :
    Consecutive start (before ++ after) stop :=
  consecutive_append_iff.mpr ⟨middle, h, h'⟩

theorem stop_eq_sum (h : Consecutive start extents stop) :
    stop = start + (extents.map (·.length)).sum := by
  induction extents generalizing start with
  | nil => exact h.symm
  | cons r rest ih =>
    obtain ⟨rfl, hrest⟩ := h
    rw [List.map_cons, List.sum_cons, ih hrest, Extent.stop, Nat.add_assoc]

theorem le (h : Consecutive start extents stop) : start ≤ stop := by
  rw [h.stop_eq_sum]
  exact Nat.le_add_right _ _

theorem stop_of_getLast? (h : Consecutive start extents stop) (hlast : r ∈ extents.getLast?) :
    stop = r.stop := by
  obtain ⟨before, rfl⟩ := List.getLast?_eq_some_iff.mp hlast
  obtain ⟨middle, -, hr⟩ := consecutive_append_iff.mp h
  exact hr.2.symm

/-- The extents lie in the interval that they cover. -/
theorem bounds_of_mem (h : Consecutive start extents stop) (hmem : r ∈ extents) :
    start ≤ r.start ∧ r.stop ≤ stop := by
  obtain ⟨before, after, rfl⟩ := List.append_of_mem hmem
  obtain ⟨middle, hbefore, hrest⟩ := consecutive_append_iff.mp h
  exact ⟨hrest.1 ▸ hbefore.le, hrest.2.le⟩

/-- An extent ends before every later one begins. -/
theorem pairwise (h : Consecutive start extents stop) :
    extents.Pairwise fun r q => r.stop ≤ q.start := by
  induction extents generalizing start with
  | nil => exact .nil
  | cons r rest ih =>
    -- the rest covers an interval that begins where this extent ends
    exact .cons (fun q hq => (h.2.bounds_of_mem hq).1) (ih h.2)

/-- Every address of the interval lies in an extent. -/
theorem exists_owner (h : Consecutive start extents stop) (hle : start ≤ offset)
    (hlt : offset < stop) :
    ∃ (i : Nat) (r : Extent), extents[i]? = some r ∧ r.contains offset = true := by
  induction extents generalizing start with
  | nil =>
    rw [consecutive_nil_iff] at h
    omega
  | cons r rest ih =>
    obtain ⟨rfl, hrest⟩ := h
    by_cases hin : offset < r.stop
    · exact ⟨0, r, rfl, contains_iff.mpr ⟨hle, hin⟩⟩
    · obtain ⟨i, q, hq, hcontains⟩ := ih hrest (Nat.le_of_not_lt hin)
      exact ⟨i + 1, q, hq, hcontains⟩

/-- Two extents that hold the same address are the same one. -/
theorem eq_of_contains (h : Consecutive start extents stop) (hr : extents[i]? = some r)
    (hq : extents[j]? = some q) (hinr : r.contains offset = true)
    (hinq : q.contains offset = true) : i = j := by
  obtain ⟨hi, rfl⟩ := List.getElem?_eq_some_iff.mp hr
  obtain ⟨hj, rfl⟩ := List.getElem?_eq_some_iff.mp hq
  rw [contains_iff] at hinr hinq
  have hpairs := List.pairwise_iff_getElem.mp h.pairwise
  -- of two different extents, the earlier one ends before the later one begins
  rcases Nat.lt_trichotomy i j with hlt | heq | hgt
  · have := hpairs i j hi hj hlt
    omega
  · exact heq
  · have := hpairs j i hj hi hgt
    omega

/-- Every address of the interval lies in the extent of exactly one entry. -/
theorem existsUnique_owner {α : Type} {extent : α → Extent} {entries : List α}
    (h : Consecutive start (entries.map extent) stop) (hle : start ≤ offset)
    (hlt : offset < stop) :
    ∃! i : Nat, ∃ a, entries[i]? = some a ∧ (extent a).contains offset = true := by
  obtain ⟨i, r, hr, hin⟩ := h.exists_owner hle hlt
  have hentry := hr
  rw [List.getElem?_map, Option.map_eq_some_iff] at hentry
  obtain ⟨a, ha, rfl⟩ := hentry
  refine ⟨i, ⟨a, ha, hin⟩, ?_⟩
  rintro j ⟨b, hb, hinb⟩
  have hq : (entries.map extent)[j]? = some (extent b) := by rw [List.getElem?_map, hb]; rfl
  exact h.eq_of_contains hq hr hinb hin

end Consecutive

end VirtualFiles.Extent
