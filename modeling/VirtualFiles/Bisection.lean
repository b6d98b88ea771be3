/-!
# Bisection

A property that holds of the first numbers of an interval and of none after them changes
at one point. Halving the interval finds that point.

## Main definitions

* `bisect` — the first number of an interval at which a property fails

## Main results

* `bisect_spec` — up to that number the property holds, and there it fails, provided that it
  never holds again once it has failed
-/

namespace VirtualFiles

/-- The first number in `[low, high)` at which `holds` fails, or `high` if there is none,
for a property that never holds again once it has failed. -/
def bisect (holds : Nat → Bool) (low high : Nat) : Nat :=
  if low < high then
    if holds ((low + high) / 2) then bisect holds ((low + high) / 2 + 1) high
    else bisect holds low ((low + high) / 2)
  else low
termination_by high - low

variable {holds : Nat → Bool} {low high : Nat}

theorem bisect_spec (mono : ∀ i j, i ≤ j → holds j = true → holds i = true) (hle : low ≤ high) :
    low ≤ bisect holds low high ∧ bisect holds low high ≤ high ∧
      (∀ i, low ≤ i → i < bisect holds low high → holds i = true) ∧
      (bisect holds low high < high → holds (bisect holds low high) = false) := by
  fun_induction bisect holds low high with
  | case1 low high hlt hmid ih =>
    obtain ⟨h1, h2, h3, h4⟩ := ih (by omega)
    refine ⟨by omega, h2, fun i hi hib => ?_, h4⟩
    by_cases him : (low + high) / 2 + 1 ≤ i
    · exact h3 i him hib
    · exact mono i ((low + high) / 2) (by omega) hmid
  | case2 low high hlt hmid ih =>
    obtain ⟨h1, h2, h3, h4⟩ := ih (by omega)
    refine ⟨h1, by omega, h3, fun _ => ?_⟩
    by_cases heq : bisect holds low ((low + high) / 2) < (low + high) / 2
    · exact h4 heq
    · rw [show bisect holds low ((low + high) / 2) = (low + high) / 2 by omega]
      simpa using hmid
  | case3 low high hge =>
    exact ⟨by omega, by omega, fun i hi hil => by omega, fun h => absurd h hge⟩

end VirtualFiles
