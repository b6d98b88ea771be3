import VirtualFiles.Cache.Key

/-!
# The cache of finished files

A key is absent, being built or ready. Whoever claims an absent key builds for it, and
nobody else can claim it until the claim is completed, released or ended. Every claim has a
generation: a placeholder carries the generation of its claim, and completing or releasing a
claim acts on no other placeholder. So once a key has been invalidated, the claim that was
building for it is without effect, whatever the key holds by then.

## Main definitions

* `Slot`, `Cache` — the entries and the generation of the next claim
* `Claim` — the right to build for a key
* `Cache.claim?`, `Cache.complete`, `Cache.release` — the life of a claim
* `Cache.lookup`, `Cache.invalidate`, `Cache.clear`
-/

namespace VirtualFiles

/-- What the cache holds for a key. -/
inductive Slot (α : Type)
  /-- A placeholder, with the generation of the claim that put it there. -/
  | building (generation : UInt64)
  | ready (value : α)
  deriving DecidableEq, Repr

/-- The right to build for a key. -/
structure Claim where
  key : CacheKey
  generation : UInt64
  deriving DecidableEq, Repr

/-- The state of a path. -/
inductive Lookup (α : Type)
  | absent
  | building
  | ready (value : α)
  deriving DecidableEq, Repr

namespace Lookup

variable {α : Type}

/-- The finished value, if there is one. -/
def value? : Lookup α → Option α
  | .ready value => some value
  | _ => none

/-- Is the path being built? -/
def isBuilding : Lookup α → Bool
  | .building => true
  | _ => false

end Lookup

/-- The entries by key, and the generation of the next claim. -/
structure Cache (α : Type) where
  slots : List (CacheKey × Slot α) := []
  /-- Generations are 64-bit words and start over after the last one. -/
  nextGeneration : UInt64 := 0
  /-- A key has at most one entry. -/
  distinct : (slots.map Prod.fst).Nodup := by exact .nil

namespace Cache

variable {α : Type}

/-- The cache without entries. -/
def empty : Cache α := {}

/-- The entry of a key. -/
def slot? (c : Cache α) (key : CacheKey) : Option (Slot α) := c.slots.lookup key

/-- The number of entries, finished or not. -/
def size (c : Cache α) : Nat := c.slots.length

/-- Is there no entry? -/
def isEmpty (c : Cache α) : Bool := c.slots.isEmpty

theorem fst_ne_of_slot?_eq_none {c : Cache α} {key : CacheKey} (h : c.slot? key = none) :
    key ∉ c.slots.map Prod.fst := by
  unfold slot? at h
  intro hmem
  obtain ⟨pair, hpair, rfl⟩ := List.mem_map.mp hmem
  rw [List.lookup_eq_none_iff] at h
  simpa using h pair hpair

/-- The cache with a new entry for a key that has none. -/
def insert (c : Cache α) (key : CacheKey) (slot : Slot α) (absent : c.slot? key = none) :
    Cache α :=
  { c with
    slots := (key, slot) :: c.slots
    distinct := by
      rw [List.map_cons]
      exact List.nodup_cons.mpr ⟨fst_ne_of_slot?_eq_none absent, c.distinct⟩ }

/-- The cache with another value in the entry of a key. -/
def replace (c : Cache α) (key : CacheKey) (slot : Slot α) : Cache α :=
  { c with
    slots := c.slots.map fun (k, old) => if k = key then (k, slot) else (k, old)
    distinct := by
      have same : (c.slots.map fun (k, old) => if k = key then (k, slot) else (k, old)).map
          Prod.fst = c.slots.map Prod.fst := by
        rw [List.map_map]
        apply List.map_congr_left
        rintro ⟨k, old⟩ -
        simp only [Function.comp_apply]
        split <;> rfl
      rw [same]
      exact c.distinct }

/-- The cache without the entry of a key. -/
def erase (c : Cache α) (key : CacheKey) : Cache α :=
  { c with
    slots := c.slots.filter (·.1 ≠ key)
    distinct := c.distinct.sublist (List.filter_sublist.map Prod.fst) }

variable {c : Cache α} {key other : CacheKey} {slot : Slot α}

theorem slot?_insert (absent : c.slot? key = none) :
    (c.insert key slot absent).slot? other = if other = key then some slot else c.slot? other := by
  by_cases h : other = key
  · simp [slot?, insert, h]
  · simp [slot?, insert, h, List.lookup_cons, beq_false_of_ne h]

theorem slot?_replace :
    (c.replace key slot).slot? other =
      if other = key then (c.slot? key).map fun _ => slot else c.slot? other := by
  -- the entries one by one, whatever the keys before them
  suffices h : ∀ slots : List (CacheKey × Slot α),
      (slots.map fun (k, old) => if k = key then (k, slot) else (k, old)).lookup other =
        if other = key then (slots.lookup key).map fun _ => slot else slots.lookup other from
    h c.slots
  intro slots
  induction slots with
  | nil => simp
  | cons pair rest ih =>
    obtain ⟨k, old⟩ := pair
    rw [List.map_cons, List.lookup_cons, List.lookup_cons, List.lookup_cons, ih]
    by_cases hk : k = key
    · by_cases ho : other = key
      · simp [hk, ho]
      · simp [hk, ho, beq_false_of_ne ho]
    · by_cases ho : other = key
      · simp [hk, ho, beq_false_of_ne (Ne.symm hk)]
      · simp [hk, ho]

theorem slot?_erase :
    (c.erase key).slot? other = if other = key then none else c.slot? other := by
  suffices h : ∀ slots : List (CacheKey × Slot α),
      (slots.filter (·.1 ≠ key)).lookup other =
        if other = key then none else slots.lookup other from h c.slots
  intro slots
  induction slots with
  | nil => simp
  | cons pair rest ih =>
    obtain ⟨k, old⟩ := pair
    rw [List.filter_cons, List.lookup_cons]
    by_cases hk : k = key
    · rw [if_neg (by simp [hk]), ih]
      by_cases ho : other = key
      · simp [ho]
      · simp [ho, hk, beq_false_of_ne ho]
    · rw [if_pos (by simp [hk]), List.lookup_cons, ih]
      by_cases ho : other = key
      · simp [ho, beq_false_of_ne (Ne.symm hk)]
      · simp [ho]

/-- Claims a path for building, if it has no entry. -/
def claim? (c : Cache α) (p : Path) : Option (Claim × Cache α) :=
  match absent : c.slot? (.ofPath p) with
  | some _ => none
  | none =>
    some (⟨.ofPath p, c.nextGeneration⟩,
      { c.insert (.ofPath p) (.building c.nextGeneration) absent with
        nextGeneration := c.nextGeneration + 1 })

/-- Puts a finished value in the place of the claim's placeholder. Says whether the
placeholder was still there; if not, nothing changes. -/
def complete (c : Cache α) (claim : Claim) (value : α) : Bool × Cache α :=
  match c.slot? claim.key with
  | some (.building generation) =>
    if generation = claim.generation then (true, c.replace claim.key (.ready value))
    else (false, c)
  | _ => (false, c)

/-- Removes the claim's placeholder, if it is still there. -/
def release (c : Cache α) (claim : Claim) : Cache α :=
  match c.slot? claim.key with
  | some (.building generation) =>
    if generation = claim.generation then c.erase claim.key else c
  | _ => c

/-- The state of a path. -/
def lookup (c : Cache α) (p : Path) : Lookup α :=
  match c.slot? (.ofPath p) with
  | none => .absent
  | some (.building _) => .building
  | some (.ready value) => .ready value

/-- The finished value of a path. -/
def get? (c : Cache α) (p : Path) : Option α := (c.lookup p).value?

/-- Is the path being built? -/
def isBuilding (c : Cache α) (p : Path) : Bool := (c.lookup p).isBuilding

/-- Removes the entry of a path whatever its state. Says whether there was one. -/
def invalidate (c : Cache α) (p : Path) : Bool × Cache α :=
  ((c.slot? (.ofPath p)).isSome, c.erase (.ofPath p))

/-- Removes all entries. -/
def clear (c : Cache α) : Cache α := { c with slots := [], distinct := .nil }

end Cache

end VirtualFiles
