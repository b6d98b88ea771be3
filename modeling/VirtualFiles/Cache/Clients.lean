import VirtualFiles.Cache.Basic

/-!
# Clients of a cache

The clients of a cache hold the claims that they were given. A claim that is held can be
completed, released or forgotten, once; a forgotten claim leaves its placeholder behind. The
claims are numbered in the order in which they were given.

Every operation on a cache is one action here, so a sequence of actions is a run of any
number of clients, interleaved in any way.

## Main definitions

* `ClaimStatus`, `Clients` — a cache and the claims on it
* `ClientAction`, `ClientAnswer` — what clients do, and what they learn
* `Clients.act`, `Clients.run` — one action, and a sequence of them
* `Clients.releaseAll` — releases the claims still held
-/

namespace VirtualFiles

/-- What became of a claim. -/
inductive ClaimStatus
  | held
  | completed
  | released
  | forgotten
  deriving DecidableEq, Repr

/-- A claim that was given to a client. -/
structure Given where
  claim : Claim
  status : ClaimStatus := .held
  deriving DecidableEq, Repr

/-- A cache and all claims on it that were ever given. -/
structure Clients (α : Type) where
  cache : Cache α := .empty
  claims : List Given := []

/-- What a client does. Claims are named by their number. -/
inductive ClientAction (α : Type)
  | claim (path : Path)
  | complete (number : Nat) (value : α)
  | release (number : Nat)
  | forget (number : Nat)
  | lookup (path : Path)
  | invalidate (path : Path)
  | clear
  deriving DecidableEq, Repr

/-- What a client learns. -/
inductive ClientAnswer (α : Type)
  | claimed (number : Nat) (claim : Claim)
  /-- The path has an entry. -/
  | refused
  /-- Was the value stored? -/
  | completed (stored : Bool)
  /-- There is no claim of that number, or it is held no longer. -/
  | noClaim
  | found (state : Lookup α)
  /-- Was there an entry? -/
  | removed (found : Bool)
  | done
  deriving DecidableEq, Repr

namespace Clients

variable {α : Type}

/-- The claim of that number, if it is held. -/
def held? (c : Clients α) (number : Nat) : Option Claim :=
  match c.claims[number]? with
  | some ⟨claim, .held⟩ => some claim
  | _ => none

/-- The clients after a claim was used, and the cache after that. -/
def settle (c : Clients α) (number : Nat) (claim : Claim) (status : ClaimStatus)
    (cache : Cache α) : Clients α :=
  ⟨cache, c.claims.set number ⟨claim, status⟩⟩

/-- One action of a client. -/
def act (c : Clients α) : ClientAction α → ClientAnswer α × Clients α
  | .claim path =>
    match c.cache.claim? path with
    | some (claim, cache) => (.claimed c.claims.length claim, ⟨cache, c.claims ++ [⟨claim, .held⟩]⟩)
    | none => (.refused, c)
  | .complete number value =>
    match c.held? number with
    | some claim =>
      let (stored, cache) := c.cache.complete claim value
      (.completed stored, c.settle number claim .completed cache)
    | none => (.noClaim, c)
  | .release number =>
    match c.held? number with
    | some claim => (.done, c.settle number claim .released (c.cache.release claim))
    | none => (.noClaim, c)
  | .forget number =>
    match c.held? number with
    | some claim => (.done, c.settle number claim .forgotten c.cache)
    | none => (.noClaim, c)
  | .lookup path => (.found (c.cache.lookup path), c)
  | .invalidate path =>
    let (found, cache) := c.cache.invalidate path
    (.removed found, { c with cache })
  | .clear => (.done, { c with cache := c.cache.clear })

/-- A sequence of actions, with what was learned from each. -/
def run (c : Clients α) : List (ClientAction α) → List (ClientAnswer α) × Clients α
  | [] => ([], c)
  | action :: rest =>
    let (answer, next) := c.act action
    let (answers, last) := next.run rest
    (answer :: answers, last)

/-- Releases the claim of that number, if it is held. -/
def releaseNumber (c : Clients α) (number : Nat) : Clients α := (c.act (.release number)).2

/-- Releases all claims that are still held, first given first. -/
def releaseAll (c : Clients α) : Clients α :=
  (List.range c.claims.length).foldl releaseNumber c

end Clients

end VirtualFiles
