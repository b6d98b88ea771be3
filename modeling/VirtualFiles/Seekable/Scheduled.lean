import VirtualFiles.Seekable.Basic

/-!
# Readers that fail on schedule

A scheduled reader walks over bytes in memory. It gives at most a fixed number of bytes per
read, and certain of its reads and seeks, counted from `0`, fail without moving it.

## Main definitions

* `Scheduled` — the bytes, the place and the failures to come
* `Scheduled.reader` — its operations
-/

namespace VirtualFiles

/-- A reader over bytes in memory with failures at given calls. -/
structure Scheduled where
  data : Bytes
  position : Nat
  /-- The most bytes that one read gives. -/
  chunk : Option Nat := none
  /-- The reads that fail, by their number. -/
  readErrors : List (Nat × IoErrorKind) := []
  /-- The seeks that fail, by their number. -/
  seekErrors : List (Nat × IoErrorKind) := []
  /-- How many reads there have been. -/
  reads : Nat := 0
  /-- How many seeks there have been. -/
  seeks : Nat := 0
  deriving DecidableEq, Repr

namespace Scheduled

/-- At most `count` bytes from the place on. -/
def read (s : Scheduled) (count : Nat) : Except IoError Bytes × Scheduled :=
  let counted := { s with reads := s.reads + 1 }
  match s.readErrors.lookup s.reads with
  | some kind => (.error (.bare kind), counted)
  | none =>
    let bytes := s.data.window s.position (min count (s.chunk.getD count))
    (.ok bytes, { counted with position := s.position + bytes.length })

/-- The place that is meant, if it is not before the start of the data. -/
def target? (s : Scheduled) : SeekFrom → Option Nat
  | .start offset => some offset
  | .stop delta => ((s.data.length : Int) + delta).toNat?
  | .current delta => ((s.position : Int) + delta).toNat?

/-- Moves to any place that is not before the start of the data. -/
def seek (s : Scheduled) (goal : SeekFrom) : Except IoError Nat × Scheduled :=
  let counted := { s with seeks := s.seeks + 1 }
  match s.seekErrors.lookup s.seeks with
  | some kind => (.error (.bare kind), counted)
  | none =>
    match s.target? goal with
    | some place => (.ok place, { counted with position := place })
    | none => (.error (.bare .invalidInput), counted)

/-- How many failures are due at read `n` or later. -/
def dueFrom (errors : List (Nat × IoErrorKind)) (n : Nat) : Nat :=
  errors.countP fun (call, _) => n ≤ call

theorem dueFrom_succ_lt {errors : List (Nat × IoErrorKind)} {n : Nat} {kind : IoErrorKind}
    (h : errors.lookup n = some kind) : dueFrom errors (n + 1) < dueFrom errors n := by
  have mono : ∀ rest : List (Nat × IoErrorKind), dueFrom rest (n + 1) ≤ dueFrom rest n := by
    intro rest
    apply List.countP_mono_left
    intro pair _ hpair
    simp only [decide_eq_true_eq] at hpair ⊢
    omega
  induction errors with
  | nil => cases h
  | cons pair rest ih =>
    obtain ⟨call, due⟩ := pair
    by_cases hcall : n = call
    · subst hcall
      have := mono rest
      simp only [dueFrom, List.countP_cons, decide_eq_true_eq] at this ⊢
      rw [if_neg (by omega), if_pos (Nat.le_refl n)]
      omega
    · rw [List.lookup_cons] at h
      have hne : (n == call) = false := by simpa using hcall
      rw [hne] at h
      have := ih h
      simp only [dueFrom, List.countP_cons, decide_eq_true_eq] at this ⊢
      split <;> split <;> omega

/-- The operations of a scheduled reader. -/
def reader : Seekable Scheduled where
  read := read
  seek := seek
  patience s := dueFrom s.readErrors s.reads
  patience_lt := by
    intro state count e next h _
    unfold read at h
    split at h
    · next kind hlookup =>
      cases h
      exact dueFrom_succ_lt hlookup
    · cases h

end Scheduled

end VirtualFiles
