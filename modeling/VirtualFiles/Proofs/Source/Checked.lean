import VirtualFiles.Extent
import VirtualFiles.Proofs.Source.Splitting

/-!
# Reading a source with checked steps

On a machine, a sum may not fit a word, a difference may be less than zero, an entry of a table or
a part of a buffer may not exist, and a loop may go on for ever. The definitions of this file do
one step each and say so if it is such a fault. An exact read that is written with them computes
the same as the exact read of a source: there is no fault, as long as the last byte wanted has an
address.

## Main definitions

* `Fault` — what may go wrong in a step
* `Checked.add`, `Checked.sub`, `Checked.slice`, `Checked.entry` — steps
* `Ask`, `Source.Answers` — reads of a source that may have a fault, and those that have none
* `Checked.exactly` — the loop of an exact read
* `Checked.exactlyInTurn` — the same loop with a program for each of its reads

## Main results

* `exactly_eq_exactlyInTurn` — one program may answer all reads
* `exactlyInTurn_of_error`, `exactlyInTurn_of_ok` — one turn
* `exactly_eq`, `exactly_nil` — the loop computes an exact read
-/

namespace VirtualFiles

/-- What may go wrong in a step of a program. -/
inductive Fault
  /-- A part of a buffer or an entry of a table that does not exist. -/
  | outOfBounds
  /-- A difference that is less than zero. -/
  | underflow
  /-- A sum that does not fit a word. -/
  | overflow
  /-- A loop that has not ended after the number of turns allowed. -/
  | unfinished
  deriving DecidableEq, Repr

/-- What is asked of a source: at most `count` bytes from `offset` on. The program that answers may
have a fault. -/
abbrev Ask := (offset count : Nat) → Except Fault (Except IoError Bytes)

/-- The program answers as the source does, without a fault, if there can be a buffer for the
answer. -/
def Source.Answers (s : Source) (fs : FileSystem) (ask : Ask) : Prop :=
  ∀ offset count, count < addressSpace → ask offset count = .ok (s.readAt fs offset count)

namespace Checked

open Outcome

variable {α : Type} {a b size start stop index offset turns : Nat}

/-- A sum of words. -/
def add (a b : Nat) : Except Fault Nat :=
  if a + b < addressSpace then .ok (a + b) else .error .overflow

/-- A difference of words. -/
def sub (a b : Nat) : Except Fault Nat :=
  if b ≤ a then .ok (a - b) else .error .underflow

/-- How long the part of a buffer of `size` bytes from `start` to `stop` is. -/
def slice (size start stop : Nat) : Except Fault Nat :=
  if start ≤ stop ∧ stop ≤ size then .ok (stop - start) else .error .outOfBounds

/-- An entry of a table. -/
def entry (table : Array α) (index : Nat) : Except Fault α :=
  match table[index]? with
  | some a => .ok a
  | none => .error .outOfBounds

theorem add_eq_ok (h : a + b < addressSpace) : add a b = .ok (a + b) := if_pos h

theorem sub_eq_ok (h : b ≤ a) : sub a b = .ok (a - b) := if_pos h

theorem slice_eq_ok (hstart : start ≤ stop) (hstop : stop ≤ size) :
    slice size start stop = .ok (stop - start) := if_pos ⟨hstart, hstop⟩

theorem entry_eq_ok {table : Array α} {a : α} (h : table[index]? = some a) :
    entry table index = .ok a := by
  rw [entry, h]

/-- Fills a buffer of `size` bytes with bytes from `offset` on. What is there already is `got`; each
turn asks for all that is left, and an answer of nothing ends the read. -/
def exactly (ask : Ask) (offset size : Nat) : (turns : Nat) → (got : Bytes) →
    Except Fault (Except IoError Bytes)
  | 0, got => if got.length < size then .error .unfinished else .ok (.ok got)
  | turns + 1, got =>
    if got.length < size then do
      let next ← add offset got.length
      let room ← slice size got.length size
      match ← ask next room with
      | .error e => .ok (.error e)
      | .ok bytes =>
        if bytes.isEmpty then .ok (.error Source.endedEarly)
        else do
          let _ ← add got.length bytes.length
          exactly ask offset size turns (got ++ bytes)
    else .ok (.ok got)

/-- The same loop with a program for each read: the first of `asks` answers the first one, and those
after it the others. -/
def exactlyInTurn (asks : Nat → Ask) (offset size : Nat) : (turns : Nat) → (got : Bytes) →
    Except Fault (Except IoError Bytes)
  | 0, got => if got.length < size then .error .unfinished else .ok (.ok got)
  | turns + 1, got =>
    if got.length < size then do
      let next ← add offset got.length
      let room ← slice size got.length size
      match ← asks 0 next room with
      | .error e => .ok (.error e)
      | .ok bytes =>
        if bytes.isEmpty then .ok (.error Source.endedEarly)
        else do
          let _ ← add got.length bytes.length
          exactlyInTurn (fun turn => asks (turn + 1)) offset size turns (got ++ bytes)
    else .ok (.ok got)

variable {s : Source} {fs : FileSystem} {ask : Ask} {asks : Nat → Ask} {got : Bytes}
variable {bytes : Bytes} {e : IoError}

theorem exactly_eq_exactlyInTurn :
    exactly ask offset size turns got = exactlyInTurn (fun _ => ask) offset size turns got := by
  induction turns generalizing got with
  | zero => rfl
  | succ turns ih =>
    simp only [exactly, ih]
    rfl

/-- If the buffer is full, the loop ends. -/
theorem exactlyInTurn_of_le (hfull : size ≤ got.length) :
    exactlyInTurn asks offset size turns got = .ok (.ok got) := by
  cases turns <;> exact if_neg (Nat.not_lt.mpr hfull)

/-- One turn of the loop. If the address that comes next is a word, nothing goes wrong before the
read. -/
theorem exactlyInTurn_succ (hlt : got.length < size) (hnext : offset + got.length < addressSpace) :
    exactlyInTurn asks offset size (turns + 1) got = (do
      match ← asks 0 (offset + got.length) (size - got.length) with
      | .error e => .ok (.error e)
      | .ok bytes =>
        if bytes.isEmpty then .ok (.error Source.endedEarly)
        else do
          let _ ← add got.length bytes.length
          exactlyInTurn (fun turn => asks (turn + 1)) offset size turns (got ++ bytes)) := by
  rw [exactlyInTurn, if_pos hlt, add_eq_ok hnext,
    slice_eq_ok (Nat.le_of_lt hlt) (Nat.le_refl _), ok_bind, ok_bind]

/-- A read that fails is the last one. -/
theorem exactlyInTurn_of_error (hlt : got.length < size)
    (hnext : offset + got.length < addressSpace)
    (hread : asks 0 (offset + got.length) (size - got.length) = .ok (.error e)) :
    exactlyInTurn asks offset size (turns + 1) got = .ok (.error e) := by
  rw [exactlyInTurn_succ hlt hnext, hread, ok_bind]

/-- A read that gives nothing is the last one, too. Any other is followed by a read behind the bytes
that it gives; they fit into the buffer, so nothing goes wrong after the read either. -/
theorem exactlyInTurn_of_ok (hlt : got.length < size) (hnext : offset + got.length < addressSpace)
    (hread : asks 0 (offset + got.length) (size - got.length) = .ok (.ok bytes))
    (hfits : bytes.length ≤ size - got.length) (hsize : size < addressSpace) :
    exactlyInTurn asks offset size (turns + 1) got =
      if bytes.isEmpty then .ok (.error Source.endedEarly)
      else exactlyInTurn (fun turn => asks (turn + 1)) offset size turns (got ++ bytes) := by
  rw [exactlyInTurn_succ hlt hnext, hread, ok_bind]
  dsimp only
  rw [add_eq_ok (by omega), ok_bind]

/-- One turn of an exact read: the bytes wanted have addresses, so there is no fault in it. -/
theorem exactly_succ (hask : s.Answers fs ask) (hspace : offset + size < addressSpace)
    (hlt : got.length < size) : exactly ask offset size (turns + 1) got =
      match s.readAt fs (offset + got.length) (size - got.length) with
      | .error e => .ok (.error e)
      | .ok bytes =>
        if bytes.isEmpty then .ok (.error Source.endedEarly)
        else exactly ask offset size turns (got ++ bytes) := by
  have hnext : offset + got.length < addressSpace := by omega
  have hanswer := hask (offset + got.length) (size - got.length) (by omega)
  simp only [exactly_eq_exactlyInTurn]
  cases hread : s.readAt fs (offset + got.length) (size - got.length) with
  | error e => exact exactlyInTurn_of_error hlt hnext (hanswer.trans (congrArg _ hread))
  | ok bytes =>
    exact exactlyInTurn_of_ok hlt hnext (hanswer.trans (congrArg _ hread)) (s.readAt_le hread)
      (by omega)

/-- If the buffer is full, nothing is left to read. -/
theorem exactly_of_le (hfull : size ≤ got.length) : exactly ask offset size turns got =
    .ok ((s.readExactAt fs (offset + got.length) (size - got.length)).map (got ++ ·)) := by
  rw [exactly_eq_exactlyInTurn, exactlyInTurn_of_le hfull, Nat.sub_eq_zero_of_le hfull,
    Source.readExactAt_zero]
  exact congrArg (Except.ok ∘ Except.ok) (List.append_nil got).symm

/-- The loop computes an exact read of what is left, if all bytes wanted have addresses. It takes no
more turns than there are bytes left. -/
theorem exactly_eq (hask : s.Answers fs ask) (hspace : offset + size < addressSpace)
    (hturns : size ≤ got.length + turns) : exactly ask offset size turns got =
      .ok ((s.readExactAt fs (offset + got.length) (size - got.length)).map (got ++ ·)) := by
  induction turns generalizing got with
  | zero => exact exactly_of_le hturns
  | succ turns ih =>
    rcases Nat.lt_or_ge got.length size with hlt | hfull
    · have hleft : size - got.length ≠ 0 := by omega
      rw [exactly_succ hask hspace hlt]
      cases hread : s.readAt fs (offset + got.length) (size - got.length) with
      | error e =>
        rw [Source.readExactAt_of_readAt_error hleft hread]
        rfl
      | ok bytes =>
        cases bytes with
        | nil =>
          rw [Source.readExactAt_of_readAt_nil hleft hread]
          rfl
        | cons b bs =>
          -- at least one byte came, so one turn less is enough for the others
          have hlength : (got ++ b :: bs).length = got.length + (b :: bs).length :=
            List.length_append
          have hsome : 0 < (b :: bs).length := Nat.succ_pos _
          have hrest := ih (by omega : size ≤ (got ++ b :: bs).length + turns)
          rw [hlength, ← Nat.add_assoc, ← Nat.sub_sub] at hrest
          rw [Source.readExactAt_of_readAt_cons hleft hread, map_map]
          simp only [List.isEmpty_cons, Bool.false_eq_true, if_false, hrest, Function.comp_def,
            List.append_assoc]
    · exact exactly_of_le hfull

/-- From an empty buffer on, the loop computes an exact read. -/
theorem exactly_nil (hask : s.Answers fs ask) (hspace : offset + size < addressSpace) :
    exactly ask offset size size [] = .ok (s.readExactAt fs offset size) := by
  have hwhole := exactly_eq hask hspace (by simp : size ≤ ([] : Bytes).length + size)
  rw [hwhole, List.length_nil, Nat.add_zero, Nat.sub_zero]
  exact congrArg Except.ok nil_append

end Checked

end VirtualFiles
