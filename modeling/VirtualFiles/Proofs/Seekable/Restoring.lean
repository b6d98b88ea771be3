import VirtualFiles.FileSystem.FileCursor
import VirtualFiles.Proofs.VirtualStream.Moving
import VirtualFiles.Seekable.Scheduled

/-!
# Moving back after a probe

A probe asks a reader whatever it likes, goes on with the answers, and comes to a value or a
failure. Every one of its questions may fail, and so may the two that are asked around it: where
the reader is, and to move back there. The record of all questions shows what is asked, in which
order and how often.

## Main definitions

* `Probe` — reads and moves, and a result
* `Reader.recorded` — a reader that records what it is asked
* `Reader.HasPlace` — a reader whose answers to moves tell the truth about its place

## Main results

* `Probe.run_recorded` — what is recorded changes no answer
* `Reader.withRestoredPosition_of_position`, `Reader.withRestoredPosition_of_refused` — the outcome
* `Reader.withRestoredPosition_recorded` — the outcome, the record and the place
-/

namespace VirtualFiles

/-- Questions to a reader, each of them with all answers to go on with, and a result. -/
inductive Probe (α : Type)
  | finish (result : Except IoError α)
  | read (count : Nat) (resume : Except IoError Bytes → Probe α)
  | seek (goal : SeekFrom) (resume : Except IoError Nat → Probe α)

namespace Reader

/-- What is recorded: the operations of a reader, and that a probe begins. -/
inductive Entry
  | read (count : Nat)
  | seek (goal : SeekFrom)
  | probe
  deriving DecidableEq, Repr

variable {σ : Type}

/-- The reader that writes down each of its operations, whether or not it fails. Telling its place
counts as a move that goes nowhere. -/
def recorded (r : Reader σ) : Reader (σ × List Entry) where
  read s count := ((r.read s.1 count).1, (r.read s.1 count).2, s.2 ++ [.read count])
  seek s goal := ((r.seek s.1 goal).1, (r.seek s.1 goal).2, s.2 ++ [.seek goal])
  position s := ((r.position s.1).1, (r.position s.1).2, s.2 ++ [.seek (.current 0)])
  position_eq s := by rw [r.position_eq]

theorem seek_recorded (r : Reader σ) (state : σ) (record : List Entry) (goal : SeekFrom) :
    r.recorded.seek (state, record) goal =
      ((r.seek state goal).1, (r.seek state goal).2, record ++ [.seek goal]) := rfl

theorem position_recorded (r : Reader σ) (state : σ) (record : List Entry) :
    r.recorded.position (state, record) =
      ((r.position state).1, (r.position state).2, record ++ [.seek (.current 0)]) := rfl

/-- A move that succeeds answers the place that the reader has then. It is the one that was asked
for if that was counted from the start, and the same as before if it was not to move at all. -/
structure HasPlace (r : Reader σ) (place : σ → Nat) : Prop where
  place_of_seek : ∀ {state goal found next}, r.seek state goal = (.ok found, next) →
    place next = found
  eq_of_start : ∀ {state offset found next}, r.seek state (.start offset) = (.ok found, next) →
    found = offset
  eq_of_current : ∀ {state found next}, r.seek state (.current 0) = (.ok found, next) →
    found = place state

end Reader

namespace Probe

open Reader

variable {σ α : Type} {r : Reader σ}

/-- Asks the questions of the probe one after the other. -/
def run (r : Reader σ) : Probe α → σ → Except IoError α × σ
  | .finish result, state => (result, state)
  | .read count resume, state =>
    let (answer, next) := r.read state count
    (resume answer).run r next
  | .seek goal resume, state =>
    let (answer, next) := r.seek state goal
    (resume answer).run r next

/-- The questions that the probe comes to. -/
def entries (r : Reader σ) : Probe α → σ → List Entry
  | .finish _, _ => []
  | .read count resume, state =>
    let (answer, next) := r.read state count
    .read count :: (resume answer).entries r next
  | .seek goal resume, state =>
    let (answer, next) := r.seek state goal
    .seek goal :: (resume answer).entries r next

/-- The probe on a reader that records, which is told when the probe begins. -/
def runRecorded (r : Reader σ) (probe : Probe α) (s : σ × List Entry) :
    Except IoError α × σ × List Entry :=
  probe.run r.recorded (s.1, s.2 ++ [.probe])

/-- A record changes no answer, and gets the questions of the probe. -/
theorem run_recorded (probe : Probe α) (state : σ) (record : List Entry) :
    probe.run r.recorded (state, record) =
      ((probe.run r state).1, (probe.run r state).2, record ++ probe.entries r state) := by
  induction probe generalizing state record with
  | finish result => simp only [run, entries, List.append_nil]
  | read count resume ih =>
    simp only [run, entries, recorded] at ih ⊢
    rw [ih, List.append_assoc, List.singleton_append]
  | seek goal resume ih =>
    simp only [run, entries, recorded] at ih ⊢
    rw [ih, List.append_assoc, List.singleton_append]

end Probe

namespace Reader

variable {σ α : Type} {r : Reader σ} {state next probed last : σ} {place : σ → Nat}
variable {probe : σ → Except IoError α × σ} {result : Except IoError α}
variable {restored : Except IoError Nat} {start found : Nat} {e : IoError}

/-! ### The outcome -/

/-- A reader that does not say where it is is not probed. -/
theorem withRestoredPosition_of_refused (hposition : r.position state = (.error e, next)) :
    r.withRestoredPosition probe state = (.error e, next) := by
  rw [withRestoredPosition, hposition]

/-- The result is that of the probe, unless only the move back fails. -/
theorem withRestoredPosition_of_position (hposition : r.position state = (.ok start, next))
    (hprobe : probe next = (result, probed))
    (hback : r.seek probed (.start start) = (restored, last)) :
    r.withRestoredPosition probe state =
      (result.bind fun value => restored.map fun _ => value, last) := by
  simp only [withRestoredPosition, hposition, hprobe, hback]
  cases result with
  | error e => rfl
  | ok value => cases restored <;> rfl

/-- A move back to the place that the reader gave brings it there. -/
theorem HasPlace.place_restored (h : r.HasPlace place)
    (hposition : r.position state = (.ok start, next))
    (hback : r.seek probed (.start start) = (.ok found, last)) : place last = place state := by
  calc place last
      = found := h.place_of_seek hback
    _ = start := h.eq_of_start hback
    _ = place state := h.eq_of_current ((r.position_eq state).symm.trans hposition)

/-- A reader that fails to say where it is is asked nothing else, and the probe does not begin.
Otherwise the probe begins once, and after its questions there is one more, to move back to where
the reader was. The failure of the probe comes first, then the failure to move back, and the value
of the probe is given if both succeed. If the reader moves back, it is where it was, whatever came
of the probe. -/
theorem withRestoredPosition_recorded (r : Reader σ) (probe : Probe α) (state : σ) :
    (∀ e next, r.position state = (.error e, next) →
      r.withRestoredPosition (probe.run r) state = (.error e, next) ∧
      r.recorded.withRestoredPosition (probe.runRecorded r) (state, []) =
        (.error e, next, [.seek (.current 0)])) ∧
    ∀ start next, r.position state = (.ok start, next) →
      ∀ result probed, probe.run r next = (result, probed) →
      ∀ restored last, r.seek probed (.start start) = (restored, last) →
        r.withRestoredPosition (probe.run r) state =
          (result.bind fun value => restored.map fun _ => value, last) ∧
        r.recorded.withRestoredPosition (probe.runRecorded r) (state, []) =
          (result.bind fun value => restored.map fun _ => value, last,
            [.seek (.current 0), .probe] ++ probe.entries r next ++ [.seek (.start start)]) ∧
        ∀ place, r.HasPlace place → ∀ found, restored = .ok found → place last = place state := by
  constructor
  · intro e next hposition
    refine ⟨withRestoredPosition_of_refused hposition, ?_⟩
    apply withRestoredPosition_of_refused
    rw [position_recorded, hposition, List.nil_append]
  · intro start next hposition result probed hprobe restored last hback
    refine ⟨withRestoredPosition_of_position hposition hprobe hback, ?_, ?_⟩
    · -- the same three steps, each with its part of the record
      have hasked : r.recorded.position (state, []) = (.ok start, next, [.seek (.current 0)]) := by
        rw [position_recorded, hposition, List.nil_append]
      have hprobed : probe.runRecorded r (next, [.seek (.current 0)]) =
          (result, probed, [.seek (.current 0), .probe] ++ probe.entries r next) := by
        rw [Probe.runRecorded, Probe.run_recorded, hprobe]
        rfl
      apply withRestoredPosition_of_position hasked hprobed
      rw [seek_recorded, hback]
    · rintro place hplace found rfl
      exact hplace.place_restored hposition hback

end Reader

/-! ### The readers of the library -/

/-- A reader that fails on schedule has a place, however its moves fail. -/
theorem Scheduled.hasPlace_reader : reader.HasPlace position := by
  have hseek : ∀ {s : Scheduled} {goal found next}, reader.seek s goal = (.ok found, next) →
      next.position = found ∧ s.target? goal = some found := by
    intro s goal found next h
    simp only [reader, seek] at h
    split at h
    · cases h
    · split at h
      · next place htarget =>
        cases h
        exact ⟨rfl, htarget⟩
      · cases h
  have hcurrent : ∀ s : Scheduled, s.target? (.current 0) = some s.position := fun _ => rfl
  refine ⟨fun h => (hseek h).1, fun h => (Option.some.inj (hseek h).2).symm, fun h => ?_⟩
  exact Option.some.inj ((hseek h).2.symm.trans (hcurrent _))

/-- An open file has a place. -/
theorem FileCursor.hasPlace_seekable (fs : FileSystem) : (seekable fs).HasPlace position := by
  have hseek : ∀ {c : FileCursor} {goal found next}, (seekable fs).seek c goal = (.ok found, next) →
      next.position = found ∧ c.target fs goal = found := by
    intro c goal found next h
    simp only [seekable, seek] at h
    split at h
    · next hin =>
      cases h
      exact ⟨rfl, (Int.toNat_of_nonneg hin.1).symm⟩
    · cases h
  refine ⟨fun h => (hseek h).1, fun h => ?_, fun h => ?_⟩
  · exact (Int.ofNat.inj (hseek h).2).symm
  · have htarget := (hseek h).2
    simp only [target] at htarget
    omega

/-- A cursor in a stream has a place. -/
theorem Cursor.hasPlace_seekable (fs : FileSystem) : (seekable fs).HasPlace position := by
  have hseek : ∀ {c : Cursor} {goal found next}, (seekable fs).seek c goal = (.ok found, next) →
      next.position = found ∧ c.target? goal = some found := by
    intro c goal found next h
    simp only [seekable, seek] at h
    cases htarget : c.target? goal with
    | none =>
      rw [htarget] at h
      cases h
    | some offset =>
      simp only [htarget, seekTo] at h
      split at h
      · cases h
        exact ⟨rfl, rfl⟩
      · cases h
  refine ⟨fun h => (hseek h).1, fun h => (Option.some.inj (hseek h).2).symm, fun h => ?_⟩
  have htarget := shift?_eq_some_iff.mp (hseek h).2
  omega

/-- A probe that fails after it has read four bytes and has moved to the end. -/
def failingProbe : Probe Bool :=
  .read 4 fun _ => .seek (.stop 0) fun _ => .finish (.error (.bare .other))

/-- A reader of eight zeros that has been moved to the third. -/
def eightZeros : Scheduled := { data := List.replicate 8 0, position := 2 }

/-- The failure of the probe is the outcome, and the reader stands at the third byte again. -/
theorem Scheduled.withRestoredPosition_recorded_failingProbe :
    (Scheduled.reader.withRestoredPosition (failingProbe.run Scheduled.reader.toReader)
      eightZeros).1 = .error (.bare .other) ∧
    (Scheduled.reader.withRestoredPosition (failingProbe.run Scheduled.reader.toReader)
      eightZeros).2.position = 2 ∧
    (Scheduled.reader.recorded.withRestoredPosition
      (failingProbe.runRecorded Scheduled.reader.toReader) (eightZeros, [])).2.2 =
        [.seek (.current 0), .probe, .read 4, .seek (.stop 0), .seek (.start 2)] := by
  obtain ⟨houtcome, hrecorded, hplace⟩ :=
    (Reader.withRestoredPosition_recorded Scheduled.reader.toReader failingProbe eightZeros).2
      2 { eightZeros with seeks := 1 } rfl _ _ rfl _ _ rfl
  rw [houtcome, hrecorded]
  exact ⟨rfl, hplace _ Scheduled.hasPlace_reader 2 rfl, rfl⟩

end VirtualFiles
