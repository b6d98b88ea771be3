import VirtualFiles.Proofs.Outcome
import VirtualFiles.Proofs.VirtualStream.Tiling
import VirtualFiles.Source.Padding
import VirtualFiles.VirtualStream.Cursor

/-!
# Where a cursor moves to

A goal means a place, counted from the start or the end of the stream or from the position of the
cursor. As an integer this place may lie before the start of the stream, beyond its end, or even
beyond the address space, since a stream may be almost as long as that. A cursor moves to the
places from the start of the stream to its end, and refuses the others.

A place beyond the end is refused as being out of range only if it is an address. One that is no
address is refused as negative, on whichever side of the address space it lies. There are such
places beyond the end only in streams of more than `2 ^ 63` bytes, because a distance has a sign.

## Main definitions

* `SeekFrom.IsWord` — a goal whose number has 64 bits
* `Cursor.meant` — the place that a goal means

## Main results

* `seek_of_within`, `seek_of_beyond` — when a cursor moves
* `seek_refusal_iff` — what is answered to a goal, and when
-/

namespace VirtualFiles

/-- The number of the goal has 64 bits: a place has no sign, and a distance has one. -/
def SeekFrom.IsWord : SeekFrom → Prop
  | .start offset => offset < addressSpace
  | .stop delta | .current delta => -(addressSpace : Int) ≤ 2 * delta ∧ 2 * delta < addressSpace

instance (goal : SeekFrom) : Decidable goal.IsWord :=
  match goal with
  | .start _ => inferInstanceAs (Decidable (_ < _))
  | .stop _ | .current _ => inferInstanceAs (Decidable (_ ∧ _))

namespace SeekError

/-- The two refusals read differently. -/
theorem toIoError_outOfRange_ne (offset length : Nat) :
    (outOfRange offset length).toIoError ≠ negative.toIoError := by
  intro h
  have hmessage : (outOfRange offset length).message = negative.message := by
    simpa only [toIoError, IoError.explained, IoError.mk.injEq, IoErrorDetail.wrapped.injEq,
      true_and] using h
  have hfirst := congrArg (·.toList.head?) hmessage
  simp [message] at hfirst

end SeekError

namespace Cursor

variable {c : Cursor} {fs : FileSystem} {goal : SeekFrom} {offset length base : Nat} {delta : Int}

/-- The place that the goal means. It may lie outside of the stream, and be no address. -/
def meant (c : Cursor) : SeekFrom → Int
  | .start offset => offset
  | .stop delta => c.stream.length + delta
  | .current delta => c.position + delta

/-! ### Places and addresses -/

theorem shift?_eq_some_iff : shift? base delta = some offset ↔
    base + delta = offset ∧ offset < addressSpace := by
  unfold shift?
  split
  · rw [Option.some.injEq]
    omega
  · simp only [reduceCtorEq, false_iff]
    omega

theorem shift?_eq_none_iff : shift? base delta = none ↔
    base + delta < 0 ∨ addressSpace ≤ base + delta := by
  unfold shift?
  split
  · simp only [reduceCtorEq, false_iff]
    omega
  · simp only [true_iff]
    omega

/-- The address that is looked for is the place that is meant. -/
theorem meant_of_target? (h : c.target? goal = some offset) : c.meant goal = offset := by
  cases goal with
  | start place => exact congrArg Int.ofNat (Option.some.inj h)
  | stop delta => exact (shift?_eq_some_iff.mp h).1
  | current delta => exact (shift?_eq_some_iff.mp h).1

/-- If no address is looked for, then the place that is meant is none. -/
theorem meant_of_target?_eq_none (h : c.target? goal = none) :
    c.meant goal < 0 ∨ addressSpace ≤ c.meant goal := by
  cases goal with
  | start place => cases h
  | stop delta => exact shift?_eq_none_iff.mp h
  | current delta => exact shift?_eq_none_iff.mp h

/-- A place that has 64 bits as a number is an address. -/
theorem lt_of_target? (hgoal : goal.IsWord) (h : c.target? goal = some offset) :
    offset < addressSpace := by
  cases goal with
  | start place => exact Option.some.inj h ▸ hgoal
  | stop delta => exact (shift?_eq_some_iff.mp h).2
  | current delta => exact (shift?_eq_some_iff.mp h).2

/-! ### Moving -/

theorem seek_of_target? (h : c.target? goal = some offset) : c.seek goal = c.seekTo offset := by
  rw [seek, h]

theorem seek_of_target?_eq_none (h : c.target? goal = none) :
    c.seek goal = (.error .negative, c) := by
  rw [seek, h]

theorem seekTo_of_le (h : offset ≤ c.stream.length) :
    c.seekTo offset = (.ok offset, { c with position := offset }) := if_pos h

theorem seekTo_of_lt (h : c.stream.length < offset) :
    c.seekTo offset = (.error (.outOfRange offset c.stream.length), c) :=
  if_neg (Nat.not_le.mpr h)

/-- A cursor moves to every place from the start of the stream to its end. -/
theorem seek_of_within (hmeant : c.meant goal = offset) (h : offset ≤ c.stream.length) :
    c.seek goal = (.ok offset, { c with position := offset }) := by
  have hspace := c.stream.length_lt
  cases htarget : c.target? goal with
  | none =>
    have hout := meant_of_target?_eq_none htarget
    omega
  | some place =>
    obtain rfl : place = offset := by
      have := meant_of_target? htarget
      omega
    rw [seek_of_target? htarget, seekTo_of_le h]

/-- A cursor moves to no other place. -/
theorem seek_of_beyond (h : c.meant goal < 0 ∨ c.stream.length < c.meant goal) :
    ∃ cause, c.seek goal = (.error cause, c) := by
  cases htarget : c.target? goal with
  | none => exact ⟨.negative, seek_of_target?_eq_none htarget⟩
  | some place =>
    have hplace := meant_of_target? htarget
    have hlt : c.stream.length < place := by omega
    exact ⟨.outOfRange place c.stream.length, by rw [seek_of_target? htarget, seekTo_of_lt hlt]⟩

theorem seekable_seek : (seekable fs).seek c goal =
    ((c.seek goal).1.mapError SeekError.toIoError, (c.seek goal).2) := rfl

/-! ### Refusals -/

/-- What is answered to a goal is said by the place that it means: whether it is in the stream, an
address beyond the end of the stream, or no address. -/
theorem seek_cases (c : Cursor) (hgoal : goal.IsWord) :
    (∃ offset : Nat, c.meant goal = offset ∧ offset ≤ c.stream.length ∧
      c.seek goal = (.ok offset, { c with position := offset })) ∨
    (∃ offset : Nat, c.meant goal = offset ∧ c.stream.length < offset ∧ offset < addressSpace ∧
      c.seek goal = (.error (.outOfRange offset c.stream.length), c)) ∨
    ((c.meant goal < 0 ∨ addressSpace ≤ c.meant goal) ∧
      c.seek goal = (.error .negative, c)) := by
  cases htarget : c.target? goal with
  | none =>
    exact .inr (.inr ⟨meant_of_target?_eq_none htarget, seek_of_target?_eq_none htarget⟩)
  | some offset =>
    have hmeant := meant_of_target? htarget
    rw [seek_of_target? htarget]
    by_cases hle : offset ≤ c.stream.length
    · exact .inl ⟨offset, hmeant, hle, seekTo_of_le hle⟩
    · have hlt := Nat.lt_of_not_le hle
      exact .inr (.inl ⟨offset, hmeant, hlt, lt_of_target? hgoal htarget, seekTo_of_lt hlt⟩)

theorem seek_eq_ok_iff (hgoal : goal.IsWord) : (c.seek goal).1 = .ok offset ↔
    c.meant goal = offset ∧ offset ≤ c.stream.length := by
  have hspace := c.stream.length_lt
  obtain ⟨place, hmeant, hle, hseek⟩ | ⟨place, hmeant, hlt, -, hseek⟩ | ⟨hout, hseek⟩ :=
    c.seek_cases hgoal
  · rw [hseek, Except.ok.injEq]
    omega
  · rw [hseek]
    simp only [reduceCtorEq, false_iff]
    omega
  · rw [hseek]
    simp only [reduceCtorEq, false_iff]
    omega

theorem seek_eq_outOfRange_iff (hgoal : goal.IsWord) :
    (c.seek goal).1 = .error (.outOfRange offset length) ↔
      c.meant goal = offset ∧ length = c.stream.length ∧ length < offset ∧
        offset < addressSpace := by
  obtain ⟨place, hmeant, hle, hseek⟩ | ⟨place, hmeant, hlt, hspace, hseek⟩ | ⟨hout, hseek⟩ :=
    c.seek_cases hgoal
  · rw [hseek]
    simp only [reduceCtorEq, false_iff]
    omega
  · rw [hseek, Except.error.injEq, SeekError.outOfRange.injEq]
    omega
  · rw [hseek]
    simp only [Except.error.injEq, reduceCtorEq, false_iff]
    omega

theorem seek_eq_negative_iff (hgoal : goal.IsWord) : (c.seek goal).1 = .error .negative ↔
    c.meant goal < 0 ∨ addressSpace ≤ c.meant goal := by
  have hspace := c.stream.length_lt
  obtain ⟨place, hmeant, hle, hseek⟩ | ⟨place, hmeant, hlt, hplace, hseek⟩ | ⟨hout, hseek⟩ :=
    c.seek_cases hgoal
  · rw [hseek]
    simp only [reduceCtorEq, false_iff]
    omega
  · rw [hseek]
    simp only [Except.error.injEq, reduceCtorEq, false_iff]
    omega
  · rw [hseek]
    exact iff_of_true rfl hout

/-- The failure that a reader reports tells the refusals apart. -/
theorem seekable_seek_eq_negative_iff : ((seekable fs).seek c goal).1 =
    .error SeekError.negative.toIoError ↔ (c.seek goal).1 = .error .negative := by
  rw [seekable_seek]
  constructor
  · intro h
    obtain ⟨cause, hcause, hsame⟩ := Outcome.mapError_eq_error_iff.mp h
    cases cause with
    | negative => exact hcause
    | outOfRange offset length =>
      exact absurd hsame (SeekError.toIoError_outOfRange_ne offset length)
  · intro h
    exact Outcome.mapError_eq_error_iff.mpr ⟨.negative, h, rfl⟩

/-- In a stream of at most `2 ^ 63` bytes no goal means a place beyond the address space. -/
theorem meant_lt (hgoal : goal.IsWord) (hposition : c.position ≤ c.stream.length)
    (hlength : 2 * c.stream.length ≤ addressSpace) : c.meant goal < addressSpace := by
  cases goal with
  | start place =>
    have : place < addressSpace := hgoal
    simp only [meant]
    omega
  | stop delta =>
    have := hgoal.2
    simp only [meant]
    omega
  | current delta =>
    have := hgoal.2
    simp only [meant]
    omega

/-- A goal is answered with the place that it means if this lies in the stream. An address beyond
the end is refused as out of range, and whatever is no address as negative, also if it lies beyond
the end; the failure that a reader reports tells the two apart. In a stream of at most `2 ^ 63`
bytes no goal means a place beyond the address space, so there the refusals say on which side of
the stream the place lies. -/
theorem seek_refusal_iff (c : Cursor) (fs : FileSystem) (goal : SeekFrom) (hgoal : goal.IsWord) :
    (∀ offset, (c.seek goal).1 = .ok offset ↔
      c.meant goal = offset ∧ offset ≤ c.stream.length) ∧
    (∀ offset length, (c.seek goal).1 = .error (.outOfRange offset length) ↔
      c.meant goal = offset ∧ length = c.stream.length ∧ length < offset ∧
        offset < addressSpace) ∧
    ((c.seek goal).1 = .error .negative ↔ c.meant goal < 0 ∨ addressSpace ≤ c.meant goal) ∧
    (((seekable fs).seek c goal).1 = .error SeekError.negative.toIoError ↔
      (c.seek goal).1 = .error .negative) ∧
    (c.position ≤ c.stream.length → 2 * c.stream.length ≤ addressSpace →
      ((c.seek goal).1 = .error .negative ↔ c.meant goal < 0) ∧
      ((∃ offset length, (c.seek goal).1 = .error (.outOfRange offset length)) ↔
        c.stream.length < c.meant goal)) := by
  refine ⟨fun _ => seek_eq_ok_iff hgoal, fun _ _ => seek_eq_outOfRange_iff hgoal,
    seek_eq_negative_iff hgoal, seekable_seek_eq_negative_iff, fun hposition hlength => ?_⟩
  have hlt : c.meant goal < addressSpace := meant_lt hgoal hposition hlength
  constructor
  · rw [seek_eq_negative_iff hgoal]
    omega
  · simp only [seek_eq_outOfRange_iff hgoal]
    constructor
    · rintro ⟨offset, length, hmeant, rfl, hbeyond, -⟩
      omega
    · intro hbeyond
      exact ⟨(c.meant goal).toNat, c.stream.length, by omega, rfl, by omega, by omega⟩

/-- A stream of zeros that takes up the whole address space. -/
def fullStream : VirtualStream :=
  ⟨#[⟨(Padding.zeros (addressSpace - 1)).source, ⟨0, addressSpace - 1, by decide⟩, .padding⟩],
    addressSpace - 1,
    .cons rfl (by decide) (Nat.le_refl _) (.nil _)⟩

/-- One byte beyond the end of the longest stream there is no address, so the place is refused as
negative, although it lies beyond the end. In the stream without a byte, only a place before the
start is. -/
theorem seek_refusal_fullStream :
    (⟨fullStream, 0⟩ : Cursor).meant (.stop 1) = addressSpace ∧
      ((⟨fullStream, 0⟩ : Cursor).seek (.stop 1)).1 = .error .negative ∧
      ((⟨fullStream, 0⟩ : Cursor).seek (.stop (-1))).1 = .ok (addressSpace - 2) ∧
      ((⟨.empty, 0⟩ : Cursor).seek (.current (-1))).1 = .error .negative := by
  have hmeant : (⟨fullStream, 0⟩ : Cursor).meant (.stop 1) = addressSpace := by decide
  obtain ⟨-, -, hnegative, -⟩ :=
    seek_refusal_iff ⟨fullStream, 0⟩ .initial (.stop 1) (by decide)
  obtain ⟨hok, -⟩ := seek_refusal_iff ⟨fullStream, 0⟩ .initial (.stop (-1)) (by decide)
  obtain ⟨-, -, -, -, hshort⟩ :=
    seek_refusal_iff ⟨.empty, 0⟩ .initial (.current (-1)) (by decide)
  refine ⟨hmeant, hnegative.mpr (.inr (Int.le_of_eq hmeant.symm)), (hok _).mpr (by decide), ?_⟩
  exact (hshort (by decide) (by decide)).1.mpr (by decide)

end Cursor

end VirtualFiles
