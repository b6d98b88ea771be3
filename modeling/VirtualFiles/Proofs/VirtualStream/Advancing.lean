import VirtualFiles.Proofs.VirtualStream.Moving
import VirtualFiles.Proofs.VirtualStream.Pieces
import VirtualFiles.Source.Memory
import VirtualFiles.Source.Padding
import VirtualFiles.Source.Partial
import VirtualFiles.VirtualStream.Cursors

/-!
# How far a cursor gets

A cursor over sources that may end early or fail. A read that succeeds gives everything asked for,
up to the end of the stream, and moves the cursor past it. One that fails leaves the cursor where
it was, even if other segments have delivered their pieces before. So a cursor always stands
somewhere from the start of the stream to its end, whatever it is asked to do.

An exact read is no more than one read, and perhaps another one that finds the end of the stream.
Reading to the end is as many reads as it takes. If one of them fails, the bytes of those before it
are not lost, and the cursor stands after them.

## Main definitions

* `Cursor.allOrNothing` — what was read, unless a read failed
* `Cursor.Within` — a cursor in a stream
* `Cursor.Responds` — what the next action of a cursor does

## Main results

* `readExact_of_readAt_ok`, `readExact_of_readAt_error` — exact reads
* `readToEnd_cases` — reading to the end
* `drain_eq_readToEnd` — draining is reading to the end with buffers of one size
* `isAwb_of_readAt_ok`, `isAwb_of_readAt_error` — looking for an audio bank
* `Within.act`, `run_keeps` — one action, and a run of many cursors
* `run_within_responds` — where a cursor stands after any run, and what it does next
-/

namespace VirtualFiles

namespace VirtualStream

variable {s : VirtualStream} {fs : FileSystem} {offset count : Nat} {bytes : Bytes} {e : ReadError}

/-- A read of nothing does not fail. -/
theorem pos_of_readAt_error (h : s.readAt fs offset count = .error e) : 0 < count := by
  refine Nat.pos_of_ne_zero fun hzero => ?_
  rw [readAt_eq_nil (.inr hzero)] at h
  cases h

/-- A read that fails begins in the stream. -/
theorem lt_length_of_readAt_error (h : s.readAt fs offset count = .error e) :
    offset < s.length := by
  refine Nat.lt_of_not_le fun hbeyond => ?_
  rw [readAt_eq_nil (.inl hbeyond)] at h
  cases h

/-- A read from the end of the stream on gives nothing. -/
theorem readAt_length : s.readAt fs s.length count = .ok [] :=
  readAt_eq_nil (.inl (Nat.le_refl _))

end VirtualStream

namespace Cursor

variable {c : Cursor} {fs : FileSystem} {s : VirtualStream} {bytes : Bytes} {e : ReadError}
variable {count chunk position : Nat} {buffers : Buffers}

/-! ### Reads -/

theorem read_of_readAt_ok (h : c.stream.readAt fs c.position count = .ok bytes) :
    c.read fs count = (.ok bytes, { c with position := c.position + bytes.length }) :=
  read_eq_ok_iff.mpr ⟨h, rfl⟩

theorem read_of_readAt_error (h : c.stream.readAt fs c.position count = .error e) :
    c.read fs count = (.error e, c) :=
  read_eq_error_iff.mpr ⟨h, rfl⟩

theorem seekable_read_of_readAt_ok (h : c.stream.readAt fs c.position count = .ok bytes) :
    (seekable fs).read c count =
      (.ok bytes, { c with position := c.position + bytes.length }) := by
  simp only [seekable, read_of_readAt_ok h]
  rfl

theorem seekable_read_of_readAt_error (h : c.stream.readAt fs c.position count = .error e) :
    (seekable fs).read c count = (.error e.toIoError, c) := by
  simp only [seekable, read_of_readAt_error h]
  rfl

/-! ### Exact reads -/

/-- An exact read fails as its first read does, and does not move the cursor either. -/
theorem readExact_of_readAt_error (h : c.stream.readAt fs c.position count = .error e) :
    (seekable fs).readExact c count = (.error e.toIoError, c) :=
  Seekable.readExact_of_read_error (VirtualStream.pos_of_readAt_error h)
    (seekable_read_of_readAt_error h) e.kind_toIoError_ne_interrupted

/-- An exact read gives the bytes of its first read if these are all, and otherwise it goes to the
end of the stream. -/
theorem readExact_of_readAt_ok (hle : c.position ≤ c.stream.length)
    (h : c.stream.readAt fs c.position count = .ok bytes) :
    (seekable fs).readExact c count =
      if bytes.length = count then (.ok bytes, { c with position := c.position + count })
      else (.error Seekable.endedEarly, { c with position := c.stream.length }) := by
  have hread := seekable_read_of_readAt_ok h
  have hlength := VirtualStream.length_of_readAt_eq_ok h
  by_cases hall : bytes.length = count
  · rw [if_pos hall]
    rcases Nat.eq_zero_or_pos count with rfl | hpos
    · obtain rfl := List.length_eq_zero_iff.mp hall
      exact Seekable.readExact_zero
    · rw [Seekable.readExact_of_read (hall ▸ hpos) (Nat.le_of_eq hall) hread, hall, Nat.sub_self,
        Seekable.readExact_zero]
      exact congrArg (·, _) (congrArg Except.ok (List.append_nil bytes))
  · -- what was read goes to the end of the stream, so a second read finds nothing
    have hend : c.position + bytes.length = c.stream.length := by omega
    rw [if_neg hall]
    rw [hend] at hread
    have hnothing : ∀ more, (seekable fs).read { c with position := c.stream.length } more =
        (.ok [], { c with position := c.stream.length }) :=
      fun _ => seekable_read_of_readAt_ok VirtualStream.readAt_length
    rcases Nat.eq_zero_or_pos bytes.length with hnil | hpos
    · obtain rfl := List.length_eq_zero_iff.mp hnil
      exact Seekable.readExact_of_read_nil (by omega) hread
    · rw [Seekable.readExact_of_read hpos (by omega) hread,
        Seekable.readExact_of_read_nil (by omega) (hnothing _)]
      rfl

/-! ### Reading to the end -/

/-- Reading to the end gives everything up to the end of the stream, unless a read fails. Then it
gives what was read before, and the cursor stays where that read began. -/
theorem readToEnd_cases (c : Cursor) (fs : FileSystem) (buffers : Buffers) :
    (∃ bytes, bytes.length = c.stream.length - c.position ∧
      c.readToEnd fs buffers = ((bytes, none), { c with position := c.position + bytes.length })) ∨
    ∃ got turn e,
      c.stream.readAt fs (c.position + got.length) (buffers.size turn) = .error e ∧
      c.readToEnd fs buffers = ((got, some e), { c with position := c.position + got.length }) := by
  fun_induction Cursor.readToEnd c fs buffers with
  | case1 c buffers e next hread =>
    obtain ⟨hfails, rfl⟩ := read_eq_error_iff.mp hread
    exact .inr ⟨[], 0, e, hfails, rfl⟩
  | case2 c buffers next hread =>
    obtain ⟨hnothing, rfl⟩ := read_eq_ok_iff.mp hread
    have hlength := VirtualStream.length_of_readAt_eq_ok hnothing
    have hpos := buffers.size_pos 0
    refine .inl ⟨[], ?_, rfl⟩
    simp only [List.length_nil] at hlength ⊢
    omega
  | case3 c buffers first piece next hread rest failure last hrest ih =>
    -- the piece is put before all that comes after it, also before what comes before a failure
    obtain ⟨hpiece, rfl⟩ := read_eq_ok_iff.mp hread
    rw [hrest] at ih
    obtain ⟨bytes, hlength, heq⟩ | ⟨got, turn, e, hfails, heq⟩ := ih
    · cases heq
      refine .inl ⟨first :: piece ++ rest, ?_, ?_⟩
      · have hin := VirtualStream.length_of_readAt_eq_ok hpiece
        simp only at hlength
        rw [List.length_append, hlength]
        omega
      · rw [List.length_append, Nat.add_assoc]
    · cases heq
      refine .inr ⟨first :: piece ++ rest, turn + 1, e, ?_, ?_⟩
      · rw [List.length_append, ← Nat.add_assoc]
        exact hfails
      · rw [List.length_append, Nat.add_assoc]

/-- Sixty-four zeros, and after them a source that announces ten bytes and holds none. -/
def zerosThenNothing : VirtualStream :=
  ⟨#[⟨(Padding.zeros 64).source, ⟨0, 64, by decide⟩, .padding⟩,
      ⟨Partial.source ⟨[], 10, none, none⟩, ⟨64, 10, by decide⟩, .other⟩], 74,
    .cons rfl (by decide) (by decide) (.cons rfl (by decide) (by decide) (.nil _))⟩

-- the small buffer and the first growth of the vector are filled, and the next read fails
example : ((Cursor.ofStream zerosThenNothing).readToEnd .initial .doubling).1.1.length = 64 ∧
    ((Cursor.ofStream zerosThenNothing).readToEnd .initial .doubling).2.position = 64 := by
  decide +kernel

/-- What was read, unless a read failed. -/
def allOrNothing : (Bytes × Option ReadError) × Cursor → Except ReadError Bytes × Cursor
  | ((got, none), last) => (.ok got, last)
  | ((_, some e), last) => (.error e, last)

theorem allOrNothing_append (front : Bytes) (outcome : (Bytes × Option ReadError) × Cursor) :
    allOrNothing ((front ++ outcome.1.1, outcome.1.2), outcome.2) =
      ((allOrNothing outcome).1.map (front ++ ·), (allOrNothing outcome).2) := by
  obtain ⟨⟨got, _ | e⟩, last⟩ := outcome <;> rfl

/-- Draining is reading to the end with buffers of one size, but keeps nothing of what was read if
a read fails. -/
theorem drain_eq_readToEnd (hpos : 0 < chunk) :
    c.drain fs chunk = allOrNothing (c.readToEnd fs (.even chunk hpos)) := by
  fun_induction drain c fs chunk with
  | case1 c e hread =>
    rw [readToEnd_of_read_error (read_of_readAt_error hread)]
    rfl
  | case2 c hread =>
    rw [readToEnd_of_read_nil (read_of_readAt_ok hread)]
    rfl
  | case3 c first piece hread rest last hdrain ih =>
    rw [readToEnd_of_read (read_of_readAt_ok hread) (List.cons_ne_nil _ _), Buffers.later_even,
      allOrNothing_append, ← ih, hdrain]

/-- Draining in pieces without bytes gives nothing. -/
theorem drain_zero (c : Cursor) (fs : FileSystem) : c.drain fs 0 = (.ok [], c) := by
  have hnothing : c.stream.readAt fs c.position 0 = .ok [] :=
    VirtualStream.readAt_eq_nil (.inr rfl)
  rw [drain]
  split <;> simp_all

/-! ### Looking for an audio bank -/

theorem seekable_position (hle : c.position ≤ c.stream.length) :
    (seekable fs).position c = (.ok c.position, c) := by
  have hmeant : c.meant (.current 0) = c.position := Int.add_zero _
  rw [Reader.position_eq, seekable_seek, seek_of_within hmeant hle]
  rfl

theorem seekable_seek_start (hle : position ≤ c.stream.length) :
    (seekable fs).seek c (.start position) = (.ok position, { c with position := position }) := by
  have hmeant : c.meant (.start position) = position := rfl
  rw [seekable_seek, seek_of_within hmeant hle]
  rfl

/-- A probe that only moves the cursor to another position leaves it where it was. -/
theorem withRestoredPosition_eq {α : Type} {probe : Cursor → Except IoError α × Cursor}
    {result : Except IoError α} (hle : c.position ≤ c.stream.length) (position : Nat)
    (hprobe : probe c = (result, { c with position := position })) :
    (seekable fs).withRestoredPosition probe c = (result, c) :=
  Reader.withRestoredPosition_eq (seekable_position hle) hprobe (seekable_seek_start hle)

/-- If the first bytes can be read, they are compared. A stream that ends before the magic number
does holds no audio bank. -/
theorem isAwb_of_readAt_ok (hle : c.position ≤ c.stream.length)
    (h : c.stream.readAt fs c.position Awb.magic.length = .ok bytes) :
    Awb.isAwb (seekable fs) c = (.ok (bytes == Awb.magic), c) := by
  have hexact := readExact_of_readAt_ok hle h
  by_cases hall : bytes.length = Awb.magic.length
  · rw [if_pos hall] at hexact
    exact withRestoredPosition_eq hle (c.position + Awb.magic.length) (by rw [Awb.probe, hexact])
  · have hother : (bytes == Awb.magic) = false :=
      beq_eq_false_iff_ne.mpr fun heq => hall (congrArg List.length heq)
    rw [if_neg hall] at hexact
    refine withRestoredPosition_eq hle c.stream.length ?_
    rw [Awb.probe, hexact, hother]
    rfl

/-- If they cannot be read, an early end of a source passes for a stream that is too short. -/
theorem isAwb_of_readAt_error (hle : c.position ≤ c.stream.length)
    (h : c.stream.readAt fs c.position Awb.magic.length = .error e) :
    Awb.isAwb (seekable fs) c = (if e.isShort then .ok false else .error e.toIoError, c) := by
  refine withRestoredPosition_eq hle c.position ?_
  rw [Awb.probe, readExact_of_readAt_error h]
  cases e <;> rfl

/-! ### Positions -/

/-- The cursor stands in the stream `s`, somewhere from its start to its end. -/
inductive Within (s : VirtualStream) : Cursor → Prop
  | intro (position : Nat) (le : position ≤ s.length) : Within s ⟨s, position⟩

theorem within_ofStream (s : VirtualStream) : Within s (.ofStream s) := .intro 0 (Nat.zero_le _)

/-- What was read does not go beyond the end of the stream. -/
theorem add_length_le (hle : c.position ≤ c.stream.length)
    (h : c.stream.readAt fs c.position count = .ok bytes) :
    c.position + bytes.length ≤ c.stream.length := by
  have hlength := VirtualStream.length_of_readAt_eq_ok h
  omega

theorem Within.read (h : Within s c) (fs : FileSystem) (count : Nat) :
    Within s (c.read fs count).2 := by
  obtain ⟨position, hle⟩ := h
  cases hread : s.readAt fs position count with
  | ok bytes =>
    rw [read_of_readAt_ok (c := ⟨s, position⟩) hread]
    exact .intro _ (add_length_le (c := ⟨s, position⟩) hle hread)
  | error e =>
    rw [read_of_readAt_error (c := ⟨s, position⟩) hread]
    exact .intro position hle

theorem Within.readExact (h : Within s c) (fs : FileSystem) (count : Nat) :
    Within s ((seekable fs).readExact c count).2 := by
  obtain ⟨position, hle⟩ := h
  cases hread : s.readAt fs position count with
  | ok bytes =>
    have hlast := add_length_le (c := ⟨s, position⟩) hle hread
    rw [readExact_of_readAt_ok (c := ⟨s, position⟩) hle hread]
    split
    · next hall => exact .intro _ (hall ▸ hlast)
    · exact .intro _ (Nat.le_refl _)
  | error e =>
    rw [readExact_of_readAt_error (c := ⟨s, position⟩) hread]
    exact .intro position hle

theorem Within.seek (h : Within s c) (goal : SeekFrom) : Within s (c.seek goal).2 := by
  obtain ⟨position, hle⟩ := h
  by_cases hin : ∃ place : Nat, (⟨s, position⟩ : Cursor).meant goal = place ∧ place ≤ s.length
  · obtain ⟨place, hmeant, hplace⟩ := hin
    rw [seek_of_within (c := ⟨s, position⟩) hmeant hplace]
    exact .intro place hplace
  · have hbeyond : (⟨s, position⟩ : Cursor).meant goal < 0 ∨
        s.length < (⟨s, position⟩ : Cursor).meant goal := by
      by_contra hnot
      exact hin ⟨((⟨s, position⟩ : Cursor).meant goal).toNat, by omega, by omega⟩
    obtain ⟨cause, hseek⟩ := seek_of_beyond (c := ⟨s, position⟩) hbeyond
    rw [hseek]
    exact .intro position hle

/-- Reading to the end stops at the end of the stream, or before a read that fails. -/
theorem Within.readToEnd (h : Within s c) (fs : FileSystem) (buffers : Buffers) :
    Within s (c.readToEnd fs buffers).2 := by
  obtain ⟨position, hle⟩ := h
  obtain ⟨bytes, hlength, heq⟩ | ⟨got, turn, e, hfails, heq⟩ :=
    readToEnd_cases ⟨s, position⟩ fs buffers
  · rw [heq]
    refine .intro _ ?_
    simp only at hlength ⊢
    omega
  · rw [heq]
    exact .intro _ (Nat.le_of_lt (VirtualStream.lt_length_of_readAt_error hfails))

theorem snd_allOrNothing (outcome : (Bytes × Option ReadError) × Cursor) :
    (allOrNothing outcome).2 = outcome.2 := by
  obtain ⟨⟨got, _ | e⟩, last⟩ := outcome <;> rfl

theorem Within.drain (h : Within s c) (fs : FileSystem) (chunk : Nat) :
    Within s (c.drain fs chunk).2 := by
  rcases Nat.eq_zero_or_pos chunk with rfl | hpos
  · rw [drain_zero]
    exact h
  · rw [drain_eq_readToEnd hpos, snd_allOrNothing]
    exact h.readToEnd fs _

/-- Looking for an audio bank does not move the cursor, whatever comes of it. -/
theorem isAwb_snd (hle : c.position ≤ c.stream.length) : (Awb.isAwb (seekable fs) c).2 = c := by
  cases hread : c.stream.readAt fs c.position Awb.magic.length with
  | ok bytes => rw [isAwb_of_readAt_ok hle hread]
  | error e => rw [isAwb_of_readAt_error hle hread]

theorem act_answer_snd {ε α : Type} {good : α → CursorAnswer} {bad : ε → CursorAnswer}
    (outcome : Except ε α × Cursor) : (act.answer good bad outcome).2 = outcome.2 := by
  obtain ⟨_ | _, next⟩ := outcome <;> rfl

theorem act_answerAll_snd (outcome : (Bytes × Option ReadError) × Cursor) :
    (act.answerAll outcome).2 = outcome.2 := by
  obtain ⟨⟨got, _ | e⟩, last⟩ := outcome <;> rfl

/-- No action takes a cursor out of its stream. -/
theorem Within.act (h : Within s c) (fs : FileSystem) (action : CursorAction) :
    Within s (c.act fs action).2 := by
  cases action with
  | seekTo offset =>
    -- a place from the start of the stream is one of the goals
    have hseek : c.seek (.start offset) = c.seekTo offset := rfl
    rw [Cursor.act, act_answer_snd, ← hseek]
    exact h.seek _
  | seek goal =>
    rw [Cursor.act, act_answer_snd, seekable_seek]
    exact h.seek goal
  | readSegments count =>
    rw [Cursor.act, act_answer_snd]
    exact h.read fs count
  | read count =>
    rw [Cursor.act, act_answer_snd]
    exact h.read fs count
  | readExact count =>
    rw [Cursor.act, act_answer_snd]
    exact h.readExact fs count
  | readToEnd buffers =>
    rw [Cursor.act, act_answerAll_snd]
    exact h.readToEnd fs buffers
  | drain chunk =>
    rw [Cursor.act, act_answer_snd]
    exact h.drain fs chunk
  | isAwb =>
    obtain ⟨position, hle⟩ := h
    rw [Cursor.act, act_answer_snd, isAwb_snd (c := ⟨s, position⟩) hle]
    exact .intro position hle

/-- What a cursor at `position` of the stream `s` does next, with the files as they are now. -/
structure Responds (s : VirtualStream) (position : Nat) (fs : FileSystem) : Prop where
  /-- It moves to the places from the start of the stream to its end. -/
  seekTo : ∀ offset, (⟨s, position⟩ : Cursor).act fs (.seekTo offset) =
    if offset ≤ s.length then (.position offset, ⟨s, offset⟩)
    else (.seekFailed (.outOfRange offset s.length), ⟨s, position⟩)
  /-- Whatever a place is counted from, the cursor moves there if it is one of these. -/
  seek : ∀ goal (place : Nat), (⟨s, position⟩ : Cursor).meant goal = place → place ≤ s.length →
    (⟨s, position⟩ : Cursor).act fs (.seek goal) = (.position place, ⟨s, place⟩)
  /-- Otherwise it says that it was asked for something impossible, and stays. -/
  refuse : ∀ goal, (⟨s, position⟩ : Cursor).meant goal < 0 ∨
      s.length < (⟨s, position⟩ : Cursor).meant goal →
    ∃ cause : IoError, cause.kind = .invalidInput ∧
      (⟨s, position⟩ : Cursor).act fs (.seek goal) = (.failed cause, ⟨s, position⟩)
  /-- A read gives everything up to the end of the stream and moves the cursor past it. If a
  segment does not deliver its piece, the cursor stays, although the segments before have delivered
  theirs. -/
  read : ∀ count,
    (∃ bytes, bytes.length = min count (s.length - position) ∧
      (⟨s, position⟩ : Cursor).act fs (.readSegments count) =
        (.bytes bytes, ⟨s, position + bytes.length⟩) ∧
      (⟨s, position⟩ : Cursor).act fs (.read count) =
        (.bytes bytes, ⟨s, position + bytes.length⟩)) ∨
    ∃ before t cause e,
      VirtualStream.FailsFirst s.segments.toList fs position (position + count) before t cause ∧
      e = ReadError.ofSource before.length t (max position t.extent.start - t.extent.start) cause ∧
      (⟨s, position⟩ : Cursor).act fs (.readSegments count) = (.readFailed e, ⟨s, position⟩) ∧
      (⟨s, position⟩ : Cursor).act fs (.read count) = (.failed e.toIoError, ⟨s, position⟩)
  /-- Reading to the end gives everything up to there and moves the cursor there, whatever the sizes
  of the buffers are. If one of its reads fails, it gives what it has read before and moves the
  cursor past that and no further. -/
  readToEnd : ∀ buffers,
    (∃ bytes, bytes.length = s.length - position ∧
      (⟨s, position⟩ : Cursor).act fs (.readToEnd buffers) =
        (.bytes bytes, ⟨s, position + bytes.length⟩)) ∨
    ∃ got turn before t cause e,
      VirtualStream.FailsFirst s.segments.toList fs (position + got.length)
        (position + got.length + buffers.size turn) before t cause ∧
      e = ReadError.ofSource before.length t
        (max (position + got.length) t.extent.start - t.extent.start) cause ∧
      (⟨s, position⟩ : Cursor).act fs (.readToEnd buffers) =
        (.stopped got e.toIoError, ⟨s, position + got.length⟩)

theorem responds (s : VirtualStream) (position : Nat) (fs : FileSystem) :
    Responds s position fs where
  seekTo offset := by
    split
    · next hle => rw [act, seekTo_of_le (c := ⟨s, position⟩) hle]; rfl
    · next hlt =>
      rw [act, seekTo_of_lt (c := ⟨s, position⟩) (Nat.lt_of_not_le hlt)]
      rfl
  seek goal place hmeant hle := by
    rw [act, seekable_seek, seek_of_within hmeant hle]
    rfl
  refuse goal hbeyond := by
    obtain ⟨cause, hseek⟩ := seek_of_beyond hbeyond
    refine ⟨cause.toIoError, rfl, ?_⟩
    rw [act, seekable_seek, hseek]
    rfl
  read count := by
    cases hread : s.readAt fs position count with
    | ok bytes =>
      refine .inl ⟨bytes, ?_, ?_, ?_⟩
      · rw [VirtualStream.length_of_readAt_eq_ok hread]
        omega
      · rw [act, read_of_readAt_ok (c := ⟨s, position⟩) hread]
        rfl
      · rw [act, seekable_read_of_readAt_ok (c := ⟨s, position⟩) hread]
        rfl
    | error e =>
      obtain ⟨before, t, cause, hfails, he⟩ := VirtualStream.readAt_eq_error_iff.mp hread
      refine .inr ⟨before, t, cause, e, hfails, he, ?_, ?_⟩
      · rw [act, read_of_readAt_error (c := ⟨s, position⟩) hread]
        rfl
      · rw [act, seekable_read_of_readAt_error (c := ⟨s, position⟩) hread]
        rfl
  readToEnd buffers := by
    obtain ⟨bytes, hlength, heq⟩ | ⟨got, turn, e, hread, heq⟩ :=
      readToEnd_cases ⟨s, position⟩ fs buffers
    · refine .inl ⟨bytes, hlength, ?_⟩
      rw [act, heq]
      rfl
    · obtain ⟨before, t, cause, hfails, he⟩ := VirtualStream.readAt_eq_error_iff.mp hread
      refine .inr ⟨got, turn, before, t, cause, e, hfails, he, ?_⟩
      rw [act, heq]
      rfl

end Cursor

/-! ### Runs -/

namespace Cursors

variable {cursors next : Cursors} {c : Cursor} {fs : FileSystem} {action : CursorAction}
variable {answer : CursorAnswer} {number other : Nat}

theorem act_of_getElem? (hc : cursors[number]? = some c) (fs : FileSystem)
    (action : CursorAction) : cursors.act fs number action =
    some ((c.act fs action).1, cursors.set number (c.act fs action).2) := by
  rw [act, hc]
  rfl

/-- An action of one cursor leaves the others as they are. -/
theorem getElem?_of_act (hne : other ≠ number)
    (h : cursors.act fs other action = some (answer, next)) : next[number]? = cursors[number]? := by
  obtain ⟨c, -, heq⟩ := Option.map_eq_some_iff.mp h
  cases heq
  exact List.getElem?_set_ne hne

/-- What every action of a cursor keeps, a run of many cursors keeps of each of them. -/
theorem run_keeps {P : Cursor → Prop}
    (hact : ∀ c fs action, P c → P (Cursor.act c fs action).2) (requests : List CursorRequest)
    (hc : cursors[number]? = some c) (h : P c) :
    ∃ last, (cursors.run requests).2[number]? = some last ∧ P last := by
  induction requests generalizing cursors c with
  | nil => exact ⟨c, hc, h⟩
  | cons request rest ih =>
    simp only [run]
    by_cases hnumber : request.number = number
    · subst hnumber
      rw [act_of_getElem? hc]
      refine ih ?_ (hact c request.files request.action h)
      exact List.getElem?_set_self (List.getElem?_eq_some_iff.mp hc).1
    · cases hother : cursors.act request.files request.number request.action with
      | none => exact ih hc h
      | some outcome => exact ih ((getElem?_of_act hnumber hother).trans hc) h

/-- Cursors are opened on streams, over any sources, and are asked anything in any order, while the
files change as they like. Then every cursor stands in its stream, somewhere from the start to the
end, and this is what it does next. -/
theorem run_within_responds (streams : List VirtualStream) (requests : List CursorRequest)
    {number : Nat} {s : VirtualStream} (h : streams[number]? = some s) :
    ∃ position, (run (streams.map .ofStream) requests).2[number]? = some ⟨s, position⟩ ∧
      position ≤ s.length ∧ ∀ fs, Cursor.Responds s position fs := by
  have hc : (streams.map Cursor.ofStream)[number]? = some (.ofStream s) := by
    rw [List.getElem?_map, h]
    rfl
  obtain ⟨last, hlast, ⟨position, hle⟩⟩ :=
    run_keeps (fun _ fs action hc => hc.act fs action) requests hc (Cursor.within_ofStream s)
  exact ⟨position, hlast, hle, Cursor.responds s position⟩

/-- Five bytes of memory, and after them a source that announces four bytes and holds one. -/
def fiveThenShort : VirtualStream :=
  ⟨#[⟨.ofBytes [1, 2, 3, 4, 5], ⟨0, 5, by decide⟩, .memory⟩,
      ⟨Partial.source ⟨[6], 4, none, none⟩, ⟨5, 4, by decide⟩, .other⟩], 9,
    .cons rfl (by decide) (by decide) (.cons rfl (by decide) (by decide) (.nil _))⟩

/-- A read of the last byte of memory and of two bytes after it fails at the second segment. -/
theorem failsFirst_fiveThenShort : ∃ before t, VirtualStream.FailsFirst
    fiveThenShort.segments.toList .initial 4 7 before t Source.endedEarly := by
  refine ⟨[_], _, ⟨[], rfl⟩, List.forall_mem_singleton.mpr ⟨[5], ?_⟩, ?_⟩
  · exact (Source.delivers_ofBytes _).readExactAt_eq_ok (by decide)
  · refine (Source.delivers_partial rfl ?_).readExactAt_eq_error (by decide) (by decide)
    simp

/-- A cursor that was moved to the last byte of memory, and then refused to move beyond the end,
stays there when a read fails that has got this byte. If it is read to the end byte by byte, it
stops after the only byte that the source behind holds. -/
theorem run_within_responds_fiveThenShort : ∃ e got cause,
    (run [.ofStream fiveThenShort] [⟨0, .seek (.start 4), .initial⟩,
      ⟨0, .seek (.stop 1), .initial⟩]).2[0]? = some ⟨fiveThenShort, 4⟩ ∧
    (⟨fiveThenShort, 4⟩ : Cursor).act .initial (.readSegments 3) =
      (.readFailed e, ⟨fiveThenShort, 4⟩) ∧
    (⟨fiveThenShort, 4⟩ : Cursor).act .initial (.readToEnd (.even 1 (by decide))) =
      (.stopped got cause, ⟨fiveThenShort, 6⟩) := by
  have hopened : [fiveThenShort][0]? = some fiveThenShort := rfl
  obtain ⟨position, hrun, -, hresponds⟩ := run_within_responds [fiveThenShort]
    [⟨0, .seek (.start 4), .initial⟩, ⟨0, .seek (.stop 1), .initial⟩] hopened
  obtain rfl : position = 4 := by
    cases hrun
    rfl
  have hread : ∃ e, (⟨fiveThenShort, 4⟩ : Cursor).act .initial (.readSegments 3) =
      (.readFailed e, ⟨fiveThenShort, 4⟩) := by
    obtain ⟨before, t, hfails⟩ := failsFirst_fiveThenShort
    obtain ⟨e, herror⟩ : ∃ e, fiveThenShort.readAt .initial 4 3 = .error e :=
      ⟨_, VirtualStream.readAt_eq_error_iff.mpr ⟨before, t, _, hfails, rfl⟩⟩
    obtain ⟨bytes, -, hact, -⟩ | ⟨_, _, _, e, -, -, hact, -⟩ := (hresponds .initial).read 3
    · rw [Cursor.act, Cursor.read_of_readAt_error (c := ⟨fiveThenShort, 4⟩) herror] at hact
      cases hact
    · exact ⟨e, hact⟩
  have hplace : ((⟨fiveThenShort, 4⟩ : Cursor).act .initial
      (.readToEnd (.even 1 (by decide)))).2.position = 6 := by decide +kernel
  obtain ⟨e, hread⟩ := hread
  obtain ⟨bytes, hlength, hact⟩ | ⟨got, _, _, _, _, cause, -, -, hact⟩ :=
    (hresponds .initial).readToEnd (.even 1 (by decide))
  · -- the stream ends at the address 9
    rw [hact, hlength] at hplace
    cases hplace
  · rw [hact] at hplace
    refine ⟨e, got, cause.toIoError, hrun, hread, ?_⟩
    rw [hact, ← hplace]

end Cursors

end VirtualFiles
