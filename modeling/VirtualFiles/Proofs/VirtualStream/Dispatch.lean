import VirtualFiles.Proofs.Source.Checked
import VirtualFiles.Proofs.Source.Delivery
import VirtualFiles.Proofs.VirtualStream.Pieces

/-!
# Reading a stream with checked steps

A read of a stream goes from segment to segment by an index into the table, and fills a buffer. Here
it is written with steps that say what goes wrong in them: the index may miss the table, a part of
the buffer may not exist, the address may lie before the segment or the rest of the segment may be
less than nothing, and sums may leave the words. Nothing of this happens, because in every turn the
index is the one of the segment that holds the address; and as every turn but the last one ends
where its segment does, there are no more turns than segments.

This depends on the table only. The sources may announce what they do not hold, and fail as they
like. They may also be streams, that are read in the same way.

## Main definitions

* `VirtualStream.step`, `VirtualStream.run`, `VirtualStream.readChecked` — a read, with its requests
* `VirtualStream.Visits` — requests to successive segments
* `Performs` — a program that reads a source, with checked steps where it is a stream

## Main results

* `Stands.step_eq`, `Stands.next`, `Stands.run_eq` — one turn, and all turns
* `readChecked_eq` — a read has no fault, and does not take too many turns
-/

namespace VirtualFiles

open Outcome

/-- A request for `count` bytes at `offset` in the source of a segment. -/
structure Dispatch where
  index : Nat
  offset : Nat
  count : Nat
  deriving DecidableEq, Repr

/-- How far a read is: the address that comes next, the index of its segment and the bytes that are
in the buffer. -/
structure Progress where
  index : Nat
  position : Nat
  copied : Bytes

/-- A turn of a read ends the read, or another one follows. -/
inductive Turn
  | done (result : Except ReadError Bytes)
  | next (progress : Progress)

namespace VirtualStream

open Checked

variable {s : VirtualStream} {fs : FileSystem} {asks : Nat → Ask} {size turns : Nat}
variable {p : Progress} {t : Segment} {before after : List Segment} {log : List Dispatch}

/-- One turn of a read into a buffer of `size` bytes: the segment is asked for its piece. `asks`
are the programs that read the sources of the segments. -/
def step (s : VirtualStream) (asks : Nat → Ask) (size : Nat) (p : Progress) :
    Except Fault (Dispatch × Turn) := do
  let t ← entry s.segments p.index
  let offset ← sub p.position t.extent.start
  let rest ← sub t.extent.length offset
  let room ← sub size p.copied.length
  -- a turn ends with its segment or with the buffer
  let filled ← add p.copied.length (min rest room)
  let wanted ← slice size p.copied.length filled
  match ← exactly (asks p.index) offset wanted wanted [] with
  | .error e => .ok (⟨p.index, offset, wanted⟩, .done (.error (.ofSource p.index t offset e)))
  | .ok piece => do
    let position ← add p.position wanted
    if filled = size ∨ s.length ≤ position then
      .ok (⟨p.index, offset, wanted⟩, .done (.ok (p.copied ++ piece)))
    else do
      -- the index is a word like any other
      let index ← add p.index 1
      .ok (⟨p.index, offset, wanted⟩, .next ⟨index, position, p.copied ++ piece⟩)

/-- All turns of a read, and the requests that it makes. -/
def run (s : VirtualStream) (asks : Nat → Ask) (size : Nat) : (turns : Nat) → Progress →
    Except Fault (List Dispatch × Except ReadError Bytes)
  | 0, _ => .error .unfinished
  | turns + 1, p => do
    match ← s.step asks size p with
    | (d, .done result) => .ok ([d], result)
    | (d, .next q) =>
      let (log, result) ← s.run asks size turns q
      .ok (d :: log, result)

/-- A read of at most `size` bytes from the address `offset` on. A turn is allowed for every segment
from the one on that holds the address. -/
def readChecked (s : VirtualStream) (asks : Nat → Ask) (offset size : Nat) :
    Except Fault (List Dispatch × Except ReadError Bytes) :=
  match s.segmentIndex? offset with
  | none => .ok ([], .ok [])
  | some index =>
    if size = 0 then .ok ([], .ok [])
    else s.run asks size (s.segments.size - index) ⟨index, offset, []⟩

/-- The requests go to one segment after the other, from the one at `index` on. Each wants at least
one byte of its segment, and no byte outside of its extent. -/
inductive Visits (s : VirtualStream) : (index : Nat) → List Dispatch → Prop
  | nil (index : Nat) : Visits s index []
  | cons {index offset count : Nat} {t : Segment} {log : List Dispatch}
    (segment : s.segments[index]? = some t) (nonempty : 0 < count)
    (inside : offset + count ≤ t.extent.length) (rest : Visits s (index + 1) log) :
    Visits s index (⟨index, offset, count⟩ :: log)

/-- The programs read the sources of the segments. -/
def AllAnswer (s : VirtualStream) (fs : FileSystem) (asks : Nat → Ask) : Prop :=
  ∀ {index : Nat} {t : Segment}, s.segments[index]? = some t → t.source.Answers fs (asks index)

/-! ### One turn -/

/-- The read is at the segment `t`, which holds the address that comes next, and there is room in
the buffer. -/
structure Stands (s : VirtualStream) (size : Nat) (p : Progress) (before : List Segment)
    (t : Segment) (after : List Segment) : Prop where
  table : s.segments.toList = before ++ t :: after
  index : p.index = before.length
  le : t.extent.start ≤ p.position
  lt : p.position < t.extent.stop
  room : p.copied.length < size

/-- How much of the segment a turn wants. -/
def wanted (size : Nat) (p : Progress) (t : Segment) : Nat :=
  min (t.extent.length - (p.position - t.extent.start)) (size - p.copied.length)

namespace Stands

theorem segment (h : Stands s size p before t after) : s.segments[p.index]? = some t := by
  rw [← Array.getElem?_toList, h.table, h.index, List.getElem?_append_right (Nat.le_refl _),
    Nat.sub_self, List.getElem?_cons_zero]

theorem wanted_pos (h : Stands s size p before t after) : 0 < wanted size p t := by
  have hle := h.le
  have hlt := h.lt
  have hroom := h.room
  simp only [wanted, Extent.stop] at *
  omega

/-- The piece wanted lies in the extent of the segment. -/
theorem wanted_inside (h : Stands s size p before t after) :
    p.position - t.extent.start + wanted size p t ≤ t.extent.length := by
  have hle := h.le
  have hlt := h.lt
  simp only [wanted, Extent.stop] at *
  omega

/-- No segment is empty, so there is an address before the segment for every one before it. -/
theorem index_le (h : Stands s size p before t after) : p.index ≤ t.extent.start := by
  have hbefore := (tiles_of_table h.table).1.length_le
  have hindex := h.index
  omega

/-- A turn has no fault. The read ends with it if the segment does not deliver its piece, if the
buffer is full or if the stream ends. -/
theorem step_eq (h : Stands s size p before t after) (hasks : s.AllAnswer fs asks)
    (hsize : size < addressSpace) : s.step asks size p =
      .ok (⟨p.index, p.position - t.extent.start, wanted size p t⟩,
        match t.source.readExactAt fs (p.position - t.extent.start) (wanted size p t) with
        | .error e => .done (.error (.ofSource p.index t (p.position - t.extent.start) e))
        | .ok piece =>
          if p.copied.length + wanted size p t = size ∨
              s.length ≤ p.position + wanted size p t then .done (.ok (p.copied ++ piece))
          else .next ⟨p.index + 1, p.position + wanted size p t, p.copied ++ piece⟩) := by
  have hle := h.le
  have hlt := h.lt
  have hroom := h.room
  have hinside := h.wanted_inside
  have hindex := h.index_le
  have hspace := t.extent.stop_lt
  have hfits : p.copied.length + wanted size p t ≤ size := by
    simp only [wanted]
    omega
  simp only [Extent.stop] at hlt
  -- no check fails: the address lies in the segment, and what is wanted fits in the buffer
  rw [step, entry_eq_ok h.segment, ok_bind, sub_eq_ok hle, ok_bind, sub_eq_ok (by omega), ok_bind,
    sub_eq_ok (Nat.le_of_lt hroom), ok_bind, ← wanted, add_eq_ok (by omega), ok_bind,
    slice_eq_ok (Nat.le_add_right _ _) hfits, ok_bind, Nat.add_sub_cancel_left,
    exactly_nil (hasks h.segment) (by omega), ok_bind]
  cases t.source.readExactAt fs (p.position - t.extent.start) (wanted size p t) with
  | error e => rfl
  | ok piece =>
    dsimp only
    rw [add_eq_ok (by omega), ok_bind]
    split
    · rfl
    · rw [add_eq_ok (by omega), ok_bind]

/-- A turn that leaves room in the buffer goes to the end of its segment. -/
theorem position_add_wanted (h : Stands s size p before t after)
    (hroom : p.copied.length + wanted size p t ≠ size) :
    p.position + wanted size p t = t.extent.stop := by
  have hle := h.le
  have hlt := h.lt
  have hleft := h.room
  simp only [wanted, Extent.stop] at *
  omega

/-- The segments after this one tile what is left of the stream. -/
theorem follows (h : Stands s size p before t after) : Tiles t.extent.stop after s.length := by
  obtain ⟨-, hrest⟩ := tiles_of_table h.table
  cases hrest with
  | cons _ _ _ follows => exact follows

/-- If the read does not end with a turn, the next one is at the segment that comes next. -/
theorem next (h : Stands s size p before t after) {piece : Bytes}
    (hpiece : piece.length = wanted size p t)
    (hroom : p.copied.length + wanted size p t ≠ size)
    (hend : p.position + wanted size p t < s.length) :
    ∃ u rest, after = u :: rest ∧ Stands s size
      ⟨p.index + 1, p.position + wanted size p t, p.copied ++ piece⟩ (before ++ [t]) u rest := by
  have hstop := h.position_add_wanted hroom
  have hleft := h.room
  have hfits : wanted size p t ≤ size - p.copied.length := Nat.min_le_right _ _
  obtain ⟨u, rest, rfl, hstart⟩ := h.follows.exists_cons (hstop ▸ hend)
  refine ⟨u, rest, rfl, ⟨?_, ?_, ?_, ?_, ?_⟩⟩
  · rw [h.table, List.append_assoc, List.singleton_append]
  · rw [h.index, List.length_append, List.length_singleton]
  · exact Nat.le_of_eq (hstart.trans hstop.symm)
  · exact hstop ▸ h.follows.lt_stop_of_mem_head? rfl
  · rw [List.length_append]
    omega

/-- All turns from here on have no fault, and compute the loop over the segments. There are as many
turns as segments left, or fewer. -/
theorem run_eq (h : Stands s size p before t after) (hasks : s.AllAnswer fs asks)
    (hsize : size < addressSpace) (hturns : after.length < turns) :
    ∃ log, s.run asks size turns p =
        .ok (log, (readFrom fs p.index (t :: after) p.position (size - p.copied.length)).map
          (p.copied ++ ·)) ∧
      s.Visits p.index log := by
  induction turns generalizing p before t after with
  | zero => omega
  | succ turns ih =>
    have hvisit : ∀ {log}, s.Visits (p.index + 1) log → s.Visits p.index
        (⟨p.index, p.position - t.extent.start, wanted size p t⟩ :: log) :=
      .cons h.segment h.wanted_pos h.wanted_inside
    have hleft := h.room
    rw [run, h.step_eq hasks hsize, ok_bind, readFrom, ← wanted]
    dsimp only
    cases hread : t.source.readExactAt fs (p.position - t.extent.start) (wanted size p t) with
    | error e => exact ⟨_, rfl, hvisit (.nil _)⟩
    | ok piece =>
      have hlength := Source.length_of_readExactAt hread
      dsimp only
      by_cases hroom : p.copied.length + wanted size p t = size
      · -- the buffer is full
        rw [if_pos (.inl hroom), if_pos (by omega)]
        exact ⟨_, rfl, hvisit (.nil _)⟩
      · rw [if_neg (by omega : wanted size p t ≠ size - p.copied.length)]
        have hstop := h.position_add_wanted hroom
        by_cases hend : s.length ≤ p.position + wanted size p t
        · -- the stream ends with this segment
          obtain rfl := h.follows.eq_nil_of_le (hstop ▸ hend)
          rw [if_pos (.inr hend), readFrom]
          refine ⟨_, ?_, hvisit (.nil _)⟩
          dsimp only [Except.map]
          rw [List.append_nil]
        · obtain ⟨u, rest, rfl, hnext⟩ := h.next hlength hroom (Nat.lt_of_not_le hend)
          obtain ⟨log, hrun, hlog⟩ := ih hnext (Nat.lt_of_succ_lt_succ hturns)
          rw [List.length_append, hlength, ← Nat.sub_sub] at hrun
          rw [if_neg (by omega)]
          dsimp only
          rw [hrun, ok_bind, map_map]
          refine ⟨_, ?_, hvisit hlog⟩
          simp only [Function.comp_def, List.append_assoc]

end Stands

/-! ### Whole reads -/

/-- There are no more requests than segments from the first one on. -/
theorem Visits.length_le {index : Nat} (h : s.Visits index log) (hindex : index ≤ s.segments.size) :
    log.length ≤ s.segments.size - index := by
  induction h with
  | nil => exact Nat.zero_le _
  | cons segment _ _ _ ih =>
    have hlt := (Array.getElem?_eq_some_iff.mp segment).1
    have hrest := ih hlt
    rw [List.length_cons]
    omega

/-- A read with checked steps has no fault, and computes the read of the stream. -/
theorem readChecked_of_allAnswer (s : VirtualStream) (fs : FileSystem) (offset : Nat)
    (hasks : s.AllAnswer fs asks) (hsize : size < addressSpace) :
    ∃ log, s.readChecked asks offset size = .ok (log, s.readAt fs offset size) ∧
      (s.segmentIndex? offset = none → log = []) ∧
      ∀ first, s.segmentIndex? offset = some first →
        first < s.segments.size ∧ s.Visits first log := by
  by_cases hin : offset < s.length
  · obtain ⟨before, t, after, htable, hle, hlt, hindex⟩ := s.exists_segmentIndex? hin
    have hcount : s.segments.size = before.length + (after.length + 1) := by
      rw [← Array.length_toList, htable, List.length_append, List.length_cons]
    simp only [readChecked, hindex, reduceCtorEq, false_implies, true_and, Option.some.injEq,
      forall_eq']
    by_cases hzero : size = 0
    · rw [if_pos hzero, readAt_eq_nil (.inr hzero)]
      exact ⟨[], rfl, by omega, .nil _⟩
    · -- the first turn is at the segment that holds the address, and finds an empty buffer
      have hstands : Stands s size ⟨before.length, offset, []⟩ before t after :=
        ⟨htable, rfl, hle, hlt, Nat.pos_of_ne_zero hzero⟩
      obtain ⟨log, hrun, hlog⟩ := hstands.run_eq hasks hsize
        (by omega : after.length < s.segments.size - before.length)
      rw [if_neg hzero, hrun, readAt_eq_readFrom htable hle hlt (Nat.pos_of_ne_zero hzero)]
      exact ⟨log, congrArg (Except.ok ∘ Prod.mk log) nil_append, by omega, hlog⟩
  · have hnone : s.segmentIndex? offset = none := if_pos (Nat.le_of_not_lt hin)
    rw [readChecked, hnone, readAt_eq_nil (.inl (Nat.le_of_not_lt hin))]
    exact ⟨[], rfl, fun _ => rfl, fun first h => by cases h⟩

end VirtualStream

/-- A program reads a source. If the source is a stream, it may be read with checked steps, and its
segments in turn by any program of this kind; of any other source it is only known what it
answers. -/
inductive Performs (fs : FileSystem) : Source → Ask → Prop
  | source (s : Source) : Performs fs s fun offset count => .ok (s.readAt fs offset count)
  | stream (s : VirtualStream) {asks : Nat → Ask}
    (segments : ∀ {index t}, s.segments[index]? = some t → Performs fs t.source (asks index)) :
    Performs fs s.toSource fun offset count =>
      (s.readChecked asks offset count).map fun answer => answer.2.mapError ReadError.toIoError

/-- However deep the streams are, there is no fault in them. -/
theorem Performs.answers {fs : FileSystem} {source : Source} {ask : Ask}
    (h : Performs fs source ask) : source.Answers fs ask := by
  induction h with
  | source s => exact fun offset count _ => rfl
  | stream s _ ih =>
    -- the programs of its segments have no fault either, which is all that its own read needs
    intro offset count hcount
    obtain ⟨log, hread, -⟩ := s.readChecked_of_allAnswer fs offset ih hcount
    dsimp only
    rw [hread]
    rfl

namespace VirtualStream

/-- A stream is read into a buffer, over sources that may announce what they do not hold, fail, or
be streams that are read in the same way. Nothing goes wrong in any step: the read comes to its
bytes or to the failure of a source. It makes requests to the segments one after the other, from the
one that holds the address on, each for at least one byte and only for bytes in the extent of its
segment, so there are no more than there are segments from there on. -/
theorem readChecked_eq (s : VirtualStream) (fs : FileSystem) (offset : Nat) {asks : Nat → Ask}
    {size : Nat}
    (hasks : ∀ {index t}, s.segments[index]? = some t → Performs fs t.source (asks index))
    (hsize : size < addressSpace) :
    ∃ log, s.readChecked asks offset size = .ok (log, s.readAt fs offset size) ∧
      (s.segmentIndex? offset = none → log = []) ∧
      ∀ first, s.segmentIndex? offset = some first → first < s.segments.size ∧
        s.Visits first log ∧ log.length ≤ s.segments.size - first := by
  obtain ⟨log, hread, hnone, hsome⟩ :=
    s.readChecked_of_allAnswer fs offset (fun h => (hasks h).answers) hsize
  refine ⟨log, hread, hnone, fun first hfirst => ?_⟩
  obtain ⟨hlt, hvisits⟩ := hsome first hfirst
  exact ⟨hlt, hvisits, hvisits.length_le (Nat.le_of_lt hlt)⟩

/-- A source that announces ten bytes and holds one, as a stream. -/
def shortStream : VirtualStream :=
  ⟨#[⟨Partial.source ⟨[7], 10, none, none⟩, ⟨0, 10, by decide⟩, .other⟩], 10,
    .cons rfl (by decide) (by decide) (.nil _)⟩

theorem readAt_shortStream (fs : FileSystem) : shortStream.readAt fs 0 10 =
    .error (.shortRead 0 .other ⟨0, 10, by decide⟩ 0) := by
  refine readAt_eq_error_iff.mpr ⟨[], _, Source.endedEarly, ⟨⟨[], rfl⟩, List.forall_mem_nil _, ?_⟩,
    rfl⟩
  refine (Source.delivers_partial rfl ?_).readExactAt_eq_error (by decide) (by decide)
  simp

theorem readExactAt_shortStream (fs : FileSystem) : shortStream.toSource.readExactAt fs 0 10 =
    .error (ReadError.shortRead 0 .other ⟨0, 10, by decide⟩ 0).toIoError := by
  rw [readExactAt_toSource (Nat.le_refl 10), readAt_shortStream]
  rfl

/-- Zeros, and after them this stream, up to the end of the address space. -/
def topmostStream : VirtualStream :=
  ⟨#[⟨(Padding.zeros (addressSpace - 11)).source, ⟨0, addressSpace - 11, by decide⟩, .padding⟩,
      ⟨shortStream.toSource, ⟨addressSpace - 11, 10, by decide⟩, .other⟩], addressSpace - 1,
    .cons rfl (by decide) (Nat.le_refl _) (.cons rfl (by decide) (Nat.le_refl _) (.nil _))⟩

theorem readAt_topmostStream (fs : FileSystem) : topmostStream.readAt fs (addressSpace - 12) 11 =
    .error (.shortRead 1 .other ⟨addressSpace - 11, 10, by decide⟩ 0) := by
  have hzeros : ∃ piece, (Padding.zeros (addressSpace - 11)).source.readExactAt fs
      (addressSpace - 12) 1 = .ok piece :=
    ⟨_, (Source.delivers_padding _).readExactAt_eq_ok (by rw [List.length_replicate]; decide)⟩
  exact readAt_eq_error_iff.mpr ⟨[_], _, _,
    ⟨⟨[], rfl⟩, List.forall_mem_singleton.mpr hzeros, readExactAt_shortStream fs⟩, rfl⟩

/-- The programs that read its segments, the second one with checked steps. -/
def topmostAsks (fs : FileSystem) (index : Nat) : Ask := fun offset count =>
  if index = 0 then .ok ((Padding.zeros (addressSpace - 11)).source.readAt fs offset count)
  else (shortStream.readChecked
    (fun _ offset count => .ok ((Partial.source ⟨[7], 10, none, none⟩).readAt fs offset count))
    offset count).map fun answer => answer.2.mapError ReadError.toIoError

/-- A read of the last eleven bytes below the end of the address space fails at the second segment,
and not in a step. -/
theorem readChecked_eq_topmostStream : ∃ log,
    topmostStream.readChecked (topmostAsks .initial) (addressSpace - 12) 11 =
      .ok (log, .error (.shortRead 1 .other ⟨addressSpace - 11, 10, by decide⟩ 0)) ∧
    topmostStream.Visits 0 log ∧ log.length ≤ 2 := by
  have hasks : ∀ {index t}, topmostStream.segments[index]? = some t →
      Performs .initial t.source (topmostAsks .initial index) := by
    intro index t h
    match index, h with
    | 0, h =>
      cases h
      exact .source _
    | 1, h =>
      cases h
      refine .stream shortStream fun {index t} h => ?_
      match index, h with
      | 0, h =>
        cases h
        exact .source _
  obtain ⟨log, hread, -, hsome⟩ := readChecked_eq topmostStream .initial (addressSpace - 12) hasks
    (by decide : 11 < addressSpace)
  have hfirst : topmostStream.segmentIndex? (addressSpace - 12) = some 0 := by
    have htable : topmostStream.segments.toList = [] ++ _ :: _ := rfl
    exact segmentIndex?_eq_some htable (Nat.zero_le _) (by decide)
  obtain ⟨-, hvisits, hlength⟩ := hsome 0 hfirst
  rw [readAt_topmostStream] at hread
  exact ⟨log, hread, hvisits, hlength⟩

end VirtualStream

end VirtualFiles
