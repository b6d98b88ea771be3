import VirtualFiles.Dump
import VirtualFiles.Proofs.FileSystem.Writing
import VirtualFiles.Proofs.VirtualStream.Reading

/-!
# Copying a stream piece by piece

A dump reads its stream while it writes the target, so what it reads may depend on what it has
written. A piece is read when the target shows some first part of what was written before, and
none of it as long as the buffer holds all of that. Nothing more is assumed of the sources here:
they may read the target, and they may fail.

Pieces do not cross the ends of segments, and all of them are full but for the last one of a
segment. So the reports of a dump follow from how far it got.

## Main definitions

* `Dump.Visible` — the file systems that sources may see after some bytes were written
* `Dump.Copies`, `Dump.CopiesAll` — pieces read from one segment, and segments read as a whole
* `Dump.advances`, `Dump.segmentEvents` — the reports about a segment
* `Dump.SegmentEnd`, `Dump.TableEnd`, `Dump.End` — how copying a segment, all segments and a
  dump can end

## Main results

* `readAt_within` — a piece is read from the source of one segment
* `copyUpTo_end`, `copySegments_end`, `dump_end` — copying ends in one of these ways
-/

namespace VirtualFiles

namespace VirtualStream

variable {s : VirtualStream} {before after : List Segment} {t : Segment}
variable {offset count : Nat}

/-- A read that stays within a segment is a read of its source. -/
theorem readAt_within (fs : FileSystem) (htable : s.segments.toList = before ++ t :: after)
    (hle : t.extent.start ≤ offset) (hpos : 0 < count) (hend : offset + count ≤ t.extent.stop) :
    s.readAt fs offset count = (t.source.readExactAt fs (offset - t.extent.start) count).mapError
      (ReadError.ofSource before.length t (offset - t.extent.start)) := by
  have hwanted : min (t.extent.length - (offset - t.extent.start)) count = count := by
    rw [Extent.stop] at hend
    omega
  rw [readAt_eq_readFrom htable hle (by omega) hpos, readFrom, hwanted]
  cases t.source.readExactAt fs (offset - t.extent.start) count with
  | error e => rfl
  | ok bytes => simp only [if_true, Except.mapError]

end VirtualStream

namespace Dump

open BufferedWriter FileSystem

variable {s : VirtualStream} {base fs : FileSystem} {target : NodeId} {old : Node} {path : Path}
variable {t : Segment} {before after bytes piece : Bytes} {events : List DumpEvent} {d : Dump}

/-! ### What sources see -/

/-- The sources see `fs` after `before` was written: a first part of it is in the target, and
nothing if it is less than the buffer holds. -/
inductive Visible (base : FileSystem) (target : NodeId) (before : Bytes) : FileSystem → Prop
  | intro (flushed : Bytes) (isPrefix : flushed <+: before)
    (early : before.length < capacity → flushed = []) :
    Visible base target before (base.withContent target flushed)

theorem visible_of_holds {w : BufferedWriter} (h : Holds base target before fs w) :
    Visible base target before fs := by
  obtain ⟨flushed, pending, rfl, early⟩ := h
  exact .intro flushed (List.prefix_append _ _) early

/-- Pieces of the segment, each read when those before it had been written, make `after` out of
`before`. -/
inductive Copies (base : FileSystem) (target : NodeId) (t : Segment) : Bytes → Bytes → Prop
  | nothing (before : Bytes) : Copies base target t before before
  | piece {before piece after : Bytes} {fs : FileSystem} (lt : before.length < t.extent.stop)
    (visible : Visible base target before fs)
    (read : t.source.readExactAt fs (before.length - t.extent.start)
      (min (t.extent.stop - before.length) chunkSize) = .ok piece)
    (later : Copies base target t (before ++ piece) after) :
    Copies base target t before after

/-- Whole segments, one after the other, make `after` out of `before`. -/
inductive CopiesAll (base : FileSystem) (target : NodeId) : List Segment → Bytes → Bytes → Prop
  | nil (before : Bytes) : CopiesAll base target [] before before
  | cons {t : Segment} {rest : List Segment} {before middle after : Bytes}
    (copies : Copies base target t before middle) (length_eq : middle.length = t.extent.stop)
    (later : CopiesAll base target rest middle after) :
    CopiesAll base target (t :: rest) before after

/-- The next piece of the segment cannot be read. -/
def Fails (base : FileSystem) (target : NodeId) (t : Segment) (before : Bytes) (cause : IoError) :
    Prop :=
  before.length < t.extent.stop ∧ ∃ fs, Visible base target before fs ∧
    t.source.readExactAt fs (before.length - t.extent.start)
      (min (t.extent.stop - before.length) chunkSize) = .error cause

/-! ### Reports -/

/-- The reports about `count` bytes that are written in pieces. -/
def advances (count : Nat) : List DumpEvent :=
  List.replicate (count / chunkSize) (.advanced chunkSize) ++
    if count % chunkSize = 0 then [] else [.advanced (count % chunkSize)]

/-- The reports about a segment that is written as a whole. -/
def segmentEvents (t : Segment) : List DumpEvent :=
  .segment t.extent t.kind :: advances t.extent.length

@[simp] theorem advances_zero : advances 0 = [] := rfl

theorem advances_of_le {count : Nat} (hle : chunkSize ≤ count) :
    advances count = .advanced chunkSize :: advances (count - chunkSize) := by
  have hdiv : count / chunkSize = (count - chunkSize) / chunkSize + 1 :=
    Nat.div_eq_sub_div (by decide) hle
  have hmod : count % chunkSize = (count - chunkSize) % chunkSize := Nat.mod_eq_sub_mod hle
  rw [advances, hdiv, hmod, List.replicate_succ, List.cons_append, advances]

theorem advances_of_lt {count : Nat} (hpos : 0 < count) (hlt : count < chunkSize) :
    advances count = [.advanced count] := by
  rw [advances, Nat.div_eq_of_lt hlt, Nat.mod_eq_of_lt hlt, if_neg (by omega)]
  rfl

/-! ### Dumps in progress -/

/-- The dump has written `before` and made these reports. -/
structure At (base : FileSystem) (target : NodeId) (before : Bytes) (events : List DumpEvent)
    (d : Dump) : Prop where
  holds : Holds base target before d.files d.writer
  written_eq : d.written = before.length
  events_eq : d.events = events

theorem At.report (h : At base target before events d) (event : DumpEvent) :
    At base target before (events ++ [event]) (d.report event) :=
  ⟨h.holds, h.written_eq, by rw [Dump.report, h.events_eq]⟩

/-- Writing a piece succeeds. -/
theorem At.writePiece (h : At base target before events d) (htarget : base.node? target = some old)
    (path : Path) (piece : Bytes) : ∃ next, d.writePiece path piece = (.ok (), next) ∧
      At base target (before ++ piece) (events ++ [.advanced piece.length]) next := by
  obtain ⟨files, writer, hwrite, hholds⟩ := h.holds.write htarget piece
  refine ⟨⟨files, writer, d.written + piece.length, d.events ++ [.advanced piece.length]⟩, ?_,
    hholds, ?_, ?_⟩
  · simp only [Dump.writePiece, hwrite]
    rfl
  · rw [List.length_append, ← h.written_eq]
  · rw [← h.events_eq]

/-- How copying a segment ends. Whether it ends well depends on the reads; `index` is the place
of the segment in the table. -/
inductive SegmentEnd (base : FileSystem) (target : NodeId) (index : Nat) (t : Segment)
    (before : Bytes) (events : List DumpEvent) : Except DumpError Unit × Dump → Prop
  | whole {after : Bytes} {d : Dump} (copies : Copies base target t before after)
    (length_eq : after.length = t.extent.stop)
    (dumped : At base target after
      (events ++ advances (t.extent.stop - before.length)) d) :
    SegmentEnd base target index t before events (.ok (), d)
  | failed {after : Bytes} {cause : IoError} {k : Nat} {d : Dump}
    (copies : Copies base target t before after) (fails : Fails base target t after cause)
    (length_eq : after.length = before.length + k * chunkSize)
    (dumped : At base target after (events ++ List.replicate k (.advanced chunkSize)) d) :
    SegmentEnd base target index t before events
      (.error (.read after.length (.ofSource index t (after.length - t.extent.start) cause)), d)

/-- A piece that was read and written goes before the rest of the segment. -/
theorem SegmentEnd.cons {index : Nat} {result : Except DumpError Unit × Dump}
    (lt : before.length < t.extent.stop) (visible : Visible base target before fs)
    (read : t.source.readExactAt fs (before.length - t.extent.start)
      (min (t.extent.stop - before.length) chunkSize) = .ok piece)
    (h : SegmentEnd base target index t (before ++ piece)
      (events ++ [.advanced piece.length]) result) :
    SegmentEnd base target index t before events result := by
  have hpiece : piece.length = min (t.extent.stop - before.length) chunkSize :=
    Source.length_of_readExactAt read
  cases h with
  | whole copies length_eq dumped =>
    refine .whole (.piece lt visible read copies) length_eq ?_
    rw [List.append_assoc, List.singleton_append] at dumped
    by_cases hfull : chunkSize ≤ t.extent.stop - before.length
    · rw [advances_of_le hfull]
      rw [List.length_append, hpiece, Nat.min_eq_right hfull, Nat.sub_add_eq] at dumped
      exact dumped
    · -- the last piece, which leaves nothing to read
      rw [advances_of_lt (by omega) (by omega)]
      rw [List.length_append, hpiece, Nat.min_eq_left (by omega),
        Nat.add_sub_cancel' (Nat.le_of_lt lt), Nat.sub_self, advances_zero] at dumped
      exact dumped
  | @failed after cause k d copies fails length_eq dumped =>
    -- something is left to read after the piece, so it is a full one
    have hlt := fails.1
    rw [List.length_append] at length_eq
    have hfull : piece.length = chunkSize := by omega
    refine .failed (.piece lt visible read copies) fails (k := k + 1) ?_ ?_
    · rw [length_eq, hfull, Nat.add_mul, Nat.one_mul]
      omega
    · rw [List.append_assoc, List.singleton_append, hfull] at dumped
      exact dumped

/-- Copying the rest of a segment, piece by piece. -/
theorem copyUpTo_end (path : Path) {earlier later : List Segment}
    (htable : s.segments.toList = earlier ++ t :: later) (htarget : base.node? target = some old)
    (hle : t.extent.start ≤ before.length) (hstop : before.length ≤ t.extent.stop)
    (h : At base target before events d) :
    SegmentEnd base target earlier.length t before events
      (copyUpTo s path t.extent.stop before.length d) := by
  -- the induction is on what is left of the segment
  induction hleft : t.extent.stop - before.length using Nat.strongRecOn
    generalizing before events d with
  | ind left ih =>
    by_cases hlt : before.length < t.extent.stop
    · have hvisible := visible_of_holds h.holds
      have hsize : 0 < chunkSize := by decide
      rw [copyUpTo, if_pos hlt, s.readAt_within d.files htable hle (by omega) (by omega)]
      cases hexact : t.source.readExactAt d.files (before.length - t.extent.start)
          (min (t.extent.stop - before.length) chunkSize) with
      | error cause =>
        refine .failed (k := 0) (.nothing before) ⟨hlt, d.files, hvisible, hexact⟩ (by simp) ?_
        rw [List.replicate_zero, List.append_nil]
        exact h
      | ok piece =>
        have hpiece := Source.length_of_readExactAt hexact
        obtain ⟨next, hwrite, hnext⟩ := h.writePiece htarget path piece
        cases piece with
        | nil =>
          rw [List.length_nil] at hpiece
          omega
        | cons b bs =>
          simp only [Except.mapError, hwrite]
          rw [← List.length_append]
          refine .cons hlt hvisible hexact (ih _ ?_ ?_ ?_ hnext rfl)
          · rw [List.length_append, hpiece]
            omega
          · rw [List.length_append]
            omega
          · rw [List.length_append, hpiece]
            omega
    · have hend : before.length = t.extent.stop := by omega
      rw [copyUpTo, if_neg hlt]
      refine .whole (.nothing before) hend ?_
      rw [hend, Nat.sub_self, advances_zero, List.append_nil]
      exact h

/-! ### All segments -/

variable {segments : List Segment} {start stop : Nat}

/-- How copying the segments of a table ends; `index` counts those before them. -/
inductive TableEnd (base : FileSystem) (target : NodeId) (index : Nat) (segments : List Segment)
    (before : Bytes) (events : List DumpEvent) : Except DumpError Unit × Dump → Prop
  | whole {after : Bytes} {d : Dump} (copies : CopiesAll base target segments before after)
    (dumped : At base target after (events ++ segments.flatMap segmentEvents) d) :
    TableEnd base target index segments before events (.ok (), d)
  | failed {earlier later : List Segment} {t : Segment} {middle after : Bytes} {cause : IoError}
    {k : Nat} {d : Dump} (split : segments = earlier ++ t :: later)
    (whole : CopiesAll base target earlier before middle)
    (copies : Copies base target t middle after) (fails : Fails base target t after cause)
    (length_eq : after.length = middle.length + k * chunkSize)
    (dumped : At base target after (events ++ (earlier.flatMap segmentEvents ++
      .segment t.extent t.kind :: List.replicate k (.advanced chunkSize))) d) :
    TableEnd base target index segments before events
      (.error (.read after.length
        (.ofSource (index + earlier.length) t (after.length - t.extent.start) cause)), d)

/-- A segment that was copied goes before the others. -/
theorem TableEnd.cons {index : Nat} {rest : List Segment} {middle : Bytes}
    {result : Except DumpError Unit × Dump} (copies : Copies base target t before middle)
    (length_eq : middle.length = t.extent.stop)
    (h : TableEnd base target (index + 1) rest middle (events ++ segmentEvents t) result) :
    TableEnd base target index (t :: rest) before events result := by
  cases h with
  | whole copiesAll dumped =>
    refine .whole (.cons copies length_eq copiesAll) ?_
    rw [List.append_assoc] at dumped
    exact dumped
  | @failed earlier later t' middle' after cause k d split whole copies' fails length_eq' dumped =>
    have hindex : index + 1 + earlier.length = index + (t :: earlier).length := by
      rw [List.length_cons]
      omega
    rw [hindex]
    refine .failed (congrArg (t :: ·) split) (.cons copies length_eq whole) copies' fails
      length_eq' ?_
    rw [List.append_assoc, ← List.append_assoc (segmentEvents t)] at dumped
    exact dumped

/-- Copying the segments of a table from one of them on. -/
theorem copySegments_end (path : Path) {earlier : List Segment}
    (htable : s.segments.toList = earlier ++ segments)
    (htiles : Tiles before.length segments stop) (htarget : base.node? target = some old)
    (h : At base target before events d) :
    TableEnd base target earlier.length segments before events
      (copySegments s path segments d) := by
  -- the segments before these only say where in the table these are
  induction segments generalizing earlier before events d with
  | nil =>
    refine .whole (.nil before) ?_
    rw [List.flatMap_nil, List.append_nil]
    exact h
  | cons t rest ih =>
    cases htiles with
    | cons starts nonempty covered follows =>
      have hsegment := copyUpTo_end path htable htarget (Nat.le_of_eq starts)
        (by rw [Extent.stop]; omega) (h.report (.segment t.extent t.kind))
      have hstop : t.extent.stop - before.length = t.extent.length := by
        rw [Extent.stop]
        omega
      rw [copySegments, starts]
      generalize copyUpTo s path t.extent.stop before.length _ = result at hsegment ⊢
      cases hsegment with
      | whole copies length_eq dumped =>
        refine .cons copies length_eq ?_
        rw [hstop, List.append_assoc, List.singleton_append] at dumped
        have htable' : s.segments.toList = (earlier ++ [t]) ++ rest := by
          rw [htable, List.append_assoc, List.singleton_append]
        have hnext := ih htable' (length_eq ▸ follows) dumped
        rw [List.length_append, List.length_singleton] at hnext
        exact hnext
      | failed copies fails length_eq dumped =>
        have split : t :: rest = [] ++ t :: rest := rfl
        refine .failed split (.nil before) copies fails length_eq ?_
        rw [List.append_assoc] at dumped
        exact dumped

/-! ### Dumps -/

/-- How a dump ends whose target was opened. -/
inductive End (base : FileSystem) (target : NodeId) (s : VirtualStream) (path : Path) :
    Outcome → Prop
  | whole {after : Bytes} (copies : CopiesAll base target s.segments.toList [] after) :
    End base target s path ⟨.ok after.length, base.withContent target after,
      .started path s.length ::
        (s.segments.toList.flatMap segmentEvents ++ [.completed after.length])⟩
  | failed {earlier later : List Segment} {t : Segment} {middle after : Bytes} {cause : IoError}
    {k : Nat} (split : s.segments.toList = earlier ++ t :: later)
    (whole : CopiesAll base target earlier [] middle)
    (copies : Copies base target t middle after) (fails : Fails base target t after cause)
    (length_eq : after.length = middle.length + k * chunkSize) :
    End base target s path
      ⟨.error (.read after.length
          (.ofSource earlier.length t (after.length - t.extent.start) cause)),
        base.withContent target after,
        .started path s.length :: (earlier.flatMap segmentEvents ++
          .segment t.extent t.kind :: List.replicate k (.advanced chunkSize))⟩

/-- A dump whose target could be opened ends in one of these ways. -/
theorem dump_end {grown opened : FileSystem} (hprepare : Dump.prepare fs path = (.ok (), grown))
    (hcreate : grown.create path = .ok (target, opened))
    (hempty : opened.node? target = some (.regular [])) :
    End opened target s path (s.dump fs path) := by
  -- an empty file is the file with what an idle writer was given
  have hstart : At opened target [] [] { files := opened, writer := ⟨target, []⟩ } := by
    refine ⟨?_, rfl, rfl⟩
    have hholds : Holds opened target [] (opened.withContent target []) ⟨target, []⟩ := .start
    rw [withContent, replace_self hempty] at hholds
    exact hholds
  have htiles : Tiles ([] : Bytes).length s.segments.toList s.length := s.tiles
  have htable := copySegments_end path (List.nil_append s.segments.toList).symm htiles hempty
    (hstart.report (.started path s.length))
  simp only [VirtualStream.dump, hprepare, hcreate, copyAll]
  generalize copySegments s path s.segments.toList _ = result at htable ⊢
  cases htable with
  | @whole after d copies dumped =>
    simp only [dumped.holds.flush hempty, Dump.after, Dump.report, dumped.events_eq,
      dumped.written_eq, close_of_nothing]
    exact .whole copies
  | @failed earlier later t middle after cause k d split whole copies fails length_eq dumped =>
    simp only [dumped.holds.close hempty, dumped.events_eq, List.length_nil, Nat.zero_add]
    exact .failed split whole copies fails length_eq

end Dump

end VirtualFiles
