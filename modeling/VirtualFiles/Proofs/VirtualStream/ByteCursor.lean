import Mathlib.Algebra.GroupWithZero.Nat
import Mathlib.Data.List.Basic
import VirtualFiles.Proofs.VirtualStream.Advancing

/-!
# Cursors in memory

A stream shows a byte string if its reads give the windows of the string. A cursor over such a
stream cannot be told apart from a position in the string: it accepts the positions from the start
of the string to its end, and what it reads is what the string holds from its position on. How the
stream is cut into segments is not seen.

Every cursor has a position of its own, so what a cursor answers depends on the actions asked of
this cursor and on no others.

## Main definitions

* `VirtualStream.Shows` — the reads of a stream give the windows of a string
* `ByteCursor`, `ByteCursor.act` — a position in a string, and what is done there
* `CursorAnswer.Matches` — a cursor over a stream answers as one in a string
* `Cursor.Mirrors` — a cursor over a stream stands where one in a string does

## Main results

* `shows_of_full` — a stream of sources that hold their whole extents shows the bytes of these
* `readPieces_of_shows` — reading in pieces of any sizes gives what reading at once does
* `readToEnd_of_shows` — reading to the end, whatever the sizes of the buffers are
* `Mirrors.act`, `run_mirrors` — one action, and a run of many cursors
* `cursors_answer_alone` — every cursor over a stream is a position in its bytes
-/

namespace VirtualFiles

namespace Bytes

/-- A window is the window of its first bytes, followed by the window of those after them. -/
theorem window_add {bytes : Bytes} {offset n m : Nat} :
    bytes.window offset (n + m) =
      bytes.window offset n ++ bytes.window (offset + (bytes.window offset n).length) m := by
  rw [window_split (Nat.le_add_right n m), Nat.add_sub_cancel_left]
  by_cases hin : offset + n ≤ bytes.length
  · rw [length_window_of_le hin]
  · -- nothing comes after a window that is cut by the end
    have hcut := length_window bytes offset n
    have hnothing : ∀ place, bytes.length ≤ place → bytes.window place m = [] :=
      fun _ => window_of_length_le
    rw [hnothing _ (by omega), hnothing _ (by omega)]

end Bytes

namespace Buffers

/-- The sizes of the first buffers. -/
def first (buffers : Buffers) (turns : Nat) : List Nat := (List.range turns).map buffers.size

theorem first_zero (buffers : Buffers) : buffers.first 0 = [] := rfl

theorem first_succ (buffers : Buffers) (turns : Nat) :
    buffers.first (turns + 1) = buffers.size 0 :: buffers.later.first turns := by
  rw [first, List.range_succ_eq_map, List.map_cons, List.map_map]
  rfl

end Buffers

namespace VirtualStream

variable {s : VirtualStream} {fs : FileSystem} {segments : List Segment} {held : Segment → Bytes}
variable {start stop offset count : Nat} {content : Bytes}

/-- The reads of the stream give the windows of the string, with the files as they are now. -/
structure Shows (s : VirtualStream) (fs : FileSystem) (content : Bytes) : Prop where
  length_eq : s.length = content.length
  readAt_eq : ∀ offset count, s.readAt fs offset count = .ok (content.window offset count)

/-- Segments whose sources hold enough put the first bytes of these one after the other. -/
theorem image_of_full (fill : UInt8)
    (hfull : ∀ t ∈ segments, t.extent.length ≤ (held t).length) :
    image held fill segments = segments.flatMap fun t => (held t).take t.extent.length :=
  List.flatMap_congr fun t ht => List.takeD_eq_take fill (hfull t ht)

/-- A stream of sources that hold their whole extents shows their bytes. -/
theorem shows_of_full (hs : ofSegments segments = .ok s)
    (hfull : ∀ t ∈ segments, t.source.Delivers fs (held t) ∧
      t.extent.length ≤ (held t).length) :
    s.Shows fs (segments.flatMap fun t => (held t).take t.extent.length) := by
  rw [← image_of_full 0 fun t ht => (hfull t ht).2]
  exact ⟨(length_image_of_ofSegments hs).symm, fun _ _ => readAt_of_full hs hfull⟩

end VirtualStream

/-! ### Positions in a string -/

/-- A position in a byte string. -/
structure ByteCursor where
  content : Bytes
  position : Nat
  deriving DecidableEq, Repr

/-- What is answered at a position in a string. -/
inductive ByteAnswer
  | position (offset : Nat)
  | bytes (bytes : Bytes)
  | awb (found : Bool)
  /-- There is no such position in the string. -/
  | refused
  /-- The string ended before everything asked for was read. -/
  | ended
  deriving DecidableEq, Repr

namespace ByteCursor

/-- Moves to a position from the start of the string to its end. -/
def moveTo (c : ByteCursor) (target : Int) : ByteAnswer × ByteCursor :=
  if 0 ≤ target ∧ target ≤ c.content.length then
    (.position target.toNat, { c with position := target.toNat })
  else (.refused, c)

/-- The position that is meant. It may lie outside of the string. -/
def target (c : ByteCursor) : SeekFrom → Int
  | .start offset => offset
  | .stop delta => c.content.length + delta
  | .current delta => c.position + delta

/-- Gives the bytes from the position on, and moves past them. -/
def take (c : ByteCursor) (count : Nat) : ByteAnswer × ByteCursor :=
  let bytes := c.content.window c.position count
  (.bytes bytes, { c with position := c.position + bytes.length })

/-- One action at a position in a string. -/
def act (c : ByteCursor) : CursorAction → ByteAnswer × ByteCursor
  | .seekTo offset => c.moveTo offset
  | .seek goal => c.moveTo (c.target goal)
  | .readSegments count | .read count => c.take count
  | .readExact count =>
    if c.position + count ≤ c.content.length then c.take count
    else (.ended, { c with position := c.content.length })
  | .readToEnd _ => c.take (c.content.length - c.position)
  | .drain chunk => c.take (if chunk = 0 then 0 else c.content.length - c.position)
  | .isAwb => (.awb (c.content.window c.position Awb.magic.length == Awb.magic), c)

/-- A sequence of actions, with what was answered to each. -/
def run (c : ByteCursor) : List CursorAction → List ByteAnswer × ByteCursor
  | [] => ([], c)
  | action :: rest =>
    let (answer, next) := c.act action
    let (answers, last) := next.run rest
    (answer :: answers, last)

end ByteCursor

/-- The cursor over a stream answers as the one in a string. Both refuse the same positions,
and both tell of the end. -/
inductive CursorAnswer.Matches : CursorAnswer → ByteAnswer → Prop
  | position (offset : Nat) : Matches (.position offset) (.position offset)
  | bytes (bytes : Bytes) : Matches (.bytes bytes) (.bytes bytes)
  | awb (found : Bool) : Matches (.awb found) (.awb found)
  | refused (cause : SeekError) : Matches (.seekFailed cause) .refused
  | failed (cause : SeekError) : Matches (.failed cause.toIoError) .refused
  | ended : Matches (.failed Seekable.endedEarly) .ended

namespace Cursor

variable {c next : Cursor} {b : ByteCursor} {fs : FileSystem} {content bytes : Bytes}
variable {count chunk offset : Nat} {goal : SeekFrom} {action : CursorAction} {buffers : Buffers}

/-! ### Reading -/

theorem read_of_shows (h : c.stream.Shows fs content) (count : Nat) :
    c.read fs count = (.ok (content.window c.position count),
      { c with position := c.position + (content.window c.position count).length }) := by
  rw [read, h.readAt_eq]

/-- Reads pieces of the given sizes one after the other, up to the first one that fails. -/
def readPieces (c : Cursor) (fs : FileSystem) : List Nat → (Bytes × Option ReadError) × Cursor
  | [] => (([], none), c)
  | count :: rest =>
    match c.read fs count with
    | (.error e, next) => (([], some e), next)
    | (.ok bytes, next) =>
      let ((more, failure), last) := next.readPieces fs rest
      ((bytes ++ more, failure), last)

/-- Reading in pieces and reading at once give the same. -/
theorem readPieces_of_shows (h : c.stream.Shows fs content) (sizes : List Nat) :
    c.readPieces fs sizes = ((content.window c.position sizes.sum, none),
      { c with position := c.position + (content.window c.position sizes.sum).length }) := by
  induction sizes generalizing c with
  | nil =>
    rw [List.sum_nil, Bytes.window_zero_right]
    rfl
  | cons count rest ih =>
    have hnext := ih (c := { c with
      position := c.position + (content.window c.position count).length }) h
    rw [List.sum_cons, Bytes.window_add, List.length_append, ← Nat.add_assoc]
    simp only [readPieces, read_of_shows h, hnext]

/-- Reading to the end is reading in pieces, with as many of the buffers as it takes. -/
theorem exists_readPieces (c : Cursor) (fs : FileSystem) (buffers : Buffers) :
    ∃ turns, c.readToEnd fs buffers = c.readPieces fs (buffers.first turns) := by
  fun_induction Cursor.readToEnd c fs buffers with
  | case1 c buffers e next hread => exact ⟨1, by simp [Buffers.first_succ, readPieces, hread]⟩
  | case2 c buffers next hread =>
    exact ⟨1, by simp [Buffers.first_succ, Buffers.first_zero, readPieces, hread]⟩
  | case3 c buffers b bs next hread rest failure last hrest ih =>
    obtain ⟨turns, hpieces⟩ := ih
    refine ⟨turns + 1, ?_⟩
    simp only [Buffers.first_succ, readPieces, hread, ← hpieces, hrest]

/-- Reading to the end gives everything from the position on, in whatever pieces. -/
theorem readToEnd_of_shows (h : c.stream.Shows fs content) (buffers : Buffers) :
    c.readToEnd fs buffers = ((content.window c.position (content.length - c.position), none),
      { c with position := c.position +
        (content.window c.position (content.length - c.position)).length }) := by
  obtain ⟨turns, hpieces⟩ := exists_readPieces c fs buffers
  rw [readPieces_of_shows h] at hpieces
  obtain ⟨bytes, hlength, heq⟩ | ⟨got, turn, e, hfails, -⟩ := readToEnd_cases c fs buffers
  · have hsame : bytes = content.window c.position (content.length - c.position) := by
      rw [hpieces, Prod.mk.injEq, Prod.mk.injEq] at heq
      have hall := congrArg List.length heq.1.1
      rw [Bytes.length_window, hlength, h.length_eq] at hall
      rw [← heq.1.1]
      exact Bytes.window_congr (by omega)
    rw [heq, hsame]
  · -- no read of such a stream fails
    rw [h.readAt_eq] at hfails
    cases hfails

/-- A drain gives everything from the position on, however small its pieces are. -/
theorem drain_of_shows (h : c.stream.Shows fs content) (hpos : 0 < chunk) :
    c.drain fs chunk = c.read fs (content.length - c.position) := by
  rw [drain_eq_readToEnd hpos, readToEnd_of_shows h, read_of_shows h]
  rfl

/-- An exact read gives the bytes asked for if they are all there, and otherwise goes to the
end. -/
theorem readExact_of_shows (h : c.stream.Shows fs content) (hle : c.position ≤ content.length)
    (count : Nat) :
    (seekable fs).readExact c count =
      if c.position + count ≤ content.length then
        (.ok (content.window c.position count), { c with position := c.position + count })
      else (.error Seekable.endedEarly, { c with position := content.length }) := by
  have hlength : c.stream.length = content.length := h.length_eq
  have hwindow := Bytes.length_window content c.position count
  rw [readExact_of_readAt_ok (hlength ▸ hle) (h.readAt_eq c.position count), hlength]
  exact if_congr (by omega) rfl rfl

/-! ### Moving -/

/-- A cursor moves to the positions of the string and to no others. -/
theorem seekTo_of_length (h : c.stream.length = content.length) (offset : Nat) : c.seekTo offset =
    if offset ≤ content.length then (.ok offset, { c with position := offset })
    else (.error (.outOfRange offset content.length), c) := by
  rw [seekTo, h]

/-- The place that is meant is the one in the string. -/
theorem meant_eq_target (h : c.stream.length = content.length) (goal : SeekFrom) :
    c.meant goal = ByteCursor.target ⟨content, c.position⟩ goal := by
  cases goal <;> simp only [meant, ByteCursor.target, h]

/-- Wherever a place is counted from, the cursor moves there if it is a position of the string. -/
theorem seek_of_length (h : c.stream.length = content.length) (goal : SeekFrom) {target : Int}
    (hmeant : ByteCursor.target ⟨content, c.position⟩ goal = target) : ∃ cause, c.seek goal =
      if 0 ≤ target ∧ target ≤ content.length then
        (.ok target.toNat, { c with position := target.toNat })
      else (.error cause, c) := by
  rw [← meant_eq_target h] at hmeant
  by_cases hin : 0 ≤ target ∧ target ≤ content.length
  · refine ⟨.negative, ?_⟩
    rw [if_pos hin]
    exact seek_of_within (by omega) (by omega)
  · have hbeyond : c.meant goal < 0 ∨ c.stream.length < c.meant goal := by omega
    obtain ⟨cause, hseek⟩ := seek_of_beyond hbeyond
    exact ⟨cause, by rw [if_neg hin, hseek]⟩

/-! ### Actions -/

/-- A cursor over the stream and one in the string stand at the same position. -/
inductive Mirrors (s : VirtualStream) (content : Bytes) : Cursor → ByteCursor → Prop
  | intro (position : Nat) (le : position ≤ content.length) :
    Mirrors s content ⟨s, position⟩ ⟨content, position⟩

theorem Mirrors.eq {s : VirtualStream} (h : Mirrors s content c b) : c = ⟨s, b.position⟩ := by
  cases h
  rfl

variable {s : VirtualStream} {position : Nat}

/-- Reading at a position of the stream and at the same one of the string. -/
theorem mirrors_read (hshows : s.Shows fs content) (le : position ≤ content.length) (count : Nat) :
    ∃ next, (⟨s, position⟩ : Cursor).read fs count = (.ok (content.window position count), next) ∧
      Mirrors s content next (ByteCursor.take ⟨content, position⟩ count).2 := by
  refine ⟨_, read_of_shows (c := ⟨s, position⟩) hshows count, .intro _ ?_⟩
  have hlength := Bytes.length_window content position count
  simp only
  omega

/-- Looking for an audio bank does not move the cursor. -/
theorem isAwb_of_shows (hshows : c.stream.Shows fs content) (le : c.position ≤ content.length) :
    Awb.isAwb (seekable fs) c =
      (.ok (content.window c.position Awb.magic.length == Awb.magic), c) := by
  have hle : c.position ≤ c.stream.length := hshows.length_eq ▸ le
  exact isAwb_of_readAt_ok hle (hshows.readAt_eq _ _)

/-- One action of a cursor over the stream and of one in the string. -/
theorem Mirrors.act (h : Mirrors s content c b) (hshows : s.Shows fs content)
    (action : CursorAction) :
    (c.act fs action).1.Matches (b.act action).1 ∧
      Mirrors s content (c.act fs action).2 (b.act action).2 := by
  obtain ⟨position, le⟩ := h
  have hlength : s.length = content.length := hshows.length_eq
  cases action with
  | seekTo offset =>
    have hseek := seekTo_of_length (c := ⟨s, position⟩) hlength offset
    simp only [Cursor.act, ByteCursor.act, ByteCursor.moveTo, hseek]
    by_cases hle : offset ≤ content.length
    · rw [if_pos hle, if_pos (by omega), Int.toNat_natCast]
      exact ⟨.position offset, .intro offset hle⟩
    · rw [if_neg hle, if_neg (by omega)]
      exact ⟨.refused _, .intro position le⟩
  | seek goal =>
    obtain ⟨cause, hseek⟩ := seek_of_length (c := ⟨s, position⟩) hlength goal rfl
    simp only [Cursor.act, ByteCursor.act, ByteCursor.moveTo, seekable_seek, hseek]
    by_cases hin : 0 ≤ ByteCursor.target ⟨content, position⟩ goal ∧
        ByteCursor.target ⟨content, position⟩ goal ≤ content.length
    · rw [if_pos hin, if_pos hin]
      exact ⟨.position _, .intro _ (by omega)⟩
    · rw [if_neg hin, if_neg hin]
      exact ⟨.failed cause, .intro position le⟩
  | readSegments count =>
    obtain ⟨next, hread, hnext⟩ := mirrors_read hshows le count
    simp only [Cursor.act, hread]
    exact ⟨.bytes _, hnext⟩
  | read count =>
    obtain ⟨next, hread, hnext⟩ := mirrors_read hshows le count
    simp only [Cursor.act, seekable, hread]
    exact ⟨.bytes _, hnext⟩
  | readExact count =>
    have hread := readExact_of_shows (c := ⟨s, position⟩) hshows le count
    simp only [Cursor.act, ByteCursor.act, hread]
    by_cases hin : position + count ≤ content.length
    · have hall := Bytes.length_window_of_le hin
      rw [if_pos hin, if_pos hin, ByteCursor.take, hall]
      exact ⟨.bytes _, .intro _ hin⟩
    · rw [if_neg hin, if_neg hin]
      exact ⟨.ended, .intro _ (Nat.le_refl _)⟩
  | readToEnd buffers =>
    obtain ⟨next, hread, hnext⟩ := mirrors_read hshows le (content.length - position)
    obtain ⟨-, rfl⟩ := read_eq_ok_iff.mp hread
    simp only [Cursor.act, readToEnd_of_shows (c := ⟨s, position⟩) hshows]
    exact ⟨.bytes _, hnext⟩
  | drain chunk =>
    have hdrain : (⟨s, position⟩ : Cursor).drain fs chunk = (⟨s, position⟩ : Cursor).read fs
        (if chunk = 0 then 0 else content.length - position) := by
      split
      · next hzero =>
        rw [hzero, drain_zero, read_of_shows hshows, Bytes.window_zero_right]
        rfl
      · exact drain_of_shows hshows (by omega)
    obtain ⟨next, hread, hnext⟩ :=
      mirrors_read hshows le (if chunk = 0 then 0 else content.length - position)
    simp only [Cursor.act, hdrain, hread]
    exact ⟨.bytes _, hnext⟩
  | isAwb =>
    simp only [Cursor.act, isAwb_of_shows (c := ⟨s, position⟩) hshows le]
    exact ⟨.awb _, .intro position le⟩

end Cursor

/-! ### Many cursors -/

namespace Cursors

/-- What the cursor of that number answered. -/
def answersOf (number : Nat) (answers : List (Nat × CursorAnswer)) : List CursorAnswer :=
  (answers.filter (·.1 = number)).map Prod.snd

/-- What was asked of the cursor of that number. -/
def actionsOf (number : Nat) (requests : List CursorRequest) : List CursorAction :=
  (requests.filter (·.number = number)).map (·.action)

variable {cursors next : Cursors} {c : Cursor} {b : ByteCursor} {s : VirtualStream}
variable {fs : FileSystem} {content : Bytes} {action : CursorAction} {answer : CursorAnswer}
variable {number other : Nat} {request : CursorRequest} {requests rest : List CursorRequest}

/-- A request to another cursor is not seen. -/
theorem run_cons_of_ne (hne : request.number ≠ number) (cursors : Cursors)
    (rest : List CursorRequest) : ∃ next : Cursors,
    next[number]? = cursors[number]? ∧
      answersOf number (cursors.run (request :: rest)).1 = answersOf number (next.run rest).1 ∧
      (cursors.run (request :: rest)).2 = (next.run rest).2 := by
  cases hact : cursors.act request.files request.number request.action with
  | none => exact ⟨cursors, rfl, by simp only [run, hact], by simp only [run, hact]⟩
  | some outcome =>
    obtain ⟨answer, next⟩ := outcome
    refine ⟨next, getElem?_of_act hne hact, ?_, by simp only [run, hact]⟩
    simp only [run, hact, answersOf]
    rw [List.filter_cons_of_neg (by simpa using hne)]

/-- A run of many cursors, seen from one of them: only what is asked of this cursor matters, and
it answers as the position in the string does. -/
theorem run_mirrors (hc : cursors[number]? = some c) (hmirrors : c.Mirrors s content b)
    (hshows : ∀ r ∈ requests, r.number = number → s.Shows r.files content) :
    List.Forall₂ CursorAnswer.Matches (answersOf number (cursors.run requests).1)
        (b.run (actionsOf number requests)).1 ∧
      ∃ last, (cursors.run requests).2[number]? = some last ∧
        last.Mirrors s content (b.run (actionsOf number requests)).2 := by
  induction requests generalizing cursors c b with
  | nil => exact ⟨.nil, c, hc, hmirrors⟩
  | cons request rest ih =>
    obtain ⟨hfirst, hrest⟩ := List.forall_mem_cons.mp hshows
    by_cases hnumber : request.number = number
    · have hact := act_of_getElem? hc request.files request.action
      obtain ⟨hmatches, hnext⟩ := hmirrors.act (hfirst hnumber) request.action
      have hplace : (cursors.set number (c.act request.files request.action).2)[number]? =
          some (c.act request.files request.action).2 :=
        List.getElem?_set_self (List.getElem?_eq_some_iff.mp hc).1
      obtain ⟨hanswers, hlast⟩ := ih hplace hnext hrest
      have hactions : actionsOf number (request :: rest) =
          request.action :: actionsOf number rest := by
        rw [actionsOf, List.filter_cons_of_pos (by simpa using hnumber)]
        rfl
      simp only [run, hnumber, hact, hactions, ByteCursor.run]
      refine ⟨?_, hlast⟩
      rw [answersOf, List.filter_cons_of_pos (by simp)]
      exact .cons hmatches hanswers
    · obtain ⟨next, hplace, hanswers, hlast⟩ := run_cons_of_ne hnumber cursors rest
      have hactions : actionsOf number (request :: rest) = actionsOf number rest := by
        rw [actionsOf, List.filter_cons_of_neg (by simpa using hnumber)]
        rfl
      rw [hanswers, hlast, hactions]
      exact ih (hplace.trans hc) hmirrors hrest

/-- Any number of cursors look at one stream, whose sources hold their whole extents whenever a
cursor is asked something. Whatever is asked of them, and in whatever order, each of them answers
as a position in the bytes of the segments that is only asked what this cursor is, and it ends at
the same position. -/
theorem cursors_answer_alone {segments : List Segment} {held : Segment → Bytes} (count : Nat)
    (number : Nat) (hnumber : number < count)
    (hs : VirtualStream.ofSegments segments = .ok s)
    (hfull : ∀ r ∈ requests, ∀ t ∈ segments, t.source.Delivers r.files (held t) ∧
      t.extent.length ≤ (held t).length)
    (hcontent : (segments.flatMap fun t => (held t).take t.extent.length) = content) :
    List.Forall₂ CursorAnswer.Matches
        (answersOf number (run (List.replicate count (.ofStream s)) requests).1)
        ((ByteCursor.run ⟨content, 0⟩ (actionsOf number requests)).1) ∧
      (run (List.replicate count (.ofStream s)) requests).2[number]? =
        some ⟨s, (ByteCursor.run ⟨content, 0⟩ (actionsOf number requests)).2.position⟩ := by
  have hc : (List.replicate count (Cursor.ofStream s))[number]? = some (.ofStream s) := by
    rw [List.getElem?_replicate, if_pos hnumber]
  have hstart : (Cursor.ofStream s).Mirrors s content ⟨content, 0⟩ := .intro 0 (Nat.zero_le _)
  obtain ⟨hanswers, last, hlast, hmirrors⟩ := run_mirrors hc hstart fun r hr _ =>
    hcontent ▸ VirtualStream.shows_of_full hs (hfull r hr)
  exact ⟨hanswers, hlast.trans (congrArg some hmirrors.eq)⟩

/-- Three bytes of memory and two after them. -/
def threeThenTwo : List Segment :=
  [⟨.ofBytes [1, 2, 3], ⟨0, 3, by decide⟩, .memory⟩, ⟨.ofBytes [4, 5], ⟨3, 2, by decide⟩, .memory⟩]

/-- The bytes that the two sources hold. -/
def threeThenTwoHeld (t : Segment) : Bytes := if t.extent.start = 0 then [1, 2, 3] else [4, 5]

theorem delivers_threeThenTwo : ∀ t ∈ threeThenTwo,
    t.source.Delivers .initial (threeThenTwoHeld t) ∧
      t.extent.length ≤ (threeThenTwoHeld t).length := by
  intro t ht
  simp only [threeThenTwo, List.mem_cons, List.not_mem_nil, or_false] at ht
  rcases ht with rfl | rfl
  · exact ⟨Source.delivers_ofBytes _, by decide⟩
  · exact ⟨Source.delivers_ofBytes _, by decide⟩

/-- The first of two cursors reads across the border of the segments while the second one moves
to the last byte. -/
def crossing : List CursorRequest :=
  [⟨0, .read 2, .initial⟩, ⟨1, .seek (.stop (-1)), .initial⟩, ⟨0, .readExact 2, .initial⟩]

theorem cursors_answer_alone_crossing : ∃ s, VirtualStream.ofSegments threeThenTwo = .ok s ∧
    List.Forall₂ CursorAnswer.Matches
      (answersOf 0 (run (List.replicate 2 (.ofStream s)) crossing).1)
      [.bytes [1, 2], .bytes [3, 4]] ∧
    (run (List.replicate 2 (.ofStream s)) crossing).2[0]? = some ⟨s, 4⟩ ∧
    (run (List.replicate 2 (.ofStream s)) crossing).2[1]? = some ⟨s, 4⟩ := by
  have hfull : ∀ r ∈ crossing, ∀ t ∈ threeThenTwo,
      t.source.Delivers r.files (threeThenTwoHeld t) ∧
        t.extent.length ≤ (threeThenTwoHeld t).length := by
    intro r hr
    have hfiles : r.files = .initial := by
      simp only [crossing, List.mem_cons, List.not_mem_nil, or_false] at hr
      rcases hr with rfl | rfl | rfl <;> rfl
    rw [hfiles]
    exact delivers_threeThenTwo
  obtain ⟨hanswers, hplace⟩ := cursors_answer_alone 2 0 (by decide) rfl hfull rfl
  obtain ⟨-, hother⟩ := cursors_answer_alone 2 1 (by decide) rfl hfull rfl
  exact ⟨_, rfl, hanswers, hplace, hother⟩

end Cursors

end VirtualFiles
