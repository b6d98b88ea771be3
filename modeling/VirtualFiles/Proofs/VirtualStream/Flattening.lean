import Mathlib.Logic.Relation
import VirtualFiles.Proofs.VirtualStream.Pieces

/-!
# Streams within streams

A stream is a source too, so a segment of a stream may show another stream. Such a segment can be
replaced by the segments of the stream that it shows, each cut to what is shown of it and moved
to where it is shown. The result is a stream again, and every read of it comes out as before: it
gives the same bytes, or it fails in the same way. Only the places that failures name are others.

An inner failure reaches the outer stream as the failure of a source, and is told apart there by
its kind alone. That is enough, for an inner early end keeps its kind and no other failure gets it.

## Main definitions

* `Extent.shown?`, `VirtualStream.shownIn` — what an extent shows of the segments of a stream
* `Flattens` — one segment that shows a stream is replaced

## Main results

* `Tiles.shownIn` — the segments shown tile the extent
* `outcome_shownIn` — they come out as the nested segment does
* `reads_alike_of_flattens` — streams may be flattened, to any depth
-/

namespace VirtualFiles

/-- What the extent shows of a segment of the stream that it shows from address `0` on: the part
that lies within the length of the extent, moved by the start of the extent. -/
def Extent.shown? (r : Extent) (t : Segment) : Option Segment :=
  if h : t.extent.start < r.length then
    some { t with
      extent := ⟨r.start + t.extent.start, min t.extent.length (r.length - t.extent.start), by
        have := r.stop_lt
        omega⟩ }
  else none

/-- What the extent shows of all segments of the stream. -/
def VirtualStream.shownIn (inner : VirtualStream) (r : Extent) : List Segment :=
  inner.segments.toList.filterMap r.shown?

/-- One segment that shows a stream is replaced by what it shows of the segments of the stream. -/
inductive Flattens : List Segment → List Segment → Prop
  | replace (before : List Segment) (inner : VirtualStream) (r : Extent) (kind : SegmentKind)
      (after : List Segment) :
      Flattens (before ++ ⟨inner.toSource, r, kind⟩ :: after)
        (before ++ inner.shownIn r ++ after)

open Outcome

variable {t u : Segment} {r : Extent} {segments before after flat : List Segment}
variable {inner s : VirtualStream} {kind : SegmentKind}
variable {fs : FileSystem} {start stop first last index : Nat}

namespace Extent

theorem shown?_eq_none (h : r.length ≤ t.extent.start) : r.shown? t = none :=
  dif_neg (Nat.not_lt.mpr h)

theorem exists_shown? (h : t.extent.start < r.length) : ∃ u, r.shown? t = some u ∧
    u.source = t.source ∧ u.extent.start = r.start + t.extent.start ∧
    u.extent.stop = r.start + min t.extent.stop r.length := by
  refine ⟨_, dif_pos h, rfl, rfl, ?_⟩
  simp only [Extent.stop]
  omega

end Extent

/-- What is shown of a segment lies within the extent. -/
theorem Extent.bounds_of_shown? (h : r.shown? t = some u) :
    r.start ≤ u.extent.start ∧ u.extent.stop ≤ r.stop := by
  by_cases hin : t.extent.start < r.length
  · obtain ⟨v, hv, -, hstart, hend⟩ := Extent.exists_shown? hin
    obtain rfl : v = u := Option.some.inj (hv.symm.trans h)
    simp only [Extent.stop] at hend ⊢
    omega
  · rw [Extent.shown?_eq_none (Nat.le_of_not_lt hin)] at h
    cases h

/-- Nothing is shown of segments that begin beyond the length of the extent. -/
theorem Tiles.shownIn_eq_nil (tiles : Tiles first segments last) (h : r.length ≤ first) :
    segments.filterMap r.shown? = [] := by
  refine List.filterMap_eq_nil_iff.mpr fun t ht => Extent.shown?_eq_none ?_
  exact Nat.le_trans h (tiles.bounds_of_mem ht).2.1

/-- What an extent shows of a tiling tiles the part of the extent from there on. -/
theorem Tiles.shownIn (tiles : Tiles first segments last) (hlast : r.length ≤ last)
    (hfirst : first ≤ r.length) :
    Tiles (r.start + first) (segments.filterMap r.shown?) r.stop := by
  induction tiles with
  | nil start =>
    obtain rfl : start = r.length := Nat.le_antisymm hfirst hlast
    exact .nil _
  | @cons t rest first last starts nonempty covered follows ih =>
    obtain rfl := starts
    by_cases hin : t.extent.start < r.length
    · obtain ⟨u, hu, hsource, hstart, hend⟩ := Extent.exists_shown? hin
      have hlength : u.extent.length = min t.extent.length (r.length - t.extent.start) := by
        simp only [Extent.stop] at hend
        omega
      rw [List.filterMap_cons_some hu]
      refine .cons hstart (by omega) (by rw [hsource]; omega) ?_
      by_cases hstop : t.extent.stop ≤ r.length
      · rw [hend, Nat.min_eq_left hstop]
        exact ih hlast hstop
      · -- the extent ends in this segment, so nothing of the later ones is shown
        have hnext : u.extent.stop = r.stop := by
          rw [hend, Nat.min_eq_right (Nat.le_of_not_le hstop), Extent.stop]
        rw [hnext, follows.shownIn_eq_nil (Nat.le_of_not_le hstop)]
        exact .nil _
    · -- the extent ends where this segment starts
      have hall : Tiles t.extent.start (t :: rest) last := .cons rfl nonempty covered follows
      have hend : r.start + t.extent.start = r.stop := by
        simp only [Extent.stop]
        omega
      rw [hall.shownIn_eq_nil (Nat.le_of_not_lt hin), hend]
      exact .nil _

namespace VirtualStream

/-! ### How a read comes out -/

/-- How gathering pieces comes out: the bytes, or whether a source ended early. -/
def outcome (fs : FileSystem) (start stop : Nat) (segments : List Segment) : Except Bool Bytes :=
  (gather fs start stop 0 segments).mapError ReadError.isShort

theorem mapError_isShort_piece (index offset : Nat) (t : Segment) (x : Except IoError Bytes) :
    (x.mapError (ReadError.ofSource index t offset)).mapError ReadError.isShort =
      x.mapError IoError.isEarlyEnd := by
  rw [mapError_mapError]
  exact congrArg x.mapError (funext fun e => ReadError.isShort_ofSource index t offset e)

/-- The place of a segment in the table does not matter to how it comes out. -/
theorem mapError_isShort_gather (index : Nat) :
    (gather fs start stop index segments).mapError ReadError.isShort =
      outcome fs start stop segments := by
  unfold outcome
  generalize 0 = place
  induction segments generalizing index place with
  | nil => rfl
  | cons t rest ih =>
    rw [gather_cons, gather_cons, mapError_append, mapError_append, mapError_isShort_piece,
      mapError_isShort_piece, ih (index + 1) (place + 1)]

theorem outcome_append : outcome fs start stop (before ++ after) =
    append (outcome fs start stop before) (outcome fs start stop after) := by
  rw [outcome, gather_append, mapError_append, mapError_isShort_gather, mapError_isShort_gather]

theorem outcome_cons : outcome fs start stop (t :: segments) =
    append ((t.piece fs start stop).mapError IoError.isEarlyEnd)
      (outcome fs start stop segments) := by
  rw [outcome, gather_cons, mapError_append, mapError_isShort_piece, mapError_isShort_gather]

theorem outcome_eq_nil
    (h : ∀ t ∈ segments, min stop t.extent.stop ≤ max start t.extent.start) :
    outcome fs start stop segments = .ok [] := by
  rw [outcome, gather_eq_nil h]
  rfl

theorem mapError_isShort_readAt (s : VirtualStream) (fs : FileSystem) (offset count : Nat) :
    (s.readAt fs offset count).mapError ReadError.isShort =
      outcome fs offset (offset + count) s.segments.toList := by
  rw [readAt_eq_gather, outcome]

/-! ### A nested segment and the segments that it shows -/

/-- The segments that an extent shows contribute to a read what they contribute to the read of
their own stream that the extent makes of it. -/
theorem outcome_filterMap_shown? {offset stopOffset : Nat}
    (hoffset : r.start + offset = max start r.start)
    (hstop : r.start + stopOffset = min stop r.stop) :
    outcome fs start stop (segments.filterMap r.shown?) =
      outcome fs offset stopOffset segments := by
  rw [Extent.stop] at hstop
  induction segments with
  | nil => rfl
  | cons t rest ih =>
    rw [outcome_cons (t := t)]
    by_cases hin : t.extent.start < r.length
    · obtain ⟨u, hu, hsource, hstart, hend⟩ := Extent.exists_shown? hin
      have hpiece : u.piece fs start stop = t.piece fs offset stopOffset := by
        have hmax : max start (r.start + t.extent.start) =
            r.start + max offset t.extent.start := by
          rw [← Nat.add_max_add_left, hoffset, Nat.max_assoc,
            Nat.max_eq_right (Nat.le_add_right r.start _)]
        have hmin : min stop (r.start + min t.extent.stop r.length) =
            r.start + min stopOffset t.extent.stop := by
          rw [← Nat.add_min_add_left, ← Nat.add_min_add_left, hstop, Nat.min_assoc,
            Nat.min_comm (r.start + r.length)]
        rw [Segment.piece, Segment.piece, hsource, hstart, hend, hmax, hmin,
          Nat.add_sub_add_left, Nat.add_sub_add_left]
      rw [List.filterMap_cons_some hu, outcome_cons, hpiece, ih]
    · have hnothing : t.piece fs offset stopOffset = .ok [] := Segment.piece_eq_nil (by omega)
      rw [List.filterMap_cons_none (Extent.shown?_eq_none (by omega)), hnothing, ih]
      exact nil_append.symm

/-- The segments shown come out as the nested segment does. -/
theorem outcome_shownIn (hfits : r.length ≤ inner.length) :
    outcome fs start stop (inner.shownIn r) =
      outcome fs start stop [⟨inner.toSource, r, kind⟩] := by
  by_cases hmeets : max start r.start < min stop r.stop
  · obtain ⟨offset, hoffset⟩ : ∃ offset, r.start + offset = max start r.start :=
      Nat.exists_eq_add_of_le (Nat.le_max_right _ _) |>.imp fun _ h => h.symm
    obtain ⟨count, hcount⟩ : ∃ count, max start r.start + count = min stop r.stop :=
      Nat.exists_eq_add_of_le (Nat.le_of_lt hmeets) |>.imp fun _ h => h.symm
    have hwithin : offset + count ≤ inner.length := by
      simp only [Extent.stop] at hcount
      omega
    have hpiece : (⟨inner.toSource, r, kind⟩ : Segment).piece fs start stop =
        (inner.readAt fs offset count).mapError ReadError.toIoError := by
      rw [← readExactAt_toSource hwithin, Segment.piece]
      dsimp only
      rw [← hcount, ← hoffset, Nat.add_sub_cancel_left, Nat.add_sub_cancel_left]
    have hstop : r.start + (offset + count) = min stop r.stop := by omega
    -- the failure of the inner stream passes through the outer one
    rw [shownIn, outcome_filterMap_shown? hoffset hstop, ← mapError_isShort_readAt, outcome_cons,
      hpiece, mapError_mapError, ReadError.isEarlyEnd_comp_toIoError]
    exact append_nil.symm
  · have hnested : outcome fs start stop [⟨inner.toSource, r, kind⟩] = .ok [] :=
      outcome_eq_nil fun t ht => by
        obtain rfl := List.mem_singleton.mp ht
        exact Nat.not_lt.mp hmeets
    rw [hnested]
    refine outcome_eq_nil fun u hu => ?_
    obtain ⟨t, ht, hshown⟩ := List.mem_filterMap.mp hu
    obtain ⟨hstart, hend⟩ := Extent.bounds_of_shown? hshown
    omega

/-! ### Flattening -/

/-- Two lists of segments between the same neighbours come out alike if they do by themselves. -/
theorem outcome_congr {middle middle' : List Segment}
    (h : outcome fs start stop middle = outcome fs start stop middle') :
    outcome fs start stop (before ++ middle ++ after) =
      outcome fs start stop (before ++ middle' ++ after) := by
  have hrest :
      outcome fs start stop (middle ++ after) = outcome fs start stop (middle' ++ after) := by
    rw [outcome_append, h, ← outcome_append]
  rw [List.append_assoc, List.append_assoc, outcome_append, hrest, ← outcome_append]

/-- Empty segments contribute nothing. -/
theorem outcome_dropEmpty : outcome fs start stop (dropEmpty segments) =
    outcome fs start stop segments := by
  induction segments with
  | nil => rfl
  | cons t rest ih =>
    rcases Nat.eq_zero_or_pos t.extent.length with hzero | hpos
    · have hnothing : t.piece fs start stop = .ok [] := by
        refine Segment.piece_eq_nil ?_
        simp only [Extent.stop]
        omega
      rw [dropEmpty_cons_of_eq_zero hzero, outcome_cons, hnothing, ih]
      exact nil_append.symm
    · rw [dropEmpty_cons_of_pos hpos, outcome_cons, outcome_cons, ih]

/-- What an extent shows of a stream takes the place of the extent in a tiling. -/
theorem tiles_shownIn (h : Tiles first (dropEmpty [⟨inner.toSource, r, kind⟩]) last) :
    Tiles first (dropEmpty (inner.shownIn r)) last ∧ r.length ≤ inner.length := by
  rcases Nat.eq_zero_or_pos r.length with hzero | hpos
  · have hnone : inner.shownIn r = [] := inner.tiles.shownIn_eq_nil (Nat.le_of_eq hzero)
    rw [dropEmpty_cons_of_eq_zero hzero] at h
    rw [hnone]
    exact ⟨h, by omega⟩
  · rw [dropEmpty_cons_of_pos hpos] at h
    cases h with
    | cons starts _ covered follows =>
      cases follows with
      | nil =>
        obtain rfl := starts
        have hshown := inner.tiles.shownIn covered (Nat.zero_le _)
        rw [Nat.add_zero] at hshown
        rw [shownIn, dropEmpty_of_tiles hshown]
        exact ⟨hshown, covered⟩

/-- After one segment was replaced, the segments tile what they tiled before, and every read of
them comes out as before. -/
theorem tiles_and_outcome_of_flattens (h : Flattens segments flat)
    (tiles : Tiles 0 (dropEmpty segments) last) : Tiles 0 (dropEmpty flat) last ∧
      ∀ fs start stop, outcome fs start stop flat = outcome fs start stop segments := by
  obtain ⟨before, inner, r, kind, after⟩ := h
  rw [List.append_cons, dropEmpty_append, dropEmpty_append] at tiles
  obtain ⟨next, hfirst, hafter⟩ := Tiles.append_iff.mp tiles
  obtain ⟨first, hbefore, hnested⟩ := Tiles.append_iff.mp hfirst
  obtain ⟨hshown, hfits⟩ := tiles_shownIn hnested
  refine ⟨?_, fun fs start stop => ?_⟩
  · rw [dropEmpty_append, dropEmpty_append]
    exact (hbefore.append hshown).append hafter
  · rw [List.append_cons]
    exact outcome_congr (outcome_shownIn hfits)

/-- However many segments of a stream that show streams are replaced by what they show, those of
streams within streams among them, the segments form a stream of the same length, and every read
of it gives the same bytes as a read of the original stream or fails as that one does: with an
early end, or with a failure of a source. -/
theorem reads_alike_of_flattens (hs : ofSegments segments = .ok s)
    (h : Relation.ReflTransGen Flattens segments flat) :
    ∃ s', ofSegments flat = .ok s' ∧ s'.length = s.length ∧ ∀ fs offset count,
      (s'.readAt fs offset count).mapError ReadError.isShort =
        (s.readAt fs offset count).mapError ReadError.isShort := by
  have htiles : Tiles 0 (dropEmpty flat) s.length ∧
      ∀ fs start stop, outcome fs start stop flat = outcome fs start stop segments := by
    induction h with
    | refl => exact ⟨tiles_of_ofSegments hs, fun _ _ _ => rfl⟩
    | tail _ hstep ih =>
      obtain ⟨hflat, hsame⟩ := tiles_and_outcome_of_flattens hstep ih.1
      exact ⟨hflat, fun fs start stop => (hsame fs start stop).trans (ih.2 fs start stop)⟩
  refine ⟨_, ofSegments_of_tiles htiles.1, rfl, fun fs offset count => ?_⟩
  rw [mapError_isShort_readAt, mapError_isShort_readAt, toList_segments_of_ofSegments hs,
    outcome_dropEmpty, outcome_dropEmpty, htiles.2]

/-- Four bytes of memory, and a source that holds one of the four bytes it announces and then
fails. -/
def memoryThenFaulty : VirtualStream where
  segments := #[⟨.ofBytes [1, 2, 3, 4], ⟨0, 4, by decide⟩, .memory⟩,
    ⟨Partial.source ⟨[5], 4, none, some .other⟩, ⟨4, 4, by decide⟩, .other⟩]
  length := 8
  tiles := .cons rfl (by decide) (by decide) (.cons rfl (by decide) (by decide) (.nil 8))

/-- One byte, and seven of the eight bytes of a stream. -/
def onceNested : VirtualStream where
  segments := #[⟨.ofBytes [9], ⟨0, 1, by decide⟩, .memory⟩,
    ⟨memoryThenFaulty.toSource, ⟨1, 7, by decide⟩, .file⟩]
  length := 8
  tiles := .cons rfl (by decide) (by decide) (.cons rfl (by decide) (by decide) (.nil 8))

/-- A stream that shows a stream, and one byte after it. -/
def twiceNested : List Segment :=
  [⟨onceNested.toSource, ⟨0, 7, by decide⟩, .other⟩, ⟨.ofBytes [7], ⟨7, 1, by decide⟩, .memory⟩]

/-- The same bytes without nesting. -/
def notNested : List Segment :=
  [⟨.ofBytes [9], ⟨0, 1, by decide⟩, .memory⟩,
    ⟨.ofBytes [1, 2, 3, 4], ⟨1, 4, by decide⟩, .memory⟩,
    ⟨Partial.source ⟨[5], 4, none, some .other⟩, ⟨5, 2, by decide⟩, .other⟩,
    ⟨.ofBytes [7], ⟨7, 1, by decide⟩, .memory⟩]

theorem flattens_twiceNested : Relation.ReflTransGen Flattens twiceNested notNested :=
  .tail (.single (.replace [] onceNested ⟨0, 7, by decide⟩ .other
    [⟨.ofBytes [7], ⟨7, 1, by decide⟩, .memory⟩]))
    (.replace [⟨.ofBytes [9], ⟨0, 1, by decide⟩, .memory⟩] memoryThenFaulty ⟨1, 6, by decide⟩ .file
      [⟨.ofBytes [7], ⟨7, 1, by decide⟩, .memory⟩])

theorem reads_alike_twiceNested : ∃ s s', ofSegments twiceNested = .ok s ∧
    ofSegments notNested = .ok s' ∧ s'.length = s.length ∧
    (s'.readAt .initial 0 6).mapError ReadError.isShort = .ok [9, 1, 2, 3, 4, 5] ∧
    (s.readAt .initial 0 6).mapError ReadError.isShort = .ok [9, 1, 2, 3, 4, 5] ∧
    (s'.readAt .initial 2 6).mapError ReadError.isShort = .error false ∧
    (s.readAt .initial 2 6).mapError ReadError.isShort = .error false := by
  obtain ⟨s', hs', hlength, hreads⟩ := reads_alike_of_flattens rfl flattens_twiceNested
  have hwhole : outcome .initial 0 6 notNested = .ok [9, 1, 2, 3, 4, 5] := by cbv
  have hfails : outcome .initial 2 8 notNested = .error false := by cbv
  have hflat : ∀ start count, (s'.readAt .initial start count).mapError ReadError.isShort =
      outcome .initial start (start + count) notNested := fun start count => by
    rw [mapError_isShort_readAt, toList_segments_of_ofSegments hs', outcome_dropEmpty]
  refine ⟨_, s', rfl, hs', hlength, ?_, ?_, ?_, ?_⟩
  · exact (hflat 0 6).trans hwhole
  · exact (hreads .initial 0 6).symm.trans ((hflat 0 6).trans hwhole)
  · exact (hflat 2 6).trans hfails
  · exact (hreads .initial 2 6).symm.trans ((hflat 2 6).trans hfails)

end VirtualStream

end VirtualFiles
