import VirtualFiles.Proofs.Extent.Consecutive
import VirtualFiles.Proofs.VirtualStream.Tiling
import VirtualFiles.Source.Memory

/-!
# Which segments form a stream

Segments form a stream if the ones that are not empty begin at address `0`, each begins where the
one before it ends, and every source announces enough bytes. The empty ones never matter, wherever
they lie. If the segments form no stream, the first one that does not continue the ones before it
is reported; a wrong start counts before a short source.

## Main definitions

* `VirtualStream.Misfits` — what is reported of a segment that does not continue those before it

## Main results

* `tiles_iff` — a tiling is made of consecutive extents
* `tile_eq_error_iff` — the first segment that does not fit decides
* `ofSegments_eq_error_iff`, `exists_ofSegments_iff` — when there is a stream
* `ofSegments_outcome` — what building a stream comes to
-/

namespace VirtualFiles

open Extent

variable {start middle stop offset index : Nat} {t : Segment}
variable {segments others before after : List Segment} {e : StreamError}

theorem Extent.isEmpty_eq_false_iff {r : Extent} : r.isEmpty = false ↔ 0 < r.length := by
  rw [Bool.eq_false_iff, ne_eq, isEmpty_iff, Nat.pos_iff_ne_zero]

/-- Segments tile an interval if their extents are consecutive, none of them is empty and every
source announces enough bytes. -/
theorem tiles_iff : Tiles start segments stop ↔
    Consecutive start (segments.map (·.extent)) stop ∧
      ∀ t ∈ segments, 0 < t.extent.length ∧ t.extent.length ≤ t.source.length := by
  constructor
  · intro h
    refine ⟨?_, fun t ht => ⟨(h.bounds_of_mem ht).1, h.covered_of_mem ht⟩⟩
    induction h with
    | nil => rfl
    | cons starts _ _ _ ih => exact ⟨starts, ih⟩
  · rintro ⟨hextents, hsegments⟩
    induction segments generalizing start with
    | nil =>
      obtain rfl : start = stop := hextents
      exact .nil start
    | cons t rest ih =>
      obtain ⟨⟨hpos, hcovered⟩, hrest⟩ := List.forall_mem_cons.mp hsegments
      exact .cons hextents.1 hpos hcovered (ih hextents.2 hrest)

namespace VirtualStream

variable {s : VirtualStream}

/-- The segment does not continue segments that end at `stop`, and this is reported. `index`
counts the segments before it. -/
inductive Misfits (index stop : Nat) (t : Segment) : StreamError → Prop
  | apart (h : t.extent.start ≠ stop) :
    Misfits index stop t (.notContiguous index stop t.extent.start)
  | short (hstart : t.extent.start = stop) (h : t.source.length < t.extent.length) :
    Misfits index stop t (.sourceTooShort index t.extent t.source.length)

/-- The walk over the segments fails at the first one that does not continue those before it. -/
theorem tile_eq_error_iff (nonempty : ∀ t ∈ segments, t.extent.isEmpty = false) :
    tile index start segments nonempty = .error e ↔ ∃ before t after middle,
      segments = before ++ t :: after ∧ Tiles start before middle ∧
        Misfits (index + before.length) middle t e := by
  constructor
  · -- the first segment fails, or it is put before those that precede the failure among the rest
    intro h
    induction segments generalizing index start with
    | nil => cases h
    | cons t rest ih =>
      rw [tile] at h
      split at h
      · next starts =>
        split at h
        · next covered =>
          split at h
          · cases h
          · next hrest =>
            cases h
            obtain ⟨before, u, after, middle, rfl, hbefore, hu⟩ := ih _ hrest
            have hpos := isEmpty_eq_false_iff.mp (nonempty t List.mem_cons_self)
            refine ⟨t :: before, u, after, middle, rfl, .cons starts hpos covered hbefore, ?_⟩
            rwa [List.length_cons, Nat.add_comm before.length, ← Nat.add_assoc]
        · next hshort =>
          cases h
          exact ⟨[], t, rest, start, rfl, .nil start, .short starts (Nat.lt_of_not_le hshort)⟩
      · next hstart =>
        cases h
        exact ⟨[], t, rest, start, rfl, .nil start, .apart hstart⟩
  · -- the walk gets to the end of a tiling
    rintro ⟨before, t, after, middle, rfl, hbefore, ht⟩
    induction hbefore generalizing index with
    | nil =>
      change tile index _ (t :: after) _ = _
      rw [tile]
      cases ht with
      | apart h => rw [dif_neg h]; rfl
      | short hstart h => rw [dif_pos hstart, dif_neg (Nat.not_le.mpr h)]; rfl
    | @cons u rest _ _ starts _ covered _ ih =>
      rw [List.length_cons, Nat.add_comm _ 1, ← Nat.add_assoc] at ht
      change tile index _ (u :: (rest ++ t :: after)) _ = _
      rw [tile, dif_pos starts, dif_pos covered, ih _ ht]

theorem ofSegments_eq_error_iff :
    ofSegments segments = .error e ↔ ∃ before t after middle,
      dropEmpty segments = before ++ t :: after ∧ Tiles 0 before middle ∧
        Misfits before.length middle t e := by
  have htile : tile 0 0 (dropEmpty segments) (fun _ => isEmpty_of_mem_dropEmpty) = .error e ↔ _ :=
    tile_eq_error_iff _
  simp only [Nat.zero_add] at htile
  rw [← htile, ofSegments]
  split
  · next h => simp [h]
  · next h => simp [h]

theorem exists_ofSegments_iff :
    (∃ s, ofSegments segments = .ok s) ↔ ∃ stop, Tiles 0 (dropEmpty segments) stop := by
  constructor
  · rintro ⟨s, hs⟩
    exact ⟨s.length, tiles_of_ofSegments hs⟩
  · rintro ⟨stop, htiles⟩
    exact ⟨_, ofSegments_of_tiles htiles⟩

theorem length_pos_of_mem_dropEmpty (h : t ∈ dropEmpty segments) : 0 < t.extent.length :=
  isEmpty_eq_false_iff.mp (isEmpty_of_mem_dropEmpty h)

/-- The segments that are not empty decide whether there is a stream, and which one. -/
theorem ofSegments_congr (h : dropEmpty others = dropEmpty segments) :
    ofSegments others = ofSegments segments := by
  cases hs : ofSegments segments with
  | error e =>
    rw [ofSegments_eq_error_iff, h]
    exact ofSegments_eq_error_iff.mp hs
  | ok s =>
    have htiles := tiles_of_ofSegments hs
    have hothers : Tiles 0 (dropEmpty others) s.length := h ▸ htiles
    rw [ofSegments_of_tiles hothers, ← hs, ofSegments_of_tiles htiles]
    simp only [h]

/-- What building a stream comes to. The segments that are not empty form one exactly if their
extents are consecutive from address `0` on and every source announces enough bytes. They are then
the table of the stream, the stream is as long as they are together and ends with the last of them,
and every address below its length lies in exactly one of them. Otherwise the first segment that
does not continue the ones before it is reported, under its index among those that are not empty.
The empty segments do not matter. -/
theorem ofSegments_outcome (segments : List Segment) :
    (dropEmpty segments = segments.filter fun t => 0 < t.extent.length) ∧
    ((∃ s, ofSegments segments = .ok s) ↔
      (∃ stop, Consecutive 0 ((dropEmpty segments).map (·.extent)) stop) ∧
        ∀ t ∈ dropEmpty segments, t.extent.length ≤ t.source.length) ∧
    (∀ s, ofSegments segments = .ok s →
      s.segments.toList = dropEmpty segments ∧
      s.length = ((dropEmpty segments).map (·.extent.length)).sum ∧
      (∀ t ∈ (dropEmpty segments).getLast?, s.length = t.extent.stop) ∧
      (dropEmpty segments = [] → s.length = 0) ∧
      ∀ offset < s.length, ∃! i : Nat, ∃ t : Segment,
        s.segments[i]? = some t ∧ t.extent.contains offset = true) ∧
    (∀ e, ofSegments segments = .error e ↔ ∃ before t after stop,
      dropEmpty segments = before ++ t :: after ∧
      Consecutive 0 (before.map (·.extent)) stop ∧
      (∀ u ∈ before, u.extent.length ≤ u.source.length) ∧ Misfits before.length stop t e) ∧
    ∀ others, dropEmpty others = dropEmpty segments →
      ofSegments others = ofSegments segments := by
  refine ⟨?_, ?_, ?_, ?_, fun others h => ofSegments_congr h⟩
  · refine List.filter_congr fun t _ => ?_
    rw [Bool.eq_iff_iff, Bool.not_eq_true', isEmpty_eq_false_iff, decide_eq_true_iff]
  · rw [exists_ofSegments_iff]
    constructor
    · rintro ⟨stop, htiles⟩
      obtain ⟨hextents, hsegments⟩ := tiles_iff.mp htiles
      exact ⟨⟨stop, hextents⟩, fun t ht => (hsegments t ht).2⟩
    · rintro ⟨⟨stop, hextents⟩, hcovered⟩
      exact ⟨stop, tiles_iff.mpr ⟨hextents, fun t ht =>
        ⟨length_pos_of_mem_dropEmpty ht, hcovered t ht⟩⟩⟩
  · intro s hs
    have htable := toList_segments_of_ofSegments hs
    obtain ⟨hextents, -⟩ := tiles_iff.mp (tiles_of_ofSegments hs)
    refine ⟨htable, ?_, fun t ht => ?_, fun hnone => ?_, fun offset hlt => ?_⟩
    · rw [hextents.stop_eq_sum, Nat.zero_add, List.map_map]
      rfl
    · apply hextents.stop_of_getLast?
      rw [List.getLast?_map]
      exact Option.mem_map_of_mem _ ht
    · rw [hnone] at hextents
      exact hextents.symm
    · have howner := hextents.existsUnique_owner (Nat.zero_le offset) hlt
      rw [← htable] at howner
      simpa only [Array.getElem?_toList] using howner
  · intro e
    rw [ofSegments_eq_error_iff]
    constructor
    · rintro ⟨before, t, after, stop, hsplit, htiles, ht⟩
      obtain ⟨hextents, hsegments⟩ := tiles_iff.mp htiles
      exact ⟨before, t, after, stop, hsplit, hextents, fun u hu => (hsegments u hu).2, ht⟩
    · rintro ⟨before, t, after, stop, hsplit, hextents, hcovered, ht⟩
      refine ⟨before, t, after, stop, hsplit, tiles_iff.mpr ⟨hextents, fun u hu => ?_⟩, ht⟩
      have hmem : u ∈ dropEmpty segments := hsplit ▸ List.mem_append_left _ hu
      exact ⟨length_pos_of_mem_dropEmpty hmem, hcovered u hu⟩

/-- An extent that is to be filled from `data`. -/
def filledFrom (data : Bytes) (start length : Nat) (h : length < addressSpace - start) : Segment :=
  ⟨.ofBytes data, ⟨start, length, Nat.add_lt_of_lt_sub' h⟩, .memory⟩

/-- Four bytes and three, with empty segments at the end of the address space and inside the
four bytes. -/
def strayEmpties : List Segment :=
  [filledFrom [] (addressSpace - 1) 0 (by decide), filledFrom [1, 2, 3, 4] 0 4 (by decide),
    filledFrom [] 1 0 (by decide), filledFrom [5, 6, 7] 4 3 (by decide)]

/-- Four bytes, and after a gap a source that is too short. -/
def gapThenShort : List Segment :=
  [filledFrom [] 9 0 (by decide), filledFrom [1, 2, 3, 4] 0 4 (by decide),
    filledFrom [] 6 3 (by decide)]

theorem ofSegments_outcome_strayEmpties :
    (∃ s, ofSegments strayEmpties = .ok s ∧ s.length = 7 ∧
      ∃! i : Nat, ∃ t : Segment, s.segments[i]? = some t ∧ t.extent.contains 4 = true) ∧
    ofSegments gapThenShort = .error (.notContiguous 1 4 6) := by
  constructor
  · obtain ⟨-, haccepts, hstream, -⟩ := ofSegments_outcome strayEmpties
    obtain ⟨s, hs⟩ := haccepts.mpr ⟨⟨7, rfl, rfl, rfl⟩, by decide⟩
    obtain ⟨-, hlength, -, -, howner⟩ := hstream s hs
    have hseven : s.length = 7 := hlength
    exact ⟨s, hs, hseven, howner 4 (by omega)⟩
  · obtain ⟨-, -, -, hfails, -⟩ := ofSegments_outcome gapThenShort
    -- the segment is counted without the empty one, and its gap is reported, not its source
    refine (hfails _).mpr ⟨[filledFrom [1, 2, 3, 4] 0 4 (by decide)],
      filledFrom [] 6 3 (by decide), [], 4, rfl, ⟨rfl, rfl⟩, by decide, ?_⟩
    exact .apart (by decide)

end VirtualStream

end VirtualFiles
