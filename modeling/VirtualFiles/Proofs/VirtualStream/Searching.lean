import VirtualFiles.Proofs.VirtualStream.Assembly
import VirtualFiles.Proofs.VirtualStream.Dispatch

/-!
# The owner of an address

An address below the length of a stream lies in exactly one segment, and the search over the ends
of the segments finds that one. The ends ascend because the segments tile the addresses, so the
segments that end by an address are the first ones of the table, and the search may halve it.

## Main results

* `stop_lt_stop` — the ends of the segments ascend
* `segmentIndex?_eq_some_iff`, `segmentIndex?_eq_none_iff` — what the search comes to
* `segmentIndex?_start`, `segmentIndex?_stop` — the two ends of a segment
* `segmentIndex?_mono` — a later address does not lie in an earlier segment
* `segmentIndex_iff_contains` — the search finds the only segment that holds the address
-/

namespace VirtualFiles.VirtualStream

open Extent

variable {s : VirtualStream} {t u : Segment} {offset later index i j : Nat}

/-- An entry of the table, and the entries around it. -/
theorem exists_split (h : s.segments[index]? = some t) :
    ∃ before after, s.segments.toList = before ++ t :: after ∧ before.length = index := by
  rw [← Array.getElem?_toList] at h
  obtain ⟨hlt, rfl⟩ := List.getElem?_eq_some_iff.mp h
  refine ⟨s.segments.toList.take index, s.segments.toList.drop (index + 1), ?_, ?_⟩
  · rw [List.getElem_cons_drop, List.take_append_drop]
  · rw [List.length_take, Nat.min_eq_left (Nat.le_of_lt hlt)]

theorem consecutive_segments (s : VirtualStream) :
    Consecutive 0 (s.segments.toList.map (·.extent)) s.length :=
  (tiles_iff.mp s.tiles).1

/-- The segments lie below the length of the stream, and none is empty. -/
theorem bounds_of_getElem? (h : s.segments[index]? = some t) :
    t.extent.start < t.extent.stop ∧ t.extent.stop ≤ s.length := by
  rw [← Array.getElem?_toList] at h
  obtain ⟨hpos, -, hstop⟩ := s.tiles.bounds_of_mem (List.mem_of_getElem? h)
  exact ⟨Nat.lt_add_of_pos_right hpos, hstop⟩

/-- A segment ends before every later one begins. -/
theorem stop_le_start (ht : s.segments[i]? = some t) (hu : s.segments[j]? = some u) (hlt : i < j) :
    t.extent.stop ≤ u.extent.start := by
  rw [← Array.getElem?_toList] at ht hu
  obtain ⟨hi, rfl⟩ := List.getElem?_eq_some_iff.mp ht
  obtain ⟨hj, rfl⟩ := List.getElem?_eq_some_iff.mp hu
  exact List.pairwise_iff_getElem.mp (List.pairwise_map.mp s.consecutive_segments.pairwise)
    i j hi hj hlt

/-- The ends of the segments ascend. -/
theorem stop_lt_stop (ht : s.segments[i]? = some t) (hu : s.segments[j]? = some u) (hlt : i < j) :
    t.extent.stop < u.extent.stop :=
  Nat.lt_of_le_of_lt (stop_le_start ht hu hlt) (bounds_of_getElem? hu).1

theorem segmentIndex?_eq_none_iff : s.segmentIndex? offset = none ↔ s.length ≤ offset := by
  constructor
  · intro h
    by_contra hlt
    obtain ⟨_, _, _, -, -, -, hindex⟩ := s.exists_segmentIndex? (Nat.lt_of_not_le hlt)
    rw [h] at hindex
    cases hindex
  · exact fun hle => if_pos hle

theorem segmentIndex?_eq_some_iff : s.segmentIndex? offset = some index ↔
    ∃ t, s.segments[index]? = some t ∧ t.extent.contains offset = true := by
  constructor
  · intro h
    have hlt : offset < s.length := by
      by_contra hle
      rw [segmentIndex?_eq_none_iff.mpr (Nat.le_of_not_lt hle)] at h
      cases h
    obtain ⟨before, t, after, htable, hstart, hstop, hindex⟩ := s.exists_segmentIndex? hlt
    obtain rfl : before.length = index := Option.some.inj (hindex.symm.trans h)
    refine ⟨t, ?_, contains_iff.mpr ⟨hstart, hstop⟩⟩
    rw [← Array.getElem?_toList, htable, List.getElem?_append_right (Nat.le_refl _), Nat.sub_self,
      List.getElem?_cons_zero]
  · rintro ⟨t, ht, hcontains⟩
    obtain ⟨hstart, hstop⟩ := contains_iff.mp hcontains
    obtain ⟨before, after, htable, rfl⟩ := exists_split ht
    exact segmentIndex?_eq_some htable hstart hstop

/-! ### The boundaries -/

/-- The first address of a segment lies in it. -/
theorem segmentIndex?_start (h : s.segments[index]? = some t) :
    s.segmentIndex? t.extent.start = some index :=
  segmentIndex?_eq_some_iff.mpr
    ⟨t, h, contains_iff.mpr ⟨Nat.le_refl _, (bounds_of_getElem? h).1⟩⟩

/-- The end of a segment lies in the next one, if there is one. -/
theorem segmentIndex?_stop (h : s.segments[index]? = some t) :
    s.segmentIndex? t.extent.stop =
      if index + 1 < s.segments.size then some (index + 1) else none := by
  obtain ⟨before, after, htable, rfl⟩ := exists_split h
  have hsize : s.segments.size = before.length + 1 + after.length := by
    rw [← Array.length_toList, htable, List.length_append, List.length_cons]
    omega
  -- the segments from this one on begin with it, and the rest of them where it ends
  have hextents := s.consecutive_segments
  rw [htable, List.map_append] at hextents
  obtain ⟨middle, -, -, hrest⟩ := consecutive_append_iff.mp hextents
  cases after with
  | nil =>
    have hend : t.extent.stop = s.length := hrest
    rw [if_neg (by rw [hsize, List.length_nil]; omega)]
    exact segmentIndex?_eq_none_iff.mpr (Nat.le_of_eq hend.symm)
  | cons u rest =>
    have hu : s.segments[before.length + 1]? = some u := by
      rw [← Array.getElem?_toList, htable, List.getElem?_append_right (Nat.le_add_right _ 1),
        Nat.add_sub_cancel_left, List.getElem?_cons_succ, List.getElem?_cons_zero]
    rw [if_pos (by rw [hsize, List.length_cons]; omega), ← hrest.1]
    exact segmentIndex?_start hu

/-- A later address does not lie in an earlier segment. -/
theorem segmentIndex?_mono (hle : offset ≤ later) (hi : s.segmentIndex? offset = some i)
    (hj : s.segmentIndex? later = some j) : i ≤ j := by
  obtain ⟨t, ht, hoffset⟩ := segmentIndex?_eq_some_iff.mp hi
  obtain ⟨u, hu, hlater⟩ := segmentIndex?_eq_some_iff.mp hj
  rw [contains_iff] at hoffset hlater
  by_contra hlt
  have := stop_le_start hu ht (Nat.lt_of_not_le hlt)
  omega

/-- The search for the segment of an address finds a segment exactly if its extent holds the
address, and finds none exactly if the stream ends by then. So an address below the length lies in
exactly one segment, and the search finds that one. -/
theorem segmentIndex_iff_contains (s : VirtualStream) (offset : Nat) :
    (∀ i, s.segmentIndex? offset = some i ↔
      ∃ t, s.segments[i]? = some t ∧ t.extent.contains offset = true) ∧
    (s.segmentIndex? offset = none ↔ s.length ≤ offset) ∧
    (offset < s.length → ∃! i : Nat, ∃ t : Segment,
      s.segments[i]? = some t ∧ t.extent.contains offset = true) := by
  refine ⟨fun i => segmentIndex?_eq_some_iff, segmentIndex?_eq_none_iff, fun hlt => ?_⟩
  obtain ⟨before, t, after, -, -, -, hindex⟩ := s.exists_segmentIndex? hlt
  refine ⟨before.length, segmentIndex?_eq_some_iff.mp hindex, fun i howner => ?_⟩
  exact Option.some.inj ((segmentIndex?_eq_some_iff.mpr howner).symm.trans hindex)

/-- The search is right up to the last address: the second segment of this stream ends there. -/
theorem segmentIndex_iff_contains_topmostStream :
    topmostStream.segmentIndex? (addressSpace - 12) = some 0 ∧
    topmostStream.segmentIndex? (addressSpace - 11) = some 1 ∧
    topmostStream.segmentIndex? (addressSpace - 1) = none ∧
    ∃! i : Nat, ∃ t : Segment, topmostStream.segments[i]? = some t ∧
      t.extent.contains (addressSpace - 2) = true := by
  have hsearch := segmentIndex_iff_contains topmostStream
  exact ⟨((hsearch _).1 0).mpr ⟨_, rfl, by decide⟩, ((hsearch _).1 1).mpr ⟨_, rfl, by decide⟩,
    (hsearch _).2.1.mpr (Nat.le_refl _), (hsearch _).2.2 (by decide)⟩

end VirtualFiles.VirtualStream
