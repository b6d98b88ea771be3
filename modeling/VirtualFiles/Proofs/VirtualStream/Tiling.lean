import VirtualFiles.VirtualStream.Basic

/-!
# The table of a stream

The segments of a stream tile the addresses below its length. So every such address lies in
one segment, the segments before that one end at or before the address, and the segments
after it begin after the address. The search for the segment of an address rests on this.

## Main results

* `Tiles.append_iff` — a tiling can be cut between any two segments
* `Tiles.length_le`, `Tiles.stop_lt` — how many segments there may be, and where they end
* `Tiles.exists_owner` — every address of a tiled interval lies in a segment
* `toList_segments_of_ofSegments` — the table of a stream holds the segments that are not empty
* `ofSegments_of_tiles` — segments that tile the addresses from `0` on form a stream
* `segmentIndex?_eq_some` — the search finds the segment that holds the address
-/

namespace VirtualFiles

variable {start middle stop offset : Nat} {segment : Segment}
variable {segments before after : List Segment}

namespace Tiles

theorem le (h : Tiles start segments stop) : start ≤ stop := by
  induction h with
  | nil => exact Nat.le_refl _
  | cons starts _ _ _ ih =>
    simp only [Extent.stop] at ih
    omega

theorem append (h : Tiles start before middle) (h' : Tiles middle after stop) :
    Tiles start (before ++ after) stop := by
  induction h with
  | nil => exact h'
  | cons starts nonempty covered _ ih => exact .cons starts nonempty covered (ih h')

/-- A tiling can be cut between any two segments. -/
theorem append_iff : Tiles start (before ++ after) stop ↔
    ∃ middle, Tiles start before middle ∧ Tiles middle after stop := by
  constructor
  · intro h
    induction before generalizing start with
    | nil => exact ⟨start, .nil start, h⟩
    | cons segment rest ih =>
      cases h with
      | cons starts nonempty covered follows =>
        obtain ⟨middle, hrest, hafter⟩ := ih follows
        exact ⟨middle, .cons starts nonempty covered hrest, hafter⟩
  · rintro ⟨middle, hbefore, hafter⟩
    exact hbefore.append hafter

/-- The segments of a tiling are not empty and lie in the interval tiled. -/
theorem bounds_of_mem (h : Tiles start segments stop) (hmem : segment ∈ segments) :
    0 < segment.extent.length ∧ start ≤ segment.extent.start ∧ segment.extent.stop ≤ stop := by
  induction h with
  | nil => cases hmem
  | cons starts nonempty _ follows ih =>
    rcases List.mem_cons.mp hmem with rfl | htail
    · exact ⟨nonempty, Nat.le_of_eq starts.symm, follows.le⟩
    · obtain ⟨hpos, hstart, hstop⟩ := ih htail
      simp only [Extent.stop] at *
      exact ⟨hpos, by omega, hstop⟩

/-- The sources of a tiling announce enough bytes. -/
theorem covered_of_mem (h : Tiles start segments stop) (hmem : segment ∈ segments) :
    segment.extent.length ≤ segment.source.length := by
  induction h with
  | nil => cases hmem
  | cons _ _ covered _ ih =>
    rcases List.mem_cons.mp hmem with rfl | htail
    · exact covered
    · exact ih htail

theorem lt_stop_of_mem_head? (h : Tiles start segments stop) (hmem : segment ∈ segments.head?) :
    start < segment.extent.stop := by
  cases h with
  | nil => cases hmem
  | cons starts nonempty _ _ =>
    cases hmem
    simp only [Extent.stop]
    omega

/-- A tiling has no more segments than addresses. -/
theorem length_le (h : Tiles start segments stop) : start + segments.length ≤ stop := by
  induction h with
  | nil => exact Nat.le_refl _
  | cons starts nonempty _ _ ih =>
    simp only [Extent.stop, List.length_cons] at *
    omega

theorem eq_nil_of_le (h : Tiles start segments stop) (hle : stop ≤ start) : segments = [] := by
  have hlength := h.length_le
  exact List.length_eq_zero_iff.mp (by omega)

/-- A tiling of some addresses begins with a segment. -/
theorem exists_cons (h : Tiles start segments stop) (hlt : start < stop) :
    ∃ first rest, segments = first :: rest ∧ first.extent.start = start := by
  cases h with
  | nil => exact absurd hlt (Nat.lt_irrefl _)
  | cons starts _ _ _ => exact ⟨_, _, rfl, starts⟩

/-- The end of a tiling is an address. -/
theorem stop_lt (h : Tiles start segments stop) (hstart : start < addressSpace) :
    stop < addressSpace := by
  induction h with
  | nil => exact hstart
  | @cons segment _ _ _ _ _ _ _ ih => exact ih segment.extent.stop_lt

/-- Every address of a tiled interval lies in a segment. -/
theorem exists_owner (h : Tiles start segments stop) (hle : start ≤ offset) (hlt : offset < stop) :
    ∃ before segment after, segments = before ++ segment :: after ∧
      segment.extent.start ≤ offset ∧ offset < segment.extent.stop := by
  induction h with
  | nil => omega
  | @cons segment rest start stop starts _ _ _ ih =>
    by_cases hin : offset < segment.extent.stop
    · exact ⟨[], segment, rest, rfl, by omega, hin⟩
    · obtain ⟨before, owner, after, rfl, howner⟩ := ih (by omega) hlt
      exact ⟨segment :: before, owner, after, rfl, howner⟩

end Tiles

namespace VirtualStream

variable {s : VirtualStream}

theorem length_lt (s : VirtualStream) : s.length < addressSpace := s.tiles.stop_lt (by decide)

/-- The table of a stream holds the segments that are not empty, in their order. -/
theorem toList_segments_of_ofSegments (h : ofSegments segments = .ok s) :
    s.segments.toList = dropEmpty segments := by
  unfold ofSegments at h
  split at h
  · cases h
    rfl
  · cases h

theorem dropEmpty_append : dropEmpty (before ++ after) = dropEmpty before ++ dropEmpty after :=
  List.filter_append before after

theorem dropEmpty_cons_of_eq_zero (h : segment.extent.length = 0) :
    dropEmpty (segment :: after) = dropEmpty after :=
  List.filter_cons_of_neg (by rw [Extent.isEmpty_iff.mpr h]; exact Bool.false_ne_true)

theorem dropEmpty_cons_of_pos (h : 0 < segment.extent.length) :
    dropEmpty (segment :: after) = segment :: dropEmpty after :=
  List.filter_cons_of_pos (by
    rw [Bool.not_eq_true', Bool.eq_false_iff, ne_eq, Extent.isEmpty_iff]
    exact Nat.ne_of_gt h)

/-- The segments of a tiling are not empty, so none of them is dropped. -/
theorem dropEmpty_of_tiles (h : Tiles start segments stop) : dropEmpty segments = segments := by
  induction h with
  | nil => rfl
  | cons _ nonempty _ _ ih => rw [dropEmpty_cons_of_pos nonempty, ih]

/-- A single segment tiles its extent. -/
theorem tiles_singleton (covered : segment.extent.length ≤ segment.source.length) :
    Tiles segment.extent.start (dropEmpty [segment]) segment.extent.stop := by
  rcases Nat.eq_zero_or_pos segment.extent.length with hzero | hpos
  · rw [dropEmpty_cons_of_eq_zero hzero, Extent.stop, hzero]
    exact .nil _
  · rw [dropEmpty_cons_of_pos hpos]
    exact .cons rfl hpos covered (.nil _)

theorem tile_of_tiles (h : Tiles start segments stop) (index : Nat)
    (nonempty : ∀ t ∈ segments, t.extent.isEmpty = false) :
    tile index start segments nonempty = .ok ⟨stop, h⟩ := by
  induction h generalizing index with
  | nil => rfl
  | cons starts _ covered _ ih => rw [tile, dif_pos starts, dif_pos covered, ih]

/-- Segments that tile the addresses from `0` on, the empty ones aside, form a stream. -/
theorem ofSegments_of_tiles (h : Tiles 0 (dropEmpty segments) stop) :
    ofSegments segments = .ok ⟨(dropEmpty segments).toArray, stop, h⟩ := by
  rw [ofSegments, tile_of_tiles h]

/-- The segments that a stream was built of tile the addresses below its length. -/
theorem tiles_of_ofSegments (h : ofSegments segments = .ok s) :
    Tiles 0 (dropEmpty segments) s.length := by
  rw [← toList_segments_of_ofSegments h]
  exact s.tiles

/-- The segments before the one that holds an address are the ones that end by it. -/
theorem endsBy_iff (htable : s.segments.toList = before ++ segment :: after)
    (hstart : segment.extent.start ≤ offset) (hstop : offset < segment.extent.stop) {index : Nat} :
    s.endsBy offset index = true ↔ index < before.length := by
  have htiles := s.tiles
  rw [htable] at htiles
  obtain ⟨middle, hbefore, hrest⟩ := Tiles.append_iff.mp htiles
  cases hrest with
  | cons starts _ _ hafter =>
    rw [endsBy, ← Array.getElem?_toList, htable]
    rcases Nat.lt_trichotomy index before.length with hlt | rfl | hgt
    · rw [List.getElem?_append_left hlt, List.getElem?_eq_getElem hlt]
      have := (hbefore.bounds_of_mem (List.getElem_mem hlt)).2.2
      simp only [Option.any_some, decide_eq_true_eq]
      omega
    · rw [List.getElem?_append_right (Nat.le_refl _), Nat.sub_self, List.getElem?_cons_zero]
      simp only [Option.any_some, decide_eq_true_eq]
      omega
    · rw [List.getElem?_append_right (by omega), List.getElem?_cons, if_neg (by omega)]
      cases hget : after[index - before.length - 1]? with
      | none =>
        simp only [Option.any_none, Bool.false_eq_true, false_iff]
        omega
      | some later =>
        obtain ⟨hpos, hle, -⟩ := hafter.bounds_of_mem (List.mem_of_getElem? hget)
        have hlater : ¬ later.extent.stop ≤ offset := by
          simp only [Extent.stop] at *
          omega
        simp only [Option.any_some, decide_eq_true_eq]
        omega

/-- The search finds the segment that holds the address. -/
theorem segmentIndex?_eq_some (htable : s.segments.toList = before ++ segment :: after)
    (hstart : segment.extent.start ≤ offset) (hstop : offset < segment.extent.stop) :
    s.segmentIndex? offset = some before.length := by
  have hlength : segment.extent.stop ≤ s.length :=
    (s.tiles.bounds_of_mem (by rw [htable]; simp)).2.2
  have hsize : s.segments.size = before.length + after.length + 1 := by
    rw [← Array.length_toList, htable]
    simp only [List.length_append, List.length_cons]
    omega
  have hends : ∀ index, s.endsBy offset index = true ↔ index < before.length :=
    fun _ => endsBy_iff htable hstart hstop
  have hmono : ∀ i j, i ≤ j → s.endsBy offset j = true → s.endsBy offset i = true :=
    fun i j hij hj => (hends i).mpr (Nat.lt_of_le_of_lt hij ((hends j).mp hj))
  obtain ⟨-, hle, hholds, hfails⟩ := bisect_spec hmono (Nat.zero_le s.segments.size)
  rw [segmentIndex?, if_neg (by omega), Option.some.injEq]
  rcases Nat.lt_trichotomy (bisect (s.endsBy offset) 0 s.segments.size) before.length with
    hlt | heq | hgt
  · have hfalse := hfails (by omega)
    rw [(hends _).mpr hlt] at hfalse
    cases hfalse
  · exact heq
  · have htrue := hholds before.length (Nat.zero_le _) hgt
    exact absurd ((hends _).mp htrue) (Nat.lt_irrefl _)

theorem exists_segmentIndex? (s : VirtualStream) (h : offset < s.length) :
    ∃ before segment after, s.segments.toList = before ++ segment :: after ∧
      segment.extent.start ≤ offset ∧ offset < segment.extent.stop ∧
      s.segmentIndex? offset = some before.length := by
  obtain ⟨before, segment, after, htable, hstart, hstop⟩ :=
    s.tiles.exists_owner (Nat.zero_le offset) h
  exact ⟨before, segment, after, htable, hstart, hstop, segmentIndex?_eq_some htable hstart hstop⟩

end VirtualStream

end VirtualFiles
