import Mathlib.Data.List.TakeDrop
import VirtualFiles.Proofs.Source.Delivery
import VirtualFiles.Proofs.VirtualStream.Tiling

/-!
# What a read of a stream gives

Let every segment have a source that delivers some bytes, possibly fewer than its extent
needs. Put side by side, each cut to its extent, these bytes are the image of the stream. A
read gives a window of the image, provided that every segment it meets has the bytes that the
read wants of it. If one has not, the read fails there, and nothing is given in place of the
missing bytes.

## Main definitions

* `VirtualStream.image` — the bytes of all segments, one segment after the other
* `VirtualStream.Lacks` — a read wants more of a segment than its source holds

## Main results

* `readFrom_eq_ok`, `readFrom_eq_error` — what the loop over the segments gives
* `readAt_eq_ok`, `readAt_eq_error` — what a read gives
* `readAt_of_delivers` — the two cases together, for a stream as it was built
-/

namespace VirtualFiles

namespace Bytes

variable {bytes : Bytes} {fill : UInt8} {offset count n i : Nat}

theorem getElem?_takeD :
    (bytes.takeD n fill)[i]? = if i < n then some (bytes[i]?.getD fill) else none := by
  induction n generalizing bytes i with
  | zero => simp
  | succ n ih =>
    cases i with
    | zero => simp [List.head?_eq_getElem?]
    | succ i => simp [ih]

/-- The bytes of a string that is brought to a fixed length, where the string has bytes of its
own. -/
theorem window_takeD (h : min (offset + count) n ≤ bytes.length) :
    window (bytes.takeD n fill) offset count = bytes.window offset (min count (n - offset)) := by
  refine List.ext_getElem? fun i => ?_
  rw [getElem?_window, getElem?_window, getElem?_takeD]
  by_cases hi : i < min count (n - offset)
  · rw [if_pos (by omega), if_pos (by omega), if_pos hi, List.getElem?_eq_getElem (by omega)]
    rfl
  · rw [if_neg hi]
    split
    · rw [if_neg (by omega)]
    · rfl

end Bytes

namespace VirtualStream

variable {fs : FileSystem} {held : Segment → Bytes} {fill : UInt8}
variable {segment : Segment} {segments before after rest : List Segment}
variable {index start stop position remaining : Nat}

/-- The bytes of the segments one after the other, of each as many as its extent is long.
`held` are the bytes of the sources; `fill` stands in the places for which there are none. -/
def image (held : Segment → Bytes) (fill : UInt8) (segments : List Segment) : Bytes :=
  segments.flatMap fun t => (held t).takeD t.extent.length fill

@[simp] theorem image_nil : image held fill [] = [] := rfl

theorem image_cons : image held fill (segment :: rest) =
    (held segment).takeD segment.extent.length fill ++ image held fill rest := rfl

theorem image_append : image held fill (before ++ after) =
    image held fill before ++ image held fill after := List.flatMap_append

theorem length_image (tiles : Tiles start segments stop) :
    (image held fill segments).length = stop - start := by
  induction tiles with
  | nil => simp
  | cons starts _ _ follows ih =>
    have := follows.le
    rw [image_cons, List.length_append, List.takeD_length, ih]
    simp only [Extent.stop] at *
    omega

/-- The image from an address on that lies after the first segments. -/
theorem window_image_append (tiles : Tiles 0 before start) (hle : start ≤ position) :
    (image held fill (before ++ after)).window position remaining =
      (image held fill after).window (position - start) remaining := by
  have hlength : (image held fill before).length = start := length_image tiles
  rw [image_append, Bytes.window_append, hlength, Bytes.window_of_length_le (by omega),
    List.nil_append, Nat.sub_eq_zero_of_le hle, Nat.sub_zero]

/-- Empty segments add nothing to the image. -/
theorem image_dropEmpty : image held fill (dropEmpty segments) = image held fill segments := by
  induction segments with
  | nil => rfl
  | cons t rest ih =>
    rcases Nat.eq_zero_or_pos t.extent.length with hzero | hpos
    · rw [dropEmpty_cons_of_eq_zero hzero, image_cons, hzero, List.takeD_zero, List.nil_append, ih]
    · rw [dropEmpty_cons_of_pos hpos, image_cons, image_cons, ih]

/-- A read of the addresses from `start` to `stop` meets the segment and wants bytes of it that
its source does not hold. -/
def Lacks (held : Segment → Bytes) (start stop : Nat) (t : Segment) : Prop :=
  start < t.extent.stop ∧ t.extent.start < stop ∧
    (held t).length < min stop t.extent.stop - t.extent.start

instance : Decidable (Lacks held start stop segment) :=
  inferInstanceAs (Decidable (_ ∧ _ ∧ _))

/-- A segment that a part of a read finds lacking is lacking for the whole read. -/
theorem Lacks.mono (hle : start ≤ position) (h : Lacks held position stop segment) :
    Lacks held start stop segment :=
  ⟨Nat.lt_of_le_of_lt hle h.1, h.2⟩

/-- A segment that does not lack what a read wants of it holds the piece of the read that lies in
its extent. -/
theorem le_length_of_not_lacks (hle : segment.extent.start ≤ position)
    (hlt : position < segment.extent.stop) (hstop : segment.extent.stop ≤ stop)
    (h : ¬ Lacks held position (min (position + remaining) stop) segment) :
    min (position + remaining) segment.extent.stop - segment.extent.start ≤
      (held segment).length := by
  simp only [Lacks, not_and, Nat.not_lt] at h
  by_cases hmeets : segment.extent.start < min (position + remaining) stop
  · have := h hlt hmeets
    omega
  · omega

/-! ### The loop over the segments -/

/-- The image from an address of its first segment on, if the source of the segment holds what is
wanted of it. -/
theorem window_image_cons (hle : segment.extent.start ≤ position)
    (hlt : position < segment.extent.stop)
    (hheld : min (position + remaining) segment.extent.stop - segment.extent.start ≤
      (held segment).length) :
    (image held fill (segment :: rest)).window (position - segment.extent.start) remaining =
      (held segment).window (position - segment.extent.start)
          (min remaining (segment.extent.stop - position)) ++
        (image held fill rest).window 0 (position + remaining - segment.extent.stop) := by
  simp only [Extent.stop] at *
  rw [image_cons, Bytes.window_append, List.takeD_length, Bytes.window_takeD (by omega)]
  congr 2 <;> omega

/-- One round of the loop, if the source holds the piece. -/
theorem readFrom_cons_eq_ok (hdelivers : segment.source.Delivers fs (held segment))
    (hle : segment.extent.start ≤ position) (hlt : position < segment.extent.stop)
    (hheld : min (position + remaining) segment.extent.stop - segment.extent.start ≤
      (held segment).length) :
    readFrom fs index (segment :: rest) position remaining =
      if position + remaining ≤ segment.extent.stop then
        .ok ((held segment).window (position - segment.extent.start) remaining)
      else
        (readFrom fs (index + 1) rest segment.extent.stop
          (position + remaining - segment.extent.stop)).map
          ((held segment).window (position - segment.extent.start)
            (segment.extent.stop - position) ++ ·) := by
  have hpiece : min (segment.extent.length - (position - segment.extent.start)) remaining =
      min remaining (segment.extent.stop - position) := by
    simp only [Extent.stop] at *
    omega
  simp only [readFrom, hpiece]
  rw [hdelivers.readExactAt_eq_ok (by omega)]
  by_cases hwithin : position + remaining ≤ segment.extent.stop
  · have hall : min remaining (segment.extent.stop - position) = remaining := by omega
    simp only [hall, if_true, if_pos hwithin]
  · have hpart : min remaining (segment.extent.stop - position) =
        segment.extent.stop - position := by omega
    simp only [hpart]
    rw [if_neg (by omega), if_neg hwithin,
      show position + (segment.extent.stop - position) = segment.extent.stop by omega,
      show remaining - (segment.extent.stop - position) =
        position + remaining - segment.extent.stop by omega]

/-- One round of the loop, if the source ends within the piece. -/
theorem readFrom_cons_eq_error (hdelivers : segment.source.Delivers fs (held segment))
    (hle : segment.extent.start ≤ position) (hpos : 0 < remaining)
    (hlacks : Lacks held position (position + remaining) segment) :
    readFrom fs index (segment :: rest) position remaining =
      .error (.shortRead index segment.kind segment.extent (position - segment.extent.start)) := by
  obtain ⟨hlt, hmeets, hshort⟩ := hlacks
  simp only [readFrom, Extent.stop] at *
  rw [hdelivers.readExactAt_eq_error (by omega) (by omega)]
  rfl

/-- The loop gives a window of the image if no segment lacks what is wanted of it. -/
theorem readFrom_eq_ok (tiles : Tiles start segments stop)
    (hdelivers : ∀ t ∈ segments, t.source.Delivers fs (held t)) (hle : start ≤ position)
    (hlt : ∀ t ∈ segments.head?, position < t.extent.stop)
    (hheld : ∀ t ∈ segments, ¬ Lacks held position (min (position + remaining) stop) t) :
    readFrom fs index segments position remaining =
      .ok ((image held fill segments).window (position - start) remaining) := by
  induction tiles generalizing index position remaining with
  | nil => rw [image_nil, Bytes.window_of_length_le (Nat.zero_le _), readFrom]
  | @cons segment rest start stop starts nonempty covered follows ih =>
    obtain rfl := starts
    have hin : position < segment.extent.stop := hlt segment rfl
    have hpiece := le_length_of_not_lacks hle hin follows.le (hheld segment List.mem_cons_self)
    rw [readFrom_cons_eq_ok (hdelivers segment List.mem_cons_self) hle hin hpiece,
      window_image_cons hle hin hpiece]
    by_cases hwithin : position + remaining ≤ segment.extent.stop
    · rw [if_pos hwithin, Nat.sub_eq_zero_of_le hwithin, Bytes.window_zero_right, List.append_nil,
        Nat.min_eq_left (by omega)]
    · -- the rest of the read begins where the next segment does
      have hrest : ∀ t ∈ rest, ¬ Lacks held segment.extent.stop
          (min (segment.extent.stop + (position + remaining - segment.extent.stop)) stop) t := by
        intro t ht hlacks
        rw [Nat.add_sub_cancel' (by omega)] at hlacks
        exact hheld t (List.mem_cons_of_mem _ ht) (hlacks.mono (Nat.le_of_lt hin))
      rw [if_neg hwithin, ih (fun t ht => hdelivers t (List.mem_cons_of_mem _ ht)) (Nat.le_refl _)
        (fun t ht => follows.lt_stop_of_mem_head? ht) hrest, Nat.min_eq_right (by omega),
        Nat.sub_self]
      rfl

/-- The loop fails at the first segment that lacks what is wanted of it. -/
theorem readFrom_eq_error (tiles : Tiles start (before ++ segment :: after) stop)
    (hdelivers : ∀ t ∈ before ++ segment :: after, t.source.Delivers fs (held t))
    (hle : start ≤ position) (hpos : 0 < remaining)
    (hlt : ∀ t ∈ (before ++ segment :: after).head?, position < t.extent.stop)
    (hheld : ∀ t ∈ before, ¬ Lacks held position (min (position + remaining) stop) t)
    (hlacks : Lacks held position (min (position + remaining) stop) segment) :
    readFrom fs index (before ++ segment :: after) position remaining =
      .error (.shortRead (index + before.length) segment.kind segment.extent
        (max position segment.extent.start - segment.extent.start)) := by
  induction before generalizing start index position remaining with
  | nil =>
    cases tiles with
    | cons starts nonempty covered follows =>
      obtain rfl := starts
      have hstop := follows.le
      rw [List.nil_append, readFrom_cons_eq_error (hdelivers segment List.mem_cons_self) hle hpos,
        Nat.max_eq_left hle]
      · rfl
      · refine ⟨hlacks.1, ?_, ?_⟩
        · have := hlacks.2.1
          omega
        · have := hlacks.2.2
          omega
  | cons first before ih =>
    cases tiles with
    | cons starts nonempty covered follows =>
      obtain rfl := starts
      have hin : position < first.extent.stop := hlt first rfl
      have hpiece := le_length_of_not_lacks hle hin follows.le (hheld first List.mem_cons_self)
      have hafter : first.extent.stop ≤ segment.extent.start :=
        (follows.bounds_of_mem (List.mem_append_right before List.mem_cons_self)).2.1
      have hbeyond := hlacks.2.1
      -- the rest of the read begins where the next segment does
      have hend : first.extent.stop + (position + remaining - first.extent.stop) =
          position + remaining := Nat.add_sub_cancel' (by omega)
      have hrest : readFrom fs (index + 1) (before ++ segment :: after) first.extent.stop
          (position + remaining - first.extent.stop) =
          .error (.shortRead (index + 1 + before.length) segment.kind segment.extent
            (max first.extent.stop segment.extent.start - segment.extent.start)) := by
        refine ih follows (fun t ht => hdelivers t (List.mem_cons_of_mem _ ht)) (Nat.le_refl _)
          (by omega) (fun t ht => follows.lt_stop_of_mem_head? ht) (fun t ht hfirst => ?_) ?_
        · rw [hend] at hfirst
          exact hheld t (List.mem_cons_of_mem _ ht) (hfirst.mono (Nat.le_of_lt hin))
        · rw [hend]
          refine ⟨?_, hlacks.2⟩
          have := (follows.bounds_of_mem (List.mem_append_right before List.mem_cons_self)).1
          simp only [Extent.stop] at *
          omega
      rw [List.cons_append,
        readFrom_cons_eq_ok (hdelivers first List.mem_cons_self) hle hin hpiece,
        if_neg (by omega), hrest, List.length_cons, Nat.max_eq_right hafter,
        Nat.max_eq_right (by omega), Nat.add_assoc, Nat.add_comm 1]
      rfl

/-! ### Reads of a stream -/

variable {s : VirtualStream} {offset count : Nat}

theorem readAt_eq_nil (h : s.length ≤ offset ∨ count = 0) : s.readAt fs offset count = .ok [] := by
  unfold readAt
  split
  · rfl
  · next hindex =>
    rcases h with hend | hzero
    · rw [segmentIndex?, if_pos hend] at hindex
      cases hindex
    · rw [if_pos hzero]

/-- A read is the loop over the segments from the one that holds the address on. -/
theorem readAt_eq_readFrom (htable : s.segments.toList = before ++ segment :: after)
    (hle : segment.extent.start ≤ offset) (hlt : offset < segment.extent.stop)
    (hpos : 0 < count) :
    s.readAt fs offset count = readFrom fs before.length (segment :: after) offset count := by
  rw [readAt, segmentIndex?_eq_some htable hle hlt, htable]
  simp only [List.drop_left]
  rw [if_neg (by omega)]

/-- The table from a segment on tiles the addresses from there on. -/
theorem tiles_of_table (htable : s.segments.toList = before ++ segment :: after) :
    Tiles 0 before segment.extent.start ∧
      Tiles segment.extent.start (segment :: after) s.length := by
  have htiles := s.tiles
  rw [htable] at htiles
  obtain ⟨middle, hbefore, hrest⟩ := Tiles.append_iff.mp htiles
  cases hrest with
  | cons starts nonempty covered follows =>
    obtain rfl := starts
    exact ⟨hbefore, .cons rfl nonempty covered follows⟩

/-- A read gives a window of the image if no segment lacks what is wanted of it. -/
theorem readAt_eq_ok (hdelivers : ∀ t ∈ s.segments.toList, t.source.Delivers fs (held t))
    (hheld : ∀ t ∈ s.segments.toList, ¬ Lacks held offset (min (offset + count) s.length) t) :
    s.readAt fs offset count = .ok ((image held fill s.segments.toList).window offset count) := by
  by_cases hnil : s.length ≤ offset ∨ count = 0
  · rw [readAt_eq_nil hnil]
    rcases hnil with hend | rfl
    · rw [Bytes.window_of_length_le]
      rw [length_image s.tiles]
      omega
    · rw [Bytes.window_zero_right]
  · have hin : offset < s.length := by omega
    obtain ⟨before, owner, after, htable, hle, hlt, -⟩ := s.exists_segmentIndex? hin
    obtain ⟨hbefore, hrest⟩ := tiles_of_table htable
    have hmem : ∀ t ∈ owner :: after, t ∈ s.segments.toList := fun t ht => by
      rw [htable]
      exact List.mem_append_right _ ht
    rw [readAt_eq_readFrom htable hle hlt (by omega), htable,
      window_image_append hbefore hle]
    exact readFrom_eq_ok hrest (fun t ht => hdelivers t (hmem t ht)) hle
      (fun t ht => by cases ht; exact hlt) (fun t ht => hheld t (hmem t ht))

/-- A read fails at the first segment that lacks what is wanted of it. -/
theorem readAt_eq_error (hdelivers : ∀ t ∈ s.segments.toList, t.source.Delivers fs (held t))
    (htable : s.segments.toList = before ++ segment :: after) (hpos : 0 < count)
    (hheld : ∀ t ∈ before, ¬ Lacks held offset (min (offset + count) s.length) t)
    (hlacks : Lacks held offset (min (offset + count) s.length) segment) :
    s.readAt fs offset count =
      .error (.shortRead before.length segment.kind segment.extent
        (max offset segment.extent.start - segment.extent.start)) := by
  have hin : offset < s.length := Nat.lt_of_lt_of_le hlacks.1
    (s.tiles.bounds_of_mem (by rw [htable]; simp)).2.2
  obtain ⟨earlier, owner, later, htable', hle, hlt, -⟩ := s.exists_segmentIndex? hin
  obtain ⟨hearlier, hrest⟩ := tiles_of_table htable'
  -- the lacking segment ends after the address, so it is not among those before the owner
  obtain ⟨between, rfl, hsplit⟩ : ∃ between, before = earlier ++ between ∧
      owner :: later = between ++ segment :: after := by
    rcases List.append_eq_append_iff.mp (htable.symm.trans htable') with
      ⟨between, hbefore, hsplit⟩ | ⟨between, hbefore, hsplit⟩
    · cases between with
      | nil => exact ⟨[], by simpa using hbefore.symm, by simpa using hsplit.symm⟩
      | cons t between =>
        obtain rfl : segment = t := (List.cons.inj hsplit).1
        have hends : segment.extent.stop ≤ owner.extent.start :=
          (hearlier.bounds_of_mem (by rw [hbefore]; simp)).2.2
        have := hlacks.1
        omega
    · exact ⟨between, hbefore, hsplit⟩
  rw [readAt_eq_readFrom htable' hle hlt hpos]
  rw [hsplit] at hrest ⊢
  rw [readFrom_eq_error hrest _ hle hpos _ _ hlacks, List.length_append]
  · intro t ht
    exact hdelivers t (by rw [htable', hsplit]; exact List.mem_append_right _ ht)
  · intro t ht
    rw [← hsplit] at ht
    cases ht
    exact hlt
  · exact fun t ht => hheld t (List.mem_append_right _ ht)

/-- The image of the segments that a stream was built of is as long as the stream. -/
theorem length_image_of_ofSegments (hs : ofSegments segments = .ok s) :
    (image held fill segments).length = s.length := by
  rw [← image_dropEmpty, ← toList_segments_of_ofSegments hs, length_image s.tiles, Nat.sub_zero]

/-- A stream of sources that hold their whole extents reads as the image. -/
theorem readAt_of_full (hs : ofSegments segments = .ok s)
    (hfull : ∀ t ∈ segments, t.source.Delivers fs (held t) ∧
      t.extent.length ≤ (held t).length) :
    s.readAt fs offset count = .ok ((image held fill segments).window offset count) := by
  have htable := toList_segments_of_ofSegments hs
  have hstored : ∀ t ∈ s.segments.toList, t.source.Delivers fs (held t) ∧
      t.extent.length ≤ (held t).length := fun t ht => by
    rw [htable] at ht
    exact hfull t (List.mem_filter.mp ht).1
  rw [readAt_eq_ok (fun t ht => (hstored t ht).1), htable, image_dropEmpty]
  rintro t ht ⟨-, -, hlacks⟩
  have hlength := (hstored t ht).2
  rw [Extent.stop] at hlacks
  omega

/-- A read of a stream whose sources deliver what they hold. At or after the end of the stream,
and if nothing is asked for, it gives nothing. Otherwise it gives exactly the bytes of the image
up to the end of what was asked for or of the stream, if every segment that it meets holds the
bytes wanted of it; and if not, it fails at the first segment that does not. -/
theorem readAt_of_delivers (hs : ofSegments segments = .ok s)
    (hdelivers : ∀ t ∈ segments, t.source.Delivers fs (held t)) (offset count : Nat)
    (fill : UInt8) :
    (s.length ≤ offset ∨ count = 0 → s.readAt fs offset count = .ok []) ∧
      (offset < s.length → 0 < count →
        ((∀ t ∈ s.segments.toList, ¬ Lacks held offset (min (offset + count) s.length) t) →
          ∃ bytes, s.readAt fs offset count = .ok bytes ∧
            bytes.length = min (offset + count) s.length - offset ∧
            bytes = (image held fill segments).window offset
              (min (offset + count) s.length - offset)) ∧
        (¬ (∀ t ∈ s.segments.toList, ¬ Lacks held offset (min (offset + count) s.length) t) →
          ∃ before t after, s.segments.toList = before ++ t :: after ∧
            (∀ u ∈ before, ¬ Lacks held offset (min (offset + count) s.length) u) ∧
            Lacks held offset (min (offset + count) s.length) t ∧
            s.readAt fs offset count = .error (.shortRead before.length t.kind t.extent
              (max offset t.extent.start - t.extent.start)))) := by
  have htable := toList_segments_of_ofSegments hs
  have hstored : ∀ t ∈ s.segments.toList, t.source.Delivers fs (held t) := fun t ht => by
    rw [htable] at ht
    exact hdelivers t (List.mem_filter.mp ht).1
  have hlength : (image held fill segments).length = s.length := length_image_of_ofSegments hs
  refine ⟨readAt_eq_nil, fun hin hpos => ⟨fun hheld => ?_, fun hlacking => ?_⟩⟩
  · refine ⟨(image held fill segments).window offset (min (offset + count) s.length - offset),
      ?_, Bytes.length_window_of_le (by omega), rfl⟩
    rw [readAt_eq_ok hstored hheld, htable, image_dropEmpty]
    exact congrArg Except.ok (Bytes.window_congr (by omega))
  · cases hfirst : s.segments.toList.find?
        (Lacks held offset (min (offset + count) s.length) ·) with
    | none => exact absurd (by simpa using hfirst) hlacking
    | some t =>
      obtain ⟨hlacks, before, after, hsplit, hbefore⟩ := List.find?_eq_some_iff_append.mp hfirst
      have hheld : ∀ u ∈ before, ¬ Lacks held offset (min (offset + count) s.length) u :=
        fun u hu => by simpa using hbefore u hu
      have ht := of_decide_eq_true hlacks
      exact ⟨before, t, after, hsplit, hheld, ht, readAt_eq_error hstored hsplit hpos hheld ht⟩

/-- A source that holds two of the eight bytes it announces, and four bytes of memory after it. -/
def shortThenFull : List Segment :=
  [⟨Partial.source ⟨[1, 2], 8, none, none⟩, ⟨0, 8, by decide⟩, .other⟩,
    ⟨.ofBytes [3, 4, 5, 6], ⟨8, 4, by decide⟩, .memory⟩]

/-- The bytes that the two sources hold. -/
def shortThenFullHeld (t : Segment) : Bytes :=
  if t.extent.start = 0 then [1, 2] else [3, 4, 5, 6]

theorem delivers_shortThenFull : ∀ t ∈ shortThenFull,
    t.source.Delivers .initial (shortThenFullHeld t) := by
  intro t ht
  simp only [shortThenFull, List.mem_cons, List.not_mem_nil, or_false] at ht
  rcases ht with rfl | rfl
  · exact Source.delivers_partial rfl (by simp)
  · exact Source.delivers_ofBytes _

theorem readAt_shortThenFull : ∃ s, ofSegments shortThenFull = .ok s ∧
    s.readAt .initial 7 0 = .ok [] ∧
    s.readAt .initial 9 2 = .ok [4, 5] ∧
    ∃ before t after, s.segments.toList = before ++ t :: after ∧
      s.readAt .initial 1 11 = .error (.shortRead before.length t.kind t.extent
        (max 1 t.extent.start - t.extent.start)) := by
  refine ⟨_, rfl, ?_, ?_, ?_⟩
  · exact (readAt_of_delivers rfl delivers_shortThenFull 7 0 0).1 (Or.inr rfl)
  · obtain ⟨bytes, hread, -, rfl⟩ := ((readAt_of_delivers rfl delivers_shortThenFull 9 2 0).2
      (by decide) (by decide)).1 (by decide)
    exact hread
  · obtain ⟨before, t, after, htable, -, -, hread⟩ := ((readAt_of_delivers rfl
      delivers_shortThenFull 1 11 0).2 (by decide) (by decide)).2 (by decide)
    exact ⟨before, t, after, htable, hread⟩

end VirtualStream

end VirtualFiles
