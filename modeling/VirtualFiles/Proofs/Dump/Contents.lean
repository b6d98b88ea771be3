import Mathlib.Algebra.GroupWithZero.Nat
import Mathlib.Data.Set.Basic
import Mathlib.Order.Bounds.Defs
import VirtualFiles.Proofs.Dump.Copying

/-!
# What a dump leaves behind

Let a dump have a target that can be made and written and that no source of the stream reads. If
the sources hold every byte of the stream, the target holds the stream afterwards. If not, the
dump fails at the piece in which the first missing byte lies, and the target holds everything
before that piece.

## Main definitions

* `VirtualStream.Missing` — the addresses for which the sources hold no byte
* `Dump.Shows`, `Dump.Steady` — what a segment gives while the target is written
* `Dump.advanced` — how many bytes the reports say were written

## Main results

* `Copies.eq_append`, `CopiesAll.eq_flatMap` — pieces are read as if all were there at once
* `Copies.capacity_le` — where a segment begins that cannot be read from an empty target
* `dump_of_delivers` — what a dump comes to, what it leaves in the target and what it reports
-/

namespace VirtualFiles

namespace VirtualStream

/-- The addresses of the segments for which the sources hold no byte. -/
def Missing (held : Segment → Bytes) (segments : List Segment) : Set Nat :=
  {address | ∃ t ∈ segments,
    t.extent.start + (held t).length ≤ address ∧ address < t.extent.stop}

variable {held : Segment → Bytes} {segments before after : List Segment} {t : Segment}
variable {start stop : Nat}

theorem missing_eq_empty_iff : Missing held segments = ∅ ↔
    ∀ t ∈ segments, t.extent.length ≤ (held t).length := by
  rw [Set.eq_empty_iff_forall_notMem]
  constructor
  · intro h t ht
    by_contra hshort
    refine h (t.extent.start + (held t).length) ⟨t, ht, Nat.le_refl _, ?_⟩
    rw [Extent.stop]
    omega
  · rintro h address ⟨t, ht, hle, hlt⟩
    have hfull := h t ht
    rw [Extent.stop] at hlt
    omega

/-- The first missing byte is in the first segment whose source holds too little. -/
theorem isLeast_missing (tiles : Tiles start (before ++ t :: after) stop)
    (hbefore : ∀ u ∈ before, u.extent.length ≤ (held u).length)
    (hshort : (held t).length < t.extent.length) :
    IsLeast (Missing held (before ++ t :: after)) (t.extent.start + (held t).length) := by
  constructor
  · refine ⟨t, by simp, Nat.le_refl _, ?_⟩
    rw [Extent.stop]
    omega
  · rintro address ⟨u, hu, hle, hlt⟩
    rcases List.mem_append.mp hu with hu | hu
    · have hfull := hbefore u hu
      rw [Extent.stop] at hlt
      omega
    · rcases List.mem_cons.mp hu with rfl | hu
      · exact hle
      · -- the later segments begin after this one
        obtain ⟨middle, -, hrest⟩ := Tiles.append_iff.mp tiles
        cases hrest with
        | cons _ _ _ follows =>
          have hlater := (follows.bounds_of_mem hu).2.1
          simp only [Extent.stop] at hlater
          omega

end VirtualStream

namespace Dump

open FileSystem VirtualStream

variable {s : VirtualStream} {fs base grown opened : FileSystem} {target : NodeId} {path : Path}
variable {t : Segment} {before after data content : Bytes} {cause : IoError} {start stop : Nat}
variable {held : Segment → Bytes} {fill : UInt8} {segments : List Segment}

/-! ### The target -/

/-- Before a dump, directories are made above the target or nothing is. -/
theorem prepare_cases (fs : FileSystem) (path : Path) : (Dump.prepare fs path).2 = fs ∨
    ∃ dir, path.parent? = some dir ∧ (Dump.prepare fs path).2 = (fs.makeDirectories dir).2 := by
  unfold Dump.prepare
  split
  · exact .inl rfl
  · next dir hdir =>
    split
    · exact .inl rfl
    · refine .inr ⟨dir, hdir, ?_⟩
      split <;> next hmade => rw [hmade]

/-- Making the missing directories loses nothing. -/
theorem grows_prepare (fs : FileSystem) (path : Path) : fs.Grows (Dump.prepare fs path).2 := by
  rcases prepare_cases fs path with hnothing | ⟨dir, -, hmade⟩
  · rw [hnothing]
    exact .refl fs
  · rw [hmade]
    exact fs.grows_makeDirectories dir

/-- A target that was opened can be found by its path whatever is written to it, and all other
files are as they were. -/
theorem of_opened (hprepare : Dump.prepare fs path = (.ok (), grown))
    (hcreate : grown.create path = .ok (target, opened))
    (hempty : opened.node? target = some (.regular [])) (content : Bytes) :
    (opened.withContent target content).locate path = .ok target ∧
      (opened.withContent target content).contentOf path = .ok content ∧
      fs.KeepsAllBut (opened.withContent target content) target := by
  obtain ⟨made, old, hgrows, hnode, hlocate, rfl⟩ := create_eq_ok hcreate hempty
  have hprepared : fs.Grows grown := by
    have h := grows_prepare fs path
    rw [hprepare] at h
    exact h
  rw [withContent, replace_replace]
  have hfound : (made.replace target (.regular content)).locate path = .ok target := by
    rw [locate_replace_regular hnode, hlocate]
  exact ⟨hfound, contentOf_eq_ok_iff.mpr ⟨target, hfound, node?_replace_self hnode⟩,
    (hprepared.trans hgrows).keepsAllBut target _⟩

/-- Whether a dump succeeds or not, the target holds the pieces that were copied. -/
theorem exists_files_of_dump (hprepare : Dump.prepare fs path = (.ok (), grown))
    (hcreate : grown.create path = .ok (target, opened))
    (hempty : opened.node? target = some (.regular [])) :
    ∃ after, (s.dump fs path).files = opened.withContent target after := by
  have hend := dump_end (s := s) hprepare hcreate hempty
  generalize s.dump fs path = outcome at hend ⊢
  cases hend with
  | @whole after copies => exact ⟨after, rfl⟩
  | @failed earlier later t middle after cause k split whole copies fails length_eq =>
    exact ⟨after, rfl⟩

/-! ### Pieces -/

/-- Reads within the segment that succeed give what `data` holds, whatever first part of `final`
is in the target. -/
def Shows (base : FileSystem) (target : NodeId) (final : Bytes) (t : Segment) (data : Bytes) :
    Prop :=
  ∀ flushed, flushed <+: final → ∀ offset count piece, offset + count ≤ t.extent.length →
    t.source.readExactAt (base.withContent target flushed) offset count = .ok piece →
    piece = data.window offset count

/-- The source holds the same bytes whatever is in the target. -/
def Steady (base : FileSystem) (target : NodeId) (t : Segment) (data : Bytes) : Prop :=
  ∀ content, t.source.Delivers (base.withContent target content) data

/-- A segment whose source is steady shows what the source holds for it. -/
theorem Steady.shows (h : Steady base target t data) :
    Shows base target final t (data.take t.extent.length) := by
  intro flushed _ offset count piece hin hread
  rw [(h flushed).readExactAt_eq] at hread
  split at hread
  · rw [Bytes.window_take hin]
    exact (Except.ok.inj hread).symm
  · cases hread

/-- A segment shows what its source holds if that is no more than it has addresses. -/
theorem Steady.shows_of_length_le (h : Steady base target t data)
    (hle : data.length ≤ t.extent.length) : Shows base target final t data := by
  have hshows : Shows base target final t (data.take t.extent.length) := h.shows
  rwa [List.take_of_length_le hle] at hshows

theorem Copies.isPrefix (h : Copies base target t before after) : before <+: after := by
  induction h with
  | nothing before => exact List.prefix_refl before
  | piece lt visible read later ih => exact (List.prefix_append _ _).trans ih

theorem CopiesAll.isPrefix (h : CopiesAll base target segments before after) :
    before <+: after := by
  induction h with
  | nil before => exact List.prefix_refl before
  | cons copies length_eq later ih => exact copies.isPrefix.trans ih

/-- The pieces of a segment are the bytes that it shows. -/
theorem Copies.eq_append (h : Copies base target t before after) (hfinal : after <+: final)
    (hshows : Shows base target final t data) (hstart : t.extent.start ≤ before.length)
    (hheld : before.length - t.extent.start ≤ data.length) :
    before.length ≤ after.length ∧ after.length - t.extent.start ≤ data.length ∧
      after = before ++
        data.window (before.length - t.extent.start) (after.length - before.length) := by
  induction h with
  | nothing before => simp [hheld]
  | @piece before piece after fs lt visible read later ih =>
    obtain ⟨flushed, isPrefix, -⟩ := visible
    have hlength := Source.length_of_readExactAt read
    have hsize : 0 < chunkSize := by decide
    -- what the target holds now is a first part of what it holds in the end
    have hflushed : flushed <+: final :=
      isPrefix.trans ((List.prefix_append before piece).trans (later.isPrefix.trans hfinal))
    have hin : before.length - t.extent.start + min (t.extent.stop - before.length) chunkSize ≤
        t.extent.length := by
      rw [Extent.stop] at lt ⊢
      omega
    have hpiece := hshows flushed hflushed _ _ _ hin read
    have hfull := congrArg List.length hpiece
    rw [Bytes.length_window] at hfull
    rw [← hlength] at hpiece
    have hnext : (before ++ piece).length = before.length + piece.length := List.length_append
    obtain ⟨hle, hin, hafter⟩ := ih hfinal (by omega) (by omega)
    have hrun : data.window (before.length - t.extent.start) (after.length - before.length) =
        piece ++ data.window (before.length - t.extent.start + piece.length)
          (after.length - before.length - piece.length) := by
      rw [Bytes.window_split (k := piece.length) (by omega), ← hpiece]
    refine ⟨by omega, hin, hafter.trans ?_⟩
    rw [hrun, List.append_assoc, hnext, Nat.sub_add_eq, Nat.sub_add_comm hstart]

/-- A piece cannot be read because the source ends in it. -/
theorem Fails.of_steady (h : Fails base target t before cause)
    (hsteady : Steady base target t data) :
    cause = Source.endedEarly ∧ data.length < before.length - t.extent.start +
      min (t.extent.stop - before.length) chunkSize := by
  obtain ⟨hlt, _, ⟨flushed, -, -⟩, hread⟩ := h
  rw [(hsteady flushed).readExactAt_eq] at hread
  split at hread
  · cases hread
  · next hshort =>
    cases hread
    exact ⟨rfl, by omega⟩

/-- Segments that were copied as a whole give the bytes that they show, if each shows no more bytes
than it has addresses. The segments are those of some items, for which sizes and bytes are known. -/
theorem CopiesAll.eq_flatMap {ι : Type} {items : List ι} {size : ι → Nat} {shown : ι → Bytes}
    (h : CopiesAll base target segments before after) (hfinal : after <+: final)
    (htiles : Tiles before.length segments stop)
    (hshows : List.Forall₂ (fun i t => t.extent.length = size i ∧ (shown i).length ≤ size i ∧
      Shows base target final t (shown i)) items segments) :
    (∀ i ∈ items, (shown i).length = size i) ∧ after = before ++ items.flatMap shown := by
  induction h generalizing items with
  | nil before =>
    cases hshows
    simp
  | @cons t rest before middle after copies length_eq later ih =>
    cases htiles with
    | cons starts nonempty covered follows =>
      cases hshows with
      | @cons i _ items _ hhere hrest =>
        obtain ⟨hsize, hle, ht⟩ := hhere
        -- the segment begins where the bytes before it end, so all of it is read
        obtain ⟨-, hin, hmiddle⟩ :=
          copies.eq_append (later.isPrefix.trans hfinal) ht (by omega) (by omega)
        obtain ⟨hlengths, hafter⟩ := ih hfinal (length_eq ▸ follows) hrest
        rw [length_eq, Extent.stop] at hin hmiddle
        have hlength : (shown i).length = size i := by omega
        refine ⟨List.forall_mem_cons.mpr ⟨hlength, hlengths⟩, ?_⟩
        have hcount : t.extent.start + t.extent.length - before.length = (shown i).length := by
          omega
        rw [hafter, hmiddle, hcount, starts, Nat.sub_self, Bytes.window_zero_length,
          List.flatMap_cons, List.append_assoc]

/-- Segments that were copied as a whole have sources that hold all of their bytes. -/
theorem CopiesAll.eq_append (fill : UInt8) (h : CopiesAll base target segments before after)
    (htiles : Tiles before.length segments stop)
    (hsteady : ∀ t ∈ segments, Steady base target t (held t)) :
    (∀ t ∈ segments, t.extent.length ≤ (held t).length) ∧
      after = before ++ image held fill segments := by
  obtain ⟨hlengths, hafter⟩ := h.eq_flatMap (List.prefix_refl after) htiles <|
    List.forall₂_same.mpr fun t ht => ⟨rfl, List.length_take_le _ _, (hsteady t ht).shows⟩
  have hfull : ∀ t ∈ segments, t.extent.length ≤ (held t).length := by
    intro t ht
    have hlength := hlengths t ht
    rw [List.length_take] at hlength
    omega
  refine ⟨hfull, hafter.trans ?_⟩
  rw [image, List.flatMap_congr fun t ht => List.takeD_eq_take fill (hfull t ht)]

/-- The pieces of a segment of the table. -/
theorem CopiesAll.exists_copies (h : CopiesAll base target segments before after)
    (htiles : Tiles before.length segments stop) (ht : t ∈ segments) :
    ∃ earlier middle, Copies base target t earlier middle ∧ earlier.length = t.extent.start ∧
      middle.length = t.extent.stop := by
  induction h with
  | nil before => cases ht
  | cons copies length_eq later ih =>
    cases htiles with
    | cons starts nonempty covered follows =>
      rcases List.mem_cons.mp ht with rfl | hrest
      · exact ⟨_, _, copies, starts.symm, length_eq⟩
      · exact ih (length_eq ▸ follows) hrest

/-- A segment that has nothing to read as long as the target is empty comes after more bytes
than the buffer keeps back. -/
theorem Copies.capacity_le (h : Copies base target t before after)
    (hlt : before.length < after.length)
    (hnothing : ∀ offset count piece,
      t.source.readExactAt (base.withContent target []) offset count = .ok piece → count = 0) :
    BufferedWriter.capacity ≤ before.length := by
  cases h with
  | nothing => exact absurd hlt (Nat.lt_irrefl _)
  | piece lt visible read later =>
    obtain ⟨flushed, -, early⟩ := visible
    by_contra hfew
    rw [early (Nat.lt_of_not_le hfew)] at read
    have hsize : 0 < chunkSize := by decide
    have hcount := hnothing _ _ _ read
    omega

/-! ### Reports -/

/-- How many bytes the report says were written. -/
def advancedBy : DumpEvent → Nat
  | .advanced count => count
  | _ => 0

/-- How many bytes the reports say were written. -/
def advanced (events : List DumpEvent) : Nat := (events.map advancedBy).sum

@[simp] theorem advanced_nil : advanced [] = 0 := rfl

@[simp] theorem advanced_cons (event : DumpEvent) (events : List DumpEvent) :
    advanced (event :: events) = advancedBy event + advanced events := List.sum_cons

@[simp] theorem advanced_append (events more : List DumpEvent) :
    advanced (events ++ more) = advanced events + advanced more := by
  simp [advanced]

theorem advanced_replicate (k n : Nat) :
    advanced (List.replicate k (.advanced n)) = k * n := by
  rw [advanced, List.map_replicate, advancedBy, List.sum_replicate_nat]

/-- The reports about pieces add up to all that was written. -/
theorem advanced_advances (count : Nat) : advanced (advances count) = count := by
  have hdiv := Nat.div_add_mod' count chunkSize
  rw [advances, advanced_append, advanced_replicate]
  split
  · next hzero => simpa [hzero] using hdiv
  · simpa [advancedBy] using hdiv

theorem advanced_segmentEvents (t : Segment) : advanced (segmentEvents t) = t.extent.length := by
  rw [segmentEvents, advanced_cons, advanced_advances]
  exact Nat.zero_add _

/-- The reports about segments add up to the addresses that they cover. -/
theorem advanced_flatMap_segmentEvents {start : Nat} (tiles : Tiles start segments stop) :
    start + advanced (segments.flatMap segmentEvents) = stop := by
  induction tiles with
  | nil => simp
  | cons starts nonempty covered follows ih =>
    rw [List.flatMap_cons, advanced_append, advanced_segmentEvents]
    rw [Extent.stop] at ih
    omega

/-- Nothing is reported complete before the end. -/
theorem completed_notMem_advances {count written : Nat} :
    .completed written ∉ advances count := by
  unfold advances
  split <;> simp [List.mem_replicate]

theorem completed_notMem_segmentEvents {written : Nat} :
    .completed written ∉ segments.flatMap segmentEvents := by
  rw [List.mem_flatMap]
  rintro ⟨t, -, hmem⟩
  rcases List.mem_cons.mp hmem with h | h
  · cases h
  · exact completed_notMem_advances h

/-- The reports of a dump that wrote the whole stream add up to its length. -/
theorem advanced_whole (s : VirtualStream) (path : Path) (written : Nat) :
    advanced (.started path s.length ::
      (s.segments.toList.flatMap segmentEvents ++ [.completed written])) = s.length := by
  have htotal := advanced_flatMap_segmentEvents s.tiles
  simp only [advanced_cons, advanced_append, advanced_nil]
  change 0 + (_ + (0 + 0)) = _
  omega

/-- The reports of a dump that failed after `k` pieces of a segment add up to what was written. -/
theorem advanced_failed {earlier : List Segment} (htiles : Tiles 0 earlier start) (path : Path)
    (total k : Nat) (t : Segment) :
    advanced (.started path total :: (earlier.flatMap segmentEvents ++
      .segment t.extent t.kind :: List.replicate k (.advanced chunkSize))) =
        start + k * chunkSize := by
  have htotal := advanced_flatMap_segmentEvents htiles
  simp only [advanced_cons, advanced_append, advanced_replicate]
  change 0 + (_ + (0 + _)) = _
  omega

/-- A dump that failed did not report that it was complete. -/
theorem completed_notMem_failed {earlier : List Segment} {path : Path} {total k written : Nat} :
    .completed written ∉ DumpEvent.started path total :: (earlier.flatMap segmentEvents ++
      .segment t.extent t.kind :: List.replicate k (.advanced chunkSize)) := by
  intro hmem
  rcases List.mem_cons.mp hmem with h | h
  · cases h
  · rcases List.mem_append.mp h with h | h
    · exact completed_notMem_segmentEvents h
    · rcases List.mem_cons.mp h with h | h
      · cases h
      · cases List.eq_of_mem_replicate h

/-! ### The end of a dump -/

/-- A dump that copied all segments has missed nothing and has written the image. -/
theorem eq_image_of_copiesAll (fill : UInt8)
    (hsteady : ∀ t ∈ s.segments.toList, Steady base target t (held t))
    (h : CopiesAll base target s.segments.toList [] after) :
    Missing held s.segments.toList = ∅ ∧ after = image held fill s.segments.toList ∧
      after.length = s.length := by
  have htiles : Tiles ([] : Bytes).length s.segments.toList s.length := s.tiles
  obtain ⟨hfull, hafter⟩ := h.eq_append fill htiles hsteady
  rw [List.nil_append] at hafter
  refine ⟨missing_eq_empty_iff.mpr hfull, hafter, ?_⟩
  rw [hafter, length_image s.tiles, Nat.sub_zero]

/-- What was copied when a piece of a segment could not be read is the first part of the image. -/
theorem eq_take_of_copies {earlier later : List Segment} {middle : Bytes}
    (hmiddle : middle = image held fill earlier) (hstart : t.extent.start = middle.length)
    (hin : after.length - t.extent.start ≤ (held t).length) (hlt : after.length < t.extent.stop)
    (hle : middle.length ≤ after.length)
    (hafter : after = middle ++ (held t).window 0 (after.length - middle.length)) :
    after = (image held fill (earlier ++ t :: later)).take after.length := by
  rw [Extent.stop] at hlt
  have hpart : ((held t).takeD t.extent.length fill).take (after.length - middle.length) =
      (held t).window 0 (after.length - middle.length) := by
    change Bytes.window ((held t).takeD t.extent.length fill) 0 _ = _
    rw [Bytes.window_takeD (by omega), Nat.min_eq_left (by omega)]
  have hroom : after.length - middle.length ≤ ((held t).takeD t.extent.length fill).length := by
    rw [List.takeD_length]
    omega
  rw [image_append, image_cons, ← hmiddle, List.take_append, List.take_of_length_le hle,
    List.take_append_of_le_length hroom, hpart]
  exact hafter

/-- A dump that could not read a piece has written everything before it, and the first byte that is
missing lies in it. -/
theorem eq_take_of_fails {earlier later : List Segment} {middle : Bytes} (fill : UInt8)
    (htiles : Tiles 0 (earlier ++ t :: later) stop)
    (hsteady : ∀ u ∈ earlier ++ t :: later, Steady base target u (held u))
    (whole : CopiesAll base target earlier [] middle) (copies : Copies base target t middle after)
    (fails : Fails base target t after cause) :
    cause = Source.endedEarly ∧ Tiles 0 earlier middle.length ∧
      t.extent.start ≤ after.length ∧ after.length < t.extent.stop ∧
      after = (image held fill (earlier ++ t :: later)).take after.length ∧
      ∃ first, IsLeast (Missing held (earlier ++ t :: later)) first ∧
        after.length ≤ first ∧ first < after.length + chunkSize := by
  obtain ⟨start, hearlier, hrest⟩ := Tiles.append_iff.mp htiles
  have hstart : t.extent.start = start := by
    cases hrest with
    | cons starts => exact starts
  -- the segments before this one were copied as a whole
  obtain ⟨hfull, hmiddle⟩ := whole.eq_append fill hearlier
    fun u hu => hsteady u (List.mem_append_left _ hu)
  rw [List.nil_append] at hmiddle
  have hlength : middle.length = t.extent.start := by
    rw [hmiddle, length_image hearlier, hstart, Nat.sub_zero]
  have ht := hsteady t (by simp)
  obtain ⟨hle, hin, hafter⟩ :=
    copies.eq_append (List.prefix_refl after) ht.shows (by omega) (by omega)
  obtain ⟨rfl, hshort⟩ := fails.of_steady ht
  have hlt := fails.1
  rw [List.length_take] at hin
  have hwithin : 0 + (after.length - middle.length) ≤ t.extent.length := by
    rw [Extent.stop] at hlt
    omega
  rw [hlength, Nat.sub_self, ← hlength, Bytes.window_take hwithin] at hafter
  have hlacks : (held t).length < t.extent.length := by
    rw [Extent.stop] at hlt hshort
    omega
  refine ⟨rfl, by rwa [hlength, hstart], by omega, hlt, ?_, _, isLeast_missing htiles hfull hlacks,
    by omega, by omega⟩
  exact eq_take_of_copies hmiddle hlength.symm (by omega) hlt hle hafter

/-- Let the target of a dump be a file that can be made and written, and let the sources hold the
same bytes in every file system that keeps all files but the target. If no byte of the stream is
missing, the dump succeeds, the target holds the stream, and every segment is reported with its
pieces. If bytes are missing, the dump fails at the piece in which the first of them lies, the
target holds all bytes before this piece, and as many are reported. -/
theorem dump_of_delivers (s : VirtualStream) (fs : FileSystem) (path : Path) {o : Outcome}
    (ho : s.dump fs path = o)
    (hprepare : Dump.prepare fs path = (.ok (), grown))
    (hcreate : grown.create path = .ok (target, opened))
    (hempty : opened.node? target = some (.regular []))
    (hdelivers : ∀ t ∈ s.segments.toList, ∀ later, fs.KeepsAllBut later target →
      t.source.Delivers later (held t)) (fill : UInt8) :
    (Missing held s.segments.toList = ∅ →
      o.result = .ok s.length ∧
      o.files.contentOf path = .ok (image held fill s.segments.toList) ∧
      o.events = .started path s.length ::
        (s.segments.toList.flatMap segmentEvents ++ [.completed s.length]) ∧
      advanced o.events = s.length) ∧
    (Missing held s.segments.toList ≠ ∅ → ∃ first offset k earlier t later,
      IsLeast (Missing held s.segments.toList) first ∧
      offset ≤ first ∧ first < offset + chunkSize ∧
      s.segments.toList = earlier ++ t :: later ∧
      t.extent.start ≤ offset ∧ offset < t.extent.stop ∧
      o.result = .error (.read offset
        (.shortRead earlier.length t.kind t.extent (offset - t.extent.start))) ∧
      o.files.contentOf path = .ok ((image held fill s.segments.toList).take offset) ∧
      o.events = .started path s.length :: (earlier.flatMap segmentEvents ++
        .segment t.extent t.kind :: List.replicate k (.advanced chunkSize)) ∧
      advanced o.events = offset ∧ ∀ written, .completed written ∉ o.events) := by
  have hopened := of_opened hprepare hcreate hempty
  have hsteady : ∀ t ∈ s.segments.toList, Steady opened target t (held t) :=
    fun t ht content => hdelivers t ht _ (hopened content).2.2
  have hend := dump_end (s := s) hprepare hcreate hempty
  rw [ho] at hend
  -- a dump that copied everything has missed nothing, and one that failed has missed something
  cases hend with
  | @whole after copies =>
    obtain ⟨hnone, hafter, hlength⟩ := eq_image_of_copiesAll fill hsteady copies
    refine ⟨fun _ => ⟨congrArg Except.ok hlength, ?_, ?_, advanced_whole s path _⟩,
      fun hmissing => absurd hnone hmissing⟩
    · rw [(hopened after).2.1, hafter]
    · rw [hlength]
  | @failed earlier later t middle after cause k split whole copies fails length_eq =>
    have htiles := s.tiles
    rw [split] at htiles hsteady ⊢
    obtain ⟨rfl, hearlier, hle, hlt, hafter, first, hleast, hbefore, hwithin⟩ :=
      eq_take_of_fails fill htiles hsteady whole copies fails
    refine ⟨fun hnone => ?_, fun _ => ⟨first, after.length, k, earlier, t, later, hleast, hbefore,
      hwithin, rfl, hle, hlt, rfl, ?_, rfl, ?_, fun written => completed_notMem_failed⟩⟩
    · rw [hnone] at hleast
      exact absurd hleast.1 (Set.notMem_empty _)
    · rw [(hopened after).2.1, ← hafter]
    · rw [advanced_failed hearlier, length_eq]

/-- A directory with the file `a`, which holds three bytes. -/
def threeBytes : FileSystem where
  nodes := #[.directory 0 [([0x61], 1)], .regular [1, 2, 3]]
  working := 0

/-- Two bytes of memory, and a window of the file `a` after them. -/
def memoryThenFile (length : Nat) (h : 2 + length < addressSpace) : List Segment :=
  [⟨.ofBytes [8, 9], ⟨0, 2, by decide⟩, .memory⟩,
    ⟨FileWindow.source ⟨1, ⟨[0x61]⟩, 0, length⟩, ⟨2, length, h⟩, .file⟩]

/-- The bytes that the memory and the file hold. -/
def memoryThenFileHeld (t : Segment) : Bytes := if t.extent.start = 0 then [8, 9] else [1, 2, 3]

theorem delivers_memoryThenFile (length : Nat) (h : 2 + length < addressSpace) (hle : 3 ≤ length)
    (hmax : length ≤ maxOffset) : ∀ t ∈ memoryThenFile length h, ∀ later,
      threeBytes.KeepsAllBut later 2 → t.source.Delivers later (memoryThenFileHeld t) := by
  intro t ht later hkeeps
  simp only [memoryThenFile, List.mem_cons, List.not_mem_nil, or_false] at ht
  rcases ht with rfl | rfl
  · exact Source.delivers_ofBytes _
  · have hfile := Source.delivers_fileWindow (w := ⟨1, ⟨[0x61]⟩, 0, length⟩)
      (hkeeps.regular 1 [1, 2, 3] (by decide) rfl) (by simpa using hmax)
    have hall : Bytes.window [1, 2, 3] 0 length = [1, 2, 3] := List.take_of_length_le hle
    rw [hall] at hfile
    exact hfile

theorem dump_of_delivers_memoryThenFile :
    (∃ s, ofSegments (memoryThenFile 3 (by decide)) = .ok s ∧
      (s.dump threeBytes ⟨[0x62]⟩).result = .ok s.length ∧
      (s.dump threeBytes ⟨[0x62]⟩).files.contentOf ⟨[0x62]⟩ = .ok [8, 9, 1, 2, 3]) ∧
    ∃ s, ofSegments (memoryThenFile 4 (by decide)) = .ok s ∧ ∃ offset cause,
      (s.dump threeBytes ⟨[0x62]⟩).result = .error (.read offset cause) := by
  constructor
  · obtain ⟨s, hs⟩ : ∃ s, ofSegments (memoryThenFile 3 (by decide)) = .ok s := ⟨_, rfl⟩
    have htable : s.segments.toList = memoryThenFile 3 (by decide) :=
      toList_segments_of_ofSegments hs
    have hdelivers := delivers_memoryThenFile 3 (by decide) (by decide) (by decide)
    rw [← htable] at hdelivers
    obtain ⟨hwhole, -⟩ := dump_of_delivers s threeBytes ⟨[0x62]⟩ rfl rfl rfl rfl hdelivers 0
    rw [htable] at hwhole
    obtain ⟨hresult, hcontent, -⟩ := hwhole (missing_eq_empty_iff.mpr (by decide))
    exact ⟨s, hs, hresult, hcontent⟩
  · obtain ⟨s, hs⟩ : ∃ s, ofSegments (memoryThenFile 4 (by decide)) = .ok s := ⟨_, rfl⟩
    have htable : s.segments.toList = memoryThenFile 4 (by decide) :=
      toList_segments_of_ofSegments hs
    have hdelivers := delivers_memoryThenFile 4 (by decide) (by decide) (by decide)
    rw [← htable] at hdelivers
    obtain ⟨-, hpart⟩ := dump_of_delivers s threeBytes ⟨[0x62]⟩ rfl rfl rfl rfl hdelivers 0
    rw [htable] at hpart
    obtain ⟨first, offset, k, earlier, t, later, -, -, -, -, -, -, hresult, -⟩ :=
      hpart (mt missing_eq_empty_iff.mp (by decide))
    exact ⟨s, hs, offset, _, hresult⟩

end Dump

end VirtualFiles
