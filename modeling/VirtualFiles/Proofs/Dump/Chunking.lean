import VirtualFiles.Proofs.Dump.Agreement
import VirtualFiles.Proofs.VirtualStream.Splitting

/-!
# One read, a cursor and a dump

There are three ways to get all bytes of a stream: one read, a cursor that reads in pieces across
segments, and a dump, which reads in pieces within segments and writes them to a file. They cut
the stream in different places. Let its sources be memory, padding, windows of regular files other
than the target of the dump, sources that hold some bytes and end in some way, and streams of
such. Then the three ways come to the same, also if the stream cannot be read as a whole: the same
bytes, or failures that name the same segment and are of the same sort.

A window has to lie on one side of the largest offset of a file, as far as it is shown. Where it
does not, one large read is refused by the system, while small ones find the end of the file.

## Main definitions

* `Source.Ordinary` — these sources, as far as they are shown

## Main results

* `Ordinary.splits`, `Ordinary.readExactAt_eq` — their reads may be cut in two, and do not depend
  on the target
* `CopiesAll.gather_eq`, `readAt_of_copiesAll`, `verdict_of_fails` — what was copied is what one
  read gives
* `dump_agrees` — the three ways come to the same
-/

namespace VirtualFiles

open FileSystem Outcome

variable {fs later base grown opened : FileSystem} {target : NodeId} {path : Path}

/-! ### Sources -/

/-- The sources that streams are usually made of, as far as the first `limit` bytes go. No file is
read that is the target of a dump. -/
inductive Source.Ordinary (fs : FileSystem) (target : NodeId) : Source → Nat → Prop
  | memory (data : Bytes) (limit : Nat) : Ordinary fs target (.ofBytes data) limit
  | padding (p : Padding) (limit : Nat) : Ordinary fs target p.source limit
  | part (p : Partial) (limit : Nat) (hchunk : ∀ n, p.chunk = some n → 0 < n) :
    Ordinary fs target p.source limit
  | window (w : FileWindow) (limit : Nat) (content : Bytes)
    (hnode : fs.node? w.node = some (.regular content)) (hne : w.node ≠ target)
    (hrange : w.offset + limit ≤ maxOffset ∨ maxOffset ≤ w.offset) :
    Ordinary fs target w.source limit
  | stream (s : VirtualStream) (limit : Nat)
    (hsources : ∀ t ∈ s.segments.toList, t.extent.start < limit →
      Ordinary fs target t.source (min t.extent.length (limit - t.extent.start))) :
    Ordinary fs target s.toSource limit

namespace Source.Ordinary

variable {s : Source} {limit offset count : Nat}

/-- Reads may be cut in two. -/
theorem splits (h : Ordinary fs target s limit) (hlimit : limit ≤ s.length) :
    s.Splits fs limit := by
  induction h with
  | memory data limit => exact ((delivers_ofBytes data).ends limit).splits
  | padding p limit => exact ((delivers_padding p).ends limit).splits
  | part p limit hchunk => exact (ends_partial hchunk limit).splits
  | window w limit content hnode hne hrange =>
    rcases hrange with hend | hbegin
    · exact (ends_fileWindow hnode hend hlimit).splits
    · exact (ends_beyond hbegin hlimit).splits
  | stream s limit _ ih =>
    have hsplits : s.SplitsTo fs limit := fun t ht hlt =>
      ih t ht hlt (Nat.le_trans (Nat.min_le_left _ _) (s.tiles.covered_of_mem ht))
    exact hsplits.splits_toSource hlimit

/-- Reads do not depend on the target. -/
theorem readExactAt_eq (h : Ordinary fs target s limit) (hkeeps : fs.KeepsAllBut later target)
    (hlimit : limit ≤ s.length) (hle : offset + count ≤ limit) :
    s.readExactAt later offset count = s.readExactAt fs offset count := by
  induction h generalizing offset count with
  | memory | padding | part =>
    apply readExactAt_congr
    exact fun _ _ => rfl
  | window w limit content hnode hne =>
    apply readExactAt_congr
    apply readAt_fileWindow_congr
    exact .of_regular (hkeeps.regular w.node content hne hnode) hnode
  | stream s limit _ ih =>
    have hin : offset + count ≤ s.length := Nat.le_trans hle hlimit
    rw [VirtualStream.readExactAt_toSource hin, VirtualStream.readExactAt_toSource hin,
      VirtualStream.readAt_eq_gather, VirtualStream.readAt_eq_gather]
    refine congrArg _ (VirtualStream.gather_congr fun t ht => ⟨rfl, ?_⟩)
    by_cases hapart : min (offset + count) t.extent.stop ≤ max offset t.extent.start
    · rw [Segment.piece_eq_nil hapart, Segment.piece_eq_nil hapart]
    · have hcovered := s.tiles.covered_of_mem ht
      refine ih t ht (by omega) (Nat.le_trans (Nat.min_le_left _ _) hcovered) ?_
      simp only [Extent.stop] at hapart ⊢
      omega

end Source.Ordinary

/-! ### Pieces that were copied -/

namespace Dump

open VirtualStream

variable {s : VirtualStream} {t : Segment} {segments : List Segment}
variable {before middle after : Bytes} {cause : IoError} {start first last stop index : Nat}

/-- The sources of the segments are ordinary, as far as the segments show them. -/
def OrdinarySources (fs : FileSystem) (target : NodeId) (segments : List Segment) : Prop :=
  ∀ t ∈ segments, Source.Ordinary fs target t.source t.extent.length

/-- Reads of the whole stream may be cut in two. -/
theorem OrdinarySources.splitsTo (h : OrdinarySources fs target s.segments.toList) :
    s.SplitsTo fs s.length := by
  intro t ht _
  have hends := (s.tiles.bounds_of_mem ht).2.2
  have hall : min t.extent.length (s.length - t.extent.start) = t.extent.length := by
    rw [Extent.stop] at hends
    omega
  rw [hall]
  exact (h t ht).splits (s.tiles.covered_of_mem ht)

/-- The pieces that were copied are those that one read gives. -/
theorem Copies.outcome_eq (h : Copies base target t before after)
    (hseen : ∀ content, fs.KeepsAllBut (base.withContent target content) target)
    (hsource : Source.Ordinary fs target t.source t.extent.length)
    (hcovered : t.extent.length ≤ t.source.length) (hstart : t.extent.start ≤ before.length)
    (hstop : before.length ≤ t.extent.stop) :
    ∃ bytes, after = before ++ bytes ∧ after.length ≤ t.extent.stop ∧
      t.source.outcome fs (before.length - t.extent.start) bytes.length = .ok bytes := by
  induction h with
  | nothing before => exact ⟨[], (List.append_nil before).symm, hstop, Source.outcome_zero⟩
  | @piece before piece after seen lt visible read _ ih =>
    obtain ⟨flushed, -, -⟩ := visible
    have hlength := Source.length_of_readExactAt read
    rw [Extent.stop] at hstop lt hlength read
    rw [hsource.readExactAt_eq (hseen flushed) hcovered (by omega), ← hlength] at read
    have hnext : (before ++ piece).length = before.length + piece.length := List.length_append
    obtain ⟨bytes, hafter, hwithin, houtcome⟩ := ih (by omega) (by rw [Extent.stop]; omega)
    refine ⟨piece ++ bytes, by rw [hafter, List.append_assoc], hwithin, ?_⟩
    have hpiece : t.source.outcome fs (before.length - t.extent.start) piece.length = .ok piece :=
      mapError_eq_ok_iff.mpr read
    have hoffset : before.length - t.extent.start + piece.length =
        (before ++ piece).length - t.extent.start := by omega
    have hall : before.length - t.extent.start + piece.length + bytes.length ≤
        t.extent.length := by
      rw [hafter, List.length_append, Extent.stop] at hwithin
      omega
    rw [List.length_append, hsource.splits hcovered _ _ _ hall, hpiece, hoffset, houtcome,
      append_ok]

/-- Segments that were copied as a whole are those that one read gives. -/
theorem CopiesAll.gather_eq (h : CopiesAll base target segments before after)
    (tiles : Tiles before.length segments last)
    (hseen : ∀ content, fs.KeepsAllBut (base.withContent target content) target)
    (hsources : OrdinarySources fs target segments) (hstart : start ≤ before.length)
    (hstop : last ≤ stop) :
    ∃ bytes, after = before ++ bytes ∧ gather fs start stop index segments = .ok bytes := by
  induction h generalizing index with
  | nil before => exact ⟨[], (List.append_nil before).symm, rfl⟩
  | @cons t rest before middle after copies length_eq _ ih =>
    cases tiles with
    | cons starts nonempty covered follows =>
      obtain ⟨ht, hrest⟩ := List.forall_mem_cons.mp hsources
      have hlast := follows.le
      have hend : before.length ≤ t.extent.stop := by
        rw [Extent.stop]
        omega
      obtain ⟨bytes, rfl, -, houtcome⟩ :=
        copies.outcome_eq hseen ht covered (Nat.le_of_eq starts) hend
      have hlength : bytes.length = t.extent.length := by
        rw [List.length_append, Extent.stop] at length_eq
        omega
      rw [starts, Nat.sub_self, hlength] at houtcome
      have hpiece : t.piece fs start stop = .ok bytes := by
        rw [Segment.piece_of_le (by omega) (by omega)]
        exact mapError_eq_ok_iff.mp houtcome
      obtain ⟨more, rfl, hmore⟩ := ih (length_eq ▸ follows) hrest (by omega)
      refine ⟨bytes ++ more, by rw [List.append_assoc], ?_⟩
      rw [gather_cons, hpiece, hmore]
      rfl

/-- A stream that was copied as a whole is what one read of everything gives. -/
theorem readAt_of_copiesAll
    (hseen : ∀ content, fs.KeepsAllBut (base.withContent target content) target)
    (hsources : OrdinarySources fs target s.segments.toList)
    (copies : CopiesAll base target s.segments.toList [] after) :
    s.readAt fs 0 s.length = .ok after := by
  have htiles : Tiles ([] : Bytes).length s.segments.toList s.length := s.tiles
  obtain ⟨bytes, rfl, hgather⟩ : ∃ bytes, after = [] ++ bytes ∧
      gather fs 0 s.length 0 s.segments.toList = .ok bytes :=
    copies.gather_eq htiles hseen hsources (Nat.zero_le _) (Nat.le_refl _)
  rw [readAt_eq_gather, Nat.zero_add, hgather]

/-- An exact read of a whole segment fails as the piece did that could not be copied. -/
theorem Copies.outcome_of_fails (copies : Copies base target t before after)
    (fails : Fails base target t after cause)
    (hseen : ∀ content, fs.KeepsAllBut (base.withContent target content) target)
    (hsource : Source.Ordinary fs target t.source t.extent.length)
    (hcovered : t.extent.length ≤ t.source.length) (hstart : before.length = t.extent.start) :
    t.source.outcome fs 0 t.extent.length = .error cause.isEarlyEnd := by
  obtain ⟨hlt, seen, ⟨flushed, -, -⟩, hread⟩ := fails
  obtain ⟨copied, rfl, -, houtcome⟩ := copies.outcome_eq hseen hsource hcovered
    (Nat.le_of_eq hstart.symm) (by rw [Extent.stop]; omega)
  have hoffset : (before ++ copied).length - t.extent.start = copied.length := by
    rw [List.length_append]
    omega
  have hlength : (before ++ copied).length = t.extent.start + copied.length := by
    rw [List.length_append, hstart]
  rw [Extent.stop] at hlt hread
  rw [hoffset, hlength] at hread
  rw [hstart, Nat.sub_self] at houtcome
  -- what was copied, the piece that failed, and what is left after it
  obtain ⟨count, hcount⟩ : ∃ count, min (t.extent.start + t.extent.length -
      (t.extent.start + copied.length)) chunkSize = count := ⟨_, rfl⟩
  obtain ⟨left, hleft⟩ : ∃ left, t.extent.length = copied.length + (count + left) :=
    ⟨t.extent.length - copied.length - count, by omega⟩
  rw [hcount, hsource.readExactAt_eq (hseen flushed) hcovered (by omega)] at hread
  have hfailed : t.source.outcome fs copied.length count = .error cause.isEarlyEnd := by
    rw [Source.outcome, hread]
    rfl
  have hsplits := hsource.splits hcovered
  rw [hleft, hsplits 0 copied.length (count + left) (by omega), houtcome, Nat.zero_add,
    hsplits copied.length count left (by omega), hfailed]
  rfl

/-- A dump that could not read a piece of a segment failed where one read of everything fails. -/
theorem verdict_of_fails {earlier rest : List Segment}
    (hseen : ∀ content, fs.KeepsAllBut (base.withContent target content) target)
    (hsources : OrdinarySources fs target s.segments.toList)
    (split : s.segments.toList = earlier ++ t :: rest)
    (whole : CopiesAll base target earlier [] middle) (copies : Copies base target t middle after)
    (fails : Fails base target t after cause) :
    s.verdict fs 0 s.length = .error (earlier.length, cause.isEarlyEnd) := by
  obtain ⟨hearlier, hrest⟩ := tiles_of_table split
  have ht : t ∈ s.segments.toList := by rw [split]; simp
  have hends := (s.tiles.bounds_of_mem ht).2.2
  have hbefore : OrdinarySources fs target earlier := fun u hu =>
    hsources u (by rw [split]; exact List.mem_append_left _ hu)
  obtain ⟨bytes, rfl, hgather⟩ : ∃ bytes, middle = [] ++ bytes ∧
      gather fs 0 s.length 0 earlier = .ok bytes :=
    whole.gather_eq hearlier hseen hbefore (Nat.zero_le _) hrest.le
  have hmiddle : middle.length = t.extent.start := by
    have hle := hrest.le
    rw [length_of_gather hearlier hgather]
    omega
  have houtcome := copies.outcome_of_fails fails hseen (hsources t ht)
    (s.tiles.covered_of_mem ht) hmiddle
  have hpiece : (t.piece fs 0 s.length).mapError IoError.isEarlyEnd =
      .error cause.isEarlyEnd := by
    rw [Segment.piece_of_le (Nat.zero_le _) hends]
    exact houtcome
  rw [verdict, readAt_eq_gather, split, gather_append, gather_cons, Nat.zero_add, hgather,
    mapError_append, mapError_append, mapError_verdict_piece, Nat.zero_add, hpiece]
  rfl

/-! ### The three ways -/

/-- One read of a whole stream, a cursor that reads it in pieces of any size, and a dump to a
target that can be made and written and that no source reads come to the same, if the sources of
the stream are ordinary: all give the same bytes, or all fail at the same segment, and either it
ended early for all of them or it failed by itself. -/
theorem dump_agrees (s : VirtualStream) (fs : FileSystem) (path : Path)
    (hprepare : Dump.prepare fs path = (.ok (), grown))
    (hcreate : grown.create path = .ok (target, opened))
    (hempty : opened.node? target = some (.regular []))
    (hsources : OrdinarySources fs target s.segments.toList) {chunk : Nat} (hchunk : 0 < chunk) :
    (∃ bytes, s.readAt fs 0 s.length = .ok bytes ∧
      ((Cursor.ofStream s).drain fs chunk).1 = .ok bytes ∧
      (s.dump fs path).result = .ok bytes.length ∧
      (s.dump fs path).files.contentOf path = .ok bytes) ∨
    ∃ e e' e'' offset, s.readAt fs 0 s.length = .error e ∧
      ((Cursor.ofStream s).drain fs chunk).1 = .error e' ∧
      (s.dump fs path).result = .error (.read offset e'') ∧
      e'.index = e.index ∧ e''.index = e.index ∧
      e'.isShort = e.isShort ∧ e''.isShort = e.isShort := by
  have hopened := of_opened hprepare hcreate hempty
  have hseen : ∀ content, fs.KeepsAllBut (opened.withContent target content) target :=
    fun content => (hopened content).2.2
  have hdrain : ((Cursor.ofStream s).drain fs chunk).1.mapError ReadError.verdict =
      s.verdict fs 0 s.length :=
    SplitsTo.drain (c := Cursor.ofStream s) hsources.splitsTo hchunk (Nat.zero_le _)
  have hend := dump_end (s := s) hprepare hcreate hempty
  generalize s.dump fs path = dumped at hend ⊢
  cases hend with
  | @whole after copies =>
    have hread := readAt_of_copiesAll hseen hsources copies
    rw [verdict, hread] at hdrain
    exact .inl ⟨after, hread, mapError_eq_ok_iff.mp hdrain, rfl, (hopened after).2.1⟩
  | @failed earlier later t middle after cause k split whole copies fails length_eq =>
    have hverdict := verdict_of_fails hseen hsources split whole copies fails
    rw [hverdict] at hdrain
    obtain ⟨e, he, hcome⟩ := mapError_eq_error_iff.mp hverdict
    obtain ⟨e', he', hcome'⟩ := mapError_eq_error_iff.mp hdrain
    have hdumped := ReadError.verdict_ofSource earlier.length t
      (after.length - t.extent.start) cause
    rw [← hcome] at hcome' hdumped
    exact .inr ⟨e, e', _, after.length, he, he', rfl, congrArg Prod.fst hcome',
      congrArg Prod.fst hdumped, congrArg Prod.snd hcome', congrArg Prod.snd hdumped⟩

/-- Padding, and a source that holds one of the five bytes it announces and then fails. -/
def paddingThenFaulty : VirtualStream where
  segments := #[⟨(Padding.zeros 9).source, ⟨0, 9, by decide⟩, .padding⟩,
    ⟨Partial.source ⟨[5], 5, some 1, some .other⟩, ⟨9, 5, by decide⟩, .other⟩]
  length := 14
  tiles := .cons rfl (by decide) (by decide) (.cons rfl (by decide) (by decide) (.nil 14))

/-- Padding, a part of the file `a`, a stream of which the second byte of the faulty source is the
last one that is shown, and a byte of memory. -/
def mixed : VirtualStream where
  segments := #[⟨(Padding.zeros 6).source, ⟨0, 6, by decide⟩, .padding⟩,
    ⟨FileWindow.source ⟨1, ⟨[0x61]⟩, 1, 2⟩, ⟨6, 2, by decide⟩, .file⟩,
    ⟨paddingThenFaulty.toSource, ⟨8, 11, by decide⟩, .other⟩,
    ⟨.ofBytes [7], ⟨19, 1, by decide⟩, .memory⟩]
  length := 20
  tiles := .cons rfl (by decide) (by decide) (.cons rfl (by decide) (by decide)
    (.cons rfl (by decide) (by decide) (.cons rfl (by decide) (by decide) (.nil 20))))

theorem ordinarySources_mixed : OrdinarySources threeBytes 2 mixed.segments.toList := by
  have hnested : Source.Ordinary threeBytes 2 paddingThenFaulty.toSource 11 := by
    refine .stream paddingThenFaulty 11 fun t ht _ => ?_
    simp only [paddingThenFaulty, List.mem_cons, List.not_mem_nil, or_false] at ht
    rcases ht with rfl | rfl
    · exact .padding (Padding.zeros 9) _
    · exact .part ⟨[5], 5, some 1, some .other⟩ _ (by simp)
  have hfile : Source.Ordinary threeBytes 2 (FileWindow.source ⟨1, ⟨[0x61]⟩, 1, 2⟩) 2 :=
    .window _ 2 [1, 2, 3] rfl (by decide) (.inl (by decide))
  intro t ht
  simp only [mixed, List.mem_cons, List.not_mem_nil, or_false] at ht
  rcases ht with rfl | rfl | rfl | rfl
  · exact .padding (Padding.zeros 6) _
  · exact hfile
  · exact hnested
  · exact .memory [7] _

theorem dump_agrees_mixed : ∃ e e' e'' offset,
    mixed.readAt threeBytes 0 mixed.length = .error e ∧
    ((Cursor.ofStream mixed).drain threeBytes 7).1 = .error e' ∧
    (mixed.dump threeBytes ⟨[0x62]⟩).result = .error (.read offset e'') ∧
    (e.index = 2 ∧ e'.index = 2 ∧ e''.index = 2) ∧
    e.isShort = false ∧ e'.isShort = false ∧ e''.isShort = false := by
  have hinner : paddingThenFaulty.verdict threeBytes 0 11 = .error (1, false) := by
    rw [verdict, readAt_eq_gather]
    cbv
  have hnested : paddingThenFaulty.toSource.outcome threeBytes 0 11 = .error false := by
    rw [outcome_toSource (by decide), hinner]
    rfl
  have hbefore : gather threeBytes 0 20 0 (mixed.segments.toList.take 2) =
      .ok [0, 0, 0, 0, 0, 0, 2, 3] := by cbv
  have hverdict : mixed.verdict threeBytes 0 mixed.length = .error (2, false) := by
    rw [verdict, readAt_eq_gather, ← List.take_append_drop 2 mixed.segments.toList, gather_append]
    change (append (gather threeBytes 0 20 0 _) (gather threeBytes 0 20 2 (_ :: _))).mapError _ = _
    rw [hbefore, gather_cons, mapError_append, mapError_append, mapError_verdict_piece]
    change append (.ok _) (append ((paddingThenFaulty.toSource.outcome threeBytes 0 11).mapError _)
      _) = _
    rw [hnested]
    rfl
  obtain ⟨bytes, hread, -⟩ | ⟨e, e', e'', offset, he, he', he'', hindex, hindex', hshort, hshort'⟩ :=
    dump_agrees mixed threeBytes ⟨[0x62]⟩ rfl rfl rfl ordinarySources_mixed
      (show 0 < 7 by decide)
  · rw [verdict, hread] at hverdict
    cases hverdict
  · rw [verdict, he] at hverdict
    have hcome : e.verdict = (2, false) := Except.error.inj hverdict
    have hthird : e.index = 2 := congrArg Prod.fst hcome
    have hfailed : e.isShort = false := congrArg Prod.snd hcome
    rw [hthird] at hindex hindex'
    rw [hfailed] at hshort hshort'
    exact ⟨e, e', e'', offset, he, he', he'', ⟨hthird, hindex, hindex'⟩, hfailed, hshort, hshort'⟩

/-- A window that crosses the largest offset of a file ends early or fails, depending on how much
of it is read at once. -/
example : (FileWindow.source ⟨1, ⟨[0x61]⟩, maxOffset - 1, 5⟩).outcome threeBytes 0 1 = .error true ∧
    (FileWindow.source ⟨1, ⟨[0x61]⟩, maxOffset - 1, 5⟩).outcome threeBytes 0 2 = .error false := by
  cbv

end Dump

end VirtualFiles
