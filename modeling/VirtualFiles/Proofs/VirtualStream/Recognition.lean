import VirtualFiles.Proofs.VirtualStream.Advancing

/-!
# Recognising an audio bank in a stream

A cursor that stands far enough before the end of its stream is asked whether there is an audio
bank. It stays where it is, and if all segments deliver their pieces of the magic number, it
compares them. If one does not, it depends on how its source fails. A failure of its own is passed
on. But a source that ends early is answered as if the stream ended there, which it does not: the
stream announces the bytes, and cannot show them.

## Main results

* `fst_isAwb_eq_ok_iff`, `fst_isAwb_eq_error_iff` — what comes of the question, by what comes of
  one read
* `isAwb_iff` — when an audio bank is found, when none is found, and what is passed on
-/

namespace VirtualFiles

open VirtualStream

namespace ReadError

variable {index offset : Nat} {t : Segment} {cause : IoError}

theorem ofSource_of_ne_unexpectedEof (h : cause.kind ≠ .unexpectedEof) :
    ofSource index t offset cause = .backing index t.kind t.extent cause := if_neg h

theorem isShort_ofSource_iff :
    (ofSource index t offset cause).isShort = true ↔ cause.kind = .unexpectedEof := by
  rw [isShort_ofSource, IoError.isEarlyEnd, beq_iff_eq]

end ReadError

namespace Cursor

variable {c : Cursor} {fs : FileSystem} {found : Bool} {failure : IoError}

/-- A cursor answers if it could read, or if the source that failed has ended early. -/
theorem fst_isAwb_eq_ok_iff (hle : c.position ≤ c.stream.length) :
    (Awb.isAwb (seekable fs) c).1 = .ok found ↔
      (∃ bytes, c.stream.readAt fs c.position Awb.magic.length = .ok bytes ∧
        found = (bytes == Awb.magic)) ∨
      ∃ e, c.stream.readAt fs c.position Awb.magic.length = .error e ∧ e.isShort = true ∧
        found = false := by
  cases hread : c.stream.readAt fs c.position Awb.magic.length with
  | ok bytes =>
    rw [isAwb_of_readAt_ok hle hread]
    simp only [Except.ok.injEq, reduceCtorEq, false_and, exists_false, or_false, exists_eq_left',
      eq_comm]
  | error e =>
    rw [isAwb_of_readAt_error hle hread]
    by_cases hshort : e.isShort = true
    · simp only [hshort, if_true, Except.ok.injEq, reduceCtorEq, false_and, exists_false,
        false_or, Except.error.injEq, exists_eq_left', true_and, eq_comm]
    · simp only [hshort, reduceCtorEq, false_and, exists_false, false_or, Except.error.injEq,
        exists_eq_left', Bool.false_eq_true, if_false]

/-- It fails if the source that failed did so by itself. -/
theorem fst_isAwb_eq_error_iff (hle : c.position ≤ c.stream.length) :
    (Awb.isAwb (seekable fs) c).1 = .error failure ↔
      ∃ e, c.stream.readAt fs c.position Awb.magic.length = .error e ∧ ¬ e.isShort = true ∧
        failure = e.toIoError := by
  cases hread : c.stream.readAt fs c.position Awb.magic.length with
  | ok bytes =>
    rw [isAwb_of_readAt_ok hle hread]
    simp only [reduceCtorEq, false_and, exists_false]
  | error e =>
    rw [isAwb_of_readAt_error hle hread]
    by_cases hshort : e.isShort = true
    · simp only [hshort, if_true, reduceCtorEq, Except.error.injEq, exists_eq_left', not_true,
        false_and]
    · simp only [hshort, Bool.false_eq_true, if_false, Except.error.injEq, exists_eq_left',
        not_false_iff, true_and, eq_comm]

/-- A cursor is asked for an audio bank, at least four bytes before the end of its stream. It stays
where it is. It answers if all segments deliver their pieces of these four bytes, and then says
whether they are the magic number; it also says that there is no bank if the first segment that
does not deliver its piece has a source that ends early. It fails if this source fails by itself. -/
theorem isAwb_iff (c : Cursor) (fs : FileSystem)
    (hin : c.position + Awb.magic.length ≤ c.stream.length) :
    (Awb.isAwb (seekable fs) c).2 = c ∧
    (∀ found, (Awb.isAwb (seekable fs) c).1 = .ok found ↔
      (∃ pieces, List.Forall₂ (fun t piece =>
          t.piece fs c.position (c.position + Awb.magic.length) = .ok piece)
          c.stream.segments.toList pieces ∧
        pieces.flatten.length = Awb.magic.length ∧ found = (pieces.flatten == Awb.magic)) ∨
      (∃ before t cause, FailsFirst c.stream.segments.toList fs c.position
          (c.position + Awb.magic.length) before t cause ∧
        cause.kind = .unexpectedEof ∧ found = false)) ∧
    (∀ failure, (Awb.isAwb (seekable fs) c).1 = .error failure ↔
      ∃ before t cause, FailsFirst c.stream.segments.toList fs c.position
          (c.position + Awb.magic.length) before t cause ∧
        cause.kind ≠ .unexpectedEof ∧
        failure = (ReadError.backing before.length t.kind t.extent cause).toIoError) := by
  have hle : c.position ≤ c.stream.length := Nat.le_of_add_right_le hin
  refine ⟨isAwb_snd hle, fun found => ?_, fun failure => ?_⟩
  · rw [fst_isAwb_eq_ok_iff hle]
    apply or_congr
    · constructor
      · rintro ⟨bytes, hread, hfound⟩
        -- the magic number ends before the stream does, so nothing of it is left out
        have hlength := length_of_readAt_eq_ok hread
        obtain ⟨pieces, hpieces, rfl⟩ := readAt_eq_ok_iff.mp hread
        exact ⟨pieces, hpieces, by omega, hfound⟩
      · rintro ⟨pieces, hpieces, -, hfound⟩
        exact ⟨_, readAt_eq_ok_iff.mpr ⟨pieces, hpieces, rfl⟩, hfound⟩
    · constructor
      · rintro ⟨e, hread, hshort, hfound⟩
        obtain ⟨before, t, cause, hfails, rfl⟩ := readAt_eq_error_iff.mp hread
        exact ⟨before, t, cause, hfails, ReadError.isShort_ofSource_iff.mp hshort, hfound⟩
      · rintro ⟨before, t, cause, hfails, hearly, hfound⟩
        refine ⟨_, readAt_eq_error_iff.mpr ⟨before, t, cause, hfails, rfl⟩, ?_, hfound⟩
        exact ReadError.isShort_ofSource_iff.mpr hearly
  · rw [fst_isAwb_eq_error_iff hle]
    constructor
    · rintro ⟨e, hread, hshort, hfailure⟩
      obtain ⟨before, t, cause, hfails, rfl⟩ := readAt_eq_error_iff.mp hread
      -- only a failure of its own keeps the segment in the report that is passed on
      have hown := mt ReadError.isShort_ofSource_iff.mpr hshort
      rw [ReadError.ofSource_of_ne_unexpectedEof hown] at hfailure
      exact ⟨before, t, cause, hfails, hown, hfailure⟩
    · rintro ⟨before, t, cause, hfails, hown, hfailure⟩
      refine ⟨_, readAt_eq_error_iff.mpr ⟨before, t, cause, hfails, rfl⟩, ?_, ?_⟩
      · exact mt ReadError.isShort_ofSource_iff.mp hown
      · rw [ReadError.ofSource_of_ne_unexpectedEof hown]
        exact hfailure

/-- A source that announces twelve bytes and holds the first half of the magic number. -/
def halfMagic : VirtualStream :=
  ⟨#[⟨Partial.source ⟨Awb.magic.take 2, 12, none, none⟩, ⟨0, 12, by decide⟩, .file⟩], 12,
    .cons rfl (by decide) (by decide) (.nil _)⟩

/-- No audio bank is found in a stream that announces twelve bytes, of which only two can be
read. -/
theorem isAwb_iff_halfMagic : 0 + Awb.magic.length ≤ halfMagic.length ∧
    Awb.isAwb (seekable .initial) ⟨halfMagic, 0⟩ = (.ok false, ⟨halfMagic, 0⟩) := by
  have hin : 0 + Awb.magic.length ≤ halfMagic.length := by decide
  obtain ⟨hstays, hfound, -⟩ := isAwb_iff ⟨halfMagic, 0⟩ .initial hin
  refine ⟨hin, Prod.ext ((hfound false).mpr (.inr ?_)) hstays⟩
  refine ⟨[], _, Source.endedEarly, ⟨⟨[], rfl⟩, List.forall_mem_nil _, ?_⟩, rfl, rfl⟩
  refine (Source.delivers_partial rfl ?_).readExactAt_eq_error (by decide) (by decide)
  simp

end Cursor

end VirtualFiles
