import VirtualFiles.Proofs.Source.Splitting

/-!
# Reads of a window of a file

A window is fixed when the file is opened, and the file may grow and shrink afterwards. Every
read is answered from what the file holds at that moment. It is cut by three ends, those of
the request, of the window and of the file, and shows no byte outside the window.

A read is refused if it asks for a byte at an offset that no file has. What counts is the end of
the read after the window has cut it. So a read that begins before the largest offset of a file
may be refused although the file has ended long before, where a shorter read at the same
place finds the end of the file.

## Main definitions

* `FileWindow.Refuses` — whether a read asks for too large an offset
* `FileWindow.refusal` — the failure of such a read

## Main results

* `FileWindow.readAt_of_refuses`, `FileWindow.readAt_of_not_refuses` — a read by what the file
  holds
* `FileWindow.readExactAt_eq_ok_iff` — when an exact read gives its bytes
* `FileWindow.reads_clipped` — what reads and exact reads give, and when they are refused
-/

namespace VirtualFiles

open FileSystem

namespace FileWindow

variable {w : FileWindow} {fs : FileSystem} {content bytes : Bytes} {offset count : Nat}

/-- Does the read, cut at the end of the window, end beyond the largest offset of a file? A read
that asks for nothing in the window is not looked at. -/
def Refuses (w : FileWindow) (offset count : Nat) : Prop :=
  0 < count ∧ offset < w.length ∧ maxOffset < w.offset + offset + min count (w.length - offset)

/-- The failure of a read that is refused. It has a text if its place is no address. -/
def refusal (w : FileWindow) (offset : Nat) : IoError :=
  if addressSpace ≤ w.offset + offset then w.offsetOverflow offset else .bare .invalidInput

theorem kind_refusal : (w.refusal offset).kind = .invalidInput := by
  unfold refusal
  split <;> rfl

theorem readAt_of_refuses (h : w.Refuses offset count) :
    w.readAt fs offset count = .error (w.refusal offset) := by
  obtain ⟨hpos, hin, hbeyond⟩ := h
  rw [readAt, if_neg (by omega), refusal]
  split
  · rfl
  · rw [FileSystem.read, if_pos hbeyond]
    rfl

/-- The bytes of the file from the place of the read on, up to the end that comes first. -/
theorem readAt_of_not_refuses (hnode : fs.node? w.node = some (.regular content))
    (h : ¬ w.Refuses offset count) :
    w.readAt fs offset count = .ok (content.extract (w.offset + offset)
      (min (w.offset + offset + count) (min (w.offset + w.length) content.length))) := by
  have hspace := Source.maxOffset_add_one_lt
  have hextract : ∀ stop, content.extract (w.offset + offset) stop =
      content.window (w.offset + offset) (stop - (w.offset + offset)) := fun _ => rfl
  rw [readAt, hextract]
  split
  · rw [show _ - _ = 0 by omega, Bytes.window_zero_right]
  · have hend : ¬ maxOffset < w.offset + offset + min count (w.length - offset) :=
      fun hbeyond => h ⟨by omega, by omega, hbeyond⟩
    rw [if_neg (by omega), FileSystem.read, if_neg hend, hnode]
    exact congrArg Except.ok (Bytes.window_congr (by omega))

/-- An exact read gives its bytes if they are all in the window and in the file, and if it ends at
an offset that a file can have. -/
theorem readExactAt_eq_ok_iff (hnode : fs.node? w.node = some (.regular content))
    (hpos : 0 < count) :
    w.source.readExactAt fs offset count = .ok bytes ↔
      w.offset + offset + count ≤ min maxOffset (min (w.offset + w.length) content.length) ∧
      bytes = content.extract (w.offset + offset) (w.offset + offset + count) := by
  have hextract : content.extract (w.offset + offset) (w.offset + offset + count) =
      content.window (w.offset + offset) count := by
    rw [List.extract_eq_take_drop, Nat.add_sub_cancel_left, Bytes.window]
  rw [hextract]
  constructor
  · intro hread
    -- the bytes are all there, and the first of the reads was not refused
    have hlength := Source.length_of_readExactAt hread
    have hwindow := Source.eq_window_of_fileWindow hnode hread
    rw [hwindow, Bytes.length_window, Bytes.length_window] at hlength
    have hrefuses : ¬ w.Refuses offset count := by
      intro hrefuses
      rw [Source.readExactAt_of_readAt_error (by omega) (readAt_of_refuses hrefuses)] at hread
      cases hread
    have hend : w.offset + offset + count ≤ maxOffset := by
      refine Nat.le_of_not_lt fun hbeyond => hrefuses ⟨hpos, by omega, by omega⟩
    exact ⟨by omega, hwindow.trans (Bytes.window_window (by omega))⟩
  · rintro ⟨hle, rfl⟩
    have hrefuses : ¬ w.Refuses offset count := by
      rintro ⟨-, -, hbeyond⟩
      omega
    refine Source.readExactAt_of_readAt ?_ (Bytes.length_window_of_le (by omega))
    rw [show w.source.readAt fs offset count = _ from readAt_of_not_refuses hnode hrefuses,
      show min (w.offset + offset + count) _ = w.offset + offset + count by omega, hextract]

/-- Reads of a window of a file, with what the file holds at this moment. A read gives the bytes
from its place on up to its own end, the end of the window or the end of the file, whichever comes
first, unless it is refused; and it is refused if it ends beyond the largest offset of a file after
the window has cut it. An exact read gives its bytes if they are all there. -/
theorem reads_clipped (w : FileWindow) (fs : FileSystem) (offset count : Nat)
    (hnode : fs.node? w.node = some (.regular content)) :
    (∀ bytes, w.readAt fs offset count = .ok bytes ↔ ¬ w.Refuses offset count ∧
      bytes = content.extract (w.offset + offset)
        (min (w.offset + offset + count) (min (w.offset + w.length) content.length))) ∧
    (∀ e, w.readAt fs offset count = .error e ↔ w.Refuses offset count ∧ e = w.refusal offset) ∧
    (w.refusal offset).kind = .invalidInput ∧
    (0 < count → ∀ bytes, w.source.readExactAt fs offset count = .ok bytes ↔
      w.offset + offset + count ≤ min maxOffset (min (w.offset + w.length) content.length) ∧
      bytes = content.extract (w.offset + offset) (w.offset + offset + count)) := by
  refine ⟨fun bytes => ?_, fun e => ?_, kind_refusal,
    fun hpos bytes => readExactAt_eq_ok_iff hnode hpos⟩
  · by_cases hrefuses : w.Refuses offset count
    · simp only [readAt_of_refuses hrefuses, hrefuses, reduceCtorEq, not_true, false_and]
    · simp only [readAt_of_not_refuses hnode hrefuses, hrefuses, Except.ok.injEq, not_false_iff,
        true_and, eq_comm]
  · by_cases hrefuses : w.Refuses offset count
    · simp only [readAt_of_refuses hrefuses, hrefuses, Except.error.injEq, true_and, eq_comm]
    · simp only [readAt_of_not_refuses hnode hrefuses, hrefuses, reduceCtorEq, false_and]

/-- A window of ten bytes that begins before the largest offset of a file and ends after it. -/
def crossing : FileWindow := ⟨1, ⟨[0x61]⟩, maxOffset - 1, 10⟩

/-- A file system with one file, of three bytes. -/
def shortFile : FileSystem where
  nodes := #[.directory 0 [([0x61], 1)], .regular [1, 2, 3]]
  working := 0

/-- Of two reads at one place, the shorter one finds the end of the file and the longer one is
refused. -/
theorem reads_clipped_crossing : shortFile.node? crossing.node = some (.regular [1, 2, 3]) ∧
    crossing.readAt shortFile 0 1 = .ok [] ∧
    crossing.readAt shortFile 0 2 = .error (.bare .invalidInput) := by
  have hnode : shortFile.node? crossing.node = some (.regular [1, 2, 3]) := rfl
  have hshorter := (reads_clipped crossing shortFile 0 1 hnode).1 []
  have hlonger := (reads_clipped crossing shortFile 0 2 hnode).2.1 (.bare .invalidInput)
  refine ⟨hnode, hshorter.mpr ⟨?_, rfl⟩, hlonger.mpr ⟨?_, rfl⟩⟩
  · unfold Refuses
    decide
  · unfold Refuses
    decide

end FileWindow

end VirtualFiles
