import VirtualFiles.Source.Pointer
import VirtualFiles.Proofs.Source.Checked

/-!
# Exact reads from single reads of any length

A source may give fewer bytes than a read asks for, and how many it gives may change from one read
to the next. An exact read asks again for what is left. Here every read of its loop is answered by a
program of its own. If all of them read the same bytes, the loop comes to these bytes or to an early
end, and nobody can tell from the result where the single reads were cut. Each read that does not
end the loop gives at least one byte, so it takes no more turns than bytes are wanted.

The loop may begin at any address and want bytes far beyond the last one. The address that it asks
for next is still a word: it is the first one, or all bytes before it have been read, and the number
of bytes in a source is a word.

## Main definitions

* `Source.exactPart` — what an exact read comes to, by the bytes alone
* `Serve` — programs that read the same bytes through pointers, each in its own way

## Main results

* `exactlyInTurn_next`, `exactlyInTurn_end` — one turn
* `exactlyInTurn_eq` — all turns
* `exact_reads_by_bytes` — exact reads depend on the bytes that a source holds, and on nothing else
-/

namespace VirtualFiles

open Outcome

namespace Source

variable {s : Source} {fs : FileSystem} {data bytes : Bytes} {offset count k : Nat} {e : IoError}

/-- The `count` bytes of `data` from `offset` on, or an early end if they are not all there. -/
def exactPart (data : Bytes) (offset count : Nat) : Except IoError Bytes :=
  if count = 0 ∨ offset + count ≤ data.length then .ok (data.window offset count)
  else .error endedEarly

theorem exactPart_zero : exactPart data offset 0 = .ok [] := by
  rw [exactPart, if_pos (.inl rfl), Bytes.window_zero_right]

theorem exactPart_of_length_le (hend : data.length ≤ offset) (hpos : 0 < count) :
    exactPart data offset count = .error endedEarly :=
  if_neg (by omega)

/-- If the first bytes wanted are there, it depends on the others. -/
theorem exactPart_split (hle : k ≤ count) (hin : offset + k ≤ data.length) :
    exactPart data offset count =
      (exactPart data (offset + k) (count - k)).map (data.window offset k ++ ·) := by
  by_cases hall : offset + count ≤ data.length
  · rw [exactPart, exactPart, if_pos (.inr hall), if_pos (.inr (by omega)),
      Bytes.window_split hle]
    rfl
  · rw [exactPart, exactPart, if_neg (by omega), if_neg (by omega)]
    rfl

theorem exactPart_eq_ok_iff : exactPart data offset count = .ok bytes ↔
    (count = 0 ∨ offset + count ≤ data.length) ∧
      bytes = data.extract offset (offset + count) := by
  rw [exactPart, List.extract_eq_take_drop, Nat.add_sub_cancel_left, ← Bytes.window]
  split
  · next hall => simp only [hall, Except.ok.injEq, true_and, eq_comm]
  · next hall => simp only [hall, reduceCtorEq, false_and]

theorem exactPart_eq_error_iff : exactPart data offset count = .error e ↔
    ¬ (count = 0 ∨ offset + count ≤ data.length) ∧ e = endedEarly := by
  rw [exactPart]
  split
  · next hall => simp only [hall, reduceCtorEq, not_true, false_and]
  · next hall => simp only [hall, Except.error.injEq, not_false_iff, true_and, eq_comm]

/-- Exact reads of a source through pointers come to a part of what it delivers. -/
theorem Delivers.readExactAt_through (h : s.Delivers fs data) (pointers : List Pointer) :
    (s.through pointers).readExactAt fs offset count = exactPart data offset count := by
  rw [through_eq, h.readExactAt_eq, exactPart]

end Source

open Source

/-- The programs answer one read each. Each of them reads, through the pointers, a source that holds
`data` when it is read, but need not give as many bytes as another one would. -/
def Serve (asks : Nat → Ask) (pointers : List Pointer) (data : Bytes) : Prop :=
  ∀ turn, ∃ (s : Source) (fs : FileSystem),
    s.Delivers fs data ∧ (s.through pointers).Answers fs (asks turn)

namespace Serve

variable {asks : Nat → Ask} {pointers : List Pointer} {data : Bytes} {offset count : Nat}

theorem later (h : Serve asks pointers data) : Serve (fun turn => asks (turn + 1)) pointers data :=
  fun turn => h (turn + 1)

theorem nothing (h : Serve asks pointers data) (turn : Nat) (hend : data.length ≤ offset)
    (hcount : count < addressSpace) : asks turn offset count = .ok (.ok []) := by
  obtain ⟨s, fs, hdelivers, hanswers⟩ := h turn
  rw [hanswers offset count hcount, through_eq, hdelivers.nothing (.inl hend)]

theorem something (h : Serve asks pointers data) (turn : Nat) (hlt : offset < data.length)
    (hpos : 0 < count) (hcount : count < addressSpace) :
    ∃ k, 0 < k ∧ k ≤ min count (data.length - offset) ∧
      asks turn offset count = .ok (.ok (data.window offset k)) := by
  obtain ⟨s, fs, hdelivers, hanswers⟩ := h turn
  obtain ⟨k, hk, hle, hread⟩ := hdelivers.something hlt hpos
  exact ⟨k, hk, hle, by rw [hanswers offset count hcount, through_eq, hread]⟩

end Serve

namespace Checked

variable {asks : Nat → Ask} {pointers : List Pointer} {data got : Bytes} {offset size turns : Nat}

/-! ### One turn -/

/-- If the buffer is full, nothing is wanted any more. -/
theorem exactlyInTurn_full (hfull : size ≤ got.length) : exactlyInTurn asks offset size turns got =
    .ok ((exactPart data (offset + got.length) (size - got.length)).map (got ++ ·)) := by
  rw [exactlyInTurn_of_le hfull, Nat.sub_eq_zero_of_le hfull, exactPart_zero]
  exact congrArg (Except.ok ∘ Except.ok) (List.append_nil got).symm

/-- A read in the bytes gives some of them, and the next one is behind these. -/
theorem exactlyInTurn_next (h : Serve asks pointers data) (hsize : size < addressSpace)
    (hleft : got.length < size) (hnext : offset + got.length < addressSpace)
    (hin : offset + got.length < data.length) :
    ∃ k, 0 < k ∧ k ≤ size - got.length ∧ offset + got.length + k ≤ data.length ∧
      exactlyInTurn asks offset size (turns + 1) got =
        exactlyInTurn (fun turn => asks (turn + 1)) offset size turns
          (got ++ data.window (offset + got.length) k) := by
  obtain ⟨k, hk, hle, hread⟩ := h.something 0 hin (Nat.sub_pos_of_lt hleft) (by omega)
  have hlength : (data.window (offset + got.length) k).length = k :=
    Bytes.length_window_of_le (by omega)
  have hsome : (data.window (offset + got.length) k).isEmpty = false :=
    List.isEmpty_eq_false_iff.mpr (List.ne_nil_of_length_pos (by omega))
  refine ⟨k, hk, by omega, by omega, ?_⟩
  rw [exactlyInTurn_of_ok hleft hnext hread (by omega) hsize, hsome, if_neg Bool.false_ne_true]

/-- A read behind the bytes gives nothing, and is the last one. -/
theorem exactlyInTurn_end (h : Serve asks pointers data) (hsize : size < addressSpace)
    (hleft : got.length < size) (hnext : offset + got.length < addressSpace)
    (hend : data.length ≤ offset + got.length) :
    exactlyInTurn asks offset size (turns + 1) got = .ok (.error endedEarly) := by
  have hread := h.nothing 0 hend (by omega : size - got.length < addressSpace)
  rw [exactlyInTurn_of_ok hleft hnext hread (Nat.zero_le _) hsize]
  rfl

/-! ### All turns -/

/-- As long as the next address is a word, the loop comes to the rest of the bytes wanted, or to an
early end. -/
theorem exactlyInTurn_eq (h : Serve asks pointers data) (hlength : data.length < addressSpace)
    (hsize : size < addressSpace) (hnext : offset + got.length < addressSpace)
    (hturns : size ≤ got.length + turns) : exactlyInTurn asks offset size turns got =
      .ok ((exactPart data (offset + got.length) (size - got.length)).map (got ++ ·)) := by
  induction turns generalizing asks got with
  | zero => exact exactlyInTurn_full hturns
  | succ turns ih =>
    rcases Nat.lt_or_ge got.length size with hleft | hfull
    · -- the amount that a read gives depends on the program, but not whether it gives something
      rcases Nat.lt_or_ge (offset + got.length) data.length with hin | hend
      · obtain ⟨k, hk, hle, hlast, hrun⟩ := exactlyInTurn_next h hsize hleft hnext hin
        have hgot : (got ++ data.window (offset + got.length) k).length = got.length + k := by
          rw [List.length_append, Bytes.length_window_of_le hlast]
        -- all bytes before the next address are in `data`, so the address is a word again
        have hword : offset + (got.length + k) < addressSpace := by omega
        have hrest := ih h.later (hgot ▸ hword) (by omega)
        rw [hgot, ← Nat.add_assoc, ← Nat.sub_sub] at hrest
        rw [hrun, hrest, exactPart_split hle hlast, map_map]
        simp only [Function.comp_def, List.append_assoc]
      · rw [exactlyInTurn_end h hsize hleft hnext hend,
          exactPart_of_length_le hend (Nat.sub_pos_of_lt hleft)]
        rfl
    · exact exactlyInTurn_full hfull

/-- Exact reads of a source that holds `data` come to the bytes wanted if they are all there or none
is wanted, and otherwise to an early end. Nothing else makes a difference: not how many bytes the
single reads give, now or the next time, and not the pointers through which the source is read. On a
machine, where offsets and lengths are words, the loop comes to the same result from every address.
It takes no more turns than bytes are wanted, and no address in it is too large for a word. -/
theorem exact_reads_by_bytes (data : Bytes) (offset size : Nat) :
    ∃ result : Except IoError Bytes,
      (∀ bytes, result = .ok bytes ↔ (size = 0 ∨ offset + size ≤ data.length) ∧
        bytes = data.extract offset (offset + size)) ∧
      (∀ e, result = .error e ↔ ¬ (size = 0 ∨ offset + size ≤ data.length) ∧ e = endedEarly) ∧
      endedEarly.kind = .unexpectedEof ∧
      (∀ (s : Source) (fs : FileSystem) (pointers : List Pointer), s.Delivers fs data →
        (s.through pointers).readExactAt fs offset size = result) ∧
      ∀ (asks : Nat → Ask) (pointers : List Pointer) (turns : Nat), Serve asks pointers data →
        data.length < addressSpace → offset < addressSpace → size < addressSpace → size ≤ turns →
        exactlyInTurn asks offset size turns [] = .ok result := by
  refine ⟨exactPart data offset size, fun _ => exactPart_eq_ok_iff,
    fun _ => exactPart_eq_error_iff, rfl, fun s fs pointers h => h.readExactAt_through pointers,
    fun asks pointers turns h hlength hoffset hsize hturns => ?_⟩
  -- at first the buffer is empty, and the address that comes next is the one of the read
  have hnext : offset + ([] : Bytes).length < addressSpace := hoffset
  have hwhole := exactlyInTurn_eq h hlength hsize hnext (by simpa using hturns)
  rw [hwhole, List.length_nil, Nat.add_zero, Nat.sub_zero]
  exact congrArg Except.ok nil_append

/-- A source of five bytes that announces nine, at its `turn`-th read: it gives one byte and two
bytes by turns. -/
def fickle (turn : Nat) : Source := Partial.source ⟨[1, 2, 3, 4, 5], 9, some (turn % 2 + 1), none⟩

/-- Three pointers, one behind the other. -/
def tower : List Pointer := [.borrowed, .shared, .owned]

/-- The reads of this source through the pointers. -/
def fickleAsks : Nat → Ask := fun turn offset count =>
  .ok (((fickle turn).through tower).readAt .initial offset count)

theorem delivers_fickle (turn : Nat) : (fickle turn).Delivers .initial [1, 2, 3, 4, 5] :=
  delivers_partial rfl fun n h => by
    cases h
    exact Nat.succ_pos _

/-- Zeros, one less than there are words, through the same pointers. -/
def zeroAsks : Nat → Ask := fun _ offset count =>
  .ok (((Padding.zeros (addressSpace - 1)).source.through tower).readAt .initial offset count)

/-- Four bytes are there, whether they come at once or not. A read of the last two words below the
end of the address space finds one zero and then the end. -/
theorem exact_reads_by_bytes_fickle :
    exactlyInTurn fickleAsks 1 4 4 [] = .ok (.ok [2, 3, 4, 5]) ∧
    ((fickle 0).through tower).readExactAt .initial 1 4 = .ok [2, 3, 4, 5] ∧
    exactlyInTurn zeroAsks (addressSpace - 2) 2 2 [] = .ok (.error endedEarly) := by
  obtain ⟨four, hfour, -, -, hread, hloop⟩ := exact_reads_by_bytes [1, 2, 3, 4, 5] 1 4
  obtain ⟨last, -, hlast, -, -, hend⟩ :=
    exact_reads_by_bytes (List.replicate (addressSpace - 1) 0) (addressSpace - 2) 2
  obtain rfl : four = .ok [2, 3, 4, 5] := (hfour _).mpr ⟨.inr (by decide), rfl⟩
  obtain rfl : last = .error endedEarly := by
    refine (hlast _).mpr ⟨?_, rfl⟩
    rw [List.length_replicate]
    decide
  refine ⟨hloop fickleAsks tower 4 ?_ (by decide) (by decide) (by decide) (Nat.le_refl 4),
    hread (fickle 0) .initial tower (delivers_fickle 0),
    hend zeroAsks tower 2 ?_ ?_ (by decide) (by decide) (Nat.le_refl 2)⟩
  · exact fun turn => ⟨fickle turn, .initial, delivers_fickle turn, fun _ _ _ => rfl⟩
  · exact fun turn => ⟨_, .initial, delivers_padding _, fun _ _ _ => rfl⟩
  · rw [List.length_replicate]
    decide

end Checked

end VirtualFiles
