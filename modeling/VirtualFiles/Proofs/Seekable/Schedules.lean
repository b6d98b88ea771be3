import VirtualFiles.Awb
import VirtualFiles.Seekable.Scheduled
import Mathlib.Data.List.TakeWhile
import Mathlib.Data.Nat.Count
import Mathlib.Tactic.MkIffOfInductiveProp

/-!
# Exact reads against a schedule of failures

An exact read is made of as many reads as it takes. Some of them are answered, with at most a piece
of what is asked for, others are interrupted, and others fail. Which of the failures of a schedule
is met depends on how far the answered reads have come by then, and on nothing else: a failure
that is due later, when everything has been obtained or the data has ended, is never seen.

So it is with the question whether there is an audio bank. The sizes of the pieces and the
interruptions between them do not change the answer, and the reader is back at its place in every
case.

## Main definitions

* `Scheduled.due?`, `answered` — what is due at a read to come, and how many reads are answered
* `Scheduled.ComesTo` — the reads that an exact read comes to
* `Scheduled.whole` — what an exact read gives without a failure
* `Scheduled.Settles` — the outcome of an exact read, as the schedule has it

## Main results

* `Scheduled.comesTo_succ_of_answered`, `Scheduled.comesTo_succ_of_interrupted` — one read
* `Scheduled.settles_readExact` — all reads
* `Scheduled.isAwb_reader` — the question for an audio bank
-/

namespace VirtualFiles

namespace Awb

/-- Bytes begin like an AWB file if their first four are the magic number. -/
theorem hasMagic_eq (bytes : Bytes) : hasMagic bytes = (bytes.take magic.length == magic) := by
  rw [Bool.eq_iff_iff, hasMagic, List.isPrefixOf_iff_prefix, List.prefix_iff_eq_take, beq_iff_eq,
    eq_comm]

/-- What is made of an exact read of the magic number. -/
def verdict : Except IoError Bytes → Except IoError Bool
  | .ok bytes => .ok (bytes == magic)
  | .error e => if e.kind = .unexpectedEof then .ok false else .error e

theorem probe_eq {σ : Type} (r : Seekable σ) (state : σ) : probe r state =
    (verdict (r.readExact state magic.length).1, (r.readExact state magic.length).2) := by
  unfold probe
  split
  · next hread => rw [hread]; rfl
  · next hread => rw [hread]; rfl

end Awb

namespace Scheduled

variable {s next : Scheduled} {piece count i : Nat} {kind : IoErrorKind} {e : IoError}
variable {bytes : Bytes} {result : Except IoError Bytes} {due : Nat → Option IoErrorKind}
variable {left len : Nat}

/-- The failure that is due at read `i`, counted from now on. -/
def due? (s : Scheduled) (i : Nat) : Option IoErrorKind := s.readErrors.lookup (s.reads + i)

/-- How many bytes are left from the place of the reader on. -/
def bytesLeft (s : Scheduled) : Nat := s.data.length - s.position

/-- How many of the first `i` reads are answered. -/
def answered (due : Nat → Option IoErrorKind) (i : Nat) : Nat := Nat.count (fun j => due j = none) i

/-- An exact read of `count` bytes comes to read `i` if there are `left` bytes and `piece` bytes
are given at a time: the reads before are answered or only interrupted, those that are answered
do not obtain everything, and none of them begins at the end of the data. -/
@[mk_iff]
structure ComesTo (due : Nat → Option IoErrorKind) (piece left count i : Nat) : Prop where
  quiet : ∀ j < i, ∀ kind ∈ due j, kind = .interrupted
  unfinished : min (answered due i * piece) left < count
  unended : ∀ k < answered due i, k * piece < left

/-- What an exact read gives without a failure: the bytes, unless the data ends before them. -/
def whole (s : Scheduled) (count : Nat) : Except IoError Bytes :=
  if count ≤ s.bytesLeft then .ok (s.data.window s.position count)
  else .error Seekable.endedEarly

/-- The outcome of an exact read is the first failure that it comes to and that is no
interruption, if there is one. -/
structure Settles (s : Scheduled) (piece count : Nat) (result : Except IoError Bytes) : Prop where
  refused : ∀ i kind, ComesTo s.due? piece s.bytesLeft count i → s.due? i = some kind →
    kind ≠ .interrupted → result = .error (.bare kind)
  given : (∀ i kind, ComesTo s.due? piece s.bytesLeft count i → s.due? i = some kind →
      kind = .interrupted) → result = s.whole count

/-! ### One read -/

theorem read_eq_error (h : s.read count = (.error e, next)) :
    ∃ kind, s.due? 0 = some kind ∧ e = .bare kind ∧ next = { s with reads := s.reads + 1 } := by
  unfold read at h
  split at h
  · next kind hdue =>
    cases h
    exact ⟨kind, hdue, rfl, rfl⟩
  · cases h

theorem read_eq_ok (h : s.read count = (.ok bytes, next)) :
    s.due? 0 = none ∧ bytes = s.data.window s.position (min count (s.chunk.getD count)) ∧
      next = { s with reads := s.reads + 1, position := s.position + bytes.length } := by
  unfold read at h
  split at h
  · cases h
  · next hdue =>
    cases h
    exact ⟨hdue, rfl, rfl⟩

theorem due?_succ (s : Scheduled) (position : Nat) :
    { s with reads := s.reads + 1, position := position }.due? = fun i => s.due? (i + 1) := by
  funext i
  simp only [due?, Nat.add_assoc, Nat.add_comm 1]

theorem answered_succ (due : Nat → Option IoErrorKind) (i : Nat) :
    answered due (i + 1) = answered (fun j => due (j + 1)) i + if due 0 = none then 1 else 0 :=
  Nat.count_succ' _ i

theorem quiet_of_answered (hdue : due i = none) : ∀ kind ∈ due i, kind = .interrupted := by
  intro kind hkind
  cases hdue.symm.trans hkind

theorem quiet_of_interrupted (hdue : due i = some .interrupted) :
    ∀ kind ∈ due i, kind = .interrupted := by
  intro kind hkind
  exact (Option.some.inj (hdue.symm.trans hkind)).symm

/-- If the last of some reads begins before the end, all of them do. -/
theorem forall_begins_iff (rounds : Nat) :
    (∀ k < rounds + 1, k * piece < left) ↔ rounds * piece < left := by
  constructor
  · intro h
    exact h rounds (Nat.lt_succ_self rounds)
  · intro h k hk
    exact Nat.lt_of_le_of_lt (Nat.mul_le_mul_right piece (Nat.le_of_lt_succ hk)) h

/-- A read that is answered leaves as many bytes to obtain less as it has given. -/
theorem rounds_succ (hpiece : 0 < piece) (hlen : len = min (min count piece) left) (hpos : 0 < len)
    (rounds : Nat) :
    (min ((rounds + 1) * piece) left < count ∧ ∀ k < rounds + 1, k * piece < left) ↔
      min (rounds * piece) (left - len) < count - len ∧
        ∀ k < rounds, k * piece < left - len := by
  rw [forall_begins_iff]
  cases rounds with
  | zero =>
    simp only [Nat.zero_add, Nat.one_mul, Nat.zero_mul, Nat.zero_min, Nat.not_lt_zero,
      false_implies, implies_true, and_true]
    omega
  | succ rounds =>
    rw [forall_begins_iff]
    -- the bytes of the reads but the last two, as one number
    generalize hbefore : rounds * piece = before
    simp only [Nat.succ_mul, hbefore]
    omega

/-- After a read that is answered. -/
theorem comesTo_succ_of_answered (hpiece : 0 < piece) (hdue : due 0 = none)
    (hlen : len = min (min count piece) left) (hpos : 0 < len) :
    ComesTo due piece left count (i + 1) ↔
      ComesTo (fun j => due (j + 1)) piece (left - len) (count - len) i := by
  have hanswered : answered due (i + 1) = answered (fun j => due (j + 1)) i + 1 := by
    rw [answered_succ, if_pos hdue]
  rw [comesTo_iff, comesTo_iff, hanswered, Nat.forall_lt_succ_left,
    and_iff_right (quiet_of_answered hdue)]
  exact and_congr_right fun _ => rounds_succ hpiece hlen hpos _

/-- After a read that is interrupted. -/
theorem comesTo_succ_of_interrupted (hdue : due 0 = some .interrupted) :
    ComesTo due piece left count (i + 1) ↔
      ComesTo (fun j => due (j + 1)) piece left count i := by
  have hanswered : answered due (i + 1) = answered (fun j => due (j + 1)) i := by
    rw [answered_succ, hdue, if_neg (Option.some_ne_none _), Nat.add_zero]
  rw [comesTo_iff, comesTo_iff, hanswered, Nat.forall_lt_succ_left,
    and_iff_right (quiet_of_interrupted hdue)]

theorem comesTo_zero (hpos : 0 < count) : ComesTo due piece left count 0 where
  quiet _ hj := absurd hj (Nat.not_lt_zero _)
  unfinished := by
    simp only [answered, Nat.count_zero, Nat.zero_mul, Nat.zero_min]
    exact hpos
  unended _ hk := absurd hk (Nat.not_lt_zero _)

/-- After a read that fails otherwise. -/
theorem not_comesTo_succ (hdue : due 0 = some kind) (hkind : kind ≠ .interrupted) :
    ¬ ComesTo due piece left count (i + 1) :=
  fun h => hkind (h.quiet 0 (Nat.succ_pos i) kind hdue)

/-! ### All reads -/

theorem settles_zero (s : Scheduled) (piece : Nat) : s.Settles piece 0 (.ok []) where
  refused i kind h := absurd h.unfinished (Nat.not_lt_zero _)
  given _ := by rw [whole, if_pos (Nat.zero_le _), Bytes.window_zero_right]

/-- The outcome after a first read that is answered or interrupted is made from the outcome of what
comes next. -/
theorem settles_of_next {f : Except IoError Bytes → Except IoError Bytes} {more : Nat}
    (hfirst : ∀ kind ∈ s.due? 0, kind = .interrupted) (hdue : ∀ i, next.due? i = s.due? (i + 1))
    (hcomes : ∀ i, ComesTo s.due? piece s.bytesLeft count (i + 1) ↔
      ComesTo next.due? piece next.bytesLeft more i)
    (herror : ∀ e, f (.error e) = .error e) (hwhole : f (next.whole more) = s.whole count)
    (hrest : next.Settles piece more result) : s.Settles piece count (f result) := by
  constructor
  · intro i kind hmeets hkind hother
    cases i with
    | zero => exact absurd (hfirst kind hkind) hother
    | succ i =>
      have hnext := hrest.refused i kind ((hcomes i).mp hmeets) ((hdue i).trans hkind) hother
      rw [hnext, herror]
  · intro hquiet
    rw [hrest.given, hwhole]
    intro i kind hmeets hkind
    exact hquiet (i + 1) kind ((hcomes i).mpr hmeets) ((hdue i).symm.trans hkind)

/-- The outcome after a read that is answered. -/
theorem settles_of_answered (hpiece : 0 < piece) (hdue : s.due? 0 = none) (hpos : 0 < bytes.length)
    (hbytes : bytes = s.data.window s.position (min count piece))
    (hrest : { s with reads := s.reads + 1, position := s.position + bytes.length }.Settles piece
      (count - bytes.length) result) :
    s.Settles piece count (result.map (bytes ++ ·)) := by
  have hshift := s.due?_succ (s.position + bytes.length)
  have hlen : bytes.length = min (min count piece) s.bytesLeft := by
    rw [hbytes, Bytes.length_window]
    rfl
  have hleft : { s with reads := s.reads + 1, position := s.position + bytes.length }.bytesLeft =
      s.bytesLeft - bytes.length := Nat.sub_add_eq _ _ _
  refine settles_of_next (quiet_of_answered hdue) (congrFun hshift) (fun i => ?_) (fun _ => rfl) ?_
    hrest
  · rw [hshift, hleft]
    exact comesTo_succ_of_answered hpiece hdue hlen hpos
  · unfold whole
    rw [hleft]
    by_cases hle : count ≤ s.bytesLeft
    · -- the read has given all that one read gives, as the end is not reached
      have hwhole : min count piece = bytes.length := by omega
      rw [if_pos hle, if_pos (Nat.sub_le_sub_right hle _),
        Bytes.window_split (Nat.min_le_left count piece), ← hbytes, hwhole]
      rfl
    · rw [if_neg hle, if_neg (by omega)]
      rfl

/-- The outcome after a read that is interrupted. -/
theorem settles_of_interrupted (hdue : s.due? 0 = some .interrupted)
    (hrest : { s with reads := s.reads + 1 }.Settles piece count result) :
    s.Settles piece count result := by
  have hshift := s.due?_succ s.position
  refine settles_of_next (f := id) (quiet_of_interrupted hdue) (congrFun hshift) (fun i => ?_)
    (fun _ => rfl) rfl hrest
  rw [hshift]
  exact comesTo_succ_of_interrupted hdue

/-- The outcome after a read that fails otherwise. -/
theorem settles_of_refused (hpos : 0 < count) (hdue : s.due? 0 = some kind)
    (hkind : kind ≠ .interrupted) : s.Settles piece count (.error (.bare kind)) := by
  constructor
  · intro i due hmeets hdue' _
    cases i with
    | zero => rw [Option.some.inj (hdue.symm.trans hdue')]
    | succ i => exact absurd hmeets (not_comesTo_succ hdue hkind)
  · intro hquiet
    exact absurd (hquiet 0 kind (comesTo_zero hpos) hdue) hkind

/-- The outcome after a read at the end of the data. -/
theorem settles_of_ended (hpos : 0 < count) (hdue : s.due? 0 = none) (hend : s.bytesLeft = 0) :
    s.Settles piece count (.error Seekable.endedEarly) := by
  constructor
  · intro i kind hmeets hkind _
    cases i with
    | zero => exact absurd (hdue.symm.trans hkind) (Option.some_ne_none kind).symm
    | succ i =>
      -- the read at the end is answered, so nothing is read after it
      have hunended := hmeets.unended 0
      rw [answered_succ, if_pos hdue, hend] at hunended
      exact absurd (hunended (Nat.succ_pos _)) (Nat.not_lt_zero _)
  · intro _
    rw [whole, if_neg (by omega)]

/-- The outcome of an exact read is the one that the schedule has for it. -/
theorem settles_readExact (hpiece : 0 < piece)
    (hchunk : ∀ m ≤ count, min m (s.chunk.getD m) = min m piece) :
    s.Settles piece count (reader.readExact s count).1 := by
  fun_induction Seekable.readExact reader s count with
  | case1 s => exact s.settles_zero piece
  | case2 s count hcount next hread =>
    obtain ⟨hdue, hnil, -⟩ := read_eq_ok hread
    have hlen := congrArg List.length hnil
    rw [Bytes.length_window, hchunk count (Nat.le_refl count), List.length_nil] at hlen
    refine settles_of_ended (Nat.pos_of_ne_zero hcount) hdue ?_
    unfold bytesLeft
    omega
  | case3 s count hcount b bs next hread rest last hlast ih =>
    obtain ⟨hdue, hbytes, rfl⟩ := read_eq_ok hread
    rw [hchunk count (Nat.le_refl count)] at hbytes
    have hrest := ih fun m hm => hchunk m (Nat.le_trans hm (Nat.sub_le _ _))
    rw [hlast] at hrest
    exact settles_of_answered hpiece hdue (Nat.succ_pos bs.length) hbytes hrest
  | case4 s count hcount e next hread hkind ih =>
    obtain ⟨kind, hdue, rfl, rfl⟩ := read_eq_error hread
    obtain rfl : kind = .interrupted := hkind
    exact settles_of_interrupted hdue (ih hchunk)
  | case5 s count hcount e next hread hkind =>
    obtain ⟨kind, hdue, rfl, -⟩ := read_eq_error hread
    exact settles_of_refused (Nat.pos_of_ne_zero hcount) hdue hkind

/-- An exact read changes nothing but the place of the reader and the number of its reads. -/
theorem exists_readExact_snd (s : Scheduled) (count : Nat) :
    ∃ position reads, (reader.readExact s count).2 = { s with position, reads } := by
  fun_induction Seekable.readExact reader s count with
  | case1 s => exact ⟨s.position, s.reads, rfl⟩
  | case2 s count hcount next hread =>
    obtain ⟨-, -, rfl⟩ := read_eq_ok hread
    exact ⟨_, _, rfl⟩
  | case3 s count hcount b bs next hread rest last hlast ih =>
    obtain ⟨-, -, rfl⟩ := read_eq_ok hread
    obtain ⟨position, reads, hsnd⟩ := ih
    rw [hlast] at hsnd
    exact ⟨position, reads, hsnd⟩
  | case4 s count hcount e next hread hkind ih =>
    obtain ⟨kind, -, -, rfl⟩ := read_eq_error hread
    exact ih
  | case5 s count hcount e next hread hkind =>
    obtain ⟨kind, -, -, rfl⟩ := read_eq_error hread
    exact ⟨s.position, s.reads + 1, rfl⟩

/-! ### Audio banks -/

theorem seek_start (hseeks : s.seekErrors = []) (offset : Nat) :
    s.seek (.start offset) = (.ok offset, { s with seeks := s.seeks + 1, position := offset }) := by
  rw [seek, hseeks]
  rfl

theorem seek_current_zero (hseeks : s.seekErrors = []) :
    s.seek (.current 0) = (.ok s.position, { s with seeks := s.seeks + 1 }) := by
  rw [seek, hseeks]
  rfl

/-- The question for an audio bank asks for the place, reads, and moves back. -/
theorem isAwb_eq (hseeks : s.seekErrors = []) : ∃ reads, Awb.isAwb reader s =
    (Awb.verdict (reader.readExact { s with seeks := s.seeks + 1 } Awb.magic.length).1,
      { s with reads, seeks := s.seeks + 2 }) := by
  obtain ⟨position, reads, hsnd⟩ :=
    exists_readExact_snd { s with seeks := s.seeks + 1 } Awb.magic.length
  have hprobe := Awb.probe_eq reader { s with seeks := s.seeks + 1 }
  rw [hsnd] at hprobe
  have hback : reader.seek { s with position, reads, seeks := s.seeks + 1 } (.start s.position) =
      (.ok s.position, { s with reads, seeks := s.seeks + 2 }) :=
    seek_start (s := { s with position, reads, seeks := s.seeks + 1 }) hseeks s.position
  exact ⟨reads, Reader.withRestoredPosition_eq (seek_current_zero hseeks) hprobe hback⟩

/-- What is said of the bytes that were read is what is said of all bytes from the place on. -/
theorem verdict_whole (s : Scheduled) :
    Awb.verdict (s.whole Awb.magic.length) =
      .ok (Awb.hasMagic (s.data.drop s.position)) := by
  rw [Awb.hasMagic_eq, whole]
  split
  · rfl
  · next hshort =>
    have hne : (s.data.drop s.position).take Awb.magic.length ≠ Awb.magic := by
      intro hmagic
      have hlength := congrArg List.length hmagic
      rw [List.length_take, List.length_drop] at hlength
      unfold bytesLeft at hshort
      omega
    rw [beq_false_of_ne hne]
    rfl

/-- A reader that gives at least one byte at a time, and is moved without failure, is asked for an
audio bank. The first failure that its reads come to before they have obtained four bytes or hit
the end of the data, interruptions apart, is the answer, except that an unexpected end means that
there is no bank. If they come to none, it is answered whether the data from the place on begins
like a bank. In every case the reader is back at its place, and has been moved twice. -/
theorem isAwb_reader (s : Scheduled) (hchunk : s.chunk ≠ some 0) (hseeks : s.seekErrors = []) :
    (∀ i kind, ComesTo s.due? (s.chunk.getD Awb.magic.length) s.bytesLeft Awb.magic.length i →
      s.due? i = some kind → kind ≠ .interrupted →
      (Awb.isAwb reader s).1 =
        if kind = .unexpectedEof then .ok false else .error (.bare kind)) ∧
    ((∀ i kind, ComesTo s.due? (s.chunk.getD Awb.magic.length) s.bytesLeft Awb.magic.length i →
      s.due? i = some kind → kind = .interrupted) →
      (Awb.isAwb reader s).1 = .ok (Awb.hasMagic (s.data.drop s.position))) ∧
    (Awb.isAwb reader s).2.position = s.position ∧
    (Awb.isAwb reader s).2.seeks = s.seeks + 2 := by
  have hpiece : 0 < s.chunk.getD Awb.magic.length := by
    cases hsome : s.chunk with
    | none => decide
    | some piece => exact Nat.pos_of_ne_zero fun hzero => hchunk (hzero ▸ hsome)
  have hpieces : ∀ m ≤ Awb.magic.length,
      min m (s.chunk.getD m) = min m (s.chunk.getD Awb.magic.length) := by
    intro m hm
    cases s.chunk with
    | none => rw [Option.getD_none, Option.getD_none, Nat.min_self, Nat.min_eq_left hm]
    | some piece => rfl
  -- the moves are not counted with the reads, so the schedule is the same after the first of them
  obtain ⟨hrefused, hgiven⟩ :=
    settles_readExact (s := { s with seeks := s.seeks + 1 }) hpiece hpieces
  obtain ⟨reads, hanswer⟩ := isAwb_eq hseeks
  rw [hanswer]
  refine ⟨fun i kind hmeets hdue hkind => ?_, fun hquiet => ?_, rfl, rfl⟩
  · rw [hrefused i kind hmeets hdue hkind]
    rfl
  · rw [hgiven hquiet]
    exact s.verdict_whole

/-- A reader at the beginning of a bank, with two interruptions and a failure to come. -/
def patientBank (piece : Nat) : Scheduled where
  data := [0x2E, 0x2E] ++ Awb.magic
  position := 2
  chunk := some piece
  readErrors := [(0, .interrupted), (2, .interrupted), (4, .timedOut)]

/-- In pieces of three bytes the bank is found before the failure is due, in single bytes the
failure comes first. -/
theorem isAwb_reader_patientBank :
    (Awb.isAwb reader (patientBank 3)).1 = .ok true ∧
    (Awb.isAwb reader (patientBank 3)).2.position = 2 ∧
    (Awb.isAwb reader (patientBank 1)).1 = .error (.bare .timedOut) ∧
    (Awb.isAwb reader (patientBank 1)).2.position = 2 := by
  obtain ⟨-, hgiven, hplace, -⟩ := isAwb_reader (patientBank 3) (by decide) rfl
  obtain ⟨hrefused, -, hplace', -⟩ := isAwb_reader (patientBank 1) (by decide) rfl
  refine ⟨hgiven fun i kind hmeets hdue => ?_, hplace, ?_, hplace'⟩
  · match i, hmeets, hdue with
    | 0, _, hdue => exact (Option.some.inj hdue).symm
    | 2, _, hdue => exact (Option.some.inj hdue).symm
    | 4, hmeets, _ => exact absurd hmeets.unfinished (by decide)
    | 1, _, hdue | 3, _, hdue => cases hdue
    | i + 5, _, hdue =>
      simp [due?, patientBank, List.lookup_cons] at hdue
  · refine hrefused 4 .timedOut ⟨?_, by decide, by decide⟩ rfl (by decide)
    decide

end Scheduled

end VirtualFiles
