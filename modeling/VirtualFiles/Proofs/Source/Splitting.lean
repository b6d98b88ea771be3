import VirtualFiles.Proofs.Source.Delivery

/-!
# Reads that are cut in two

Whoever reads a source decides how much is asked for at once. It should not matter: a read that is
cut in two gives the bytes of the first part and then those of the second, and if one of them
fails, so does the whole, in the same way. This holds of a source that has some bytes and behaves
in one way beyond them, which all sources of the library do. A window of a file is an exception if
it begins before the largest offset of a file and is read beyond it: a read that would cross this
offset fails at once, while a shorter one finds the end of the file.

## Main definitions

* `IoError.isEarlyEnd` — whether a failure is an early end
* `Source.outcome` — an exact read, with failures told apart by this alone
* `Source.Splits` — reads may be cut in two
* `Source.Ends` — a source that has some bytes and behaves in one way beyond them

## Main results

* `Ends.of_readAt_cons`, `Ends.of_readAt_nil`, `Ends.of_readAt_error` — what a read says of such a
  source
* `Ends.outcome_eq`, `Ends.splits` — what exact reads of it come to
* `Delivers.ends`, `ends_partial`, `ends_fileWindow`, `ends_beyond` — the sources of the library
-/

namespace VirtualFiles

open Outcome

/-- Does the failure say that there were too few bytes? -/
def IoError.isEarlyEnd (e : IoError) : Bool := e.kind == .unexpectedEof

namespace Source

variable {s : Source} {fs : FileSystem} {data bytes : Bytes} {early : Bool}
variable {limit offset count : Nat} {e : IoError}

/-! ### Exact reads -/

@[simp] theorem readExactAt_zero : s.readExactAt fs offset 0 = .ok [] := by
  rw [readExactAt, if_pos rfl]

/-- A read that gives everything at once is an exact read. -/
theorem readExactAt_of_readAt (h : s.readAt fs offset count = .ok bytes)
    (hlength : bytes.length = count) : s.readExactAt fs offset count = .ok bytes := by
  cases bytes with
  | nil =>
    rw [← hlength]
    exact readExactAt_zero
  | cons b bs =>
    have hcount : count ≠ 0 := by
      rw [← hlength]
      exact Nat.succ_ne_zero _
    rw [readExactAt, if_neg hcount, h]
    dsimp only
    rw [hlength, Nat.sub_self, readExactAt_zero]
    exact congrArg Except.ok (List.append_nil (b :: bs))

theorem readExactAt_of_readAt_error (hcount : count ≠ 0)
    (h : s.readAt fs offset count = .error e) : s.readExactAt fs offset count = .error e := by
  rw [readExactAt, if_neg hcount, h]

theorem readExactAt_of_readAt_nil (hcount : count ≠ 0) (h : s.readAt fs offset count = .ok []) :
    s.readExactAt fs offset count = .error endedEarly := by
  rw [readExactAt, if_neg hcount, h]

/-- After a read that gives something, an exact read goes on behind it. -/
theorem readExactAt_of_readAt_cons {b : UInt8} {bs : Bytes} (hcount : count ≠ 0)
    (h : s.readAt fs offset count = .ok (b :: bs)) : s.readExactAt fs offset count =
      (s.readExactAt fs (offset + (b :: bs).length) (count - (b :: bs).length)).map
        ((b :: bs) ++ ·) := by
  rw [readExactAt, if_neg hcount, h]

/-- An exact read comes to its bytes, or to a failure that is an early end or not. -/
def outcome (s : Source) (fs : FileSystem) (offset count : Nat) : Except Bool Bytes :=
  (s.readExactAt fs offset count).mapError IoError.isEarlyEnd

@[simp] theorem outcome_zero : s.outcome fs offset 0 = .ok [] := by
  rw [outcome, readExactAt_zero]
  rfl

/-- Exact reads of the first `limit` bytes may be cut in two. -/
def Splits (s : Source) (fs : FileSystem) (limit : Nat) : Prop :=
  ∀ offset n m, offset + n + m ≤ limit →
    s.outcome fs offset (n + m) = append (s.outcome fs offset n) (s.outcome fs (offset + n) m)

/-- Reads of the first `limit` bytes give runs of `data` as long as there is something of it.
Beyond it they give nothing if it ends early, and otherwise fail. -/
structure Ends (s : Source) (fs : FileSystem) (limit : Nat) (data : Bytes) (early : Bool) :
    Prop where
  /-- `k` is the length of the run. -/
  something : ∀ {offset count}, offset + count ≤ limit → 0 < count → offset < data.length →
    ∃ k, 0 < k ∧ k ≤ min count (data.length - offset) ∧
      s.readAt fs offset count = .ok (data.window offset k)
  nothing : ∀ {offset count}, offset + count ≤ limit → 0 < count → data.length ≤ offset →
    (s.readAt fs offset count = .ok [] ∧ early = true) ∨
      ∃ e, s.readAt fs offset count = .error e ∧ e.isEarlyEnd = early

namespace Ends

/-- A read that gives something gives a run of the bytes. -/
theorem of_readAt_cons {b : UInt8} {bs : Bytes} (h : s.Ends fs limit data early)
    (hle : offset + count ≤ limit) (hpos : 0 < count)
    (hread : s.readAt fs offset count = .ok (b :: bs)) :
    offset + (b :: bs).length ≤ data.length ∧ (b :: bs).length ≤ count ∧
      data.window offset (b :: bs).length = b :: bs := by
  have hlt : offset < data.length := by
    by_contra hge
    rcases h.nothing hle hpos (Nat.le_of_not_lt hge) with ⟨hok, -⟩ | ⟨e, he, -⟩
    · cases hok.symm.trans hread
    · cases he.symm.trans hread
  obtain ⟨k, hk, hkle, hok⟩ := h.something hle hpos hlt
  have hrun := Except.ok.inj (hok.symm.trans hread)
  have hlength : (b :: bs).length = k := by
    rw [← hrun, Bytes.length_window_of_le (by omega)]
  rw [hlength, hrun]
  exact ⟨by omega, by omega, rfl⟩

/-- Only a source that ends early gives nothing, and only beyond its bytes. -/
theorem of_readAt_nil (h : s.Ends fs limit data early) (hle : offset + count ≤ limit)
    (hpos : 0 < count) (hread : s.readAt fs offset count = .ok []) :
    data.length ≤ offset ∧ early = true := by
  by_cases hlt : offset < data.length
  · obtain ⟨k, hk, hkle, hok⟩ := h.something hle hpos hlt
    have hlength := congrArg List.length (Except.ok.inj (hok.symm.trans hread))
    rw [Bytes.length_window_of_le (by omega), List.length_nil] at hlength
    omega
  · have hge := Nat.le_of_not_lt hlt
    rcases h.nothing hle hpos hge with ⟨-, hearly⟩ | ⟨e, he, -⟩
    · exact ⟨hge, hearly⟩
    · cases he.symm.trans hread

/-- A read fails beyond the bytes only, and in the way of the source. -/
theorem of_readAt_error (h : s.Ends fs limit data early)
    (hle : offset + count ≤ limit) (hpos : 0 < count)
    (hread : s.readAt fs offset count = .error e) :
    data.length ≤ offset ∧ e.isEarlyEnd = early := by
  by_cases hlt : offset < data.length
  · obtain ⟨k, -, -, hok⟩ := h.something hle hpos hlt
    cases hok.symm.trans hread
  · have hge := Nat.le_of_not_lt hlt
    rcases h.nothing hle hpos hge with ⟨hok, -⟩ | ⟨e', he', hearly⟩
    · cases hok.symm.trans hread
    · obtain rfl : e' = e := Except.error.inj (he'.symm.trans hread)
      exact ⟨hge, hearly⟩

/-- An exact read gives the bytes asked for if they are all there, and otherwise fails in the way
of the source. -/
theorem outcome_eq (h : s.Ends fs limit data early) (hle : offset + count ≤ limit) :
    s.outcome fs offset count =
      if count = 0 ∨ offset + count ≤ data.length then .ok (data.window offset count)
      else .error early := by
  unfold outcome
  fun_induction readExactAt s fs offset count with
  | case1 offset => simp [Except.mapError]
  | case2 offset count hcount e hread =>
    obtain ⟨hge, hearly⟩ := h.of_readAt_error hle (Nat.pos_of_ne_zero hcount) hread
    rw [if_neg (by omega)]
    exact congrArg Except.error hearly
  | case3 offset count hcount hread =>
    obtain ⟨hge, rfl⟩ := h.of_readAt_nil hle (Nat.pos_of_ne_zero hcount) hread
    rw [if_neg (by omega)]
    rfl
  | case4 offset count hcount b bs hread ih =>
    obtain ⟨hin, hsome, hrun⟩ := h.of_readAt_cons hle (Nat.pos_of_ne_zero hcount) hread
    have hrest := ih (by omega)
    -- what was read goes before what the rest of the read comes to
    change (append (.ok (b :: bs)) _).mapError _ = _
    rw [mapError_append, hrest]
    by_cases hfull : offset + count ≤ data.length
    · rw [if_pos (Or.inr (by omega)), if_pos (Or.inr hfull)]
      change append (.ok (b :: bs)) _ = _
      rw [append_ok, Bytes.window_split hsome, hrun]
    · rw [if_neg (by omega), if_neg (by omega)]
      rfl

/-- Reads of a source that behaves in one way beyond its bytes may be cut in two. -/
theorem splits (h : s.Ends fs limit data early) : s.Splits fs limit := by
  intro offset n m hle
  rcases Nat.eq_zero_or_pos n with rfl | hn
  · rw [Nat.zero_add, Nat.add_zero, outcome_zero, nil_append]
  rcases Nat.eq_zero_or_pos m with rfl | hm
  · rw [Nat.add_zero, outcome_zero, append_nil]
  rw [h.outcome_eq (by omega), h.outcome_eq (by omega), h.outcome_eq (by omega)]
  by_cases hboth : offset + (n + m) ≤ data.length
  · rw [if_pos (.inr hboth), if_pos (.inr (by omega)), if_pos (.inr (by omega)), append_ok,
      Bytes.window_split (Nat.le_add_right n m), Nat.add_sub_cancel_left]
  · rw [if_neg (by omega)]
    by_cases hfirst : offset + n ≤ data.length
    · rw [if_pos (.inr hfirst), if_neg (by omega)]
      rfl
    · rw [if_neg (by omega)]
      rfl

end Ends

/-! ### The sources of the library -/

variable {w : FileWindow} {p : Partial} {content : Bytes}

/-- A source that delivers a string ends early after it. -/
theorem Delivers.ends (h : s.Delivers fs data) (limit : Nat) : s.Ends fs limit data true where
  something _ hpos hlt := h.something hlt hpos
  nothing _ _ hge := .inl ⟨h.nothing (.inl hge), rfl⟩

/-- How a partial source ends does not depend on where it is read. -/
theorem ends_partial (hchunk : ∀ n, p.chunk = some n → 0 < n) (limit : Nat) :
    p.source.Ends fs limit p.held (p.ending.all (· == .unexpectedEof)) := by
  cases hending : p.ending with
  | none => exact (delivers_partial hending hchunk).ends limit
  | some kind =>
    -- with another ending the source has the same bytes
    have hdelivers : ({ p with ending := none } : Partial).source.Delivers fs p.held :=
      delivers_partial rfl hchunk
    refine ⟨fun {offset count} _ hpos hlt => ?_, fun {offset count} _ hpos hge => .inr ?_⟩
    · obtain ⟨k, hk, hle, hread⟩ := hdelivers.something hlt hpos
      refine ⟨k, hk, hle, ?_⟩
      simp only [Partial.source, Partial.readAt] at hread ⊢
      rw [if_neg (by omega)] at hread ⊢
      exact hread
    · refine ⟨.explained kind "faulty source", ?_, rfl⟩
      simp only [Partial.source, Partial.readAt, hending]
      rw [if_pos hge, if_neg (by omega)]

/-- A window of a regular file, as far as its addresses are offsets in a file, has what the file
holds there and then ends early. -/
theorem ends_fileWindow (hnode : fs.node? w.node = some (.regular content))
    (hend : w.offset + limit ≤ FileSystem.maxOffset) (hlimit : limit ≤ w.length) :
    w.source.Ends fs limit (content.window w.offset limit) true := by
  -- as far as the limit the window is like a shorter one
  have hdelivers : (FileWindow.source { w with length := limit }).Delivers fs
      (content.window w.offset limit) := delivers_fileWindow hnode hend
  have hread : ∀ {offset count}, offset + count ≤ limit → 0 < count →
      w.source.readAt fs offset count =
        (FileWindow.source { w with length := limit }).readAt fs offset count := by
    intro offset count hle hpos
    simp only [FileWindow.source, FileWindow.readAt]
    rw [if_neg (by omega), if_neg (show ¬(count = 0 ∨ limit ≤ offset) by omega),
      show min count (w.length - offset) = min count (limit - offset) by omega]
    rfl
  exact ⟨fun hle hpos hlt => hread hle hpos ▸ (hdelivers.ends limit).something hle hpos hlt,
    fun hle hpos hge => hread hle hpos ▸ (hdelivers.ends limit).nothing hle hpos hge⟩

/-- A window that begins at the largest offset of a file or after it is refused everywhere. -/
theorem ends_beyond (hbegin : FileSystem.maxOffset ≤ w.offset) (hlimit : limit ≤ w.length) :
    w.source.Ends fs limit [] false where
  something _ _ hlt := absurd hlt (Nat.not_lt_zero _)
  nothing {offset count} hle hpos _ := by
    have hcount : min count (w.length - offset) = count := by omega
    refine .inr ?_
    simp only [FileWindow.source, FileWindow.readAt]
    rw [if_neg (by omega), hcount]
    split
    · exact ⟨_, rfl, rfl⟩
    · rw [FileSystem.read, if_pos (by omega)]
      exact ⟨_, rfl, rfl⟩

end Source

end VirtualFiles
