import VirtualFiles.Source.FileWindow
import VirtualFiles.Source.Memory
import VirtualFiles.Source.Padding
import VirtualFiles.Source.Partial
import VirtualFiles.Proofs.Outcome

/-!
# What a source delivers

A read may leave out bytes, so what a source answers to one read does not say what it holds.
A source delivers a byte string if a read at a place in the string gives a run of bytes from
there on, at least one, and a read anywhere else gives nothing. How long the runs are is left
open; an exact read asks again until it has everything, so its result does not depend on
them.

The string may be shorter than the length that the source announces.

## Main definitions

* `Source.Delivers` — the source holds a byte string and is honest about it

## Main results

* `Delivers.unique` — a source delivers at most one byte string
* `Delivers.readExactAt_eq` — an exact read gives the bytes asked for if they are all there, and
  an early end otherwise
* `delivers_ofBytes`, `delivers_padding`, `delivers_fileWindow`, `delivers_partial` — what the
  sources of the library deliver
* `eq_window_of_fileWindow` — what reads of a file give that succeed, also beyond the largest
  offset
-/

namespace VirtualFiles

namespace Source

variable {s : Source} {fs : FileSystem} {data other : Bytes} {offset count : Nat}

/-- The source holds `data` and is honest about it, with the files as they are now: reads from
a place in `data` on give a run of its bytes, and all other reads give nothing. -/
structure Delivers (s : Source) (fs : FileSystem) (data : Bytes) : Prop where
  nothing : ∀ {offset count}, data.length ≤ offset ∨ count = 0 → s.readAt fs offset count = .ok []
  /-- `k` is the length of the run. -/
  something : ∀ {offset count}, offset < data.length → 0 < count →
    ∃ k, 0 < k ∧ k ≤ min count (data.length - offset) ∧
      s.readAt fs offset count = .ok (data.window offset k)

/-- A source that gives as much as it can in every read delivers what it gives. -/
theorem delivers_of_readAt
    (h : ∀ offset count, s.readAt fs offset count = .ok (data.window offset count)) :
    s.Delivers fs data where
  nothing {offset count} hout := by
    rw [h]
    rcases hout with hend | rfl
    · rw [Bytes.window_of_length_le hend]
    · rw [Bytes.window_zero_right]
  something {offset count} hlt hpos := by
    refine ⟨min count (data.length - offset), by omega, Nat.le_refl _, ?_⟩
    rw [h]
    exact congrArg Except.ok (Bytes.window_congr (by omega))

namespace Delivers

/-- One of two strings that a source delivers begins with the other one. -/
private theorem length_le (h : s.Delivers fs data) (h' : s.Delivers fs other) :
    data.length ≤ other.length := by
  refine Nat.le_of_not_lt fun hlt => ?_
  obtain ⟨k, hk, hle, hread⟩ := h.something hlt Nat.one_pos
  rw [h'.nothing (Or.inl (Nat.le_refl _)), Except.ok.injEq] at hread
  have hlength := congrArg List.length hread
  rw [Bytes.length_window_of_le (by omega), List.length_nil] at hlength
  omega

theorem unique (h : s.Delivers fs data) (h' : s.Delivers fs other) : data = other := by
  have hlength : data.length = other.length := Nat.le_antisymm (h.length_le h') (h'.length_le h)
  refine List.ext_getElem? fun i => ?_
  by_cases hi : i < data.length
  · -- a read of one byte gives that byte, whatever string it is taken from
    obtain ⟨k, hk, hle, hread⟩ := h.something hi Nat.one_pos
    obtain ⟨k', hk', hle', hread'⟩ := h'.something (hlength ▸ hi) Nat.one_pos
    rw [hread, Except.ok.injEq] at hread'
    have hfirst := congrArg (·[0]?) hread'
    simpa only [Bytes.getElem?_window, if_pos hk, if_pos hk', Nat.add_zero] using hfirst
  · rw [List.getElem?_eq_none (by omega), List.getElem?_eq_none (by omega)]

/-- An exact read gives the bytes asked for if the source holds all of them, and an early end
otherwise. -/
theorem readExactAt_eq (h : s.Delivers fs data) : s.readExactAt fs offset count =
    if count = 0 ∨ offset + count ≤ data.length then .ok (data.window offset count)
    else .error endedEarly := by
  fun_induction readExactAt s fs offset count with
  | case1 offset => simp
  | case2 offset count hcount e hread =>
    -- an honest source does not fail
    by_cases hlt : offset < data.length
    · obtain ⟨k, -, -, hok⟩ := h.something hlt (Nat.pos_of_ne_zero hcount)
      rw [hok] at hread
      cases hread
    · rw [h.nothing (Or.inl (by omega))] at hread
      cases hread
  | case3 offset count hcount hread =>
    rw [if_neg]
    rintro (hzero | hle)
    · exact hcount hzero
    · have hlt : offset < data.length := by omega
      obtain ⟨k, hk, hkle, hok⟩ := h.something hlt (Nat.pos_of_ne_zero hcount)
      rw [hok, Except.ok.injEq] at hread
      have hlength := congrArg List.length hread
      rw [Bytes.length_window_of_le (by omega), List.length_nil] at hlength
      omega
  | case4 offset count hcount b bs hread ih =>
    have hlt : offset < data.length := by
      refine Nat.lt_of_not_le fun hge => ?_
      rw [h.nothing (Or.inl hge)] at hread
      cases hread
    obtain ⟨k, hk, hkle, hok⟩ := h.something hlt (Nat.pos_of_ne_zero hcount)
    rw [hok, Except.ok.injEq] at hread
    rw [ih, ← hread, Bytes.length_window_of_le (by omega)]
    by_cases hle : offset + count ≤ data.length
    · rw [if_pos (Or.inr (by omega)), if_pos (Or.inr hle)]
      exact congrArg Except.ok (Bytes.window_split (by omega)).symm
    · rw [if_neg (by omega), if_neg (by omega)]
      rfl

theorem readExactAt_eq_ok (h : s.Delivers fs data) (hle : offset + count ≤ data.length) :
    s.readExactAt fs offset count = .ok (data.window offset count) := by
  rw [h.readExactAt_eq, if_pos (Or.inr hle)]

theorem readExactAt_eq_error (h : s.Delivers fs data) (hpos : 0 < count)
    (hlt : data.length < offset + count) :
    s.readExactAt fs offset count = .error endedEarly := by
  rw [h.readExactAt_eq, if_neg (by omega)]

end Delivers

/-! ### The sources of the library -/

theorem delivers_ofBytes (data : Bytes) : (ofBytes data).Delivers fs data :=
  delivers_of_readAt fun _ _ => rfl

theorem delivers_padding (p : Padding) :
    p.source.Delivers fs (List.replicate p.length p.fill) :=
  delivers_of_readAt fun offset count => by
    simp [Padding.source, Bytes.window, List.take_replicate, List.drop_replicate]

theorem maxOffset_add_one_lt : FileSystem.maxOffset + 1 < addressSpace := by decide

/-- A window of a regular file delivers the part of the window that the file holds now. The end
of the window has to be an offset in the file, because reads beyond the largest one fail. -/
theorem delivers_fileWindow {w : FileWindow} {content : Bytes}
    (hnode : fs.node? w.node = some (.regular content))
    (hend : w.offset + w.length ≤ FileSystem.maxOffset) :
    w.source.Delivers fs (content.window w.offset w.length) where
  nothing {offset count} hout := by
    have hspace := maxOffset_add_one_lt
    simp only [FileWindow.source, FileWindow.readAt]
    split
    · rfl
    · next hin =>
      rw [Bytes.length_window] at hout
      rw [if_neg (by omega)]
      simp only [FileSystem.read, hnode]
      rw [if_neg (by omega), Bytes.window_of_length_le (by omega)]
      rfl
  something {offset count} hlt hpos := by
    have hspace := maxOffset_add_one_lt
    rw [Bytes.length_window] at hlt ⊢
    refine ⟨min count (min w.length (content.length - w.offset) - offset), by omega,
      Nat.le_refl _, ?_⟩
    simp only [FileWindow.source, FileWindow.readAt]
    rw [if_neg (by omega), if_neg (by omega)]
    simp only [FileSystem.read, hnode]
    rw [if_neg (by omega)]
    refine congrArg Except.ok ?_
    simp only [Bytes.window, List.drop_take, List.drop_drop, List.take_take,
      List.take_eq_take_iff, List.length_drop]
    omega

/-- A partial source that ends by giving nothing delivers what it holds, however small its
pieces are. -/
theorem delivers_partial {p : Partial} (hending : p.ending = none)
    (hchunk : ∀ n, p.chunk = some n → 0 < n) : p.source.Delivers fs p.held where
  nothing {offset count} hout := by
    simp only [Partial.source, Partial.readAt, hending]
    split
    · rfl
    · obtain rfl : count = 0 := by omega
      simp
  something {offset count} hlt hpos := by
    have hpiece : 0 < p.chunk.getD count := by
      cases h : p.chunk with
      | none => exact hpos
      | some n => exact hchunk n h
    refine ⟨min (min count (p.chunk.getD count)) (p.held.length - offset), by omega, by omega, ?_⟩
    simp only [Partial.source, Partial.readAt]
    rw [if_neg (by omega), Bytes.window, Bytes.window, Except.ok.injEq, List.take_eq_take_iff,
      List.length_drop]
    omega

/-! ### Reads that succeed -/

variable {bytes content : Bytes} {w : FileWindow}

/-- If the reads of a source that succeed give runs of `data`, its exact reads give windows. -/
theorem eq_window_of_readExactAt
    (hruns : ∀ {offset count bytes}, s.readAt fs offset count = .ok bytes →
      bytes = data.window offset bytes.length)
    (h : s.readExactAt fs offset count = .ok bytes) : bytes = data.window offset count := by
  fun_induction readExactAt s fs offset count generalizing bytes with
  | case1 offset =>
    cases h
    exact Bytes.window_zero_right.symm
  | case2 => cases h
  | case3 => cases h
  | case4 offset count hcount b bs hread ih =>
    have hle := s.readAt_le hread
    obtain ⟨rest, hrest, rfl⟩ := Outcome.map_eq_ok_iff.mp h
    rw [Bytes.window_split hle, ← hruns hread, ← ih hrest]

/-- Reads of a window of a regular file give what the file holds in the window, if they succeed. -/
theorem eq_window_of_fileWindow (hnode : fs.node? w.node = some (.regular content))
    (h : w.source.readExactAt fs offset count = .ok bytes) :
    bytes = (content.window w.offset w.length).window offset count := by
  refine eq_window_of_readExactAt (fun {offset count bytes} hread => ?_) h
  simp only [FileWindow.source, FileWindow.readAt] at hread
  split at hread
  · cases hread
    exact Bytes.window_zero_right.symm
  · next hin =>
    split at hread
    · cases hread
    · simp only [FileSystem.read, hnode] at hread
      split at hread
      · cases hread
      · have hbytes : content.window (w.offset + offset) (min count (w.length - offset)) = bytes :=
          Except.ok.inj hread
        -- the read was cut by the end of the file or of the window
        have hlength := congrArg List.length hbytes
        rw [Bytes.length_window] at hlength
        rw [Bytes.window_window (by omega)]
        exact hbytes.symm.trans (Bytes.window_congr (by omega))

/-- Nothing can be read from a directory. -/
theorem eq_nil_of_directory {above : NodeId} {entries : List (Bytes × NodeId)}
    (hnode : fs.node? w.node = some (.directory above entries))
    (h : w.source.readExactAt fs offset count = .ok bytes) : bytes = [] := by
  have hnothing : Bytes.window [] offset count = [] :=
    Bytes.window_of_length_le (Nat.zero_le offset)
  refine (eq_window_of_readExactAt (fun {offset count bytes} hread => ?_) h).trans hnothing
  simp only [FileWindow.source, FileWindow.readAt] at hread
  split at hread
  · cases hread
    rfl
  · split at hread
    · cases hread
    · simp only [FileSystem.read, hnode] at hread
      split at hread <;> cases hread

end Source

end VirtualFiles
