import VirtualFiles.Text.Utf8
import Mathlib.Data.List.Forall2
import Mathlib.Tactic.SplitIfs

/-!
# The sequences of UTF-8

A character is one byte below `0x80`, or a sequence of two to four bytes. The first byte of a
sequence says how many follow, and in which range the second one lies; all others are
continuation bytes. The sequences are described here by this rule, apart from the reader and from
the encoding of characters, and both are shown to agree with it.

## Main definitions

* `Utf8.second` — the range of the second byte of a sequence
* `Utf8.Sequence` — the sequences of two to four bytes
* `Utf8.Begins` — the first bytes of a sequence, with the ranges of those that are missing

## Main results

* `sequence_utf8EncodeChar`, `utf8EncodeChar_codePoint` — the sequences are the encodings of the
  characters from `0x80` on
* `begins_nil_iff` — a sequence is what begins one and misses nothing
* `scan_of_begins` — where the reader stands after the first bytes of a sequence
-/

namespace VirtualFiles.Utf8

open ByteRange

/-- The range of the second byte of a sequence that begins with `b`. -/
def second (b : UInt8) : ByteRange where
  low := if b = 0xE0 then 0xA0 else if b = 0xF0 then 0x90 else 0x80
  high := if b = 0xED then 0x9F else if b = 0xF4 then 0x8F else 0xBF

/-- The sequences of two to four bytes that stand for a character. -/
inductive Sequence : Bytes → Prop
  | two {a b} (ha : 0xC2 ≤ a) (ha' : a ≤ 0xDF) (hb : (second a).contains b = true) :
      Sequence [a, b]
  | three {a b c} (ha : 0xDF < a) (ha' : a ≤ 0xEF) (hb : (second a).contains b = true)
      (hc : continuation.contains c = true) : Sequence [a, b, c]
  | four {a b c d} (ha : 0xEF < a) (ha' : a ≤ 0xF4) (hb : (second a).contains b = true)
      (hc : continuation.contains c = true) (hd : continuation.contains d = true) :
      Sequence [a, b, c, d]

/-- The bytes that are held begin a sequence, of which bytes in the ranges are missing. -/
inductive Begins : Bytes → List ByteRange → Prop
  | first {b ranges} (h : following? b = some ranges) : Begins [b] ranges
  | next {held range missing b} (h : Begins held (range :: missing))
      (hb : range.contains b = true) : Begins (held ++ [b]) missing

variable {a b c d : UInt8} {bytes held rest : Bytes} {range : ByteRange}
variable {ranges missing more : List ByteRange}

theorem contains_iff :
    range.contains b = true ↔ range.low.toNat ≤ b.toNat ∧ b.toNat ≤ range.high.toNat := by
  simp [contains, UInt8.le_iff_toNat_le]

theorem continuation_contains_iff :
    continuation.contains b = true ↔ 0x80 ≤ b.toNat ∧ b.toNat ≤ 0xBF := contains_iff

theorem second_contains_iff : (second a).contains b = true ↔
    0x80 ≤ b.toNat ∧ b.toNat ≤ 0xBF ∧ (a.toNat = 0xE0 → 0xA0 ≤ b.toNat) ∧
      (a.toNat = 0xED → b.toNat ≤ 0x9F) ∧ (a.toNat = 0xF0 → 0x90 ≤ b.toNat) ∧
      (a.toNat = 0xF4 → b.toNat ≤ 0x8F) := by
  rw [contains_iff]
  simp only [second, ← UInt8.toNat_inj, UInt8.reduceToNat]
  split_ifs <;> simp only [UInt8.reduceToNat] <;> omega

theorem following?_eq (b : UInt8) : following? b =
    if b < 0xC2 then none
    else if b ≤ 0xDF then some [second b]
    else if b ≤ 0xEF then some [second b, continuation]
    else if b ≤ 0xF4 then some [second b, continuation, continuation]
    else none := by
  simp only [following?, second]
  grind [continuation]

/-! ### Characters and sequences -/

theorem utf8EncodeChar_of_lt {x : Char} (h : x.toNat < 0x80) :
    String.utf8EncodeChar x = [UInt8.ofNat x.toNat] := if_pos (Nat.le_of_lt_succ h)

/-- The characters that are no single byte are encoded by sequences. -/
theorem sequence_utf8EncodeChar {x : Char} (h : 0x80 ≤ x.toNat) :
    Sequence (String.utf8EncodeChar x) := by
  have hvalid : x.toNat < 0xD800 ∨ 0xDFFF < x.toNat ∧ x.toNat < 0x110000 := x.valid
  have hval : x.val.toNat = x.toNat := rfl
  simp only [String.utf8EncodeChar, hval]
  rw [if_neg (by omega)]
  split
  · refine .two ?_ ?_ (second_contains_iff.mpr ?_) <;>
      simp only [UInt8.le_iff_toNat_le, UInt8.toNat_ofNat', UInt8.reduceToNat] <;> omega
  split
  · refine .three ?_ ?_ (second_contains_iff.mpr ?_) (continuation_contains_iff.mpr ?_) <;>
      simp only [UInt8.le_iff_toNat_le, UInt8.lt_iff_toNat_lt, UInt8.toNat_ofNat',
        UInt8.reduceToNat] <;> omega
  · refine .four ?_ ?_ (second_contains_iff.mpr ?_) (continuation_contains_iff.mpr ?_)
      (continuation_contains_iff.mpr ?_) <;>
      simp only [UInt8.le_iff_toNat_le, UInt8.lt_iff_toNat_lt, UInt8.toNat_ofNat',
        UInt8.reduceToNat] <;> omega

theorem toNat_val_ofNat {n : Nat} (h : n.isValidChar) : (Char.ofNat n).val.toNat = n := by
  rw [Char.ofNat, dif_pos h]
  rfl

/-- Every sequence encodes a character, the one that its payload bits stand for. -/
theorem utf8EncodeChar_codePoint (h : Sequence bytes) :
    String.utf8EncodeChar (Char.ofNat (codePoint bytes)) = bytes := by
  cases h with
  | @two a b ha ha' hb =>
    simp only [UInt8.le_iff_toNat_le, UInt8.reduceToNat] at ha ha'
    rw [second_contains_iff] at hb
    have hvalue : codePoint [a, b] = a.toNat % 0x20 * 0x40 + b.toNat % 0x40 := by
      simp only [codePoint, List.foldl_cons, List.foldl_nil, UInt8.lt_iff_toNat_lt,
        UInt8.reduceToNat]
      rw [if_neg (by omega), if_pos (by omega)]
    have hvalid : (codePoint [a, b]).isValidChar := .inl (by omega)
    simp only [String.utf8EncodeChar, toNat_val_ofNat hvalid]
    rw [if_neg (by omega), if_pos (by omega)]
    simp only [List.cons.injEq, ← UInt8.toNat_inj, UInt8.toNat_ofNat', and_true]
    omega
  | @three a b c ha ha' hb hc =>
    simp only [UInt8.lt_iff_toNat_lt, UInt8.le_iff_toNat_le, UInt8.reduceToNat] at ha ha'
    rw [second_contains_iff] at hb
    rw [continuation_contains_iff] at hc
    have hvalue : codePoint [a, b, c] =
        (a.toNat % 0x10 * 0x40 + b.toNat % 0x40) * 0x40 + c.toNat % 0x40 := by
      simp only [codePoint, List.foldl_cons, List.foldl_nil, UInt8.lt_iff_toNat_lt,
        UInt8.reduceToNat]
      rw [if_neg (by omega), if_neg (by omega), if_pos (by omega)]
    have hvalid : (codePoint [a, b, c]).isValidChar := by
      unfold Nat.isValidChar
      omega
    simp only [String.utf8EncodeChar, toNat_val_ofNat hvalid]
    rw [if_neg (by omega), if_neg (by omega), if_pos (by omega)]
    simp only [List.cons.injEq, ← UInt8.toNat_inj, UInt8.toNat_ofNat', and_true]
    omega
  | @four a b c d ha ha' hb hc hd =>
    simp only [UInt8.lt_iff_toNat_lt, UInt8.le_iff_toNat_le, UInt8.reduceToNat] at ha ha'
    rw [second_contains_iff] at hb
    rw [continuation_contains_iff] at hc hd
    have hvalue : codePoint [a, b, c, d] =
        ((a.toNat % 0x08 * 0x40 + b.toNat % 0x40) * 0x40 + c.toNat % 0x40) * 0x40 +
          d.toNat % 0x40 := by
      simp only [codePoint, List.foldl_cons, List.foldl_nil, UInt8.lt_iff_toNat_lt,
        UInt8.reduceToNat]
      rw [if_neg (by omega), if_neg (by omega), if_neg (by omega)]
    have hvalid : (codePoint [a, b, c, d]).isValidChar := .inr (by omega)
    simp only [String.utf8EncodeChar, toNat_val_ofNat hvalid]
    rw [if_neg (by omega), if_neg (by omega), if_neg (by omega)]
    simp only [List.cons.injEq, ← UInt8.toNat_inj, UInt8.toNat_ofNat', and_true]
    omega

/-- Two characters with one encoding are one. -/
theorem utf8EncodeChar_injective : Function.Injective String.utf8EncodeChar := by
  intro x y h
  -- the decoder of strings tells them apart
  have hx := ByteArray.utf8DecodeChar?_utf8EncodeChar_append (b := .empty) (c := x)
  rw [h, ByteArray.utf8DecodeChar?_utf8EncodeChar_append] at hx
  exact (Option.some.inj hx).symm

/-- The payload bits of the encoding of a character are its code point. -/
theorem ofNat_codePoint_utf8EncodeChar {x : Char} (h : 0x80 ≤ x.toNat) :
    Char.ofNat (codePoint (String.utf8EncodeChar x)) = x :=
  utf8EncodeChar_injective (utf8EncodeChar_codePoint (sequence_utf8EncodeChar h))

/-! ### The first bytes of a sequence -/

theorem following?_eq_some_iff : following? a = some ranges ↔
    (0xC2 ≤ a ∧ a ≤ 0xDF ∧ ranges = [second a]) ∨
    (0xDF < a ∧ a ≤ 0xEF ∧ ranges = [second a, continuation]) ∨
    (0xEF < a ∧ a ≤ 0xF4 ∧ ranges = [second a, continuation, continuation]) := by
  rw [following?_eq]
  grind

/-- Whatever is missing from a sequence is a continuation byte. -/
theorem continuation_of_following? (h : following? a = some ranges) (hr : range ∈ ranges)
    (hb : range.contains b = true) : continuation.contains b = true := by
  have hsecond : (second a).contains b = true → continuation.contains b = true := fun hb =>
    continuation_contains_iff.mpr ⟨(second_contains_iff.mp hb).1, (second_contains_iff.mp hb).2.1⟩
  rcases following?_eq_some_iff.mp h with ⟨-, -, rfl⟩ | ⟨-, -, rfl⟩ | ⟨-, -, rfl⟩ <;>
    simp only [List.mem_cons, List.not_mem_nil, or_false] at hr <;> grind

/-- What begins a sequence is a first byte and bytes in the first of its ranges. -/
theorem exists_of_begins (h : Begins held missing) : ∃ a later found,
    held = a :: later ∧ following? a = some (found ++ missing) ∧
      List.Forall₂ (fun range b => ByteRange.contains range b = true) found later := by
  induction h with
  | @first b ranges h => exact ⟨b, [], [], rfl, h, .nil⟩
  | @next held range missing b _ hb ih =>
    obtain ⟨a, later, found, rfl, hfollowing, hfound⟩ := ih
    refine ⟨a, later ++ [b], found ++ [range], rfl, ?_, List.rel_append hfound (.cons hb .nil)⟩
    rw [hfollowing, List.append_assoc]
    rfl

theorem continuation_of_begins (h : Begins held (range :: more)) (hb : range.contains b = true) :
    continuation.contains b = true := by
  obtain ⟨a, later, found, -, hfollowing, -⟩ := exists_of_begins h
  exact continuation_of_following? hfollowing (by simp) hb

theorem le_of_following? (h : following? a = some ranges) : 0xC2 ≤ a.toNat := by
  have hle : 0xC2 ≤ a := by
    rw [following?_eq] at h
    grind
  exact UInt8.le_iff_toNat_le.mp hle

/-- All bytes of a sequence lie above those that are characters by themselves. -/
theorem le_of_mem_begins (h : Begins held missing) (hb : b ∈ held) : 0x80 ≤ b.toNat := by
  induction h with
  | first h =>
    obtain rfl := List.mem_singleton.mp hb
    exact Nat.le_trans (by decide) (le_of_following? h)
  | @next held range missing d h hd ih =>
    rcases List.mem_append.mp hb with hb | hb
    · exact ih hb
    · obtain rfl := List.mem_singleton.mp hb
      exact (continuation_contains_iff.mp (continuation_of_begins h hd)).1

theorem begins_of_sequence (h : Sequence bytes) : Begins bytes [] := by
  cases h with
  | @two a b ha ha' hb =>
    have hfollowing := following?_eq_some_iff.mpr (.inl ⟨ha, ha', rfl⟩)
    exact .next (.first hfollowing) hb
  | @three a b c ha ha' hb hc =>
    have hfollowing := following?_eq_some_iff.mpr (.inr (.inl ⟨ha, ha', rfl⟩))
    exact .next (.next (.first hfollowing) hb) hc
  | @four a b c d ha ha' hb hc hd =>
    have hfollowing := following?_eq_some_iff.mpr (.inr (.inr ⟨ha, ha', rfl⟩))
    exact .next (.next (.next (.first hfollowing) hb) hc) hd

theorem sequence_of_begins (h : Begins bytes []) : Sequence bytes := by
  obtain ⟨a, later, found, rfl, hfollowing, hfound⟩ := exists_of_begins h
  rw [List.append_nil] at hfollowing
  rcases following?_eq_some_iff.mp hfollowing with
    ⟨ha, ha', rfl⟩ | ⟨ha, ha', rfl⟩ | ⟨ha, ha', rfl⟩
  · cases hfound with | cons hb hrest => cases hrest; exact .two ha ha' hb
  · cases hfound with | cons hb hrest => cases hrest with | cons hc hrest =>
      cases hrest
      exact .three ha ha' hb hc
  · cases hfound with | cons hb hrest => cases hrest with | cons hc hrest => cases hrest with
      | cons hd hrest =>
        cases hrest
        exact .four ha ha' hb hc hd

/-- A sequence is what begins one and misses nothing. -/
theorem begins_nil_iff : Begins bytes [] ↔ Sequence bytes :=
  ⟨sequence_of_begins, begins_of_sequence⟩

/-! ### First bytes of characters -/

/-- The encoding of a character begins with a byte below the others, or with one that says how many
follow. -/
theorem not_continuation_of_utf8EncodeChar {x : Char}
    (h : b ∈ (String.utf8EncodeChar x).head?) : ¬ continuation.contains b = true := by
  rw [continuation_contains_iff]
  by_cases hx : x.toNat < 0x80
  · rw [utf8EncodeChar_of_lt hx] at h
    obtain rfl := Option.some.inj h
    rw [UInt8.toNat_ofNat']
    omega
  · have hbegins := begins_of_sequence (sequence_utf8EncodeChar (Nat.le_of_not_lt hx))
    obtain ⟨a, later, found, hbytes, hfollowing, -⟩ := exists_of_begins hbegins
    rw [hbytes] at h
    obtain rfl := Option.some.inj h
    have := le_of_following? hfollowing
    omega

/-! ### The reader inside a sequence -/

theorem ne_nil_of_following? (h : following? a = some ranges) : ranges ≠ [] := by
  rcases following?_eq_some_iff.mp h with ⟨-, -, rfl⟩ | ⟨-, -, rfl⟩ | ⟨-, -, rfl⟩ <;>
    exact List.cons_ne_nil _ _

theorem tokens_cons_of_lt (h : b < 0x80) :
    tokens (b :: rest) = .char (Char.ofNat b.toNat) :: tokens rest := by
  simp only [tokens, scan, State.step, State.idle, State.start, if_pos h, List.singleton_append]

theorem tokens_cons_of_following?_eq_none (h : ¬ b < 0x80) (hnone : following? b = none) :
    tokens (b :: rest) = .junk [b] :: tokens rest := by
  simp only [tokens, scan, State.step, State.idle, State.start, if_neg h, hnone,
    List.singleton_append]

/-- After the first bytes of a sequence the reader holds them, and has not yet given a token. -/
theorem scan_of_begins (h : Begins held missing) (hmissing : missing ≠ []) (rest : Bytes) :
    scan ⟨held, missing⟩ rest = tokens (held ++ rest) := by
  induction h generalizing rest with
  | @first b ranges h =>
    have hb : ¬ b < 0x80 := by
      rw [UInt8.lt_iff_toNat_lt]
      exact Nat.not_lt.mpr (le_of_mem_begins (.first h) (List.mem_singleton_self b))
    simp only [tokens, List.singleton_append, scan, State.step, State.idle, State.start,
      if_neg hb, h, List.nil_append]
  | @next held range missing b _ hb ih =>
    rw [List.append_assoc, List.singleton_append, ← ih (List.cons_ne_nil _ _)]
    have hmore : missing.isEmpty = false := List.isEmpty_eq_false_iff.mpr hmissing
    simp only [scan, State.step, hb, if_true, hmore, Bool.false_eq_true, if_false,
      List.nil_append]

/-- The reader gives one character for a whole sequence. -/
theorem tokens_append_of_sequence (h : Sequence bytes) (rest : Bytes) :
    tokens (bytes ++ rest) = .char (Char.ofNat (codePoint bytes)) :: tokens rest := by
  cases begins_of_sequence h with
  | first h => exact absurd rfl (ne_nil_of_following? h)
  | @next held range _ b hheld hb =>
    rw [List.append_assoc, List.singleton_append, ← scan_of_begins hheld (List.cons_ne_nil _ _)]
    simp only [scan, State.step, hb, if_true, List.isEmpty_nil, List.singleton_append, tokens]

/-- The first bytes of a sequence that does not go on are ill-formed. -/
theorem tokens_append_of_begins (h : Begins held (range :: more))
    (hrest : ∀ b ∈ rest.head?, range.contains b = false) :
    tokens (held ++ rest) = .junk held :: tokens rest := by
  have hheld : held.isEmpty = false := by
    obtain ⟨a, later, -, rfl, -⟩ := exists_of_begins h
    rfl
  rw [← scan_of_begins h (List.cons_ne_nil _ _)]
  cases rest with
  | nil => simp only [scan, State.finish, hheld, Bool.false_eq_true, if_false, tokens]; rfl
  | cons b rest =>
    have hb : range.contains b = false := hrest b rfl
    simp only [tokens, scan, State.step, State.idle, hb, Bool.false_eq_true, if_false,
      List.cons_append]

/-- The reader gives back a character that was encoded. -/
theorem tokens_utf8EncodeChar_append (x : Char) (rest : Bytes) :
    tokens (String.utf8EncodeChar x ++ rest) = .char x :: tokens rest := by
  by_cases h : x.toNat < 0x80
  · have hlt : UInt8.ofNat x.toNat < 0x80 := by
      rw [UInt8.lt_iff_toNat_lt, UInt8.toNat_ofNat', Nat.mod_eq_of_lt (by omega)]
      exact h
    rw [utf8EncodeChar_of_lt h, List.singleton_append, tokens_cons_of_lt hlt,
      UInt8.toNat_ofNat', Nat.mod_eq_of_lt (by omega), Char.ofNat_toNat]
  · have hge := Nat.le_of_not_lt h
    rw [tokens_append_of_sequence (sequence_utf8EncodeChar hge), ofNat_codePoint_utf8EncodeChar hge]

end VirtualFiles.Utf8
