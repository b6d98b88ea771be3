import VirtualFiles.Cache.Key
import VirtualFiles.Proofs.Text.Chunks
import VirtualFiles.Proofs.Text.Lowering

/-!
# Spellings with one key

A key holds the runs of text of a path in lower case and with forward slashes, and nothing in it
says where a run ends. This is not needed: the key is cut at the same places as the path, since no
run of text goes on a sequence that the bytes before it have begun. So two paths have one key only
if they are cut alike, with the same ill-formed groups, and the runs are the same up to case and
the direction of slashes.

## Main definitions

* `CacheKey.Alike` — bytes that are one letter in two cases, or the two slashes
* `CacheKey.foldByte`, `CacheKey.foldChar` — small letters and forward slashes below `0x80`
* `CacheKey.mark` — a group, and whether a run of text stands before it

## Main results

* `chunks_ofPath` — a key is cut at the same places as the path
* `ofPath_eq_ofPath_iff` — which paths have one key
* `ofPath_eq_of_alike` — the case of letters and the direction of slashes make no difference
* `ofPath_bytes_ofPath` — a key is its own spelling
-/

namespace VirtualFiles.CacheKey

open Utf8

/-- The bytes are the same up to the case of a letter, or both are slashes. -/
inductive Alike : UInt8 → UInt8 → Prop
  | same (b) : Alike b b
  | small {b} (h : 0x41 ≤ b) (h' : b ≤ 0x5A) : Alike b (b + 0x20)
  | capital {b} (h : 0x41 ≤ b) (h' : b ≤ 0x5A) : Alike (b + 0x20) b
  | forward : Alike 0x5C 0x2F
  | backward : Alike 0x2F 0x5C

/-- A capital letter as a small one, and a backslash as a slash. -/
def foldByte (b : UInt8) : UInt8 :=
  if 0x41 ≤ b ∧ b ≤ 0x5A then b + 0x20 else if b = 0x5C then 0x2F else b

/-- The same for the characters that are one byte. -/
def foldChar (c : Char) : Char :=
  if c.toNat < 0x80 then Char.ofNat (foldByte (UInt8.ofNat c.toNat)).toNat else c

/-- The characters that folding changes. -/
def changed : List Char := '\\' :: (List.range' 0x41 0x1A).map Char.ofNat

/-- The group of a chunk, and whether the run before it is empty. -/
def mark (chunk : Chunk) : Bool × Bytes := (chunk.valid.isEmpty, chunk.invalid)

variable {p q : Path} {a b : UInt8} {c : Char} {text : List Char}

/-! ### Normal forms of a text -/

theorem foldSlash_foldSlash (c : Char) : foldSlash (foldSlash c) = foldSlash c := by
  simp only [foldSlash]
  split <;> rfl

theorem isSettled_foldSlash (h : Lowercase.IsSettled c) : Lowercase.IsSettled (foldSlash c) := by
  rw [foldSlash]
  split
  · decide +kernel
  · exact h

theorem normalize_eq_nil_iff : normalize text = [] ↔ text = [] := by
  rw [normalize, List.map_eq_nil_iff, Lowercase.text_eq_nil_iff]

/-- A normal form is its own normal form. -/
theorem normalize_normalize (text : List Char) : normalize (normalize text) = normalize text := by
  have hsettled : ∀ c ∈ normalize text, Lowercase.IsSettled c := by
    intro c hc
    obtain ⟨d, hd, rfl⟩ := List.mem_map.mp hc
    exact isSettled_foldSlash (Lowercase.isSettled_of_mem_textAfter hd)
  rw [normalize, Lowercase.text, Lowercase.textAfter_of_isSettled hsettled, normalize,
    List.map_map]
  exact List.map_congr_left fun c _ => foldSlash_foldSlash c

/-! ### Keys and chunks -/

theorem bytes_ofPath (p : Path) : (ofPath p).bytes =
    ((chunks p.bytes).map (Chunk.withText normalize)).flatMap Chunk.bytes := by
  rw [List.flatMap_map]
  rfl

/-- A key is cut at the same places as the path, with the normal forms of the runs. -/
theorem chunks_ofPath (p : Path) :
    chunks (ofPath p).bytes = (chunks p.bytes).map (Chunk.withText normalize) := by
  rw [bytes_ofPath, chunks_withText p.bytes fun _ => normalize_eq_nil_iff]

theorem ofPath_eq_iff_map_chunks : ofPath p = ofPath q ↔
    (chunks p.bytes).map (Chunk.withText normalize) =
      (chunks q.bytes).map (Chunk.withText normalize) := by
  constructor
  · -- the chunks can be read off the key
    intro h
    rw [← chunks_ofPath, ← chunks_ofPath, h]
  · intro h
    rw [CacheKey.mk.injEq, bytes_ofPath, bytes_ofPath, h]

theorem mark_withText_normalize (chunk : Chunk) :
    mark (chunk.withText normalize) = mark chunk := by
  rw [mark, mark, Prod.mk.injEq, Bool.eq_iff_iff, List.isEmpty_iff, List.isEmpty_iff]
  exact ⟨normalize_eq_nil_iff, rfl⟩

theorem withText_normalize_eq_iff {chunk chunk' : Chunk} :
    chunk.withText normalize = chunk'.withText normalize ↔
      normalize chunk.valid = normalize chunk'.valid ∧ chunk.invalid = chunk'.invalid := by
  rw [Chunk.withText, Chunk.withText, Chunk.mk.injEq]

/-- Text with the same normal forms in the runs of a path does not change its key. -/
theorem ofPath_eq_of_chunks_eq {f : List Char → List Char}
    (hchunks : chunks q.bytes = (chunks p.bytes).map (Chunk.withText f))
    (hf : ∀ text, normalize (f text) = normalize text) : ofPath q = ofPath p := by
  rw [ofPath_eq_iff_map_chunks, hchunks, List.map_map]
  exact List.map_congr_left fun chunk _ =>
    withText_normalize_eq_iff.mpr ⟨hf chunk.valid, rfl⟩

/-- Two paths have one key if and only if they have equally many chunks, with the same ill-formed
groups and with runs of text that are the same in lower case and with forward slashes. Then in
particular the groups stand at the same places between the runs. -/
theorem ofPath_eq_ofPath_iff (p q : Path) :
    (ofPath p = ofPath q ↔
      List.Forall₂ (fun chunk chunk' =>
          (Lowercase.text chunk.valid).map foldSlash =
            (Lowercase.text chunk'.valid).map foldSlash ∧
          chunk.invalid = chunk'.invalid)
        (chunks p.bytes) (chunks q.bytes)) ∧
    (ofPath p = ofPath q → (chunks p.bytes).map mark = (chunks q.bytes).map mark) := by
  constructor
  · rw [ofPath_eq_iff_map_chunks, ← List.forall₂_eq_eq_eq, List.forall₂_map_left_iff,
      List.forall₂_map_right_iff]
    simp only [withText_normalize_eq_iff, normalize]
  · intro h
    have hmarks := congrArg (List.map mark) (ofPath_eq_iff_map_chunks.mp h)
    simpa only [List.map_map, Function.comp_def, mark_withText_normalize] using hmarks

/-- A dotted capital before a truncated sequence, and then a backslash before another. -/
def dotted : Path := ⟨[0xC4, 0xB0, 0xC3, 0x5C, 0xCE]⟩

/-- The same with the normal forms of the runs. -/
def undotted : Path := ⟨[0x69, 0xCC, 0x87, 0xC3, 0x2F, 0xCE]⟩

theorem ofPath_eq_ofPath_iff_dotted : ofPath dotted = ofPath undotted ∧
    (chunks dotted.bytes).map mark = (chunks undotted.bytes).map mark := by
  have hboth := ofPath_eq_ofPath_iff dotted undotted
  have hchunks : chunks dotted.bytes = [⟨['\u0130'], [0xC3]⟩, ⟨['\\'], [0xCE]⟩] := by
    decide +kernel
  have hchunks' : chunks undotted.bytes = [⟨['i', '\u0307'], [0xC3]⟩, ⟨['/'], [0xCE]⟩] := by
    decide +kernel
  have hkeys : ofPath dotted = ofPath undotted := by
    rw [hboth.1, hchunks, hchunks']
    exact .cons (by decide +kernel) (.cons (by decide +kernel) .nil)
  exact ⟨hkeys, hboth.2 hkeys⟩

/-- A key is its own spelling. -/
theorem ofPath_bytes_ofPath (p : Path) : ofPath ⟨(ofPath p).bytes⟩ = ofPath p :=
  ofPath_eq_of_chunks_eq (chunks_ofPath p) normalize_normalize

/-! ### The case of letters and the direction of slashes -/

/-- Folding leaves all bytes but capital letters and the backslash as they are. -/
theorem foldByte_of_not (hletter : ¬ (0x41 ≤ b.toNat ∧ b.toNat ≤ 0x5A)) (hslash : b.toNat ≠ 0x5C) :
    foldByte b = b := by
  rw [foldByte, if_neg, if_neg]
  · exact fun h => hslash (congrArg UInt8.toNat h)
  · exact fun h => hletter ⟨UInt8.le_iff_toNat_le.mp h.1, UInt8.le_iff_toNat_le.mp h.2⟩

theorem map_foldByte_of_le {bytes : Bytes} (h : ∀ b ∈ bytes, 0x80 ≤ b.toNat) :
    bytes.map foldByte = bytes := by
  refine (List.map_congr_left fun b hb => ?_).trans (List.map_id bytes)
  have hb := h b hb
  exact foldByte_of_not (by omega) (by omega)

theorem foldByte_small (h : 0x41 ≤ b) (h' : b ≤ 0x5A) : foldByte (b + 0x20) = foldByte b := by
  have hfold : foldByte b = b + 0x20 := if_pos ⟨h, h'⟩
  simp only [UInt8.le_iff_toNat_le, UInt8.reduceToNat] at h h'
  have hsum : (b + 0x20).toNat = b.toNat + 0x20 := by
    rw [UInt8.toNat_add]
    exact Nat.mod_eq_of_lt (by simp only [UInt8.reduceToNat]; omega)
  rw [hfold]
  exact foldByte_of_not (by omega) (by omega)

theorem foldByte_eq_of_alike (h : Alike a b) : foldByte a = foldByte b := by
  cases h with
  | same => rfl
  | small h h' => exact (foldByte_small h h').symm
  | capital h h' => exact foldByte_small h h'
  | forward => rfl
  | backward => rfl

/-- The characters that are one byte, and all others. -/
theorem char_cases {P : Char → Prop} (one : ∀ n < 0x80, P (Char.ofNat n))
    (more : ∀ c, 0x80 ≤ c.toNat → P c) (c : Char) : P c := by
  rcases Nat.lt_or_ge c.toNat 0x80 with h | h
  · exact Char.ofNat_toNat c ▸ one c.toNat h
  · exact more c h

theorem foldChar_of_le (h : 0x80 ≤ c.toNat) : foldChar c = c := if_neg (Nat.not_lt.mpr h)

theorem utf8EncodeChar_foldChar (c : Char) :
    String.utf8EncodeChar (foldChar c) = (String.utf8EncodeChar c).map foldByte := by
  induction c using char_cases with
  | one n h =>
    revert n
    decide +kernel
  | more c h =>
    have hbegins := begins_of_sequence (sequence_utf8EncodeChar h)
    rw [foldChar_of_le h, map_foldByte_of_le fun b hb => le_of_mem_begins hbegins hb]

theorem mem_changed_or_eq (c : Char) : c ∈ changed ∨ foldChar c = c := by
  induction c using char_cases with
  | one n h =>
    revert n
    decide +kernel
  | more c h => exact .inr (foldChar_of_le h)

/-- Lowering and turning backslashes does not see that letters and slashes were folded. -/
theorem agree_foldChar (c : Char) : Lowercase.Agree foldSlash (foldChar c) c := by
  rcases mem_changed_or_eq c with h | h
  · have hall : changed.all
        (fun c => decide (Lowercase.Agree foldSlash (foldChar c) c)) = true := by decide +kernel
    exact of_decide_eq_true (List.all_eq_true.mp hall c h)
  · rw [h]
    exact .refl foldSlash c

theorem normalize_map_foldChar (text : List Char) :
    normalize (text.map foldChar) = normalize text := Lowercase.map_text_map agree_foldChar text

theorem encode_map_foldChar (text : List Char) :
    encode (text.map foldChar) = (encode text).map foldByte := by
  rw [encode, encode, List.flatMap_map, List.map_flatMap]
  exact List.flatMap_congr fun c _ => utf8EncodeChar_foldChar c

/-- Folded bytes are cut at the same places. -/
theorem chunks_map_foldByte (bytes : Bytes) :
    chunks (bytes.map foldByte) = (chunks bytes).map (Chunk.withText (List.map foldChar)) := by
  -- folding the bytes is folding the runs, as no byte of a group changes
  have hcut := cut_chunks bytes
  have hbytes : ((chunks bytes).map (Chunk.withText (List.map foldChar))).flatMap Chunk.bytes =
      bytes.map foldByte := by
    conv_rhs => rw [hcut.eq_flatMap]
    rw [List.flatMap_map, List.map_flatMap]
    refine List.flatMap_congr fun chunk hchunk => ?_
    rw [Chunk.bytes, Chunk.bytes, List.map_append, ← encode_map_foldChar,
      map_foldByte_of_le fun b hb => hcut.le_of_mem_invalid hchunk hb]
    rfl
  rw [← hbytes, chunks_withText bytes fun _ => List.map_eq_nil_iff]

theorem ofPath_map_foldByte (p : Path) : ofPath ⟨p.bytes.map foldByte⟩ = ofPath p :=
  ofPath_eq_of_chunks_eq (chunks_map_foldByte p.bytes) normalize_map_foldChar

/-- Paths that differ in the case of letters and in the direction of slashes only have one key,
whatever else stands in them. -/
theorem ofPath_eq_of_alike (h : List.Forall₂ Alike p.bytes q.bytes) : ofPath p = ofPath q := by
  have hfold : p.bytes.map foldByte = q.bytes.map foldByte := by
    rw [← List.forall₂_eq_eq_eq, List.forall₂_map_left_iff, List.forall₂_map_right_iff]
    exact h.imp fun _ _ => foldByte_eq_of_alike
  rw [← ofPath_map_foldByte p, ← ofPath_map_foldByte q, hfold]

/-- Sigmas between letters and slashes, a byte that begins a sequence and one that does not. -/
def loud : Path := ⟨[0x41, 0xCE, 0xA3, 0x5C, 0xC3, 0x62, 0xCE, 0xA3, 0xFF]⟩

/-- The same with the letters in the other case and with the other slash. -/
def quiet : Path := ⟨[0x61, 0xCE, 0xA3, 0x2F, 0xC3, 0x42, 0xCE, 0xA3, 0xFF]⟩

theorem ofPath_eq_of_alike_loud :
    List.Forall₂ Alike loud.bytes quiet.bytes ∧ ofPath loud = ofPath quiet := by
  have halike : List.Forall₂ Alike loud.bytes quiet.bytes :=
    .cons (.small (b := 0x41) (by decide) (by decide)) <| .cons (.same _) <| .cons (.same _) <|
      .cons .forward <| .cons (.same _) <|
      .cons (.capital (b := 0x42) (by decide) (by decide)) <|
      .cons (.same _) <| .cons (.same _) <| .cons (.same _) .nil
  exact ⟨halike, ofPath_eq_of_alike halike⟩

end VirtualFiles.CacheKey
