import VirtualFiles.Proofs.Text.Sequences

/-!
# Runs of text and ill-formed groups

Every byte string is cut in one way into runs of characters and ill-formed groups between them. A
group is a byte that begins no sequence, or the first bytes of a sequence that does not go on, and
whether it does is seen from the next byte alone. So a group stays one, and stays apart, when the
text around it is replaced by other text: no character begins with a byte that could go on a
sequence.

## Main definitions

* `Utf8.Breaks` — the ill-formed groups, with the byte that comes next
* `Utf8.Cut` — a byte string as runs of characters and groups, apart from the reader

## Main results

* `Breaks.of_continuation` — the next byte matters only if it is a continuation byte
* `exists_cut`, `chunks_of_cut`, `chunks_eq_iff` — there is one cut, and the reader finds it
* `Cut.map_withText`, `chunks_withText` — the runs of a cut may be replaced by other text
* `lossyChars_eq_flatMap` — the text of a byte string is put together from its chunks
-/

namespace VirtualFiles.Utf8

open ByteRange

/-- The ill-formed groups. The byte that comes next, if there is one, does not go on the sequence
that the group begins. -/
inductive Breaks : Bytes → Option UInt8 → Prop
  | lone {b next} (hb : ¬ b < 0x80) (hnone : following? b = none) : Breaks [b] next
  | first {held range missing next} (h : Begins held (range :: missing))
      (hnext : ∀ b ∈ next, range.contains b = false) : Breaks held next

/-- The byte string is the text of the runs with the groups between them. Only the last run
may have no group after it, and then it is not empty. -/
inductive Cut : List Chunk → Bytes → Prop
  | nil : Cut [] []
  | last {text} (h : text ≠ []) : Cut [⟨text, []⟩] (encode text)
  | group {text group cs rest} (h : Breaks group rest.head?) (hrest : Cut cs rest) :
      Cut (⟨text, group⟩ :: cs) (encode text ++ (group ++ rest))

/-- The bytes of a chunk: its run of characters and the group after it. -/
def Chunk.bytes (chunk : Chunk) : Bytes := encode chunk.valid ++ chunk.invalid

/-- The chunk as text: its run of characters, and a replacement character for the group if there is
one. -/
def Chunk.text (chunk : Chunk) : List Char :=
  chunk.valid ++ if chunk.invalid.isEmpty then [] else [replacement]

/-- The chunk with another run of characters. -/
def Chunk.withText (f : List Char → List Char) (chunk : Chunk) : Chunk :=
  { chunk with valid := f chunk.valid }

variable {b : UInt8} {group bytes rest : Bytes} {next next' : Option UInt8}
variable {text : List Char} {cs cs' : List Chunk} {missing : List ByteRange}

/-! ### Groups -/

theorem Breaks.ne_nil (h : Breaks group next) : group ≠ [] := by
  cases h with
  | lone => exact List.cons_ne_nil _ _
  | first h =>
    obtain ⟨a, later, -, rfl, -⟩ := exists_of_begins h
    exact List.cons_ne_nil _ _

theorem Breaks.le_of_mem (h : Breaks group next) (hb : b ∈ group) : 0x80 ≤ b.toNat := by
  cases h with
  | @lone a _ ha _ =>
    obtain rfl := List.mem_singleton.mp hb
    rw [UInt8.lt_iff_toNat_lt] at ha
    exact Nat.not_lt.mp ha
  | first h => exact le_of_mem_begins h hb

/-- A group stays one if another byte comes next, unless this is a continuation byte. -/
theorem Breaks.of_continuation (h : Breaks group next)
    (hnext : ∀ b ∈ next', continuation.contains b = true → b ∈ next) : Breaks group next' := by
  cases h with
  | lone hb hnone => exact .lone hb hnone
  | first h hrange =>
    refine .first h fun b hb => ?_
    by_contra hin
    have hin := Bool.of_not_eq_false hin
    have hsame := hnext b hb (continuation_of_begins h hin)
    exact Bool.false_ne_true ((hrange b hsame).symm.trans hin)

/-- The reader gives a group as one token. -/
theorem tokens_append_of_breaks (h : Breaks group rest.head?) :
    tokens (group ++ rest) = .junk group :: tokens rest := by
  cases h with
  | lone hb hnone => exact tokens_cons_of_following?_eq_none hb hnone
  | first h hrest => exact tokens_append_of_begins h hrest

/-- A byte string goes on the sequence that was begun to its end, or some first bytes of it end a
group. -/
theorem completes_or_breaks (h : Begins group missing) (bytes : Bytes) :
    ∃ later rest, bytes = later ++ rest ∧
      (Sequence (group ++ later) ∨ Breaks (group ++ later) rest.head?) := by
  induction missing generalizing group bytes with
  | nil => exact ⟨[], bytes, rfl, .inl ((List.append_nil group).symm ▸ begins_nil_iff.mp h)⟩
  | cons range missing ih =>
    -- the next byte, if there is one, ends a group or is one byte more of the sequence
    by_cases hnext : ∀ b ∈ bytes.head?, range.contains b = false
    · exact ⟨[], bytes, rfl, .inr ((List.append_nil group).symm ▸ .first h hnext)⟩
    · push Not at hnext
      obtain ⟨b, hb, hin⟩ := hnext
      obtain ⟨bytes, rfl⟩ := List.head?_eq_some_iff.mp hb
      obtain ⟨later, rest, rfl, hends⟩ := ih (.next h (Bool.of_not_eq_false hin)) bytes
      rw [List.append_assoc, List.singleton_append] at hends
      exact ⟨b :: later, rest, rfl, hends⟩

/-- Every byte string that is not empty begins with a character or with a group. -/
theorem exists_head (hne : bytes ≠ []) :
    (∃ c rest, bytes = String.utf8EncodeChar c ++ rest) ∨
      ∃ group rest, bytes = group ++ rest ∧ Breaks group rest.head? := by
  obtain ⟨b, bytes, rfl⟩ := List.exists_cons_of_ne_nil hne
  by_cases hb : b < 0x80
  · have hlt : b.toNat < 0x80 := UInt8.lt_iff_toNat_lt.mp hb
    have hascii : (Char.ofNat b.toNat).toNat = b.toNat := toNat_val_ofNat (.inl (by omega))
    refine .inl ⟨Char.ofNat b.toNat, bytes, ?_⟩
    rw [utf8EncodeChar_of_lt (hascii.symm ▸ hlt), hascii, UInt8.ofNat_toNat]
    rfl
  · cases hfollowing : following? b with
    | none => exact .inr ⟨[b], bytes, rfl, .lone hb hfollowing⟩
    | some ranges =>
      obtain ⟨later, rest, rfl, hseq | hbreaks⟩ := completes_or_breaks (.first hfollowing) bytes
      · refine .inl ⟨Char.ofNat (codePoint ([b] ++ later)), rest, ?_⟩
        rw [utf8EncodeChar_codePoint hseq, List.append_assoc, List.singleton_append]
      · exact .inr ⟨[b] ++ later, rest, rfl, hbreaks⟩

/-! ### Cuts -/

/-- A character goes into the run at the beginning. -/
theorem Cut.cons_char (h : Cut cs rest) (c : Char) :
    ∃ cs', Cut cs' (String.utf8EncodeChar c ++ rest) := by
  cases h with
  | nil => exact ⟨_, .last (List.cons_ne_nil c [])⟩
  | @last text _ => exact ⟨_, .last (List.cons_ne_nil c text)⟩
  | @group text group cs rest hbreaks hrest =>
    refine ⟨⟨c :: text, group⟩ :: cs, ?_⟩
    rw [← List.append_assoc]
    exact .group hbreaks hrest

/-- Every byte string can be cut. -/
theorem exists_cut (bytes : Bytes) : ∃ cs, Cut cs bytes := by
  -- on the length, since a character or a group may take more than one byte
  induction hlength : bytes.length using Nat.strongRecOn generalizing bytes with
  | ind length ih =>
    subst hlength
    by_cases hne : bytes = []
    · exact ⟨[], hne ▸ .nil⟩
    rcases exists_head hne with ⟨c, rest, rfl⟩ | ⟨group, rest, rfl, hbreaks⟩
    · have hpos : 0 < (String.utf8EncodeChar c).length :=
        List.length_pos_iff.mpr String.utf8EncodeChar_ne_nil
      obtain ⟨cs, hcs⟩ := ih rest.length (by rw [List.length_append]; omega) rest rfl
      exact hcs.cons_char c
    · have hpos : 0 < group.length := List.length_pos_iff.mpr hbreaks.ne_nil
      obtain ⟨cs, hcs⟩ := ih rest.length (by rw [List.length_append]; omega) rest rfl
      exact ⟨⟨[], group⟩ :: cs, .group hbreaks hcs⟩

theorem tokens_encode_append (text : List Char) (rest : Bytes) :
    tokens (encode text ++ rest) = text.map .char ++ tokens rest := by
  induction text with
  | nil => rfl
  | cons c text ih =>
    rw [encode, List.flatMap_cons, List.append_assoc, tokens_utf8EncodeChar_append]
    exact congrArg _ ih

theorem gather_map_char (hne : text ≠ []) : gather (text.map .char) = [⟨text, []⟩] := by
  induction text with
  | nil => exact absurd rfl hne
  | cons c text ih =>
    cases text with
    | nil => rfl
    | cons d text =>
      have hrest := ih (List.cons_ne_nil d text)
      rw [List.map_cons, gather, hrest]

theorem gather_map_char_append (text : List Char) (group : Bytes) (ts : List Token) :
    gather (text.map .char ++ .junk group :: ts) = ⟨text, group⟩ :: gather ts := by
  induction text with
  | nil => rfl
  | cons c text ih => rw [List.map_cons, List.cons_append, gather, ih]

/-- The reader finds every cut, so there is only one. -/
theorem chunks_of_cut (h : Cut cs bytes) : chunks bytes = cs := by
  induction h with
  | nil => rfl
  | @last text hne =>
    have htokens := tokens_encode_append text []
    rw [List.append_nil] at htokens
    rw [chunks, htokens]
    exact (congrArg gather (List.append_nil _)).trans (gather_map_char hne)
  | @group text group cs rest hbreaks hrest ih =>
    rw [chunks, tokens_encode_append, tokens_append_of_breaks hbreaks, gather_map_char_append]
    exact congrArg _ ih

/-- The chunks of a byte string are its cut. -/
theorem cut_chunks (bytes : Bytes) : Cut (chunks bytes) bytes := by
  obtain ⟨cs, hcs⟩ := exists_cut bytes
  rwa [chunks_of_cut hcs]

theorem chunks_eq_iff : chunks bytes = cs ↔ Cut cs bytes :=
  ⟨fun h => h ▸ cut_chunks bytes, chunks_of_cut⟩

/-! ### Other text in the runs -/

/-- No byte is lost by cutting. -/
theorem Cut.eq_flatMap (h : Cut cs bytes) : bytes = cs.flatMap Chunk.bytes := by
  induction h with
  | nil => rfl
  | last => simp only [List.flatMap_cons, List.flatMap_nil, Chunk.bytes, List.append_nil]
  | group _ _ ih => rw [List.flatMap_cons, ← ih, Chunk.bytes, List.append_assoc]

theorem Cut.le_of_mem_invalid (h : Cut cs bytes) {chunk : Chunk} (hchunk : chunk ∈ cs)
    (hb : b ∈ chunk.invalid) : 0x80 ≤ b.toNat := by
  induction h with
  | nil => exact absurd hchunk List.not_mem_nil
  | last =>
    obtain rfl := List.mem_singleton.mp hchunk
    exact absurd hb List.not_mem_nil
  | group hbreaks _ ih =>
    rcases List.mem_cons.mp hchunk with rfl | hchunk
    · exact hbreaks.le_of_mem hb
    · exact ih hchunk

/-- Nothing goes on a sequence at the beginning of a text. -/
theorem not_continuation_of_encode (hne : text ≠ [])
    (hb : b ∈ (encode text ++ rest).head?) : ¬ continuation.contains b = true := by
  obtain ⟨c, text, rfl⟩ := List.exists_cons_of_ne_nil hne
  rw [encode, List.flatMap_cons, List.append_assoc,
    List.head?_append_of_ne_nil _ String.utf8EncodeChar_ne_nil] at hb
  exact not_continuation_of_utf8EncodeChar hb

variable {f : List Char → List Char}

/-- With other text in the runs, a byte string begins with the same byte or with one that goes on
no sequence. -/
theorem Cut.head_withText (h : Cut cs bytes) (hf : ∀ text, f text = [] ↔ text = [])
    (hb : b ∈ ((cs.map (Chunk.withText f)).flatMap Chunk.bytes).head?)
    (hcont : continuation.contains b = true) : b ∈ bytes.head? := by
  cases h with
  | nil => exact hb
  | @last text hne =>
    rw [List.map_cons, List.flatMap_cons, Chunk.bytes, List.append_assoc] at hb
    exact absurd hcont (not_continuation_of_encode (mt (hf text).mp hne) hb)
  | @group text group cs rest hbreaks hrest =>
    rw [List.map_cons, List.flatMap_cons, Chunk.bytes, List.append_assoc] at hb
    by_cases hne : text = []
    · -- no text before the group, so it begins both byte strings
      subst hne
      have hempty : f [] = [] := (hf []).mpr rfl
      have hgroup : group ≠ [] := hbreaks.ne_nil
      simp only [Chunk.withText, hempty, encode, List.flatMap_nil, List.nil_append] at hb ⊢
      rwa [List.head?_append_of_ne_nil _ hgroup] at hb ⊢
    · exact absurd hcont (not_continuation_of_encode (mt (hf text).mp hne) hb)

/-- The runs of a cut may be replaced by other text, if none of them appears or disappears. -/
theorem Cut.map_withText (h : Cut cs bytes) (hf : ∀ text, f text = [] ↔ text = []) :
    Cut (cs.map (Chunk.withText f)) ((cs.map (Chunk.withText f)).flatMap Chunk.bytes) := by
  induction h with
  | nil => exact .nil
  | @last text hne =>
    simp only [List.map_cons, List.map_nil, List.flatMap_cons, List.flatMap_nil, Chunk.bytes,
      Chunk.withText, List.append_nil]
    exact .last (mt (hf text).mp hne)
  | @group text group cs rest hbreaks hrest ih =>
    rw [List.map_cons, List.flatMap_cons, Chunk.bytes, List.append_assoc]
    -- the byte after the group may be another one, but then it goes on no sequence
    exact .group (hbreaks.of_continuation fun b hb => hrest.head_withText hf hb) ih

/-- What the reader makes of a byte string with other text in its runs. -/
theorem chunks_withText (bytes : Bytes) (hf : ∀ text, f text = [] ↔ text = []) :
    chunks (((chunks bytes).map (Chunk.withText f)).flatMap Chunk.bytes) =
      (chunks bytes).map (Chunk.withText f) :=
  chunks_of_cut ((cut_chunks bytes).map_withText hf)

/-! ### Replacement characters -/

theorem lossyChars_encode_append (text : List Char) (rest : Bytes) :
    lossyChars (encode text ++ rest) = text ++ lossyChars rest := by
  rw [lossyChars, tokens_encode_append, List.map_append, List.map_map]
  exact congrArg (· ++ _) (List.map_id text)

/-- Nothing has to be replaced in a text. -/
theorem lossyChars_encode (text : List Char) : lossyChars (encode text) = text := by
  have h := lossyChars_encode_append text []
  rwa [List.append_nil, show lossyChars [] = [] from rfl, List.append_nil] at h

theorem lossyChars_append_of_breaks (h : Breaks group rest.head?) :
    lossyChars (group ++ rest) = replacement :: lossyChars rest := by
  rw [lossyChars, tokens_append_of_breaks h]
  rfl

theorem Chunk.text_of_ne_nil (h : group ≠ []) :
    Chunk.text ⟨text, group⟩ = text ++ [replacement] := by
  rw [Chunk.text, if_neg (by rwa [List.isEmpty_iff])]

/-- The text of a byte string is that of its chunks. -/
theorem Cut.lossyChars_eq (h : Cut cs bytes) : lossyChars bytes = cs.flatMap Chunk.text := by
  induction h with
  | nil => rfl
  | last =>
    rw [lossyChars_encode, List.flatMap_singleton]
    exact (List.append_nil _).symm
  | group hbreaks _ ih =>
    rw [lossyChars_encode_append, lossyChars_append_of_breaks hbreaks, ih, List.flatMap_cons,
      Chunk.text_of_ne_nil hbreaks.ne_nil, List.append_assoc, List.singleton_append]

theorem lossyChars_eq_flatMap (bytes : Bytes) :
    lossyChars bytes = (chunks bytes).flatMap Chunk.text := (cut_chunks bytes).lossyChars_eq

end VirtualFiles.Utf8
