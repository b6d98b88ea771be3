import VirtualFiles.Text.Lowercase

/-!
# Texts in lower case

The lower case of a character is one to which no mapping applies any more. This is a property of
the table: the code points that a run of it maps to lie in no run, which their bounds and parities
show. So a text in lower case is its own lower case, and what a sigma becomes does not depend on
whether its surroundings are in lower case already.

## Main definitions

* `CaseTable.Run.image` — the code points that a run maps to
* `CaseTable.Run.apart` — whether two runs are seen to have no code point in common
* `Lowercase.IsSettled` — the characters to which no mapping applies
* `Lowercase.IsUnreached` — the characters to which no mapping leads
* `Lowercase.Agree` — characters that lowering does not tell apart

## Main results

* `mem_char_cases` — what the lower case of a character can be
* `isSettled_of_mem_char` — the lower case of a character is settled
* `mem_of_mem_text` — characters to which no mapping leads do not appear by lowering
* `textAfter_of_isSettled`, `text_text` — lowering a text again changes nothing
* `map_text_map` — characters may be exchanged for others before a text is lowered
-/

namespace VirtualFiles

namespace CaseTable

/-- The code points that the run maps to. -/
def Run.image (run : Run) : Run :=
  ⟨(run.first + run.shift).toNat, (run.last + run.shift).toNat, run.stride, 0⟩

/-- Do bounds or parities show that the runs have no code point in common? -/
def Run.apart (run other : Run) : Bool :=
  run.last.blt other.first || other.last.blt run.first ||
    (run.first == run.last || run.stride == 2) && other.stride == 2 &&
      run.first % 2 != other.first % 2

/-- Does the run map to code points that are characters? -/
def Run.mapsToChars (run : Run) : Bool :=
  0 ≤ run.first + run.shift &&
    (run.image.last.blt 0xD800 ||
      Nat.blt 0xDFFF run.image.first && run.image.last.blt 0x110000)

/-- The character whose lower case is two characters. -/
def dottedCapital : Run := ⟨0x130, 0x130, 2, 0⟩

variable {run other : Run} {n : Nat}

theorem contains_iff : run.contains n = true ↔
    run.first ≤ n ∧ n ≤ run.last ∧ (n - run.first) % run.stride = 0 := by
  simp only [Run.contains, Bool.and_eq_true, decide_eq_true_eq, beq_iff_eq, and_assoc]

theorem not_contains_of_apart (h : run.apart other = true) (hn : run.contains n = true) :
    other.contains n = false := by
  rw [contains_iff] at hn
  refine Bool.eq_false_iff.mpr fun hother => ?_
  rw [contains_iff] at hother
  simp only [Run.apart, Bool.or_eq_true, Bool.and_eq_true, Nat.blt_eq, beq_iff_eq, bne_iff_ne]
    at h
  obtain ⟨hfirst, hlast, hstep⟩ := hn
  obtain ⟨hfirst', hlast', hstep'⟩ := hother
  rcases h with (hbelow | habove) | ⟨⟨hone | htwo, htwo'⟩, hparity⟩
  · omega
  · omega
  · rw [htwo'] at hstep'
    omega
  · rw [htwo] at hstep
    rw [htwo'] at hstep'
    omega

theorem image_contains (h : run.mapsToChars = true) (hn : run.contains n = true) :
    run.image.contains (n + run.shift).toNat = true := by
  simp only [Run.mapsToChars, Bool.and_eq_true, decide_eq_true_eq] at h
  rw [contains_iff] at hn ⊢
  have hsame : (n + run.shift).toNat - (run.first + run.shift).toNat = n - run.first := by omega
  refine ⟨?_, ?_, hsame ▸ hn.2.2⟩ <;> simp only [Run.image] <;> omega

theorem isValidChar_of_mapsToChars (h : run.mapsToChars = true)
    (hn : run.image.contains n = true) : n.isValidChar := by
  simp only [Run.mapsToChars, Bool.and_eq_true, Bool.or_eq_true, Nat.blt_eq] at h
  rw [contains_iff] at hn
  unfold Nat.isValidChar
  omega

theorem mapsToChars_of_mem : ∀ run ∈ lowercaseRuns, run.mapsToChars = true :=
  List.all_eq_true.mp (by decide +kernel)

/-- No code point that a run maps to is mapped on. -/
theorem apart_of_mem (h : run ∈ lowercaseRuns) (h' : other ∈ dottedCapital :: lowercaseRuns) :
    run.image.apart other = true := by
  have hall : lowercaseRuns.all (fun run =>
      (dottedCapital :: lowercaseRuns).all run.image.apart) = true := by decide +kernel
  exact List.all_eq_true.mp (List.all_eq_true.mp hall run h) other h'

end CaseTable

namespace Lowercase

open CaseTable

variable {c d : Char} {before after chars : List Char}

/-- No mapping applies to the character. -/
def IsSettled (c : Char) : Prop :=
  ∀ run ∈ dottedCapital :: lowercaseRuns, run.contains c.toNat = false

instance (c : Char) : Decidable (IsSettled c) :=
  decidable_of_iff ((dottedCapital :: lowercaseRuns).all (!·.contains c.toNat) = true) (by
    simp only [List.all_eq_true, Bool.not_eq_true', IsSettled])

/-- The character is not in the lower case of any other one. -/
def IsUnreached (c : Char) : Prop :=
  c ∉ ['i', '\u0307', 'σ', 'ς'] ∧ ∀ run ∈ lowercaseRuns, run.image.contains c.toNat = false

instance (c : Char) : Decidable (IsUnreached c) := inferInstanceAs (Decidable (_ ∧ _))

theorem IsSettled.ne_dotted (h : IsSettled c) : c ≠ '\u0130' := by
  rintro rfl
  exact absurd (h dottedCapital List.mem_cons_self) (by decide)

theorem IsSettled.ne_sigma (h : IsSettled c) : c ≠ 'Σ' := by
  rintro rfl
  exact absurd (h ⟨0x3A3, 0x3AB, 1, 32⟩ (by decide +kernel)) (by decide)

theorem IsSettled.char_eq (h : IsSettled c) : char c = [c] := by
  have hnone : lowercaseRuns.find? (·.contains c.toNat) = none :=
    List.find?_eq_none.mpr fun run hrun =>
      Bool.eq_false_iff.mp (h run (List.mem_cons_of_mem _ hrun))
  rw [char, if_neg h.ne_dotted, hnone]

/-- What a character of the lower case can be: one of the two for the dotted capital, one that a run
maps to, or the character itself if it is settled. -/
theorem mem_char_cases (h : d ∈ char c) :
    (d = 'i' ∨ d = '\u0307') ∨ (∃ run ∈ lowercaseRuns, run.image.contains d.toNat = true) ∨
      (d = c ∧ IsSettled c) := by
  rw [char] at h
  split at h
  · simp only [List.mem_cons, List.not_mem_nil, or_false] at h
    exact .inl h
  next hne =>
  split at h
  · next run hfind =>
    obtain rfl := List.mem_singleton.mp h
    have hrun := List.mem_of_find?_eq_some hfind
    have hin : run.contains c.toNat = true :=
      List.find?_some (p := fun run : Run => run.contains c.toNat) hfind
    have hchars := mapsToChars_of_mem run hrun
    have himage := image_contains hchars hin
    have hvalid := isValidChar_of_mapsToChars hchars himage
    refine .inr (.inl ⟨run, hrun, ?_⟩)
    rw [Char.ofNat, dif_pos hvalid]
    exact himage
  · next hfind =>
    -- no run holds the character, and it is not the dotted capital
    obtain rfl := List.mem_singleton.mp h
    refine .inr (.inr ⟨rfl, fun other hother => ?_⟩)
    rcases List.mem_cons.mp hother with rfl | hother
    · refine Bool.eq_false_iff.mpr fun hin => hne ?_
      have hbounds := contains_iff.mp hin
      have hpoint : d.toNat = 0x130 := Nat.le_antisymm hbounds.2.1 hbounds.1
      rw [← Char.ofNat_toNat d, hpoint]
    · exact Bool.eq_false_iff.mpr (List.find?_eq_none.mp hfind other hother)

/-- The lower case of a character is settled. -/
theorem isSettled_of_mem_char (h : d ∈ char c) : IsSettled d := by
  rcases mem_char_cases h with (rfl | rfl) | ⟨run, hrun, himage⟩ | ⟨rfl, hsettled⟩
  · decide +kernel
  · decide +kernel
  · -- the run maps to code points that lie apart from all runs
    exact fun other hother => not_contains_of_apart (apart_of_mem hrun hother) himage
  · exact hsettled

theorem isSettled_of_mem_charIn (h : d ∈ charIn before c after) : IsSettled d := by
  rw [charIn] at h
  split at h
  · obtain rfl := List.mem_singleton.mp h
    split <;> decide +kernel
  · exact isSettled_of_mem_char h

theorem isSettled_of_mem_textAfter (h : d ∈ textAfter before chars) : IsSettled d := by
  induction chars generalizing before with
  | nil => exact absurd h List.not_mem_nil
  | cons c rest ih =>
    rw [textAfter, List.mem_append] at h
    exact h.elim isSettled_of_mem_charIn ih

/-- A settled text stays as it is, whatever stands before it. -/
theorem textAfter_of_isSettled (h : ∀ c ∈ chars, IsSettled c) :
    textAfter before chars = chars := by
  induction chars generalizing before with
  | nil => rfl
  | cons c rest ih =>
    have hc : IsSettled c := h c List.mem_cons_self
    rw [textAfter, charIn, if_neg hc.ne_sigma, hc.char_eq,
      ih fun d hd => h d (List.mem_cons_of_mem c hd)]
    rfl

/-- The lower case of a text is its own lower case. -/
theorem text_text (chars : List Char) : text (text chars) = text chars :=
  textAfter_of_isSettled fun _ => isSettled_of_mem_textAfter

/-! ### No character is lost -/

theorem char_ne_nil (c : Char) : char c ≠ [] := by
  rw [char]
  split
  · exact List.cons_ne_nil _ _
  · split <;> exact List.cons_ne_nil _ _

theorem charIn_ne_nil : charIn before c after ≠ [] := by
  rw [charIn]
  split
  · exact List.cons_ne_nil _ _
  · exact char_ne_nil c

theorem text_eq_nil_iff : text chars = [] ↔ chars = [] := by
  cases chars with
  | nil => exact Iff.rfl
  | cons c rest =>
    simp only [text, textAfter, List.append_eq_nil_iff, charIn_ne_nil, false_and, reduceCtorEq]

/-! ### Characters that do not appear -/

theorem IsUnreached.eq_of_mem_char (hd : IsUnreached d) (h : d ∈ char c) : d = c := by
  rcases mem_char_cases h with (rfl | rfl) | ⟨run, hrun, himage⟩ | ⟨rfl, -⟩
  · exact absurd (by decide) hd.1
  · exact absurd (by decide) hd.1
  · exact absurd himage (Bool.eq_false_iff.mp (hd.2 run hrun))
  · rfl

theorem IsUnreached.eq_of_mem_charIn (hd : IsUnreached d) (h : d ∈ charIn before c after) :
    d = c := by
  rw [charIn] at h
  split at h
  · obtain rfl := List.mem_singleton.mp h
    refine absurd ?_ hd.1
    split <;> decide
  · exact hd.eq_of_mem_char h

theorem IsUnreached.mem_of_mem_textAfter (hd : IsUnreached d) (h : d ∈ textAfter before chars) :
    d ∈ chars := by
  induction chars generalizing before with
  | nil => exact h
  | cons c rest ih =>
    rw [textAfter, List.mem_append] at h
    rcases h with hhere | hlater
    · exact hd.eq_of_mem_charIn hhere ▸ List.mem_cons_self
    · exact List.mem_cons_of_mem c (ih hlater)

/-- A character to which no mapping leads is in the lower case of a text only if it is in the
text. -/
theorem mem_of_mem_text (hd : IsUnreached d) (h : d ∈ text chars) : d ∈ chars :=
  hd.mem_of_mem_textAfter h

/-! ### Characters that are exchanged -/

/-- Lowering does not tell the characters apart, up to what `h` makes equal: they have the same
lower case, and they are the same context for a sigma. -/
structure Agree (h : Char → Char) (c d : Char) : Prop where
  isCased : isCased c = isCased d
  isIgnorable : isIgnorable c = isIgnorable d
  sigma : c = 'Σ' ↔ d = 'Σ'
  char : (char c).map h = (char d).map h

instance (h : Char → Char) (c d : Char) : Decidable (Agree h c d) :=
  decidable_of_iff (Lowercase.isCased c = Lowercase.isCased d ∧
      Lowercase.isIgnorable c = Lowercase.isIgnorable d ∧ (c = 'Σ' ↔ d = 'Σ') ∧
      (Lowercase.char c).map h = (Lowercase.char d).map h)
    ⟨fun ⟨hcased, hignorable, hsigma, hchar⟩ => ⟨hcased, hignorable, hsigma, hchar⟩,
      fun ⟨hcased, hignorable, hsigma, hchar⟩ => ⟨hcased, hignorable, hsigma, hchar⟩⟩

theorem Agree.refl (h : Char → Char) (c : Char) : Agree h c c := ⟨rfl, rfl, Iff.rfl, rfl⟩

variable {g h : Char → Char} (hg : ∀ c, Agree h (g c) c)
include hg

theorem meetsCased_map (context : List Char) :
    meetsCased (context.map g) = meetsCased context := by
  have hignorable : isIgnorable ∘ g = isIgnorable := funext fun c => (hg c).isIgnorable
  rw [meetsCased, meetsCased, List.dropWhile_map, hignorable]
  cases context.dropWhile isIgnorable with
  | nil => rfl
  | cons c rest => exact (hg c).isCased

theorem map_charIn_map (before : List Char) (c : Char) (after : List Char) :
    (charIn (before.map g) (g c) (after.map g)).map h = (charIn before c after).map h := by
  simp only [charIn, (hg c).sigma, endsWord, meetsCased_map hg]
  split
  · rfl
  · exact (hg c).char

theorem map_textAfter_map (before chars : List Char) :
    (textAfter (before.map g) (chars.map g)).map h = (textAfter before chars).map h := by
  induction chars generalizing before with
  | nil => rfl
  | cons c rest ih =>
    rw [List.map_cons, textAfter, textAfter, List.map_append, List.map_append, map_charIn_map hg,
      ← List.map_cons, ih]

/-- Characters may be exchanged for others before a text is lowered. -/
theorem map_text_map (chars : List Char) : (text (chars.map g)).map h = (text chars).map h :=
  map_textAfter_map hg [] chars

end Lowercase

end VirtualFiles
