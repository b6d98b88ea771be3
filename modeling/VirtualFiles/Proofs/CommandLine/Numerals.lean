import Mathlib.Data.List.DropRight
import Mathlib.Data.Nat.Digits.Defs
import VirtualFiles.CommandLine.Number
import VirtualFiles.Proofs.Outcome

/-!
# Which texts are numbers

A number is read digit by digit, and what has been read is always the value of the digits so far.
So the reader gets to the end of the digits if their value is an address, and otherwise to the first
place where it cannot go on: a character there is no digit, or the value with the digit there would
be no address. No digit makes a value smaller, so the value of all digits decides, however many
zeros are in front of them.

## Main definitions

* `Blank.Trims` — a text with the blanks around it, and without them
* `Number.Announces` — the radix that a text begins with, and what comes after that
* `Number.IsDigit`, `Number.Spells` — digits, and the value of a row of digits
* `Number.Stumbles`, `Number.Misspelt` — what is wrong with a text that is no number

## Main results

* `trims_trim`, `Trims.trim_eq` — trimming takes away the blanks at both ends, and nothing else
* `appendDigits_of_spells`, `spells_or_stumbles` — how far the digits are read
* `ofDigits_eq_ok_iff`, `ofDigits_eq_error_iff` — which digits are a number
* `parse_iff_spells` — which texts are numbers, and what is reported of the others
-/

namespace VirtualFiles

namespace Blank

variable {text trimmed before after : List Char}

/-- The text is made of blanks, then `trimmed`, then blanks again, and `trimmed` neither begins nor
ends with a blank. -/
structure Trims (text trimmed : List Char) : Prop where
  blanks : ∃ before after, text = before ++ (trimmed ++ after) ∧
    (∀ c ∈ before, isBlank c = true) ∧ ∀ c ∈ after, isBlank c = true
  head : ∀ c ∈ trimmed.head?, isBlank c = false
  last : ∀ c ∈ trimmed.getLast?, isBlank c = false

theorem trimEnd_eq_rdropWhile : trimEnd text = text.rdropWhile isBlank := rfl

theorem trimEnd_append_of_blank (h : ∀ c ∈ after, isBlank c = true) :
    trimEnd (text ++ after) = trimEnd text := by
  rw [trimEnd, List.reverse_append, List.dropWhile_append_of_pos fun c hc =>
    h c (List.mem_reverse.mp hc), trimEnd]

theorem trimEnd_of_last (h : ∀ c ∈ text.getLast?, isBlank c = false) : trimEnd text = text := by
  rw [trimEnd_eq_rdropWhile, List.rdropWhile_eq_self_iff]
  intro hne
  rw [h _ (List.getLast_mem_getLast? hne)]
  exact Bool.false_ne_true

theorem trims_trim (text : List Char) : Trims text (trim text) where
  blanks := by
    refine ⟨text.takeWhile isBlank, (text.dropWhile isBlank).rtakeWhile isBlank, ?_,
      fun c => List.mem_takeWhile_imp, fun c => List.mem_rtakeWhile_imp⟩
    rw [trim, trimEnd_eq_rdropWhile, List.rdropWhile_append_rtakeWhile,
      List.takeWhile_append_dropWhile]
  head c hc := by
    -- what is left of the text begins as it did before its end was trimmed
    obtain ⟨after, hafter⟩ := List.rdropWhile_prefix isBlank (text.dropWhile isBlank)
    have hhead : c ∈ (text.dropWhile isBlank).head? := by
      rw [← hafter, List.head?_append, ← trimEnd_eq_rdropWhile, ← trim, hc]
      rfl
    have hnot := List.head?_dropWhile_not isBlank text
    rwa [hhead] at hnot
  last c hc := by
    obtain ⟨hne, rfl⟩ := List.mem_getLast?_eq_getLast hc
    exact Bool.eq_false_iff.mpr (List.rdropWhile_last_not isBlank _ hne)

theorem Trims.trim_eq (h : Trims text trimmed) : trim text = trimmed := by
  obtain ⟨before, after, rfl, hbefore, hafter⟩ := h.blanks
  rw [trim, List.dropWhile_append_of_pos hbefore]
  cases trimmed with
  | nil =>
    rw [List.nil_append, List.dropWhile_eq_nil_iff.mpr hafter]
    rfl
  | cons c rest =>
    have hc : ¬ isBlank c = true := by
      rw [h.head c rfl]
      exact Bool.false_ne_true
    rw [List.cons_append, List.dropWhile_cons_of_neg hc, ← List.cons_append,
      trimEnd_append_of_blank hafter, trimEnd_of_last h.last]

theorem trim_of_not_blank (h : ∀ c ∈ text, isBlank c = false) : trim text = text :=
  Trims.trim_eq {
    blanks := ⟨[], [], (List.append_nil text).symm, List.forall_mem_nil _, List.forall_mem_nil _⟩
    head := fun c hc => h c (List.mem_of_mem_head? hc)
    last := fun c hc => h c (List.mem_of_mem_getLast? hc) }

end Blank

namespace CommandLine.Number

open Outcome

/-- The text begins with the mark of the radix, and `body` comes after the mark. -/
inductive Announces : (text : List Char) → (radix : Nat) → (body : List Char) → Prop
  | lower (body : List Char) : Announces ('0' :: 'x' :: body) 16 body
  | upper (body : List Char) : Announces ('0' :: 'X' :: body) 16 body
  /-- Without a mark the radix is ten. -/
  | unmarked {body : List Char} (hlower : ¬ ['0', 'x'] <+: body) (hupper : ¬ ['0', 'X'] <+: body) :
    Announces body 10 body

/-- The character is the digit of that value to the radix. Letters may have either case. -/
def IsDigit (radix : Nat) (c : Char) (digit : Nat) : Prop :=
  digit < radix ∧ (c = digit.digitChar ∨ c = digit.digitChar.toUpper)

/-- The text is made of digits to the radix, the most significant one first, and together they have
that value. -/
def Spells (radix : Nat) (text : List Char) (value : Nat) : Prop :=
  ∃ digits, List.Forall₂ (IsDigit radix) text digits ∧ Nat.ofDigits radix digits.reverse = value

/-- The first place where digits cannot be read on. The digits before it have a value that is an
address; the character there is none, or with it the value is too large. -/
inductive Stumbles (radix : Nat) : List Char → NumberFault → Prop
  | noDigit {before after : List Char} {c : Char} {value : Nat} (hbefore : Spells radix before value)
    (hvalue : value < addressSpace) (hc : ∀ digit, ¬ IsDigit radix c digit) :
    Stumbles radix (before ++ c :: after) .invalidDigit
  | tooLarge {before after : List Char} {c : Char} {value digit : Nat}
    (hbefore : Spells radix before value) (hvalue : value < addressSpace)
    (hc : IsDigit radix c digit) (h : addressSpace ≤ value * radix + digit) :
    Stumbles radix (before ++ c :: after) .overflow

/-- What is wrong with a text that is no number to the radix. -/
inductive Misspelt (radix : Nat) : List Char → NumberFault → Prop
  | empty : Misspelt radix [] .empty
  /-- Nothing comes after the sign. -/
  | loneSign : Misspelt radix ['+'] .invalidDigit
  | unsigned {digits : List Char} {fault : NumberFault} (hsign : digits.head? ≠ some '+')
    (h : Stumbles radix digits fault) : Misspelt radix digits fault
  | signed {digits : List Char} {fault : NumberFault} (h : Stumbles radix digits fault) :
    Misspelt radix ('+' :: digits) fault

variable {radix value digit : Nat} {c : Char} {text body before rest : List Char}
variable {fault : NumberFault}

/-! ### The radix -/

theorem announces_radixOf (text : List Char) :
    Announces text (radixOf text).1 (radixOf text).2 := by
  unfold radixOf
  split
  · exact .lower _
  · exact .upper _
  · next hlower hupper =>
    refine .unmarked ?_ ?_
    · rintro ⟨rest, rfl⟩
      exact hlower rest rfl
    · rintro ⟨rest, rfl⟩
      exact hupper rest rfl

theorem Announces.radixOf_eq (h : Announces text radix body) : radixOf text = (radix, body) := by
  cases h with
  | lower | upper => rfl
  | unmarked hlower hupper =>
    unfold radixOf
    split
    · exact absurd ⟨_, rfl⟩ hlower
    · exact absurd ⟨_, rfl⟩ hupper
    · rfl

theorem Announces.radix_le (h : Announces text radix body) : radix ≤ 16 := by
  cases h <;> decide

/-! ### Digits -/

theorem alphanumeric?_digitChar : ∀ digit < 16, alphanumeric? digit.digitChar = some digit ∧
    alphanumeric? digit.digitChar.toUpper = some digit := by
  decide

theorem eq_digitChar_of_alphanumeric? (h : alphanumeric? c = some digit) (hlt : digit < 16) :
    c = digit.digitChar ∨ c = digit.digitChar.toUpper := by
  have hshown : ∀ digit < 16, (digit < 10 → Char.ofNat (48 + digit) = digit.digitChar) ∧
      (10 ≤ digit → Char.ofNat (87 + digit) = digit.digitChar ∧
        Char.ofNat (55 + digit) = digit.digitChar.toUpper) := by
    decide
  obtain ⟨hdecimal, hletter⟩ := hshown digit hlt
  unfold alphanumeric? at h
  rw [← Char.ofNat_toNat c]
  split at h
  · next hrange =>
    obtain ⟨hlow, hhigh⟩ : 48 ≤ c.toNat ∧ c.toNat ≤ 57 := hrange
    have hdigit : c.toNat - 48 = digit := Option.some.inj h
    rw [show c.toNat = 48 + digit by omega]
    exact .inl (hdecimal (by omega))
  · split at h
    · next hrange =>
      have hlow : 97 ≤ c.toNat := hrange.1
      have hdigit : c.toNat - 97 + 10 = digit := Option.some.inj h
      rw [show c.toNat = 87 + digit by omega]
      exact .inl (hletter (by omega)).1
    · split at h
      · next hrange =>
        have hlow : 65 ≤ c.toNat := hrange.1
        have hdigit : c.toNat - 65 + 10 = digit := Option.some.inj h
        rw [show c.toNat = 55 + digit by omega]
        exact .inr (hletter (by omega)).2
      · cases h

theorem digit?_eq_some_iff (hradix : radix ≤ 16) :
    digit? radix c = some digit ↔ IsDigit radix c digit := by
  rw [digit?, Option.filter_eq_some_iff, decide_eq_true_eq]
  constructor
  · rintro ⟨hc, hlt⟩
    exact ⟨hlt, eq_digitChar_of_alphanumeric? hc (hlt.trans_le hradix)⟩
  · rintro ⟨hlt, hc⟩
    obtain ⟨hlower, hupper⟩ := alphanumeric?_digitChar digit (hlt.trans_le hradix)
    rcases hc with rfl | rfl
    · exact ⟨hlower, hlt⟩
    · exact ⟨hupper, hlt⟩

theorem digit?_eq_none (hradix : radix ≤ 16) (hc : ∀ digit, ¬ IsDigit radix c digit) :
    digit? radix c = none :=
  Option.eq_none_iff_forall_ne_some.mpr fun digit h => hc digit ((digit?_eq_some_iff hradix).mp h)

/-! ### Rows of digits -/

theorem spells_nil_iff : Spells radix [] value ↔ value = 0 := by
  simp [Spells, eq_comm]

theorem ofDigits_reverse_concat (front : List Nat) (digit : Nat) :
    Nat.ofDigits radix (front ++ [digit]).reverse =
      Nat.ofDigits radix front.reverse * radix + digit := by
  rw [List.reverse_append, List.reverse_singleton, List.singleton_append, Nat.ofDigits_cons,
    Nat.add_comm, Nat.mul_comm]

/-- A digit at the end counts once, and those before it `radix` times as much as without it. -/
theorem spells_concat_iff : Spells radix (text ++ [c]) value ↔ ∃ front digit,
    Spells radix text front ∧ IsDigit radix c digit ∧ front * radix + digit = value := by
  constructor
  · rintro ⟨digits, hdigits, rfl⟩
    obtain ⟨front, last, rfl, hfront, hlast⟩ := forall₂_append_iff.mp hdigits
    obtain ⟨digit, _, hc, hnil, rfl⟩ := List.forall₂_cons_left_iff.mp hlast
    obtain rfl := List.forall₂_nil_left_iff.mp hnil
    exact ⟨_, digit, ⟨front, hfront, rfl⟩, hc, (ofDigits_reverse_concat front digit).symm⟩
  · rintro ⟨_, digit, ⟨front, hfront, rfl⟩, hc, rfl⟩
    have hdigits := forall₂_append_iff.mpr ⟨front, [digit], rfl, hfront, .cons hc .nil⟩
    exact ⟨front ++ [digit], hdigits, ofDigits_reverse_concat front digit⟩

/-- Reading the digits of an address leads to it. -/
theorem appendDigits_of_spells (hradix : radix ≤ 16) (h : Spells radix before value)
    (hvalue : value < addressSpace) (rest : List Char) :
    appendDigits radix 0 (before ++ rest) = appendDigits radix value rest := by
  -- the value grows at the end of the text, so the induction takes the digits from there
  induction before using List.reverseRecOn generalizing value rest with
  | nil =>
    obtain rfl := spells_nil_iff.mp h
    rfl
  | append_singleton before c ih =>
    obtain ⟨front, digit, hfront, hc, rfl⟩ := spells_concat_iff.mp h
    have hpos : 0 < radix := Nat.zero_lt_of_lt hc.1
    have hle : front ≤ front * radix := Nat.le_mul_of_pos_right front hpos
    rw [List.append_assoc, List.singleton_append, ih hfront (by omega), appendDigits,
      (digit?_eq_some_iff hradix).mpr hc]
    exact if_pos hvalue

theorem appendDigits_of_stumbles (hradix : radix ≤ 16) (h : Stumbles radix text fault) :
    appendDigits radix 0 text = .error fault := by
  cases h with
  | noDigit hbefore hvalue hc =>
    rw [appendDigits_of_spells hradix hbefore hvalue, appendDigits, digit?_eq_none hradix hc]
  | tooLarge hbefore hvalue hc h =>
    rw [appendDigits_of_spells hradix hbefore hvalue, appendDigits,
      (digit?_eq_some_iff hradix).mpr hc]
    exact if_neg (Nat.not_lt.mpr h)

theorem Stumbles.concat (h : Stumbles radix text fault) (c : Char) :
    Stumbles radix (text ++ [c]) fault := by
  cases h with
  | noDigit hbefore hvalue hc =>
    rw [List.append_assoc, List.cons_append]
    exact .noDigit hbefore hvalue hc
  | tooLarge hbefore hvalue hc h =>
    rw [List.append_assoc, List.cons_append]
    exact .tooLarge hbefore hvalue hc h

/-- The digits are read to their end, or there is a place where they cannot be read on. -/
theorem spells_or_stumbles (radix : Nat) (text : List Char) :
    (∃ value < addressSpace, Spells radix text value) ∨ ∃ fault, Stumbles radix text fault := by
  induction text using List.reverseRecOn with
  | nil => exact .inl ⟨0, by decide, spells_nil_iff.mpr rfl⟩
  | append_singleton text c ih =>
    obtain ⟨value, hvalue, hspells⟩ | ⟨fault, hstumbles⟩ := ih
    · by_cases hc : ∃ digit, IsDigit radix c digit
      · obtain ⟨digit, hc⟩ := hc
        by_cases hlt : value * radix + digit < addressSpace
        · exact .inl ⟨_, hlt, spells_concat_iff.mpr ⟨value, digit, hspells, hc, rfl⟩⟩
        · exact .inr ⟨_, .tooLarge hspells hvalue hc (Nat.not_lt.mp hlt)⟩
      · exact .inr ⟨_, .noDigit hspells hvalue (not_exists.mp hc)⟩
    · exact .inr ⟨fault, hstumbles.concat c⟩

theorem appendDigits_eq_ok_iff (hradix : radix ≤ 16) :
    appendDigits radix 0 text = .ok value ↔ Spells radix text value ∧ value < addressSpace := by
  have hread : ∀ {value}, Spells radix text value → value < addressSpace →
      appendDigits radix 0 text = .ok value := by
    intro value hspells hvalue
    have hend := appendDigits_of_spells hradix hspells hvalue []
    rwa [List.append_nil] at hend
  constructor
  · intro h
    obtain ⟨other, hlt, hspells⟩ | ⟨fault, hstumbles⟩ := spells_or_stumbles radix text
    · obtain rfl := Except.ok.inj (h.symm.trans (hread hspells hlt))
      exact ⟨hspells, hlt⟩
    · cases h.symm.trans (appendDigits_of_stumbles hradix hstumbles)
  · rintro ⟨hspells, hvalue⟩
    exact hread hspells hvalue

theorem appendDigits_eq_error_iff (hradix : radix ≤ 16) :
    appendDigits radix 0 text = .error fault ↔ Stumbles radix text fault := by
  refine ⟨fun h => ?_, appendDigits_of_stumbles hradix⟩
  obtain ⟨value, hlt, hspells⟩ | ⟨other, hstumbles⟩ := spells_or_stumbles radix text
  · cases h.symm.trans ((appendDigits_eq_ok_iff hradix).mpr ⟨hspells, hlt⟩)
  · obtain rfl := Except.error.inj (h.symm.trans (appendDigits_of_stumbles hradix hstumbles))
    exact hstumbles

/-! ### Numbers -/

/-- A text may have a sign before its digits, or nothing but a sign, or nothing at all. -/
theorem sign_cases (body : List Char) : body = [] ∨ body = ['+'] ∨
    (∃ digits, digits ≠ [] ∧ body = '+' :: digits) ∨ (body ≠ [] ∧ body.head? ≠ some '+') := by
  match body with
  | [] => exact .inl rfl
  | c :: digits =>
    by_cases hc : c = '+'
    · subst hc
      by_cases hdigits : digits = []
      · exact .inr (.inl (by rw [hdigits]))
      · exact .inr (.inr (.inl ⟨digits, hdigits, rfl⟩))
    · exact .inr (.inr (.inr ⟨List.cons_ne_nil _ _, fun h => hc (Option.some.inj h)⟩))

theorem ofDigits_signed (hne : body ≠ []) :
    ofDigits radix ('+' :: body) = appendDigits radix 0 body := by
  unfold ofDigits
  split <;> simp_all

theorem ofDigits_unsigned (hne : body ≠ []) (hsign : body.head? ≠ some '+') :
    ofDigits radix body = appendDigits radix 0 body := by
  unfold ofDigits
  split <;> simp_all

/-- The sign is no digit. -/
theorem head?_ne_of_spells (hradix : radix ≤ 16) (h : Spells radix text value) :
    text.head? ≠ some '+' := by
  intro hhead
  obtain ⟨rest, rfl⟩ := List.head?_eq_some_iff.mp hhead
  obtain ⟨digits, hdigits, -⟩ := h
  obtain ⟨digit, _, hplus, -⟩ := List.forall₂_cons_left_iff.mp hdigits
  have hnone : digit? radix '+' = none := rfl
  rw [(digit?_eq_some_iff hradix).mpr hplus] at hnone
  cases hnone

theorem ofDigits_eq_ok_iff (hradix : radix ≤ 16) : ofDigits radix body = .ok value ↔
    ∃ digits, (body = digits ∨ body = '+' :: digits) ∧ digits ≠ [] ∧
      Spells radix digits value ∧ value < addressSpace := by
  constructor
  · intro h
    obtain rfl | rfl | ⟨digits, hne, rfl⟩ | ⟨hne, hsign⟩ := sign_cases body
    · cases h
    · cases h
    · rw [ofDigits_signed hne] at h
      exact ⟨digits, .inr rfl, hne, (appendDigits_eq_ok_iff hradix).mp h⟩
    · rw [ofDigits_unsigned hne hsign] at h
      exact ⟨body, .inl rfl, hne, (appendDigits_eq_ok_iff hradix).mp h⟩
  · rintro ⟨digits, rfl | rfl, hne, hread⟩
    · rw [ofDigits_unsigned hne (head?_ne_of_spells hradix hread.1)]
      exact (appendDigits_eq_ok_iff hradix).mpr hread
    · rw [ofDigits_signed hne]
      exact (appendDigits_eq_ok_iff hradix).mpr hread

theorem Stumbles.ne_nil (h : Stumbles radix text fault) : text ≠ [] := by
  cases h <;> exact List.append_ne_nil_of_right_ne_nil _ (List.cons_ne_nil _ _)

theorem ofDigits_eq_error_iff (hradix : radix ≤ 16) :
    ofDigits radix body = .error fault ↔ Misspelt radix body fault := by
  constructor
  · intro h
    obtain rfl | rfl | ⟨digits, hne, rfl⟩ | ⟨hne, hsign⟩ := sign_cases body
    · cases h
      exact .empty
    · cases h
      exact .loneSign
    · rw [ofDigits_signed hne] at h
      exact .signed ((appendDigits_eq_error_iff hradix).mp h)
    · rw [ofDigits_unsigned hne hsign] at h
      exact .unsigned hsign ((appendDigits_eq_error_iff hradix).mp h)
  · intro h
    cases h with
    | empty | loneSign => rfl
    | unsigned hsign h =>
      rw [ofDigits_unsigned h.ne_nil hsign]
      exact (appendDigits_eq_error_iff hradix).mpr h
    | signed h =>
      rw [ofDigits_signed h.ne_nil]
      exact (appendDigits_eq_error_iff hradix).mpr h

theorem parse_eq_ofDigits (h : Announces (Blank.trim text) radix body) :
    parse text = (ofDigits radix body).mapError (⟨Blank.trim text, ·⟩) := by
  rw [parse, h.radixOf_eq]

theorem parse_eq_ok_iff (h : Announces (Blank.trim text) radix body) : parse text = .ok value ↔
    ∃ digits, (body = digits ∨ body = '+' :: digits) ∧ digits ≠ [] ∧
      Spells radix digits value ∧ value < addressSpace := by
  rw [parse_eq_ofDigits h, mapError_eq_ok_iff, ofDigits_eq_ok_iff h.radix_le]

theorem parse_eq_error_iff {e : NumberError} (h : Announces (Blank.trim text) radix body) :
    parse text = .error e ↔ e.text = Blank.trim text ∧ Misspelt radix body e.fault := by
  rw [parse_eq_ofDigits h, mapError_eq_error_iff]
  simp only [ofDigits_eq_error_iff h.radix_le]
  constructor
  · rintro ⟨fault, hfault, rfl⟩
    exact ⟨rfl, hfault⟩
  · rintro ⟨htext, hfault⟩
    exact ⟨e.fault, hfault, by rw [← htext]⟩

/-! ### Numbers that are written out -/

theorem spells_toDigits (hradix : 1 < radix) (value : Nat) :
    Spells radix (Nat.toDigits radix value) value := by
  have hdigit : ∀ digit < radix, IsDigit radix digit.digitChar digit :=
    fun digit hlt => ⟨hlt, .inl rfl⟩
  induction value using Nat.strongRecOn with
  | ind value ih =>
    rw [Nat.toDigits_eq_if hradix]
    split
    · next hlt =>
      exact spells_concat_iff.mpr ⟨0, value, spells_nil_iff.mpr rfl, hdigit value hlt, by omega⟩
    · next hge =>
      have hsmaller : value / radix < value := Nat.div_lt_self (by omega) hradix
      have hlast : value % radix < radix := Nat.mod_lt _ (by omega)
      exact spells_concat_iff.mpr ⟨_, _, ih _ hsmaller, hdigit _ hlast, Nat.div_add_mod' _ _⟩

/-- A digit is neither a blank nor the mark of a radix. -/
theorem digitChar_plain : ∀ digit < 16, Blank.isBlank digit.digitChar = false ∧
    digit.digitChar ≠ 'x' ∧ digit.digitChar ≠ 'X' := by
  decide +kernel

theorem exists_digitChar_of_mem_toDigits (hradix : 1 < radix) (hc : c ∈ Nat.toDigits radix value) :
    ∃ digit < radix, c = digit.digitChar := by
  induction value using Nat.strongRecOn with
  | ind value ih =>
    rw [Nat.toDigits_eq_if hradix] at hc
    split at hc
    · next hlt => exact ⟨value, hlt, List.mem_singleton.mp hc⟩
    · rcases List.mem_append.mp hc with hfront | hlast
      · exact ih _ (Nat.div_lt_self (by omega) hradix) hfront
      · exact ⟨_, Nat.mod_lt _ (by omega), List.mem_singleton.mp hlast⟩

theorem parse_toString (hvalue : value < addressSpace) :
    parse (toString value).toList = .ok value := by
  rw [Nat.toString_eq_ofList_toDigits, String.toList_ofList]
  have hplain : ∀ c ∈ Nat.toDigits 10 value,
      Blank.isBlank c = false ∧ c ≠ 'x' ∧ c ≠ 'X' := by
    intro c hc
    obtain ⟨digit, hlt, rfl⟩ := exists_digitChar_of_mem_toDigits (by decide) hc
    exact digitChar_plain digit (hlt.trans (by decide))
  have hmark : Announces (Blank.trim (Nat.toDigits 10 value)) 10 (Nat.toDigits 10 value) := by
    rw [Blank.trim_of_not_blank fun c hc => (hplain c hc).1]
    refine .unmarked (fun h => ?_) fun h => ?_
    · exact (hplain 'x' (h.subset (by decide))).2.1 rfl
    · exact (hplain 'X' (h.subset (by decide))).2.2 rfl
  exact (parse_eq_ok_iff hmark).mpr
    ⟨_, .inl rfl, Nat.toDigits_ne_nil, spells_toDigits (by decide) value, hvalue⟩

theorem parse_address (hvalue : value < addressSpace) :
    parse (Hex.address value).toList = .ok value := by
  have htext : (Hex.address value).toList = '0' :: 'x' :: Nat.toDigits 16 value := by
    simp only [Hex.address, Hex.lower, String.toList_append, String.toList_ofList]
    rfl
  have hplain : ∀ c ∈ '0' :: 'x' :: Nat.toDigits 16 value, Blank.isBlank c = false := by
    refine List.forall_mem_cons.mpr ⟨by decide, List.forall_mem_cons.mpr ⟨by decide, ?_⟩⟩
    intro c hc
    obtain ⟨digit, hlt, rfl⟩ := exists_digitChar_of_mem_toDigits (by decide) hc
    exact (digitChar_plain digit hlt).1
  have hmark : Announces (Blank.trim ('0' :: 'x' :: Nat.toDigits 16 value)) 16
      (Nat.toDigits 16 value) := by
    rw [Blank.trim_of_not_blank hplain]
    exact .lower _
  rw [htext]
  exact (parse_eq_ok_iff hmark).mpr
    ⟨_, .inl rfl, Nat.toDigits_ne_nil, spells_toDigits (by decide) value, hvalue⟩

/-- A text is a number if it is, without the blanks around it and the mark of its radix, a row of
digits to that radix whose value is an address, with at most one plus sign before them. Otherwise
what is reported is that nothing is left of the text, or else the first place where its digits
cannot be read on; a character that is no digit counts even where any digit would be too large.
Every address is read back from its decimal and its hexadecimal digits. -/
theorem parse_iff_spells :
    (∀ text, Blank.Trims text (Blank.trim text) ∧
      ∃ radix body, Announces (Blank.trim text) radix body ∧
        (∀ value, parse text = .ok value ↔
          ∃ digits, (body = digits ∨ body = '+' :: digits) ∧ digits ≠ [] ∧
            Spells radix digits value ∧ value < addressSpace) ∧
        ∀ e, parse text = .error e ↔
          e.text = Blank.trim text ∧ Misspelt radix body e.fault) ∧
    ∀ value < addressSpace, parse (toString value).toList = .ok value ∧
      parse (Hex.address value).toList = .ok value := by
  refine ⟨fun text => ⟨Blank.trims_trim text, ?_⟩, fun value hvalue =>
    ⟨parse_toString hvalue, parse_address hvalue⟩⟩
  have hmark := announces_radixOf (Blank.trim text)
  exact ⟨_, _, hmark, fun value => parse_eq_ok_iff hmark, fun e => parse_eq_error_iff hmark⟩

/-- A marked number between blanks is read; where the last digit makes a number too large, this is
reported, and not what comes after it; and the largest address is read back. -/
theorem parse_iff_spells_marked :
    parse [' ', '0', 'X', '+', '0', 'f', 'F', '\n'] = .ok 255 ∧
    (∃ trimmed, parse (Nat.toDigits 10 1844674407370955161 ++ ['6', 'x']) =
      .error ⟨trimmed, .overflow⟩) ∧
    parse (Hex.address 18446744073709551615).toList = .ok 18446744073709551615 := by
  obtain ⟨hread, hback⟩ := parse_iff_spells
  refine ⟨?_, ?_, (hback _ (by decide)).2⟩
  · obtain ⟨-, radix, body, hmark, hok, -⟩ := hread [' ', '0', 'X', '+', '0', 'f', 'F', '\n']
    have hradix : radixOf (Blank.trim [' ', '0', 'X', '+', '0', 'f', 'F', '\n']) =
        (16, ['+', '0', 'f', 'F']) := by
      decide +kernel
    obtain ⟨rfl, rfl⟩ := Prod.mk.inj (hmark.radixOf_eq.symm.trans hradix)
    refine (hok 255).mpr ⟨_, .inr rfl, List.cons_ne_nil _ _, ⟨[0, 15, 15], ?_, rfl⟩, by decide⟩
    exact .cons ⟨by decide, .inl rfl⟩ (.cons ⟨by decide, .inl rfl⟩
      (.cons ⟨by decide, .inr rfl⟩ .nil))
  · obtain ⟨-, radix, body, hmark, -, herror⟩ :=
      hread (Nat.toDigits 10 1844674407370955161 ++ ['6', 'x'])
    have hradix : radixOf (Blank.trim (Nat.toDigits 10 1844674407370955161 ++ ['6', 'x'])) =
        (10, Nat.toDigits 10 1844674407370955161 ++ ['6', 'x']) := by
      decide +kernel
    obtain ⟨rfl, rfl⟩ := Prod.mk.inj (hmark.radixOf_eq.symm.trans hradix)
    refine ⟨_, (herror ⟨_, .overflow⟩).mpr ⟨rfl, .unsigned (by decide +kernel) ?_⟩⟩
    have hsix : IsDigit 10 '6' 6 := ⟨by decide, .inl rfl⟩
    exact .tooLarge (spells_toDigits (by decide) _) (by decide) hsix (by decide)

end CommandLine.Number

end VirtualFiles
