import Mathlib.Data.List.TakeWhile
import VirtualFiles.Proofs.Text.Lowering

/-!
# Where words end

Only a capital sigma is lowered with regard to what stands around it, and no further than up to the
nearest character that is not ignorable. So a text can be cut at a character that is neither cased
nor ignorable, and its parts lowered one by one. Without such a character the first sigma of the
later part may belong to a word of the earlier one, and this is all that can go wrong.

## Main definitions

* `Lowercase.Divides` — the characters beyond which nothing matters
* `Lowercase.closesWord` — whether a text begins with a sigma that ends a word before it

## Main results

* `meetsCased_append` — how far a context is looked at
* `text_append_cons` — a text is lowered in parts if they are divided
* `text_isSuffix_iff` — when the lower case of a text ends with that of its last part
-/

namespace VirtualFiles.Lowercase

variable {c : Char} {before before' context further chars rest : List Char}

/-- The character is neither cased nor looked past. -/
structure Divides (c : Char) : Prop where
  not_cased : isCased c = false
  not_ignorable : isIgnorable c = false

/-- Does the text begin with a sigma, ignorable characters aside, that has no letter with a case
after it? -/
def closesWord (chars : List Char) : Bool :=
  match chars.dropWhile isIgnorable with
  | [] => false
  | c :: later => c == 'Σ' && !meetsCased later

/-! ### Contexts -/

theorem meetsCased_of_all (h : context.all isIgnorable = true) : meetsCased context = false := by
  rw [meetsCased, List.dropWhile_eq_nil_iff.mpr (List.all_eq_true.mp h)]

/-- What comes after a character that is not ignorable does not matter. -/
theorem meetsCased_append (context further : List Char) : meetsCased (context ++ further) =
    if context.all isIgnorable then meetsCased further else meetsCased context := by
  have hall : (context.dropWhile isIgnorable).isEmpty = context.all isIgnorable := by
    rw [Bool.eq_iff_iff, List.isEmpty_iff, List.dropWhile_eq_nil_iff, List.all_eq_true]
  rw [meetsCased, List.dropWhile_append, hall]
  by_cases hignorable : context.all isIgnorable = true
  · rw [if_pos hignorable, if_pos hignorable, meetsCased]
  · rw [if_neg hignorable, if_neg hignorable, meetsCased]
    -- some character is left, and it is the first of both
    cases hleft : context.dropWhile isIgnorable with
    | nil => exact absurd (hall ▸ List.isEmpty_iff.mpr hleft) hignorable
    | cons c later => rfl

/-- A text is lowered in the same way after contexts that nothing nearer tells apart. -/
theorem textAfter_congr
    (h : ∀ nearer, meetsCased (nearer ++ before) = meetsCased (nearer ++ before')) :
    textAfter before chars = textAfter before' chars := by
  induction chars generalizing before before' with
  | nil => rfl
  | cons c rest ih =>
    have hhere : meetsCased before = meetsCased before' := h []
    -- both contexts grow by the same character
    have hnext : textAfter (c :: before) rest = textAfter (c :: before') rest := by
      refine ih fun nearer => ?_
      rw [List.append_cons, h, List.append_cons nearer c before']
    have hc : charIn before c rest = charIn before' c rest := by
      rw [charIn, charIn, endsWord, endsWord, hhere]
    rw [textAfter, textAfter, hc, hnext]

/-! ### Divided texts -/

theorem Divides.ne_sigma (h : Divides c) : c ≠ 'Σ' := by
  rintro rfl
  exact absurd h.not_cased (by decide +kernel)

theorem Divides.meetsCased_append (h : Divides c) :
    meetsCased (context ++ c :: further) = meetsCased context := by
  rw [Lowercase.meetsCased_append]
  split
  · next hall =>
    rw [meetsCased_of_all hall, meetsCased, List.dropWhile_cons_of_neg]
    · exact h.not_cased
    · rw [h.not_ignorable]
      exact Bool.false_ne_true
  · rfl

theorem textAfter_append_cons (h : Divides c) : textAfter before (chars ++ c :: rest) =
    textAfter before chars ++ (char c ++ text rest) := by
  induction chars generalizing before with
  | nil =>
    have hrest : textAfter (c :: before) rest = text rest := by
      refine textAfter_congr fun nearer => ?_
      rw [h.meetsCased_append, List.append_nil]
    have hc : charIn before c rest = char c := if_neg h.ne_sigma
    rw [List.nil_append, textAfter, textAfter, hc, hrest, List.nil_append]
  | cons d chars ih =>
    have hd : charIn before d (chars ++ c :: rest) = charIn before d chars := by
      unfold charIn endsWord
      rw [h.meetsCased_append]
    rw [List.cons_append, textAfter, textAfter, ih, hd, List.append_assoc]

/-- The parts before and after a character that divides them are lowered one by one. -/
theorem text_append_cons (h : Divides c) (chars rest : List Char) :
    text (chars ++ c :: rest) = text chars ++ (char c ++ text rest) := textAfter_append_cons h

/-! ### Parts of a text -/

/-- The last part of a text is lowered with the rest as the context before it. -/
theorem exists_textAfter_append (before chars rest : List Char) : ∃ first,
    textAfter before (chars ++ rest) = first ++ textAfter (chars.reverse ++ before) rest := by
  induction chars generalizing before with
  | nil => exact ⟨[], rfl⟩
  | cons c chars ih =>
    -- the context of the last part begins with the character that was lowered last
    obtain ⟨first, hfirst⟩ := ih (c :: before)
    refine ⟨charIn before c (chars ++ rest) ++ first, ?_⟩
    rw [List.cons_append, textAfter, hfirst, List.append_assoc, List.reverse_cons,
      List.append_assoc, List.singleton_append]

/-- The context changes which sigma stands at a place, but not how long the lower case is. -/
theorem length_charIn (before before' after : List Char) (c : Char) :
    (charIn before c after).length = (charIn before' c after).length := by
  rw [charIn, charIn]
  split <;> rfl

theorem length_textAfter (before before' chars : List Char) :
    (textAfter before chars).length = (textAfter before' chars).length := by
  induction chars generalizing before before' with
  | nil => rfl
  | cons c rest ih =>
    rw [textAfter, textAfter, List.length_append, List.length_append, length_charIn before before',
      ih (c :: before) (c :: before')]

/-- A context that is not met in a word makes no difference. -/
theorem textAfter_append_of_not_meetsCased (h : meetsCased context = false) :
    textAfter (before ++ context) chars = textAfter before chars := by
  refine textAfter_congr fun nearer => ?_
  rw [← List.append_assoc, meetsCased_append, h]
  split
  · next hall => rw [meetsCased_of_all hall]
  · rfl

/-- Behind a character that is not ignorable no context makes a difference. -/
theorem textAfter_append_of_not_all (h : before.all isIgnorable = false) :
    textAfter (before ++ context) chars = textAfter before chars := by
  refine textAfter_congr fun nearer => ?_
  rw [← List.append_assoc, meetsCased_append, if_neg]
  rw [List.all_append, h, Bool.and_false]
  exact Bool.false_ne_true

/-- A sigma that nothing with a case precedes is lowered differently after a word if it ends this
word. -/
theorem charIn_eq_iff (hbefore : meetsCased before = false) (hbefore' : meetsCased before' = true)
    (after : List Char) :
    charIn before' c after = charIn before c after ↔ ¬ (c = 'Σ' ∧ meetsCased after = false) := by
  unfold charIn endsWord
  rw [hbefore, hbefore']
  by_cases hsigma : c = 'Σ'
  · cases hafter : meetsCased after <;> simp [hsigma]
  · simp [hsigma]

/-- After ignorable characters a word makes a difference if the text begins with a sigma that ends
this word. -/
theorem textAfter_append_eq_iff (hbefore : before.all isIgnorable = true)
    (hcased : meetsCased context = true) :
    textAfter (before ++ context) chars = textAfter before chars ↔ closesWord chars = false := by
  have hnear : meetsCased before = false := meetsCased_of_all hbefore
  have hfar : meetsCased (before ++ context) = true := by
    rw [meetsCased_append, if_pos hbefore, hcased]
  induction chars generalizing before with
  | nil => exact iff_of_true rfl rfl
  | cons c rest ih =>
    rw [textAfter, textAfter, List.append_eq_append_iff_of_size_eq_left (length_charIn _ _ _ _),
      charIn_eq_iff hnear hfar]
    by_cases hignorable : isIgnorable c = true
    · -- the sigma, if there is one, comes later
      have hsigma : c ≠ 'Σ' := by
        rintro rfl
        exact absurd hignorable (by decide +kernel)
      have hnext : (c :: before).all isIgnorable = true := by
        rw [List.all_cons, hignorable, hbefore, Bool.and_self]
      have hcloses : closesWord (c :: rest) = closesWord rest := by
        rw [closesWord, List.dropWhile_cons_of_pos hignorable, closesWord]
      rw [hcloses, ← List.cons_append, and_iff_right fun h => hsigma h.1]
      refine ih hnext (meetsCased_of_all hnext) ?_
      rw [meetsCased_append, if_pos hnext, hcased]
    · -- what comes later does not see the context
      have hnext : (c :: before).all isIgnorable = false := by
        rw [List.all_cons, Bool.not_eq_true _ |>.mp hignorable, Bool.false_and]
      have hcloses : closesWord (c :: rest) = (c == 'Σ' && !meetsCased rest) := by
        rw [closesWord, List.dropWhile_cons_of_neg hignorable]
      rw [hcloses, ← List.cons_append, and_iff_left (textAfter_append_of_not_all hnext)]
      simp only [Bool.and_eq_false_imp, beq_iff_eq, Bool.not_eq_false', not_and,
        Bool.not_eq_false]

/-- The lower case of a text ends with that of its last part, unless the part before ends in a word
and the last part begins with a sigma that ends this word. -/
theorem text_isSuffix_iff (chars rest : List Char) : text rest <:+ text (chars ++ rest) ↔
    ¬ (meetsCased chars.reverse = true ∧ closesWord rest = true) := by
  obtain ⟨first, hfirst⟩ := exists_textAfter_append [] chars rest
  have hsuffix : text rest <:+ text (chars ++ rest) ↔
      textAfter ([] ++ chars.reverse) rest = textAfter [] rest := by
    rw [List.append_nil] at hfirst
    rw [text, text, hfirst, List.nil_append]
    constructor
    · -- both are the end of one text, and they are equally long
      intro h
      have hlength := length_textAfter [] chars.reverse rest
      have hends := List.suffix_of_suffix_length_le h (List.suffix_append first _) hlength.le
      exact (hends.eq_of_length hlength).symm
    · intro h
      exact h ▸ List.suffix_append first _
  rw [hsuffix]
  -- only a part before that ends in a word can make a difference
  by_cases hcased : meetsCased chars.reverse = true
  · rw [textAfter_append_eq_iff rfl hcased, not_and, Bool.not_eq_true, imp_iff_right hcased]
  · refine iff_of_true ?_ fun h => hcased h.1
    exact textAfter_append_of_not_meetsCased (Bool.not_eq_true _ |>.mp hcased)

end VirtualFiles.Lowercase
