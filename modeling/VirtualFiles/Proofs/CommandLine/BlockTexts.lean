import Mathlib.Data.List.Count
import VirtualFiles.CommandLine.BlockSpec
import VirtualFiles.Proofs.Layout.Refusal

/-!
# Which texts are blocks

The last two colons of a text divide it into a path, a start and a length, and there is no other way
to divide it so that only the path holds colons. So a text is a block in one way at most, whatever
its path looks like. A length that is accepted is one that a signed word can hold, so no layout of
such blocks is ever refused for a negative length.

## Main definitions

* `BlockSpec.Written` — a path, a start and a length with colons between them
* `PlanError.isNegativeLength` — whether a layout was refused for a negative length

## Main results

* `splitLast_eq_some_iff`, `split_eq_some_iff` — where a text is divided
* `parse_of_written`, `exists_written_of_parse` — what is made of the parts
* `Plan.exists_length_neg_of_compute` — only a negative length is refused as one
* `parse_iff_written` — which texts are blocks, and what can be laid out
-/

namespace VirtualFiles

open Outcome

namespace CommandLine.BlockSpec

/-- The text is a path, a start and a length with colons between them. The path is not empty, and is
the only one of them that may hold colons itself. -/
structure Written (text path start length : List Char) : Prop where
  joined : text = path ++ ':' :: (start ++ ':' :: length)
  path_ne : path ≠ []
  start_plain : ':' ∉ start
  length_plain : ':' ∉ length

variable {text before after path start length : List Char} {block : Block}

/-! ### The last two colons -/

theorem splitLast_eq_none_iff : splitLast text = none ↔ ':' ∉ text := by
  induction text with
  | nil => simp [splitLast]
  | cons c rest ih =>
    rw [splitLast, List.mem_cons, not_or]
    cases hrest : splitLast rest with
    | none => simp [ih.mp hrest, eq_comm]
    | some parts =>
      have hmem : ¬ ':' ∉ rest := fun h => by
        rw [ih.mpr h] at hrest
        cases hrest
      simp [hmem]

theorem splitLast_append (h : ':' ∉ after) :
    splitLast (before ++ ':' :: after) = some (before, after) := by
  induction before with
  | nil => rw [List.nil_append, splitLast, splitLast_eq_none_iff.mpr h, if_pos rfl]
  | cons c before ih => rw [List.cons_append, splitLast, ih]

theorem splitLast_eq_some_iff : splitLast text = some (before, after) ↔
    text = before ++ ':' :: after ∧ ':' ∉ after := by
  constructor
  · intro h
    induction text generalizing before with
    | nil => cases h
    | cons c rest ih =>
      rw [splitLast] at h
      split at h
      · next hrest =>
        cases h
        obtain ⟨rfl, hafter⟩ := ih hrest
        exact ⟨rfl, hafter⟩
      · next hrest =>
        split at h
        · next hc =>
          cases h
          exact ⟨by rw [hc, List.nil_append], splitLast_eq_none_iff.mp hrest⟩
        · cases h
  · rintro ⟨rfl, hafter⟩
    exact splitLast_append hafter

theorem split_eq_some_iff : split text = some (path, start, length) ↔
    text = path ++ ':' :: (start ++ ':' :: length) ∧ ':' ∉ start ∧ ':' ∉ length := by
  simp only [split, Option.bind_eq_bind, Option.bind_eq_some_iff, Prod.exists,
    splitLast_eq_some_iff, Option.pure_def, Option.some.injEq, Prod.mk.injEq]
  constructor
  · rintro ⟨front, _, ⟨rfl, hlength⟩, _, _, ⟨rfl, hstart⟩, rfl, rfl, rfl⟩
    exact ⟨by rw [List.append_assoc, List.cons_append], hstart, hlength⟩
  · rintro ⟨rfl, hstart, hlength⟩
    exact ⟨path ++ ':' :: start, length, ⟨by rw [List.append_assoc, List.cons_append], hlength⟩,
      path, start, ⟨rfl, hstart⟩, rfl, rfl, rfl⟩

theorem split_eq_none_of_count_lt (h : text.count ':' < 2) : split text = none := by
  cases hsplit : split text with
  | none => rfl
  | some parts =>
    obtain ⟨path, start, length⟩ := parts
    obtain ⟨rfl, -, -⟩ := split_eq_some_iff.mp hsplit
    simp only [List.count_append, List.count_cons_self] at h
    omega

theorem written_iff : Written text path start length ↔
    split text = some (path, start, length) ∧ path ≠ [] := by
  rw [split_eq_some_iff]
  constructor
  · rintro ⟨hjoined, hpath, hstart, hlength⟩
    exact ⟨⟨hjoined, hstart, hlength⟩, hpath⟩
  · rintro ⟨⟨hjoined, hstart, hlength⟩, hpath⟩
    exact ⟨hjoined, hpath, hstart, hlength⟩

/-! ### Blocks -/

theorem parse_of_malformed (h : text.count ':' < 2) : parse text = .error (.malformed text) := by
  rw [parse, split_eq_none_of_count_lt h]

theorem parse_of_missingPath (h : split text = some ([], start, length)) :
    parse text = .error (.missingPath text) := by
  rw [parse, h]
  rfl

/-- What is made of a text that was divided. -/
theorem parse_of_written (h : Written text path start length) : parse text = .ok block ↔
    ∃ first size, Number.parse start = .ok first ∧ Number.parse length = .ok size ∧
      size ≤ 0x7FFFFFFFFFFFFFFF ∧ block = ⟨.ofString (String.ofList path), first, size, 0⟩ := by
  obtain ⟨hsplit, hpath⟩ := written_iff.mp h
  rw [parse, hsplit]
  dsimp only
  rw [if_neg hpath, bind_eq_ok_iff]
  have hmax : maxLength = 0x7FFFFFFFFFFFFFFF := rfl
  have hnamed : Path.ofString (String.ofList path) = ⟨Utf8.encode path⟩ := by
    rw [Path.ofString, Utf8.encodeString, String.toList_ofList]
  constructor
  · rintro ⟨size, hsize, hrest⟩
    rw [mapError_eq_ok_iff] at hsize
    split at hrest
    · cases hrest
    · next hle =>
      obtain ⟨first, hfirst, hdone⟩ := bind_eq_ok_iff.mp hrest
      cases hdone
      exact ⟨first, size, mapError_eq_ok_iff.mp hfirst, hsize, by omega, by rw [hnamed]⟩
  · rintro ⟨first, size, hfirst, hsize, hle, rfl⟩
    refine ⟨size, mapError_eq_ok_iff.mpr hsize, ?_⟩
    rw [if_neg (by omega), bind_eq_ok_iff]
    exact ⟨first, mapError_eq_ok_iff.mpr hfirst, by rw [hnamed]; rfl⟩

/-- Only a text that is written so is a block. -/
theorem exists_written_of_parse (h : parse text = .ok block) :
    ∃ path start length, Written text path start length := by
  cases hsplit : split text with
  | none =>
    rw [parse, hsplit] at h
    cases h
  | some parts =>
    obtain ⟨path, start, length⟩ := parts
    refine ⟨path, start, length, written_iff.mpr ⟨hsplit, ?_⟩⟩
    rintro rfl
    rw [parse_of_missingPath hsplit] at h
    cases h

theorem Written.eq {path' start' length' : List Char} (h : Written text path start length)
    (h' : Written text path' start' length') :
    path' = path ∧ start' = start ∧ length' = length := by
  have hparts := (written_iff.mp h').1.symm.trans (written_iff.mp h).1
  simpa only [Option.some.injEq, Prod.mk.injEq] using hparts

theorem length_nonneg_of_parse (h : parse text = .ok block) : 0 ≤ block.length := by
  obtain ⟨path, start, length, hwritten⟩ := exists_written_of_parse h
  obtain ⟨first, size, -, -, -, rfl⟩ := (parse_of_written hwritten).mp h
  exact Int.natCast_nonneg size

end CommandLine.BlockSpec

/-! ### Layouts of blocks -/

/-- Was the layout refused because of a negative length? -/
def PlanError.isNegativeLength : PlanError → Bool
  | .blockExtent _ (.negativeLength _) | .headerExtent (.negativeLength _) => true
  | _ => false

namespace Plan

variable {alignment index stop declaredStop headerLength : Nat} {block : Block}
variable {blocks : List Block} {cause : PlanError}

theorem Refused.length_neg (h : Refused alignment index stop declaredStop block cause)
    (hcause : cause.isNegativeLength = true) : block.length < 0 := by
  cases h with
  | negative h => exact h
  | declared | overlap | rounding | landing => cases hcause

/-- A layout is refused for a negative length only if a block has one. -/
theorem exists_length_neg_of_compute (h : compute blocks headerLength alignment = .error cause)
    (hcause : cause.isNegativeLength = true) : ∃ block ∈ blocks, block.length < 0 := by
  rcases Nat.eq_zero_or_pos alignment with rfl | hpos
  · cases h
    cases hcause
  · obtain hblocks | ⟨stop, -, hheader⟩ := (compute_eq_error_iff_of_pos hpos).mp h
    · obtain ⟨before, block, after, _, _, rfl, -, hrefused⟩ := placeBlocks_eq_error_iff.mp hblocks
      exact ⟨block, List.mem_append_right _ List.mem_cons_self, hrefused.length_neg hcause⟩
    · obtain ⟨-, -, rfl⟩ := placeHeader_eq_error_iff.mp hheader
      cases hcause

end Plan

namespace CommandLine.BlockSpec

/-- A text is a block if it is a path, a start and a length with colons between them, where only the
path may hold colons, the start and the length are numbers, and the length is one that a signed word
can hold, at most `2 ^ 63 - 1`. It is so written in one way only. A text without two colons, or
without anything before the last two, is no block. Blocks that were written are never laid out with
a negative length. -/
theorem parse_iff_written :
    (∀ text path start length, Written text path start length → ∀ block,
      parse text = .ok block ↔ ∃ first size,
        Number.parse start = .ok first ∧ Number.parse length = .ok size ∧
          size ≤ 0x7FFFFFFFFFFFFFFF ∧
          block = ⟨.ofString (String.ofList path), first, size, 0⟩) ∧
    (∀ text block, parse text = .ok block →
      ∃! parts : List Char × List Char × List Char, Written text parts.1 parts.2.1 parts.2.2) ∧
    (∀ text, text.count ':' < 2 → parse text = .error (.malformed text)) ∧
    (∀ text start length, text = ':' :: (start ++ ':' :: length) → ':' ∉ start → ':' ∉ length →
      parse text = .error (.missingPath text)) ∧
    ∀ blocks headerLength alignment cause, (∀ block ∈ blocks, ∃ text, parse text = .ok block) →
      Plan.compute blocks headerLength alignment = .error cause →
        cause.isNegativeLength = false := by
  refine ⟨fun text path start length h block => parse_of_written h, fun text block h => ?_,
    fun text h => parse_of_malformed h, fun text start length hjoined hstart hlength => ?_,
    fun blocks headerLength alignment cause hblocks h => ?_⟩
  · obtain ⟨path, start, length, hwritten⟩ := exists_written_of_parse h
    refine ⟨(path, start, length), hwritten, fun parts hparts => ?_⟩
    obtain ⟨hpath, hstart, hlength⟩ := hwritten.eq hparts
    rw [← hpath, ← hstart, ← hlength]
  · exact parse_of_missingPath (split_eq_some_iff.mpr ⟨hjoined, hstart, hlength⟩)
  · by_contra hcause
    obtain ⟨block, hmem, hneg⟩ :=
      Plan.exists_length_neg_of_compute h (Bool.of_not_eq_false hcause)
    obtain ⟨text, htext⟩ := hblocks block hmem
    exact Int.not_lt.mpr (length_nonneg_of_parse htext) hneg

/-- The path of a drive, with a colon of its own. -/
def driveText : List Char := ['C', ':', 'm', ':', '0', 'x', '1', '0', ':', '6', '4']

theorem parse_iff_written_drive :
    parse driveText = .ok ⟨.ofString (String.ofList ['C', ':', 'm']), 16, 64, 0⟩ ∧
    (∃! parts : List Char × List Char × List Char,
      Written driveText parts.1 parts.2.1 parts.2.2) ∧
    parse ['m', ':', '6', '4'] = .error (.malformed ['m', ':', '6', '4']) ∧
    parse [':', '0', ':', '6', '4'] = .error (.missingPath [':', '0', ':', '6', '4']) ∧
    ∀ cause, Plan.compute [⟨.ofString (String.ofList ['C', ':', 'm']), 16, 64, 0⟩] 0 0 =
      .error cause → cause.isNegativeLength = false := by
  obtain ⟨hread, hunique, hmalformed, hmissing, hlayout⟩ := parse_iff_written
  have hdrive : parse driveText = .ok ⟨.ofString (String.ofList ['C', ':', 'm']), 16, 64, 0⟩ := by
    refine (hread driveText ['C', ':', 'm'] ['0', 'x', '1', '0'] ['6', '4']
      ⟨rfl, by decide, by decide, by decide⟩ _).mpr ⟨16, 64, ?_, ?_, by decide, rfl⟩
    · decide +kernel
    · decide +kernel
  refine ⟨hdrive, hunique _ _ hdrive, hmalformed _ (by decide),
    hmissing _ ['0'] ['6', '4'] rfl (by decide) (by decide), fun cause h => ?_⟩
  exact hlayout _ 0 0 cause (List.forall_mem_singleton.mpr ⟨driveText, hdrive⟩) h

end CommandLine.BlockSpec

end VirtualFiles
