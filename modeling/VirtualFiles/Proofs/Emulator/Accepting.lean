import VirtualFiles.Proofs.Cache.Spelling
import VirtualFiles.Proofs.Emulator.Creating
import VirtualFiles.Proofs.Text.WordEnds

/-!
# Paths with the right extension

Whether a path has the extension is seen from its whole text in lower case, with replacement
characters for bytes that are no text, while its key is put together from runs of text that are
lowered one by one. Both come to the same, since a replacement character is neither a letter with a
case nor looked past: the text of the key is the lower case of the path but for the slashes. So an
extension without slashes is one of the key.

The text of a path is lowered as one piece, and the extension for itself. A path that ends with the
extension is therefore not accepted if the extension begins with a sigma that ends a word of the
path, since this sigma begins the extension as an inner one and stands in the path as a final one.

## Main results

* `CacheKey.lossyChars_ofPath` — the text of a key is the lower case of the path, but for slashes
* `Emulator.accepts_eq_of_ofPath_eq` — the spelling of a path makes no difference
* `Emulator.accepts_append_iff` — when a path that ends with the extension is accepted
-/

namespace VirtualFiles

open Utf8

variable {p q : Path} {c : Char} {bytes : Bytes} {chars text : List Char} {cs : List Chunk}

/-! ### The text of a key -/

theorem divides_replacement : Lowercase.Divides replacement :=
  ⟨by decide +kernel, by decide +kernel⟩

theorem char_replacement : Lowercase.char replacement = [replacement] := by decide +kernel

/-- The runs of text are lowered one by one, with the replacement characters between them. -/
theorem Utf8.Cut.text_lossyChars (h : Cut cs bytes) : Lowercase.text (lossyChars bytes) =
    (cs.map (Chunk.withText Lowercase.text)).flatMap Chunk.text := by
  induction h with
  | nil => rfl
  | @last text _ =>
    rw [lossyChars_encode, List.map_singleton, List.flatMap_singleton]
    exact (List.append_nil _).symm
  | @group text group cs rest hbreaks _ ih =>
    rw [lossyChars_encode_append, lossyChars_append_of_breaks hbreaks,
      Lowercase.text_append_cons divides_replacement, char_replacement, ih, List.map_cons,
      List.flatMap_cons, Chunk.withText, Chunk.text_of_ne_nil hbreaks.ne_nil, List.append_assoc]

namespace CacheKey

theorem text_withText_normalize (chunk : Chunk) : (chunk.withText normalize).text =
    (chunk.withText Lowercase.text).text.map foldSlash := by
  obtain ⟨text, group⟩ := chunk
  rw [Chunk.text, Chunk.text, List.map_append]
  -- a replacement character, if there is one, is no backslash
  cases group <;> rfl

/-- The text of a key is the text of the path in lower case, but for the slashes. -/
theorem lossyChars_ofPath (p : Path) :
    lossyChars (ofPath p).bytes = (Emulator.lowercasePath p).map foldSlash := by
  rw [lossyChars_eq_flatMap, chunks_ofPath, Emulator.lowercasePath,
    (cut_chunks p.bytes).text_lossyChars, List.flatMap_map, List.flatMap_map, List.map_flatMap]
  exact List.flatMap_congr fun chunk _ => text_withText_normalize chunk

theorem foldSlash_of_ne (h : foldSlash c ≠ '/') : foldSlash c = c := by
  rw [foldSlash] at h ⊢
  split
  · next hback => exact absurd (if_pos hback) h
  · rfl

/-- Turning backslashes into slashes does not matter to a text without either at the end. -/
theorem suffix_map_foldSlash_iff (hslash : '/' ∉ chars) (hback : '\\' ∉ chars) :
    chars <:+ text.map foldSlash ↔ chars <:+ text := by
  rw [List.suffix_map_iff]
  constructor
  · -- no character of the end was a backslash, since none of them is a slash now
    rintro ⟨last, hlast, rfl⟩
    have hsame : last.map foldSlash = last :=
      (List.map_congr_left fun c hc =>
        foldSlash_of_ne fun h => hslash (h ▸ List.mem_map_of_mem hc)).trans (List.map_id last)
    rwa [hsame]
  · intro h
    refine ⟨chars, h, ((List.map_congr_left fun c hc => ?_).trans (List.map_id chars)).symm⟩
    exact if_neg fun hc' : c = '\\' => hback (hc' ▸ hc)

end CacheKey

/-! ### The extension -/

namespace Emulator

open CacheKey

variable {e : Emulator} {extension : String}

theorem accepts_of_extension (hextension : e.extension = some extension) (p : Path) :
    e.accepts p = true ↔ Lowercase.text extension.toList <:+ lowercasePath p := by
  rw [accepts, hextension]
  exact List.isSuffixOf_iff_suffix

/-- An extension without slashes is one of the key. -/
theorem accepts_iff_suffix_ofPath (hextension : e.extension = some extension)
    (hslash : '/' ∉ extension.toList) (hback : '\\' ∉ extension.toList) (p : Path) :
    e.accepts p = true ↔ Lowercase.text extension.toList <:+ lossyChars (ofPath p).bytes := by
  rw [accepts_of_extension hextension, lossyChars_ofPath, suffix_map_foldSlash_iff]
  · exact fun h => hslash (Lowercase.mem_of_mem_text (by decide +kernel) h)
  · exact fun h => hback (Lowercase.mem_of_mem_text (by decide +kernel) h)

/-- Two paths with one key are claimed alike. -/
theorem map_claim_claimFor? (hkey : ofPath p = ofPath q) (h : Host) (route : String) :
    (h.claimFor? ⟨p, p, route⟩).map Start.claim = (h.claimFor? ⟨q, q, route⟩).map Start.claim := by
  have hclaim : h.cache.claim? p = h.cache.claim? q := by
    unfold Cache.claim?
    rw [hkey]
  rw [Host.claimFor?, Host.claimFor?, Option.map_map, Option.map_map, hclaim]
  rfl

/-- All spellings of a path are accepted or none is, if the extension has no slashes. So it does not
matter under which of them a file is asked for first: with each of them the builder is called, for
the same claim, or with none. -/
theorem accepts_eq_of_ofPath_eq (e : Emulator) (p q : Path)
    (hext : ∀ extension, e.extension = some extension →
      '/' ∉ extension.toList ∧ '\\' ∉ extension.toList)
    (hkey : ofPath p = ofPath q) :
    e.accepts p = e.accepts q ∧ ∀ (h : Host) (route : String),
      (h.start? e (.tryCreateFile p route)).map Start.claim =
        (h.start? e (.tryCreateFile q route)).map Start.claim := by
  have haccepts : e.accepts p = e.accepts q := by
    cases hextension : e.extension with
    | none => rw [accepts, accepts, hextension]
    | some extension =>
      obtain ⟨hslash, hback⟩ := hext extension hextension
      rw [Bool.eq_iff_iff, accepts_iff_suffix_ofPath hextension hslash hback, hkey,
        ← accepts_iff_suffix_ofPath hextension hslash hback]
  refine ⟨haccepts, fun h route => ?_⟩
  -- the cache looks at the key only
  have hget : h.cache.get? p = h.cache.get? q := by
    rw [Cache.get?, Cache.get?, Cache.lookup, Cache.lookup, hkey]
  rw [Host.start?, Host.start?, hget, haccepts]
  split
  · exact map_claim_claimFor? hkey h route
  · rfl

/-- An emulator for names that end with a final sigma and bytes that are no text. -/
def sigmaEmulator : Emulator := { extension := some "ς\uFFFD" }

theorem accepts_eq_of_ofPath_eq_loud :
    (sigmaEmulator.accepts loud = sigmaEmulator.accepts quiet ∧
      ∀ (h : Host) (route : String),
        (h.start? sigmaEmulator (.tryCreateFile loud route)).map Start.claim =
          (h.start? sigmaEmulator (.tryCreateFile quiet route)).map Start.claim) ∧
    sigmaEmulator.accepts quiet = true := by
  have hext : ∀ extension, sigmaEmulator.extension = some extension →
      '/' ∉ extension.toList ∧ '\\' ∉ extension.toList := by
    rintro _ ⟨⟩
    decide +kernel
  exact ⟨accepts_eq_of_ofPath_eq sigmaEmulator loud quiet hext (by decide +kernel),
    by decide +kernel⟩

/-! ### Paths that end with the extension -/

/-- A path of text that ends with the extension is accepted, unless the text before it ends in a
word and the extension begins with a capital sigma that ends this word. -/
theorem accepts_append_iff (e : Emulator) (stem extension : String) :
    ({ e with extension := some extension } : Emulator).accepts (.ofString (stem ++ extension)) =
        true ↔
      ¬ (Lowercase.meetsCased stem.toList.reverse = true ∧
        Lowercase.closesWord extension.toList = true) := by
  rw [accepts_of_extension rfl, lowercasePath, Path.ofString, encodeString, lossyChars_encode,
    String.toList_append, Lowercase.text_isSuffix_iff]

example : ({ extension := some ".Σ" } : Emulator).accepts (.ofString ".Σ") = true ∧
    ({ extension := some ".Σ" } : Emulator).accepts (.ofString "a.Σ") = false := by
  decide +kernel

end Emulator

end VirtualFiles
