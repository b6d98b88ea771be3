import Mathlib.Data.List.Forall2

/-!
# Computations that may fail

When a computation in steps succeeds, every step has succeeded; when it fails, one step has failed
and all steps before it have succeeded. The lemmas of this file take such a computation apart.

## Main definitions

* `append` — two lists that are computed one after the other

## Main results

* `ok_bind`, `bind_eq_ok_iff`, `bind_eq_error_iff`, `mapError_eq_ok_iff`, `map_eq_ok_iff` — single
  steps
* `mapM_eq_ok_iff`, `mapM_eq_error_iff` — one step for each entry of a list
* `exists_result_of_mem`, `exists_entry_of_mem` — every entry has a result, and the other way round
* `append_assoc`, `mapError_append`, `append_eq_ok_iff`, `append_eq_error_iff` — results that are
  put together from parts
-/

namespace VirtualFiles.Outcome

variable {ε ε' α β : Type} {x : Except ε α} {a : α} {b : β}

@[simp] theorem ok_bind {f : α → Except ε β} : ((Except.ok a : Except ε α) >>= f) = f a := rfl

theorem bind_eq_ok_iff {f : α → Except ε β} :
    (x >>= f) = .ok b ↔ ∃ a, x = .ok a ∧ f a = .ok b := by
  cases x with
  | error e => simp [bind, Except.bind]
  | ok a => simp [bind, Except.bind]

theorem bind_eq_error_iff {f : α → Except ε β} {e : ε} :
    (x >>= f) = .error e ↔ x = .error e ∨ ∃ a, x = .ok a ∧ f a = .error e := by
  cases x with
  | error e => simp [bind, Except.bind]
  | ok a => simp [bind, Except.bind]

theorem map_eq_ok_iff {f : α → β} : x.map f = .ok b ↔ ∃ a, x = .ok a ∧ f a = b := by
  cases x with
  | error e => simp [Except.map]
  | ok a => simp [Except.map]

theorem map_eq_error_iff {f : α → β} {e : ε} : x.map f = .error e ↔ x = .error e := by
  cases x with
  | error e => simp [Except.map]
  | ok a => simp [Except.map]

theorem map_map {γ : Type} {f : α → β} {g : β → γ} : (x.map f).map g = x.map (g ∘ f) := by
  cases x <;> rfl

@[simp] theorem mapError_eq_ok_iff {f : ε → ε'} : x.mapError f = .ok a ↔ x = .ok a := by
  cases x with
  | error e => constructor <;> (intro h; cases h)
  | ok b => constructor <;> (intro h; cases h; rfl)

theorem mapError_eq_error_iff {f : ε → ε'} {e' : ε'} :
    x.mapError f = .error e' ↔ ∃ e, x = .error e ∧ f e = e' := by
  cases x with
  | error e => simp [Except.mapError]
  | ok b => simp [Except.mapError]

theorem map_mapError {f : ε → ε'} {g : α → β} :
    (x.mapError f).map g = (x.map g).mapError f := by
  cases x <;> rfl

theorem toOption_eq_some_iff : x.toOption = some a ↔ x = .ok a := by
  cases x with
  | error e => constructor <;> (intro h; cases h)
  | ok b => constructor <;> (intro h; cases h; rfl)

/-- One step for each entry of a list succeeds if all of them do. -/
theorem mapM_eq_ok_iff {f : α → Except ε β} {entries : List α} {results : List β} :
    entries.mapM f = .ok results ↔ List.Forall₂ (fun a b => f a = .ok b) entries results := by
  induction entries generalizing results with
  | nil =>
    rw [List.mapM_nil, List.forall₂_nil_left_iff]
    exact ⟨fun h => by cases h; rfl, fun h => by rw [h]; rfl⟩
  | cons a rest ih =>
    rw [List.mapM_cons, bind_eq_ok_iff, List.forall₂_cons_left_iff]
    constructor
    · rintro ⟨b, hb, h⟩
      obtain ⟨later, hlater, h⟩ := bind_eq_ok_iff.mp h
      cases h
      exact ⟨b, later, hb, ih.mp hlater, rfl⟩
    · rintro ⟨b, later, hb, hlater, rfl⟩
      exact ⟨b, hb, bind_eq_ok_iff.mpr ⟨later, ih.mpr hlater, rfl⟩⟩

/-- One step for each entry of a list fails with the failure of the first step that fails. -/
theorem mapM_eq_error_iff {f : α → Except ε β} {entries : List α} {e : ε} :
    entries.mapM f = .error e ↔ ∃ before a after, entries = before ++ a :: after ∧
      (∀ x ∈ before, ∃ b, f x = .ok b) ∧ f a = .error e := by
  induction entries with
  | nil =>
    rw [List.mapM_nil]
    constructor
    · intro h
      cases h
    · rintro ⟨before, a, after, hsplit, -⟩
      simp at hsplit
  | cons first rest ih =>
    rw [List.mapM_cons, bind_eq_error_iff]
    constructor
    · rintro (hfirst | ⟨b, hfirst, hlater⟩)
      · exact ⟨[], first, rest, rfl, List.forall_mem_nil _, hfirst⟩
      · obtain hrest | ⟨later, -, hdone⟩ := bind_eq_error_iff.mp hlater
        · obtain ⟨before, a, after, rfl, hbefore, ha⟩ := ih.mp hrest
          exact ⟨first :: before, a, after, rfl,
            List.forall_mem_cons.mpr ⟨⟨b, hfirst⟩, hbefore⟩, ha⟩
        · cases hdone
    · rintro ⟨before, a, after, hsplit, hbefore, ha⟩
      cases before with
      | nil =>
        cases hsplit
        exact .inl ha
      | cons x before =>
        cases hsplit
        obtain ⟨⟨b, hb⟩, hlater⟩ := List.forall_mem_cons.mp hbefore
        have hrest := ih.mpr ⟨before, a, after, rfl, hlater, ha⟩
        exact .inr ⟨b, hb, bind_eq_error_iff.mpr (.inl hrest)⟩

/-! ### Entries and their results -/

variable {R : α → β → Prop} {entries : List α} {results : List β}

theorem exists_result_of_mem (h : List.Forall₂ R entries results) (ha : a ∈ entries) :
    ∃ b ∈ results, R a b := by
  induction h with
  | nil => cases ha
  | cons hfirst _ ih =>
    rcases List.mem_cons.mp ha with rfl | hrest
    · exact ⟨_, List.mem_cons_self, hfirst⟩
    · obtain ⟨b, hb, hr⟩ := ih hrest
      exact ⟨b, List.mem_cons_of_mem _ hb, hr⟩

theorem forall₂_append_iff {before after : List α} :
    List.Forall₂ R (before ++ after) results ↔ ∃ first second, results = first ++ second ∧
      List.Forall₂ R before first ∧ List.Forall₂ R after second := by
  constructor
  · intro h
    induction before generalizing results with
    | nil => exact ⟨[], results, rfl, .nil, h⟩
    | cons a rest ih =>
      obtain ⟨b, later, hfirst, hlater, rfl⟩ := List.forall₂_cons_left_iff.mp h
      obtain ⟨first, second, rfl, hrest, hafter⟩ := ih hlater
      exact ⟨b :: first, second, rfl, .cons hfirst hrest, hafter⟩
  · rintro ⟨first, second, rfl, hbefore, hafter⟩
    exact List.rel_append hbefore hafter

theorem exists_entry_of_mem (h : List.Forall₂ R entries results) (hb : b ∈ results) :
    ∃ a ∈ entries, R a b := by
  have hflip : List.Forall₂ (flip R) results entries := List.Forall₂.flip h
  exact exists_result_of_mem hflip hb

/-! ### Results in parts -/

variable {x y z : Except ε (List α)} {f : ε → ε'}

/-- The first list and then the second one. If one of them cannot be computed, neither can the
whole, and the first failure counts. -/
def append (x y : Except ε (List α)) : Except ε (List α) :=
  x.bind fun first => y.map (first ++ ·)

@[simp] theorem append_ok {first second : List α} :
    append (.ok first : Except ε (List α)) (.ok second) = .ok (first ++ second) := rfl

@[simp] theorem append_error {e : ε} : append (.error e) y = .error e := rfl

@[simp] theorem ok_append_error {first : List α} {e : ε} :
    append (.ok first) (.error e) = .error e := rfl

@[simp] theorem nil_append : append (.ok []) y = y := by
  cases y <;> rfl

@[simp] theorem append_nil : append x (.ok []) = x := by
  cases x with
  | error e => rfl
  | ok first => rw [append_ok, List.append_nil]

theorem append_assoc : append (append x y) z = append x (append y z) := by
  cases x with
  | error e => rfl
  | ok first =>
    cases y with
    | error e => rfl
    | ok second =>
      cases z with
      | error e => rfl
      | ok third => simp only [append_ok, List.append_assoc]

/-- Failures may be rewritten before or after the parts are put together. -/
theorem mapError_append : (append x y).mapError f = append (x.mapError f) (y.mapError f) := by
  cases x with
  | error e => rfl
  | ok first => cases y <;> rfl

theorem mapError_mapError {ε'' : Type} {g : ε' → ε''} :
    (x.mapError f).mapError g = x.mapError (g ∘ f) := by
  cases x <;> rfl

theorem append_eq_ok_iff {whole : List α} : append x y = .ok whole ↔
    ∃ first second, x = .ok first ∧ y = .ok second ∧ first ++ second = whole := by
  cases x with
  | error e => simp
  | ok first =>
    cases y with
    | error e => simp
    | ok second => simp

theorem append_eq_error_iff {e : ε} : append x y = .error e ↔
    x = .error e ∨ ∃ first, x = .ok first ∧ y = .error e := by
  cases x with
  | error other => simp
  | ok first => cases y <;> simp

end VirtualFiles.Outcome
