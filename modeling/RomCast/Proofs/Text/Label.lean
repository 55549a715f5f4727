import Mathlib.Data.List.DropRight
import Mathlib.Data.List.Infix
import RomCast.Dataspace

set_option autoImplicit false

/-!
# Labels that name what they are

The label of a session names the module whose name stands behind the last arrow, without the blanks
around it.  A text that is plain, with no arrow in it and no blank at either end, is the label of
itself, and no other text is (`requestedModule_eq_self`).
-/

namespace RomCast

namespace Text

/-- No arrow stands in the text, and no blank at either end. -/
structure IsPlain (text : List Char) : Prop where
  arrow : ¬ ['-', '>'] <:+: text
  first : ∀ h : 0 < text.length, ¬ isBlank text[0]
  last : ∀ h : text ≠ [], ¬ isBlank (text.getLast h)

/-! ## Arrows -/

theorem arrow_prefix_cons (c : Char) (rest : List Char) :
    ['-', '>'] <+: c :: rest ↔ c = '-' ∧ rest.head? = some '>' := by
  cases rest with
  | nil => simp
  | cons d rest => simp [List.cons_prefix_cons, eq_comm]

theorem behindArrow?_eq_none {text : List Char} :
    behindArrow? text = none ↔ ¬ ['-', '>'] <:+: text := by
  induction text with
  | nil => simp [behindArrow?]
  | cons c rest ih =>
    rw [behindArrow?, List.infix_cons_iff, arrow_prefix_cons, not_or, ← ih]
    cases behindArrow? rest with
    | some found => simp
    | none => simp

/-- What stands behind an arrow is shorter than the text. -/
theorem length_lt_of_behindArrow? {text found : List Char} (h : behindArrow? text = some found) :
    found.length < text.length := by
  induction text with
  | nil => cases h
  | cons c rest ih =>
    rw [behindArrow?] at h
    cases hrest : behindArrow? rest with
    | some found' =>
      rw [hrest] at h
      obtain rfl := Option.some.inj h
      exact Nat.lt_succ_of_lt (ih hrest)
    | none =>
      simp only [hrest] at h
      split at h
      · obtain rfl := Option.some.inj h
        rw [List.length_tail, List.length_cons]
        omega
      · cases h

/-- A text that is cut at an arrow gets shorter. -/
theorem afterLastArrow_eq_self_of_length_le {text : List Char}
    (h : text.length ≤ (afterLastArrow text).length) : afterLastArrow text = text := by
  unfold afterLastArrow at h ⊢
  cases hfound : behindArrow? text with
  | none => rfl
  | some found =>
    rw [hfound] at h
    exact absurd h (Nat.not_le_of_lt (length_lt_of_behindArrow? hfound))

theorem afterLastArrow_eq_self {text : List Char} :
    afterLastArrow text = text ↔ ¬ ['-', '>'] <:+: text := by
  rw [← behindArrow?_eq_none]
  constructor
  · intro hsame
    cases hfound : behindArrow? text with
    | none => rfl
    | some found =>
      have hshorter := length_lt_of_behindArrow? hfound
      rw [afterLastArrow, hfound, Option.getD_some] at hsame
      rw [hsame] at hshorter
      exact absurd hshorter (Nat.lt_irrefl _)
  · intro hnone
    rw [afterLastArrow, hnone, Option.getD_none]

/-! ## Blanks -/

/-- The characters of a text without the white space at its two ends. -/
theorem toList_trim (text : List Char) :
    (trim (String.ofList text)).toList = (text.dropWhile isBlank).rdropWhile isBlank := by
  rw [trim, String.toList_ofList, String.toList_ofList, List.rdropWhile]

theorem length_toList_trim_le (text : List Char) :
    (trim (String.ofList text)).toList.length ≤ text.length := by
  rw [toList_trim]
  exact (List.rdropWhile_prefix _ _).length_le.trans (List.dropWhile_suffix _).length_le

theorem toList_trim_eq_self {text : List Char} :
    (trim (String.ofList text)).toList = text ↔
      (∀ h : 0 < text.length, ¬ isBlank text[0]) ∧
        ∀ h : text ≠ [], ¬ isBlank (text.getLast h) := by
  rw [toList_trim, ← List.dropWhile_eq_self_iff, ← List.rdropWhile_eq_self_iff]
  constructor
  · intro htrim
    have hprefix := (List.rdropWhile_prefix isBlank (text.dropWhile isBlank)).length_le
    rw [htrim] at hprefix
    have hfront : text.dropWhile isBlank = text :=
      (List.dropWhile_suffix _).eq_of_length_le hprefix
    rw [hfront] at htrim
    exact ⟨hfront, htrim⟩
  · rintro ⟨hfront, hback⟩
    rw [hfront, hback]

end Text

/-- A label names the module of that very name exactly when it is plain. -/
theorem requestedModule_eq_self {label : String} :
    requestedModule label = label ↔ Text.IsPlain label.toList := by
  rw [← String.toList_inj, requestedModule]
  constructor
  · intro hsame
    -- Neither step makes a text longer, so that neither has changed anything.
    have hlength := Text.length_toList_trim_le (Text.afterLastArrow label.toList)
    rw [hsame] at hlength
    have harrow := Text.afterLastArrow_eq_self_of_length_le hlength
    rw [harrow] at hsame
    obtain ⟨hfirst, hlast⟩ := Text.toList_trim_eq_self.mp hsame
    exact ⟨Text.afterLastArrow_eq_self.mp harrow, hfirst, hlast⟩
  · rintro ⟨harrow, hfirst, hlast⟩
    rw [Text.afterLastArrow_eq_self.mpr harrow]
    exact Text.toList_trim_eq_self.mpr ⟨hfirst, hlast⟩

end RomCast
