import RomCast.Text.Basic

set_option autoImplicit false

/-!
# The parts of a text

Cutting a text at its separators gives the only parts that the text falls into
(`splitWhere_eq_iff`): there is no separator in any of them, and one between any two.
-/

namespace RomCast.Text

/-- A text falls into these parts: no separator stands in a part, and one stands between two. -/
inductive Parted (isSeparator : Char → Bool) : List Char → List (List Char) → Prop where
  | whole {part : List Char} (h : ∀ c ∈ part, isSeparator c = false) :
      Parted isSeparator part [part]
  | cut {part rest : List Char} {separator : Char} {parts : List (List Char)}
      (h : ∀ c ∈ part, isSeparator c = false) (hseparator : isSeparator separator = true)
      (hrest : Parted isSeparator rest parts) :
      Parted isSeparator (part ++ separator :: rest) (part :: parts)

variable {isSeparator : Char → Bool}

theorem splitWhere_of_no_separator {part : List Char} (h : ∀ c ∈ part, isSeparator c = false) :
    splitWhere isSeparator part = [part] := by
  induction part with
  | nil => rfl
  | cons c rest ih =>
    obtain ⟨hfirst, hrest⟩ := List.forall_mem_cons.mp h
    simp only [splitWhere, hfirst, ih hrest, Bool.false_eq_true, if_false]

theorem splitWhere_append_cons {part : List Char} (h : ∀ c ∈ part, isSeparator c = false)
    {separator : Char} (hseparator : isSeparator separator = true) (rest : List Char) :
    splitWhere isSeparator (part ++ separator :: rest) = part :: splitWhere isSeparator rest := by
  induction part with
  | nil => simp only [List.nil_append, splitWhere, hseparator, if_true]
  | cons c more ih =>
    obtain ⟨hfirst, hmore⟩ := List.forall_mem_cons.mp h
    simp only [List.cons_append, splitWhere, hfirst, ih hmore, Bool.false_eq_true, if_false]

/-- Cutting finds parts that the text falls into. -/
theorem parted_splitWhere (isSeparator : Char → Bool) (text : List Char) :
    Parted isSeparator text (splitWhere isSeparator text) := by
  induction text with
  | nil => exact .whole fun c hc => nomatch hc
  | cons c rest ih =>
    cases hc : isSeparator c with
    | true =>
      simp only [splitWhere, hc, if_true]
      rw [← List.nil_append (c :: rest)]
      exact .cut (fun c hc => nomatch hc) hc ih
    | false =>
      simp only [splitWhere, hc, Bool.false_eq_true, if_false]
      -- The character goes to the front of the first part, whichever way that part ends.
      cases hparts : splitWhere isSeparator rest with
      | nil => exact absurd hparts (splitWhere_ne_nil isSeparator rest)
      | cons part parts =>
        rw [hparts] at ih
        cases ih with
        | whole h => exact .whole (List.forall_mem_cons.mpr ⟨hc, h⟩)
        | cut h hseparator hrest =>
          rw [← List.cons_append]
          exact .cut (List.forall_mem_cons.mpr ⟨hc, h⟩) hseparator hrest

/-- A text falls into the parts that cutting it finds, and into no others. -/
theorem splitWhere_eq_iff {text : List Char} {parts : List (List Char)} :
    splitWhere isSeparator text = parts ↔ Parted isSeparator text parts := by
  constructor
  · rintro rfl
    exact parted_splitWhere isSeparator text
  · intro h
    induction h with
    | whole h => exact splitWhere_of_no_separator h
    | cut h hseparator _ ih => rw [splitWhere_append_cons h hseparator, ih]

/-- Parts with a separator between any two. -/
theorem parted_intersperse {separator : Char} (hseparator : isSeparator separator = true)
    {parts : List (List Char)} (hparts : parts ≠ [])
    (h : ∀ part ∈ parts, ∀ c ∈ part, isSeparator c = false) :
    Parted isSeparator (parts.intersperse [separator]).flatten parts := by
  induction parts with
  | nil => exact absurd rfl hparts
  | cons part rest ih =>
    obtain ⟨hfirst, hrest⟩ := List.forall_mem_cons.mp h
    cases rest with
    | nil => simpa using Parted.whole hfirst
    | cons next more =>
      have htext : ((part :: next :: more).intersperse [separator]).flatten =
          part ++ separator :: ((next :: more).intersperse [separator]).flatten := by
        simp
      rw [htext]
      exact .cut hfirst hseparator (ih (List.cons_ne_nil next more) hrest)

/-- Where there is only one separator, the parts say all of the text. -/
theorem Parted.eq_intersperse {separator : Char} {text : List Char} {parts : List (List Char)}
    (h : Parted (fun c => c = separator) text parts) :
    text = (parts.intersperse [separator]).flatten := by
  induction h with
  | whole h => simp
  | @cut part rest found parts h hfound hrest ih =>
    obtain rfl : found = separator := by simpa using hfound
    cases hrest with
    | whole _ => simp
    | cut _ _ _ =>
      rw [List.intersperse_cons_cons]
      simp [← ih]

end RomCast.Text
