import RomCast.ModuleName

set_option autoImplicit false

/-!
# Registries

What a station knows under module names, in the order in which the names were first registered.
Each name occurs once.
-/

namespace RomCast

/-- Values under module names. -/
structure Registry (α : Type) where
  entries : List (ModuleName × α) := []
  deriving Inhabited

namespace Registry

variable {α : Type}

/-- The value under a name. -/
def find? (r : Registry α) (name : ModuleName) : Option α := r.entries.lookup name

/-- Whether a name is registered. -/
def contains (r : Registry α) (name : ModuleName) : Bool := (r.find? name).isSome

/-- The registered names. -/
def names (r : Registry α) : List ModuleName := r.entries.map Prod.fst

/-- How many names are registered. -/
def size (r : Registry α) : Nat := r.entries.length

/-- Change the value under a name, if there is one. -/
def modify (r : Registry α) (name : ModuleName) (f : α → α) : Registry α :=
  ⟨r.entries.map fun entry => if entry.1 = name then (entry.1, f entry.2) else entry⟩

/-- Register a value, in place of an earlier one under the same name. -/
def insert (r : Registry α) (name : ModuleName) (value : α) : Registry α :=
  if r.contains name then r.modify name fun _ => value
  else ⟨r.entries ++ [(name, value)]⟩

/-! ## Looking up -/

@[simp] theorem find?_empty (name : ModuleName) : ({} : Registry α).find? name = none := rfl

/-- A change of one value is seen under its name alone. -/
theorem find?_modify (r : Registry α) (name other : ModuleName) (f : α → α) :
    (r.modify name f).find? other =
      if other = name then (r.find? other).map f else r.find? other := by
  obtain ⟨entries⟩ := r
  simp only [find?, modify]
  induction entries with
  | nil => simp
  | cons entry rest ih =>
    obtain ⟨key, value⟩ := entry
    by_cases hk : other = key
    · subst hk
      by_cases hn : other = name
      · simp [hn]
      · simp [hn]
    · have hne : (other == key) = false := by simpa using hk
      by_cases hkn : key = name
      · simp only [List.map_cons, hkn, if_pos, List.lookup_cons]
        rw [hkn] at hne
        simp only [hne]
        exact ih
      · simp only [List.map_cons, if_neg hkn, List.lookup_cons, hne]
        exact ih

theorem contains_iff_exists (r : Registry α) (name : ModuleName) :
    r.contains name = true ↔ ∃ value, r.find? name = some value :=
  Option.isSome_iff_exists

private theorem lookup_append_singleton (entries : List (ModuleName × α))
    (name other : ModuleName) (value : α) :
    (entries ++ [(name, value)]).lookup other =
      (entries.lookup other).or (if other = name then some value else none) := by
  induction entries with
  | nil =>
    by_cases h : other = name
    · simp [h]
    · have hne : (other == name) = false := by simpa using h
      simp [List.lookup_cons, hne, h]
  | cons entry rest ih =>
    rw [List.cons_append, List.lookup_cons, List.lookup_cons]
    cases other == entry.1 with
    | true => rfl
    | false => exact ih

/-- What was registered last under a name is what is found there. -/
@[simp] theorem find?_insert_self (r : Registry α) (name : ModuleName) (value : α) :
    (r.insert name value).find? name = some value := by
  by_cases hc : r.contains name
  · obtain ⟨old, hold⟩ := (contains_iff_exists r name).mp hc
    rw [insert, if_pos hc, find?_modify, if_pos rfl, hold]
    rfl
  · have hnone : r.find? name = none := by simpa [contains] using hc
    rw [insert, if_neg hc, find?, lookup_append_singleton]
    rw [find?] at hnone
    simp [hnone]

/-- Registering under one name changes nothing under another. -/
theorem find?_insert_of_ne (r : Registry α) {name other : ModuleName} (h : other ≠ name)
    (value : α) : (r.insert name value).find? other = r.find? other := by
  by_cases hc : r.contains name
  · rw [insert, if_pos hc, find?_modify, if_neg h]
  · rw [insert, if_neg hc, find?, lookup_append_singleton]
    simp [h, find?]

/-- The registered names in ascending order. -/
def sortedNames (r : Registry α) : List ModuleName := r.names.mergeSort fun a b => decide (a ≤ b)

end Registry

end RomCast
