import Mathlib.Data.List.TakeWhile
import RomCast.Proofs.Files.Frame

set_option autoImplicit false

/-!
# What the directories of a path are called

The parts of a path that lead somewhere are its steps: all but `.`.  The directory that a path lies
in has the same steps but the last (`steps_of_parent?`), so a path without `..` leads further down
than all directories that it lies in (`destination_ne_of_ancestor`).

The texts of directories are made by cutting, first at the last slash and then the slashes and dots
that stand before it.  Each cut is described by what it does to the parts.
-/

namespace RomCast

theorem Text.splitWhere_eq_splitOnP (isSeparator : Char → Bool) (text : List Char) :
    splitWhere isSeparator text = text.splitOnP isSeparator := by
  induction text with
  | nil => simp [splitWhere]
  | cons c rest ih =>
    rw [splitWhere, List.splitOnP_cons_eq_if_modifyHead, ih]
    split
    · rfl
    · cases hparts : rest.splitOnP isSeparator with
      | nil => exact absurd hparts (List.splitOnP_ne_nil isSeparator rest)
      | cons part parts => rfl

namespace FilePath

/-! ## Steps -/

/-- A part that leads nowhere. -/
def Idle (part : List Char) : Prop := part = [] ∨ part = ['.']

instance (part : List Char) : Decidable (Idle part) := inferInstanceAs (Decidable (_ ∨ _))

/-- The parts of a text between its slashes. -/
def pieces (text : List Char) : List (List Char) := Text.splitWhere (· = '/') text

/-- The parts of a text that lead somewhere. -/
def namesOf (text : List Char) : List (List Char) := (pieces text).filter fun part => ¬ Idle part

/-- The parts of a path that lead somewhere. -/
def steps (p : FilePath) : List String := p.parts.filter (· ≠ ".")

theorem steps_eq (p : FilePath) : p.steps = (namesOf p.text.toList).map String.ofList := by
  rw [steps, parts, namesOf, List.filter_map, List.filter_filter]
  congr 1
  apply List.filter_congr
  intro part _
  have hdot : (String.ofList part = ".") = (part = ['.']) := by
    rw [← String.ofList_inj]
  simp only [Function.comp_apply, ne_eq, hdot]
  cases part with
  | nil => rfl
  | cons c rest => simp [Idle]

theorem pieces_append_slash (front back : List Char) :
    pieces (front ++ '/' :: back) = pieces front ++ pieces back := by
  simp only [pieces, Text.splitWhere_eq_splitOnP]
  exact List.splitOnP_append_cons front back (by decide)

theorem pieces_of_no_slash {text : List Char} (h : '/' ∉ text) : pieces text = [text] := by
  rw [pieces, Text.splitWhere_eq_splitOnP]
  refine List.splitOnP_eq_singleton fun c hc => decide_eq_false ?_
  rintro rfl
  exact h hc

theorem namesOf_append_slash (front back : List Char) :
    namesOf (front ++ '/' :: back) = namesOf front ++ namesOf back := by
  rw [namesOf, pieces_append_slash, List.filter_append]
  rfl

theorem namesOf_of_no_slash {text : List Char} (h : '/' ∉ text) :
    namesOf text = if Idle text then [] else [text] := by
  rw [namesOf, pieces_of_no_slash h]
  by_cases hidle : Idle text
  · simp [hidle]
  · simp [hidle]

/-- A text is one part, or it is the text in front of its last slash and one part more. -/
@[elab_as_elim]
theorem slashRec {motive : List Char → Prop} (part : ∀ text, '/' ∉ text → motive text)
    (behind : ∀ front name, '/' ∉ name → motive front → motive (front ++ '/' :: name))
    (text : List Char) : motive text := by
  by_cases h : '/' ∈ text.reverse
  · obtain ⟨back, front, hsplit, hback⟩ := List.eq_append_cons_of_mem h
    have htext : text = front.reverse ++ '/' :: back.reverse := by
      have hreversed := congrArg List.reverse hsplit
      simpa using hreversed
    have hshorter : front.reverse.length < text.length := by
      rw [htext, List.length_append, List.length_cons]
      omega
    rw [htext]
    exact behind _ _ (by simpa using hback) (slashRec part behind front.reverse)
  · exact part text (by simpa using h)
termination_by text.length

/-! ## Cuts -/

theorem dropTail_eq (text : List Char) :
    dropTail text = text.take (text.length -
      (((pieces text).reverse.takeWhile fun part => Idle part).flatMap ('/' :: ·)).length) := by
  have hidle : (fun part => part.isEmpty || part = ['.'] : List Char → Bool) =
      fun part => Idle part := by
    funext part
    cases part with
    | nil => rfl
    | cons c rest => simp [Idle]
  rw [dropTail, pieces, hidle]

/-- Slashes and dots at the end are cut. -/
theorem dropTail_append_of_idle {front name : List Char} (hname : '/' ∉ name) (h : Idle name) :
    dropTail (front ++ '/' :: name) = dropTail front := by
  rw [dropTail_eq, dropTail_eq, pieces_append_slash, pieces_of_no_slash hname,
    List.reverse_append, List.reverse_singleton, List.singleton_append,
    List.takeWhile_cons_of_pos (by simpa using h), List.flatMap_cons]
  simp only [List.length_append, List.length_cons]
  rw [List.take_append_of_le_length (by omega)]
  congr 1
  omega

/-- A name at the end is kept. -/
theorem dropTail_append_of_not_idle {front name : List Char} (hname : '/' ∉ name)
    (h : ¬ Idle name) : dropTail (front ++ '/' :: name) = front ++ '/' :: name := by
  rw [dropTail_eq, pieces_append_slash, pieces_of_no_slash hname, List.reverse_append,
    List.reverse_singleton, List.singleton_append, List.takeWhile_cons_of_neg (by simpa using h)]
  exact List.take_of_length_le (by simp)

theorem dropTail_of_no_slash {text : List Char} (h : '/' ∉ text) :
    dropTail text = if Idle text then [] else text := by
  rw [dropTail_eq, pieces_of_no_slash h, List.reverse_singleton]
  by_cases hidle : Idle text
  · simp [hidle]
  · simp [hidle]

/-- A text that ends in a name. -/
inductive Named : List Char → Prop where
  | part {name : List Char} (slash : '/' ∉ name) (leads : ¬ Idle name) : Named name
  | behind (front : List Char) {name : List Char} (slash : '/' ∉ name) (leads : ¬ Idle name) :
      Named (front ++ '/' :: name)

/-- When the end has been cut, there is a name at the end, unless all has been cut; and all the
names are still there. -/
theorem dropTail_spec (text : List Char) :
    (dropTail text = [] ∨ Named (dropTail text)) ∧ namesOf (dropTail text) = namesOf text := by
  induction text using slashRec with
  | part text h =>
    rw [dropTail_of_no_slash h]
    by_cases hidle : Idle text
    · rw [if_pos hidle, namesOf_of_no_slash h, if_pos hidle]
      exact ⟨Or.inl rfl, rfl⟩
    · rw [if_neg hidle]
      exact ⟨Or.inr (.part h hidle), rfl⟩
  | behind front name hname ih =>
    by_cases hidle : Idle name
    · rw [dropTail_append_of_idle hname hidle, namesOf_append_slash, namesOf_of_no_slash hname,
        if_pos hidle, List.append_nil]
      exact ih
    · rw [dropTail_append_of_not_idle hname hidle]
      exact ⟨Or.inr (.behind front hname hidle), rfl⟩

theorem dropName_of_no_slash {name : List Char} (h : '/' ∉ name) : dropName name = [] := by
  rw [dropName, List.reverse_eq_nil_iff, List.dropWhile_eq_nil_iff]
  intro c hc
  have hmem : c ∈ name := List.dropLast_subset name (List.mem_reverse.mp hc)
  exact decide_eq_true fun hslash => h (hslash ▸ hmem)

theorem dropName_append {front name : List Char} (hname : '/' ∉ name) (h : name ≠ []) :
    dropName (front ++ '/' :: name) = front ++ ['/'] := by
  have hcut : ∀ c ∈ name.dropLast.reverse, (decide (c ≠ '/')) = true := by
    intro c hc
    have hmem : c ∈ name := List.dropLast_subset name (List.mem_reverse.mp hc)
    exact decide_eq_true fun hslash => hname (hslash ▸ hmem)
  rw [dropName, List.dropLast_append_of_ne_nil (List.cons_ne_nil _ _),
    List.dropLast_cons_of_ne_nil h, List.reverse_append, List.reverse_cons, List.append_assoc,
    List.dropWhile_append_of_pos hcut]
  simp

/-- Cutting the name at the end, and what stands before it up to the name before. -/
theorem Named.namesOf_dropName {text : List Char} (h : Named text) :
    namesOf (dropName text) = (namesOf text).dropLast ∧ namesOf text ≠ [] := by
  cases h with
  | part slash leads =>
    rw [dropName_of_no_slash slash, namesOf_of_no_slash slash, if_neg leads]
    exact ⟨rfl, List.cons_ne_nil _ _⟩
  | behind front slash leads =>
    rw [dropName_append slash fun hnil => leads (Or.inl hnil), namesOf_append_slash,
      namesOf_append_slash, namesOf_of_no_slash slash, if_neg leads, List.dropLast_concat]
    exact ⟨List.append_nil _, by simp⟩

/-! ## The directory that a path lies in -/

theorem dropTail_prefix_self (text : List Char) : dropTail text <+: text := List.take_prefix _ _

theorem dropName_prefix_self (text : List Char) : dropName text <+: text := by
  have hsuffix := List.dropWhile_suffix (l := text.dropLast.reverse) fun c => decide (c ≠ '/')
  have hbegins := List.reverse_prefix.mpr hsuffix
  rw [List.reverse_reverse] at hbegins
  exact hbegins.trans (List.dropLast_prefix text)

theorem namesOf_slash (text : List Char) : namesOf ('/' :: text) = namesOf text :=
  namesOf_append_slash [] text

theorem namesOf_dot_slash (text : List Char) : namesOf ('.' :: '/' :: text) = namesOf text :=
  namesOf_append_slash ['.'] text

/-- The front of a path leads nowhere. -/
theorem namesOf_drop_front (text : List Char) :
    namesOf (text.drop (front text).length) = namesOf text := by
  unfold front
  split
  · exact (namesOf_slash _).symm
  · rfl
  · exact (namesOf_slash _).trans (namesOf_dot_slash _).symm
  · rfl

/-- The front of a path, before a part of what stands behind it, still leads nowhere and still tells
whether the path is absolute. -/
theorem front_append (text : List Char) {part : List Char}
    (h : part <+: text.drop (front text).length) :
    namesOf (front text ++ part) = namesOf part ∧
      ((front text ++ part).head? = some '/' ↔ text.head? = some '/') := by
  unfold front at h ⊢
  split at h
  · exact ⟨namesOf_slash part, Iff.rfl⟩
  · obtain rfl : part = [] := List.prefix_nil.mp h
    exact ⟨rfl, Iff.rfl⟩
  · next rest =>
    cases part with
    | nil => exact ⟨rfl, by simp⟩
    | cons c part =>
      obtain rfl : c = '/' := (List.cons_prefix_cons.mp h).1
      exact ⟨(namesOf_dot_slash part).trans (namesOf_slash part).symm, by simp⟩
  · next hslash _ _ =>
    have hrelative : text.head? ≠ some '/' := by
      intro hhead
      obtain ⟨rest, hrest⟩ := List.head?_eq_some_iff.mp hhead
      exact hslash rest hrest
    refine ⟨rfl, iff_of_false ?_ hrelative⟩
    intro hhead
    obtain ⟨rest, hrest⟩ := List.head?_eq_some_iff.mp hhead
    obtain ⟨behind, hbehind⟩ := h
    rw [List.nil_append] at hrest
    subst hrest
    exact hslash (rest ++ behind) hbehind.symm

/-- The directory that a path lies in has the same beginning and the same steps but the last. -/
theorem steps_of_parent? {p directory : FilePath} (h : p.parent? = some directory) :
    directory.isAbsolute = p.isAbsolute ∧ directory.steps = p.steps.dropLast ∧
      (p.steps = [] → directory = ⟨""⟩) := by
  obtain ⟨hcut, hnames⟩ := dropTail_spec (p.text.toList.drop (front p.text.toList).length)
  rw [namesOf_drop_front] at hnames
  have hbegins := dropTail_prefix_self (p.text.toList.drop (front p.text.toList).length)
  rw [parent?] at h
  generalize dropTail (p.text.toList.drop (front p.text.toList).length) = cut
    at h hcut hnames hbegins
  cases cut with
  | nil =>
    simp only at h
    split at h
    · next hfront =>
      obtain rfl := Option.some.inj h
      have hempty : p.steps = [] := by
        rw [steps_eq, ← hnames]
        rfl
      have hrelative := (front_append p.text.toList List.nil_prefix).2
      rw [hfront] at hrelative
      rw [hempty]
      exact ⟨decide_eq_decide.mpr (iff_of_false (by simp) (hrelative.not.mp (by simp))), rfl,
        fun _ => rfl⟩
    · cases h
  | cons c rest =>
    obtain rfl := Option.some.inj h
    obtain ⟨hdropped, hsome⟩ := (hcut.resolve_left (List.cons_ne_nil c rest)).namesOf_dropName
    rw [hnames] at hdropped hsome
    obtain ⟨hback, habsolute⟩ := front_append p.text.toList
      (((dropTail_prefix_self _).trans (dropName_prefix_self (c :: rest))).trans hbegins)
    refine ⟨?_, ?_, ?_⟩
    · simp only [isAbsolute, String.toList_ofList]
      exact decide_eq_decide.mpr habsolute
    · rw [steps_eq, steps_eq, String.toList_ofList, hback, (dropTail_spec _).2, hdropped,
        List.map_dropLast]
    · intro hempty
      rw [steps_eq, List.map_eq_nil_iff] at hempty
      exact absurd hempty hsome

/-! ## All directories that a path lies in -/

theorem ancestors_eq (p : FilePath) :
    p.ancestors = p :: (p.parent?.map ancestors).getD [] := by
  rw [ancestors]
  split
  · next h => simp [h]
  · next directory h => simp [h]

theorem steps_of_ancestor {p ancestor : FilePath} (h : ancestor ∈ p.ancestors) :
    ancestor.isAbsolute = p.isAbsolute ∧ ancestor.steps <+: p.steps := by
  induction p using ancestors.induct with
  | case1 p hnone =>
    rw [ancestors_eq, hnone] at h
    obtain rfl := List.mem_singleton.mp h
    exact ⟨rfl, List.prefix_rfl⟩
  | case2 p directory hparent _ ih =>
    rw [ancestors_eq, hparent] at h
    rcases List.mem_cons.mp h with rfl | hmem
    · exact ⟨rfl, List.prefix_rfl⟩
    · obtain ⟨habsolute, hbegins⟩ := ih hmem
      obtain ⟨habsolute', hsteps, -⟩ := steps_of_parent? hparent
      rw [hsteps] at hbegins
      exact ⟨habsolute.trans habsolute', hbegins.trans (List.dropLast_prefix _)⟩

/-! ## Where they are -/

theorem foldl_child_filter (here : Location) (parts : List String) :
    (parts.filter (· ≠ ".")).foldl FileTree.child here = parts.foldl FileTree.child here := by
  induction parts generalizing here with
  | nil => rfl
  | cons part rest ih =>
    by_cases hdot : part = "."
    · subst hdot
      rw [List.filter_cons_of_neg (by decide), ih]
      rfl
    · rw [List.filter_cons_of_pos (by simpa using hdot), List.foldl_cons, ih]
      rfl

/-- Steps that do not climb lead down one name each. -/
theorem foldl_child_of_not_climbing (here : Location) {names : List String} (hdot : "." ∉ names)
    (hclimb : ".." ∉ names) : names.foldl FileTree.child here = here ++ names := by
  induction names generalizing here with
  | nil => exact (List.append_nil here).symm
  | cons name rest ih =>
    obtain ⟨hname, hdot⟩ := not_or.mp (mt List.mem_cons.mpr hdot)
    obtain ⟨hname', hclimb⟩ := not_or.mp (mt List.mem_cons.mpr hclimb)
    rw [List.foldl_cons, ih _ hdot hclimb, FileTree.child, if_neg (Ne.symm hname),
      if_neg (Ne.symm hname'), List.append_assoc, List.singleton_append]

theorem destination_of_not_climbing {p : FilePath} (h : ".." ∉ p.steps) (base : Location) :
    p.destination base = (if p.isAbsolute then [] else base) ++ p.steps := by
  rw [destination, ← foldl_child_filter]
  exact foldl_child_of_not_climbing _ (by simp) h

/-- A path without `..` does not lead to a directory that it lies in. -/
theorem destination_ne_of_ancestor {p directory ancestor : FilePath} (hclimb : ".." ∉ p.parts)
    (hsteps : p.steps ≠ []) (hparent : p.parent? = some directory)
    (h : ancestor ∈ directory.ancestors) (base : Location) :
    ancestor.destination base ≠ p.destination base := by
  obtain ⟨habsolute, hbegins⟩ := steps_of_ancestor h
  obtain ⟨habsolute', hdirectory, -⟩ := steps_of_parent? hparent
  rw [hdirectory] at hbegins
  have hown : ".." ∉ p.steps := fun hmem => hclimb (List.mem_filter.mp hmem).1
  have hother : ".." ∉ ancestor.steps := fun hmem =>
    hown (List.dropLast_subset _ (hbegins.subset hmem))
  rw [destination_of_not_climbing hown, destination_of_not_climbing hother, habsolute, habsolute']
  intro heq
  have hlength := hbegins.length_le
  rw [List.append_cancel_left heq, List.length_dropLast] at hlength
  have hpositive := List.length_pos_iff.mpr hsteps
  omega

end FilePath

end RomCast
