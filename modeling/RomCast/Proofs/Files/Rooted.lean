import Mathlib.Data.List.Induction
import RomCast.Proofs.Files.Frame

set_option autoImplicit false

/-!
# Trees in which everything lies in a directory

In a rooted tree everything but the root lies in a directory, so nothing lies below a file.  Every
operation keeps a tree rooted and keeps its directories, and changes no file but the ones that it
names (`Grows`).  A path that could be followed once can therefore be followed ever after.

A closed tree is a rooted one in which the directory that relative paths begin in exists.  What
keeps a tree rooted and keeps its directories keeps it closed (`Closed.evolves_of_grows`).
-/

namespace RomCast

/-- Only the root has no name at all. -/
theorem FilePath.isAbsolute_of_parts_nil {p : FilePath} (htext : p.text.isEmpty = false)
    (hparts : p.parts = []) : p.isAbsolute = true := by
  cases hlist : p.text.toList with
  | nil => simp [String.toList_eq_nil_iff.mp hlist] at htext
  | cons c rest =>
    rw [isAbsolute, hlist]
    refine decide_eq_true (congrArg some ?_)
    by_contra hslash
    -- A first character that is no slash belongs to a part.
    simp only [parts, hlist, Text.splitWhere, decide_eq_true_eq, hslash, if_false,
      List.map_eq_nil_iff] at hparts
    split at hparts <;> simp at hparts

namespace FileTree

/-- Everything lies in a directory. -/
structure Rooted (t : FileTree) : Prop where
  parent : ∀ {place : Location} {name : String} {node : FileNode},
    t.node? (place ++ [name]) = some node → t.node? place = some .directory

/-- A tree after changes: it is rooted, it has the directories that it had, and the only files that
were made, changed or removed are the touched ones. -/
structure Grows (touched : Location → Prop) (t t' : FileTree) : Prop where
  rooted : t'.Rooted
  workingDirectory : t'.workingDirectory = t.workingDirectory
  directory : ∀ {place : Location}, t.node? place = some .directory →
    t'.node? place = some .directory
  file : ∀ {place : Location}, ¬ touched place → ∀ (content : Bytes) (modified : Nat),
    t'.node? place = some (.file content modified) ↔ t.node? place = some (.file content modified)

variable {t t' t'' : FileTree} {touched touched' : Location → Prop}

theorem Rooted.grows (h : t.Rooted) (touched : Location → Prop) : Grows touched t t :=
  ⟨h, rfl, fun hplace => hplace, fun _ _ _ => Iff.rfl⟩

theorem Grows.trans (h : Grows touched t t') (h' : Grows touched t' t'') : Grows touched t t'' :=
  ⟨h'.rooted, h'.workingDirectory.trans h.workingDirectory,
    fun hplace => h'.directory (h.directory hplace), fun hplace content modified =>
      (h'.file hplace content modified).trans (h.file hplace content modified)⟩

theorem Grows.mono (h : Grows touched t t') (hle : ∀ place, touched place → touched' place) :
    Grows touched' t t' :=
  ⟨h.rooted, h.workingDirectory, h.directory, fun hplace => h.file fun ht => hplace (hle _ ht)⟩

/-- Whatever lies above something is a directory. -/
theorem Rooted.above (h : t.Rooted) {place : Location} {names : List String} {node : FileNode}
    (hnames : names ≠ []) (hnode : t.node? (place ++ names) = some node) :
    t.node? place = some .directory := by
  induction names using List.reverseRecOn generalizing node with
  | nil => exact absurd rfl hnames
  | append_singleton front name ih =>
    rw [← List.append_assoc] at hnode
    have hfront := h.parent hnode
    cases front with
    | nil => rwa [List.append_nil] at hfront
    | cons first rest => exact ih (List.cons_ne_nil first rest) hfront

/-- Nothing lies below a file. -/
theorem Rooted.below_file (h : t.Rooted) {place : Location} {names : List String} {content : Bytes}
    {modified : Nat} (hplace : t.node? place = some (.file content modified))
    (hnames : names ≠ []) : t.node? (place ++ names) = none := by
  cases hnode : t.node? (place ++ names) with
  | none => rfl
  | some node =>
    rw [h.above hnames hnode] at hplace
    cases hplace

/-! ## Following paths -/

/-- There is a directory for something to lie in. -/
def HasRoom (t : FileTree) (location : Location) : Prop :=
  ∃ place name, location = place ++ [name] ∧ t.node? place = some .directory

/-- Following starts from a directory, if there is a name to follow. -/
theorem node?_of_follow_cons {here location : Location} {name : String} {rest : List String}
    (h : t.follow here (name :: rest) = .ok location) :
    t.node? here = some .directory ∧ ¬ maxNameLength < name.utf8ByteSize ∧
      t.follow (child here name) rest = .ok location := by
  rw [follow] at h
  cases hnode : t.node? here with
  | none => simp [hnode] at h
  | some node =>
    cases node with
    | file content modified => simp [hnode] at h
    | directory =>
      simp only [hnode] at h
      split at h
      · cases h
      · next hlength => exact ⟨rfl, hlength, h⟩

theorem follow_cons {here : Location} {name : String} {rest : List String}
    (hhere : t.node? here = some .directory) (hlength : ¬ maxNameLength < name.utf8ByteSize) :
    t.follow here (name :: rest) = t.follow (child here name) rest := by
  rw [follow, hhere]
  exact if_neg hlength

/-- A path that can be followed leads to a directory, or into one. -/
theorem Rooted.follow (h : t.Rooted) {here location : Location} {names : List String}
    (hhere : names = [] → t.node? here = some .directory ∨ t.HasRoom here)
    (hfollow : t.follow here names = .ok location) :
    t.node? location = some .directory ∨ t.HasRoom location := by
  induction names generalizing here with
  | nil =>
    obtain rfl := Except.ok.inj hfollow
    exact hhere rfl
  | cons name rest ih =>
    obtain ⟨hnode, -, hrest⟩ := node?_of_follow_cons hfollow
    refine ih (fun _ => ?_) hrest
    unfold child
    split
    · exact Or.inl hnode
    · split
      · -- The directory above is one.
        refine Or.inl ?_
        rcases List.eq_nil_or_concat here with hroot | ⟨place, last, hlast⟩
        · rw [hroot]
          rfl
        · rw [hlast, List.concat_eq_append, List.dropLast_concat]
          rw [hlast, List.concat_eq_append] at hnode
          exact h.parent hnode
      · exact Or.inr ⟨here, name, rfl, hnode⟩

theorem place_eq_ok_iff {p : FilePath} {location : Location} :
    t.place p = .ok location ↔ refusal? p = none ∧ t.follow (t.base p) p.parts = .ok location := by
  unfold FileTree.place
  cases refusal? p with
  | some cause => simp
  | none => simp

theorem Rooted.place (h : t.Rooted) {p : FilePath} {location : Location}
    (hplace : t.place p = .ok location) :
    t.node? location = some .directory ∨ t.HasRoom location := by
  obtain ⟨hrefusal, hfollow⟩ := place_eq_ok_iff.mp hplace
  refine h.follow (fun hparts => Or.inl ?_) hfollow
  have htext : p.text.isEmpty = false := by
    unfold refusal? at hrefusal
    split_ifs at hrefusal with _ hempty
    exact Bool.eq_false_iff.mpr hempty
  rw [FileTree.base, if_pos (FilePath.isAbsolute_of_parts_nil htext hparts)]
  rfl

/-- Only directories decide whether a path can be followed. -/
theorem place_of_directories {p : FilePath} {location : Location}
    (hdirectory : ∀ place, t.node? place = some .directory → t'.node? place = some .directory)
    (hbase : t'.workingDirectory = t.workingDirectory) (hplace : t.place p = .ok location) :
    t'.place p = .ok location := by
  have hfollow : ∀ {here names}, t.follow here names = .ok location →
      t'.follow here names = .ok location := by
    intro here names
    induction names generalizing here with
    | nil => exact id
    | cons name rest ih =>
      intro hnames
      obtain ⟨hnode, hlength, hrest⟩ := node?_of_follow_cons hnames
      rw [follow_cons (hdirectory here hnode) hlength]
      exact ih hrest
  obtain ⟨hrefusal, hnames⟩ := place_eq_ok_iff.mp hplace
  refine place_eq_ok_iff.mpr ⟨hrefusal, ?_⟩
  rw [FileTree.base, hbase]
  exact hfollow hnames

/-- What could be followed once can be followed ever after. -/
theorem Grows.place (h : Grows touched t t') {p : FilePath} {location : Location}
    (hplace : t.place p = .ok location) : t'.place p = .ok location :=
  place_of_directories (fun _ => h.directory) h.workingDirectory hplace

/-! ## Changing one location -/

/-- Something new where no directory is. -/
theorem Rooted.put (h : t.Rooted) {location : Location} (hroom : t.HasRoom location)
    (hfree : t.node? location ≠ some .directory) (node : FileNode) :
    Grows (· = location) t (t.put location node) := by
  obtain ⟨place, name, rfl, hplace⟩ := hroom
  have hdirectory : ∀ other, t.node? other = some .directory →
      (t.put (place ++ [name]) node).node? other = some .directory := by
    intro other hother
    rw [node?_put_of_ne]
    · exact hother
    · rintro rfl
      exact hfree hother
  refine ⟨⟨?_⟩, rfl, fun hother => hdirectory _ hother, ?_⟩
  · intro other last there hthere
    refine hdirectory other ?_
    by_cases hsame : other ++ [last] = place ++ [name]
    · obtain ⟨rfl, -⟩ := List.append_inj' hsame rfl
      exact hplace
    · rw [node?_put_of_ne _ _ hsame] at hthere
      exact h.parent hthere
  · intro other hother content modified
    rw [node?_put_of_ne _ _ hother]

theorem node?_removeAt_self (t : FileTree) {location : Location} (h : location ≠ []) :
    (t.removeAt location).node? location = none := by
  simp only [node?, removeAt, if_neg h, List.lookup_eq_none_iff]
  intro entry hentry
  have hkept := (List.mem_filter.mp hentry).2
  rw [bne_iff_ne]
  rintro rfl
  have hself : entry.1.isPrefixOf entry.1 = true := List.isPrefixOf_iff_prefix.mpr List.prefix_rfl
  simp [hself] at hkept

/-- Removing a file removes nothing else. -/
theorem Rooted.node?_removeAt (h : t.Rooted) {location : Location} {content : Bytes}
    {modified : Nat} (hfile : t.node? location = some (.file content modified)) {other : Location}
    (hother : other ≠ location) : (t.removeAt location).node? other = t.node? other := by
  by_cases hbelow : location <+: other
  · obtain ⟨names, rfl⟩ := hbelow
    have hnames : names ≠ [] := by
      rintro rfl
      exact hother (List.append_nil location)
    have hnothing := h.below_file hfile hnames
    rw [hnothing]
    have hne : location ++ names ≠ [] := by simp [hnames]
    simp only [node?, removeAt, if_neg hne, List.lookup_eq_none_iff] at hnothing ⊢
    exact fun entry hentry => hnothing entry (List.mem_filter.mp hentry).1
  · exact FileTree.node?_removeAt t hbelow

theorem Rooted.removeAt (h : t.Rooted) {location : Location} {content : Bytes} {modified : Nat}
    (hfile : t.node? location = some (.file content modified)) :
    Grows (· = location) t (t.removeAt location) := by
  have hdirectory : ∀ other, t.node? other = some .directory →
      (t.removeAt location).node? other = some .directory := by
    intro other hother
    rw [h.node?_removeAt hfile]
    · exact hother
    · rintro rfl
      rw [hother] at hfile
      cases hfile
  have hroot : location ≠ [] := by
    rintro rfl
    cases hfile
  refine ⟨⟨?_⟩, rfl, fun hother => hdirectory _ hother, ?_⟩
  · intro other last there hthere
    by_cases hsame : other ++ [last] = location
    · rw [hsame, node?_removeAt_self t hroot] at hthere
      cases hthere
    · rw [h.node?_removeAt hfile hsame] at hthere
      exact hdirectory other (h.parent hthere)
  · intro other hother content' modified'
    rw [h.node?_removeAt hfile hother]

/-! ## Operations -/

/-- A directory in a free place is no file that was made or changed. -/
theorem Rooted.putDirectory (h : t.Rooted) {location : Location} (hroom : t.HasRoom location)
    (hnone : t.node? location = none) :
    Grows (fun _ => False) t (t.put location .directory) := by
  have hgrows : Grows (· = location) t (t.put location .directory) :=
    h.put hroom (by simp [hnone]) .directory
  have hroot : location ≠ [] := by
    rintro rfl
    cases hnone
  refine ⟨hgrows.rooted, hgrows.workingDirectory, hgrows.directory, ?_⟩
  intro place _ content modified
  by_cases hplace : place = location
  · rw [hplace, node?_put_self t _ hroot, hnone]
    simp
  · exact hgrows.file hplace content modified

theorem Rooted.createDirectory (h : t.Rooted) (p : FilePath) :
    Grows (fun _ => False) t ((createDirectory p).state t) := by
  rcases createDirectory_cases p t with hsame | ⟨hplace, hnone, hmade⟩
  · rw [hsame]
    exact h.grows _
  · rw [hmade]
    refine h.putDirectory ?_ hnone
    refine (h.place hplace).resolve_left ?_
    rw [hnone]
    simp

theorem Rooted.createNested (h : t.Rooted) (paths : List FilePath) :
    Grows (fun _ => False) t ((createNested paths).state t) := by
  induction paths generalizing t with
  | nil => exact h.grows _
  | cons p outer ih =>
    rcases createNested_cases p outer t with hsame | hmade | ⟨t', hmissing, hretried⟩
    · rw [hsame]
      exact h.grows _
    · rw [hmade]
      exact h.createDirectory p
    · have hfirst := h.createDirectory p
      rw [Action.state_of_error hmissing] at hfirst
      have houter := hfirst.trans (ih hfirst.rooted)
      rw [hretried]
      cases hmade : FileTree.createNested outer t' with
      | ok _ t'' =>
        rw [Action.state_of_ok hmade] at houter
        rw [Action.state_bind_of_ok hmade]
        exact houter.trans (houter.rooted.createDirectory p)
      | error cause t'' =>
        rw [Action.state_of_error hmade] at houter
        rw [Action.state_bind_of_error hmade]
        exact houter

/-- Keeping some locations, and with each of them the one above it. -/
theorem Rooted.filter (h : t.Rooted) (keep : Location → Bool)
    (hkeep : ∀ place name, keep (place ++ [name]) = true → keep place = true) :
    { t with nodes := t.nodes.filter fun entry => keep entry.1 }.Rooted := by
  refine ⟨fun {place name node} hnode => ?_⟩
  have hname : place ++ [name] ≠ [] := by simp
  have hkept : keep (place ++ [name]) = true := by
    by_contra hgone
    rw [node?, if_neg hname, List.lookup_eq_none_iff.mpr] at hnode
    · cases hnode
    · intro entry hentry
      have hother := (List.mem_filter.mp hentry).2
      rw [bne_iff_ne]
      intro hsame
      exact hgone (hsame ▸ hother)
  rw [node?, if_neg hname, lookup_filter _ _ hkept] at hnode
  have hthere : t.node? (place ++ [name]) = some node := by
    rwa [node?, if_neg hname]
  have hparent := h.parent hthere
  rw [node?] at hparent ⊢
  rwa [lookup_filter _ _ (hkeep place name hkept)]

/-- Removing changes nothing, or removes what is below a location, alone or with what stands
there. -/
theorem remove_cases (p : FilePath) (t : FileTree) :
    (remove p).state t = t ∨
      ∃ location, (remove p).state t = t.clear location ∨
        (remove p).state t = t.removeAt location := by
  rw [Action.state, remove, Action.bind_apply, Action.get_apply]
  simp only [Action.ofExcept_bind_apply]
  cases hlocate : t.locate p with
  | error cause => exact Or.inl rfl
  | ok location =>
    simp only
    cases hnode : t.node? location with
    | none => exact Or.inl rfl
    | some node =>
      cases hdots : p.endsInDots with
      | true => exact Or.inr ⟨location, Or.inl rfl⟩
      | false => exact Or.inr ⟨location, Or.inr rfl⟩

theorem Rooted.remove (h : t.Rooted) (p : FilePath) : ((remove p).state t).Rooted := by
  have habove : ∀ {location place : Location} {name : String},
      ¬ location <+: place ++ [name] → ¬ location <+: place :=
    fun hbelow hbegins => hbelow (hbegins.trans (List.prefix_append _ _))
  rcases remove_cases p t with hsame | ⟨location, hcleared | hremoved⟩
  · rwa [hsame]
  · rw [hcleared]
    refine h.filter (fun place => place = location || !location.isPrefixOf place) ?_
    intro place name hkept
    simp only [Bool.or_eq_true, decide_eq_true_eq, Bool.not_eq_true', ← Bool.not_eq_true,
      List.isPrefixOf_iff_prefix] at hkept ⊢
    refine Or.inr ?_
    rcases hkept with rfl | hbelow
    · intro hbegins
      have hlength := hbegins.length_le
      rw [List.length_append, List.length_singleton] at hlength
      omega
    · exact habove hbelow
  · rw [hremoved]
    refine h.filter (fun place => !location.isPrefixOf place) ?_
    intro place name hkept
    simp only [Bool.not_eq_true', ← Bool.not_eq_true, List.isPrefixOf_iff_prefix] at hkept ⊢
    exact habove hkept

variable {p source target : FilePath}

/-- A file that a path accepts has a directory to lie in. -/
theorem Accepts.hasRoom (haccepts : t.Accepts p) (h : t.Rooted) :
    t.HasRoom (p.destination t.workingDirectory) :=
  (h.place haccepts.place).resolve_left haccepts.free

theorem Rooted.written (h : t.Rooted) (haccepts : t.Accepts p) (content : Bytes) :
    Grows (· = p.destination t.workingDirectory) t
      (t.put (p.destination t.workingDirectory) (.file content t.now)) :=
  h.put (haccepts.hasRoom h) haccepts.free _

theorem Rooted.write (h : t.Rooted) (p : FilePath) (content : Bytes) :
    Grows (· = p.destination t.workingDirectory) t ((write p content).state t) := by
  rcases write_cases p content t with ⟨cause, hrefused⟩ | ⟨haccepts, hwritten⟩
  · rw [Action.state_of_error hrefused]
    exact h.grows _
  · rw [Action.state_of_ok hwritten]
    exact h.written haccepts content

theorem Rooted.renamed (h : t.Rooted) {content : Bytes} {modified : Nat}
    (hfile : t.node? (source.destination t.workingDirectory) = some (.file content modified))
    (haccepts : t.Accepts target) :
    Grows
      (fun place => place = source.destination t.workingDirectory ∨
        place = target.destination t.workingDirectory) t
      ((t.removeAt (source.destination t.workingDirectory)).put
        (target.destination t.workingDirectory) (.file content modified)) := by
  have hremoved := h.removeAt hfile
  obtain ⟨place, name, hlocation, hplace⟩ := haccepts.hasRoom h
  have hroom : (t.removeAt (source.destination t.workingDirectory)).HasRoom
      (target.destination t.workingDirectory) := ⟨place, name, hlocation, hremoved.directory hplace⟩
  have hfree : (t.removeAt (source.destination t.workingDirectory)).node?
      (target.destination t.workingDirectory) ≠ some .directory := by
    by_cases hsame : target.destination t.workingDirectory = source.destination t.workingDirectory
    · rw [hsame, node?_removeAt_self]
      · simp
      · intro hroot
        rw [hroot] at hfile
        cases hfile
    · rw [h.node?_removeAt hfile hsame]
      exact haccepts.free
  exact (hremoved.mono fun _ => Or.inl).trans
    ((hremoved.rooted.put hroom hfree _).mono fun _ => Or.inr)

/-- Renaming a file to a path that accepts one succeeds. -/
theorem rename_of_accepts {content : Bytes} {modified : Nat}
    (hsource : t.locate source = .ok (source.destination t.workingDirectory))
    (hfile : t.node? (source.destination t.workingDirectory) = some (.file content modified))
    (haccepts : t.Accepts target) :
    rename source target t = .ok () ((t.removeAt (source.destination t.workingDirectory)).put
      (target.destination t.workingDirectory) (.file content modified)) := by
  have htarget := locate_of_place haccepts.place haccepts.slash
  rw [rename, Action.bind_apply, Action.get_apply]
  simp only [Action.ofExcept_bind_apply, hsource, hfile, htarget]
  cases hthere : t.node? (target.destination t.workingDirectory) with
  | none =>
    simp only [haccepts.slash, Bool.false_eq_true, if_false]
    rfl
  | some there =>
    cases there with
    | directory => exact absurd hthere haccepts.free
    | file old time => rfl

/-! ## Trees that a program works in -/

section Closed

/-- Everything lies in a directory, and paths begin in one. -/
structure Closed (t : FileTree) : Prop where
  parent : ∀ {place : Location} {name : String} {node : FileNode},
    t.node? (place ++ [name]) = some node → t.node? place = some .directory
  base : t.node? t.workingDirectory = some .directory

/-- A tree after changes: it is closed, it has the directories that it had, and the only files that
were made, changed or removed are the touched ones. -/
structure Evolves (touched : Location → Prop) (t t' : FileTree) : Prop where
  closed : t'.Closed
  workingDirectory : t'.workingDirectory = t.workingDirectory
  directory : ∀ {place : Location}, t.node? place = some .directory →
    t'.node? place = some .directory
  file : ∀ {place : Location}, ¬ touched place → ∀ (content : Bytes) (modified : Nat),
    t'.node? place = some (.file content modified) ↔ t.node? place = some (.file content modified)

variable {t t' t'' : FileTree} {touched touched' : Location → Prop}

theorem Closed.rooted (h : t.Closed) : t.Rooted := ⟨h.parent⟩

/-- The directory that paths begin in is kept with the others. -/
theorem Closed.evolves_of_grows (h : t.Closed) (hgrows : Grows touched t t') :
    Evolves touched t t' := by
  refine ⟨⟨hgrows.rooted.parent, ?_⟩, hgrows.workingDirectory, hgrows.directory, hgrows.file⟩
  rw [hgrows.workingDirectory]
  exact hgrows.directory h.base

theorem Evolves.grows (h : Evolves touched t t') : Grows touched t t' :=
  ⟨h.closed.rooted, h.workingDirectory, h.directory, h.file⟩

end Closed

end FileTree

end RomCast
