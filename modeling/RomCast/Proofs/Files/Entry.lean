import RomCast.Proofs.Files.Parents
import RomCast.Proofs.Files.Replace

set_option autoImplicit false

/-!
# What a path leads to

The entry at a path is what the path leads to.  An entry stays when a write to its path is refused,
and where there was none there is still none (`writeWhole_error_entry`), unless the path has a `..`
in it and the directory that it lies in was missing: the directories that are made for the write may
be what was missing on the way.
-/

namespace RomCast

namespace FileTree

/-- What a path leads to, if it leads to anything. -/
def reached? (t : FileTree) (p : FilePath) : Option FileNode := (t.stat p).toOption

variable {t t' : FileTree} {touched : Location → Prop} {p : FilePath} {node : FileNode}

theorem reached?_eq_some_iff :
    t.reached? p = some node ↔ t.place p = .ok (p.destination t.workingDirectory) ∧
      t.node? (p.destination t.workingDirectory) = some node ∧
      (node ≠ .directory → p.endsInSlash = false) := by
  unfold reached? stat
  constructor
  · intro h
    cases hlocate : t.locate p with
    | error cause => simp [hlocate, bind, Except.bind, Except.toOption] at h
    | ok location =>
      obtain ⟨hplace, hslash⟩ := place_of_locate hlocate
      obtain rfl := place_eq hplace
      cases hnode : t.node? (p.destination t.workingDirectory) with
      | none => simp [hlocate, hnode, bind, Except.bind, Except.toOption, throw, throwThe,
          MonadExceptOf.throw] at h
      | some there =>
        simp only [hlocate, hnode, bind, Except.bind, Except.toOption, pure, Except.pure,
          Option.some.injEq] at h
        subst h
        refine ⟨hplace, rfl, fun hfile => ?_⟩
        cases there with
        | directory => exact absurd rfl hfile
        | file content modified => exact hslash content modified hnode
  · rintro ⟨hplace, hnode, hslash⟩
    have hlocate : t.locate p = .ok (p.destination t.workingDirectory) := by
      cases node with
      | directory => simp [locate, hplace, hnode, bind, Except.bind, pure, Except.pure]
      | file content modified => exact locate_of_place hplace (hslash nofun)
    simp [hlocate, hnode, bind, Except.bind, Except.toOption, pure, Except.pure]

/-- A path can be read when it leads to a file. -/
theorem read_eq_ok_iff {content : Bytes} :
    t.read p = .ok content ↔ ∃ modified, t.reached? p = some (.file content modified) := by
  unfold read reached?
  cases hstat : t.stat p with
  | error cause => simp [bind, Except.bind, Except.toOption]
  | ok node =>
    cases node with
    | directory => simp [bind, Except.bind, Except.toOption, throw, throwThe, MonadExceptOf.throw]
    | file content' modified => simp [bind, Except.bind, Except.toOption, pure, Except.pure]

theorem entry_of_contains (h : t.contains p = true) : ∃ node, t.reached? p = some node := by
  unfold contains at h
  unfold reached?
  cases hstat : t.stat p with
  | error cause => simp [hstat, Except.isOk, Except.toBool] at h
  | ok node => exact ⟨node, rfl⟩

/-- Making a directory where something is changes nothing, and does not find anything missing. -/
theorem createDirectory_of_entry (h : t.reached? p = some node) :
    createDirectory p t = .ok () t ∨ createDirectory p t = .error .alreadyExists t := by
  obtain ⟨hplace, hnode, -⟩ := reached?_eq_some_iff.mp h
  rw [createDirectory, Action.bind_apply, Action.get_apply]
  simp only [Action.ofExcept_bind_apply, hplace, hnode]
  cases node with
  | directory => exact Or.inl rfl
  | file content modified => exact Or.inr rfl

/-- What a path leads to stays unless it is a file that was touched. -/
theorem Grows.entry (h : Grows touched t t') (hentry : t.reached? p = some node)
    (hfile : node ≠ .directory → ¬ touched (p.destination t.workingDirectory)) :
    t'.reached? p = some node := by
  obtain ⟨hplace, hnode, hslash⟩ := reached?_eq_some_iff.mp hentry
  refine reached?_eq_some_iff.mpr ?_
  rw [h.workingDirectory]
  refine ⟨h.place hplace, ?_, hslash⟩
  cases node with
  | directory => exact h.directory hnode
  | file content modified => exact (h.file (hfile nofun) content modified).mpr hnode

/-! ## Paths that do not climb -/

theorem prefix_foldl_child (here : Location) {names : List String} (h : ".." ∉ names) :
    here <+: names.foldl child here := by
  induction names generalizing here with
  | nil => exact List.prefix_rfl
  | cons name rest ih =>
    obtain ⟨hname, hrest⟩ := not_or.mp (mt List.mem_cons.mpr h)
    refine List.IsPrefix.trans ?_ (ih (child here name) hrest)
    rw [child, if_neg (Ne.symm hname)]
    split
    · exact List.prefix_rfl
    · exact List.prefix_append here [name]

/-- Names that do not climb can be followed to whatever there is: all that lies above it are
directories. -/
theorem Rooted.follow_of_exists (h : t.Rooted) {here location : Location} {names : List String}
    (hclimb : ".." ∉ names) (hfollow : t'.follow here names = .ok location)
    (hthere : t.node? location = some node) (hthere' : t'.node? location = some node) :
    t.follow here names = .ok location := by
  induction names generalizing here with
  | nil => exact hfollow
  | cons name rest ih =>
    have hbegins := prefix_foldl_child here hclimb
    rw [← follow_eq hfollow] at hbegins
    obtain ⟨hnode', hlength, hrest⟩ := node?_of_follow_cons hfollow
    have hnode : t.node? here = some .directory := by
      obtain ⟨behind, rfl⟩ := hbegins
      by_cases hbehind : behind = []
      · subst hbehind
        rw [List.append_nil] at hthere hthere'
        rw [hthere, ← hthere', hnode']
      · exact h.above hbehind hthere
    rw [follow_cons hnode hlength]
    exact ih (fun hmem => hclimb (List.mem_cons_of_mem _ hmem)) hrest

/-- A path that does not climb leads to whatever there is at its destination. -/
theorem Rooted.entry_of_exists (h : t.Rooted) (hclimb : ".." ∉ p.parts)
    (hbase : t'.workingDirectory = t.workingDirectory)
    (hsame : t'.node? (p.destination t.workingDirectory) =
      t.node? (p.destination t.workingDirectory)) (hentry : t'.reached? p = some node) :
    t.reached? p = some node := by
  obtain ⟨hplace, hnode, hslash⟩ := reached?_eq_some_iff.mp hentry
  rw [hbase] at hplace hnode
  obtain ⟨hrefusal, hfollow⟩ := place_eq_ok_iff.mp hplace
  rw [base, hbase] at hfollow
  exact reached?_eq_some_iff.mpr ⟨place_eq_ok_iff.mpr ⟨hrefusal,
    h.follow_of_exists hclimb hfollow (hsame ▸ hnode) hnode⟩, hsame ▸ hnode, hslash⟩

end FileTree

namespace Export

open FileTree (Rooted Grows)

variable {p : FilePath} {content : Bytes} {t t' : FileTree}

/-! ## Making room -/

/-- When the directory of a path is there, none is made. -/
theorem makeRoom_of_contains {directory : FilePath} (hparent : p.parent? = some directory)
    (h : t.contains directory = true) : (makeRoom p).state t = t := by
  obtain ⟨node, hentry⟩ := FileTree.entry_of_contains h
  simp only [makeRoom, hparent, FileTree.createDirectories]
  rw [FilePath.ancestors_eq, Action.state, FileTree.createNested_cons]
  by_cases hempty : directory.components.isEmpty = true
  · rw [if_pos hempty]
  · rw [if_neg hempty]
    rcases FileTree.createDirectory_of_entry hentry with hmade | hmade
    · rw [hmade]
    · rw [hmade]
      rfl

/-- A path without `..` leads to what it led to before its directories were made. -/
theorem makeRoom_entry (h : t.Rooted) (hclimb : ".." ∉ p.parts) :
    ((makeRoom p).state t).reached? p = t.reached? p := by
  have hgrows := makeRoom_grows h p
  suffices hnode : ((makeRoom p).state t).node? (p.destination t.workingDirectory) =
      t.node? (p.destination t.workingDirectory) by
    refine Option.ext fun node => ⟨fun hafter => ?_, fun hbefore => ?_⟩
    · exact h.entry_of_exists hclimb hgrows.workingDirectory hnode hafter
    · exact hgrows.entry hbefore fun _ => not_false
  unfold makeRoom
  cases hparent : p.parent? with
  | none => rfl
  | some directory =>
    by_cases hsteps : p.steps = []
    · -- The path is made of dots, and its directory of nothing.
      obtain rfl := (FilePath.steps_of_parent? hparent).2.2 hsteps
      simp only [FileTree.createDirectories]
      rw [FilePath.ancestors_eq, Action.state, FileTree.createNested_cons]
      rfl
    · have hapart : ∀ ancestor ∈ directory.ancestors,
          ancestor.destination t.workingDirectory ≠ p.destination t.workingDirectory :=
        fun ancestor hancestor =>
          FilePath.destination_ne_of_ancestor hclimb hsteps hparent hancestor t.workingDirectory
      exact (FileTree.createNested_keeps hapart t ⟨rfl, rfl⟩).node

/-- A path with a `..` in it that leads to nothing, and that does not even lie in anything. -/
structure Detours (p : FilePath) (t : FileTree) : Prop where
  climbs : ".." ∈ p.parts
  nothing : t.reached? p = none
  room : ∃ directory, p.parent? = some directory ∧ t.contains directory = false

/-- What a path leads to when a write to it has been refused is not its temporary file. -/
theorem entry_of_makeRoom (h : t.Rooted) {cause : SystemError}
    (herror : writeWhole p content t = .error cause t') {node : FileNode}
    (hentry : t'.reached? p = some node) : ((makeRoom p).state t).reached? p = some node := by
  rcases writeWhole_error_stages h herror with rfl | ⟨hdraft, hother⟩
  · exact hentry
  obtain ⟨hplace, hnode, hslash⟩ := FileTree.reached?_eq_some_iff.mp hentry
  have hbase := hdraft.grows.workingDirectory
  obtain ⟨modified, hfile⟩ := hdraft.file
  have hne : p.destination t'.workingDirectory ≠ (temporary p).destination t'.workingDirectory := by
    intro hsame
    rw [hsame, hbase, hfile, Option.some.injEq] at hnode
    exact hother ⟨hsame.symm, hplace, hslash (by simp [← hnode])⟩
  rw [hbase] at hplace hnode hne
  refine FileTree.reached?_eq_some_iff.mpr ⟨?_, (hdraft.others _ hne).symm.trans hnode, hslash⟩
  refine FileTree.place_of_directories (fun place hdirectory => ?_) hbase.symm hplace
  rwa [← hdraft.others place]
  intro hsame
  rw [hsame, hfile] at hdirectory
  cases hdirectory

/-- After a write that was refused a path leads to what it led to before. -/
theorem writeWhole_error_entry (h : t.Rooted) {cause : SystemError}
    (herror : writeWhole p content t = .error cause t') :
    t'.reached? p = t.reached? p ∨ Detours p t := by
  cases hbefore : t.reached? p with
  | some node =>
    obtain ⟨hplace, -, hslash⟩ := FileTree.reached?_eq_some_iff.mp hbefore
    refine Or.inl ((writeWhole_error_of_rooted h herror).entry hbefore fun hfile => ?_)
    exact fun htouched => htouched.2 ⟨rfl, hplace, hslash hfile⟩
  | none =>
    cases hafter : t'.reached? p with
    | none => exact Or.inl rfl
    | some node =>
      -- The path leads to something as soon as there is room.
      have hroom := entry_of_makeRoom h herror hafter
      refine Or.inr ⟨?_, hbefore, ?_⟩
      · by_contra hclimb
        rw [makeRoom_entry h hclimb, hbefore] at hroom
        cases hroom
      · cases hparent : p.parent? with
        | none =>
          have hsame : (makeRoom p).state t = t := by
            simp only [makeRoom, hparent]
            rfl
          rw [hsame, hbefore] at hroom
          cases hroom
        | some directory =>
          refine ⟨directory, rfl, ?_⟩
          by_contra hcontains
          rw [makeRoom_of_contains hparent (Bool.not_eq_false _ ▸ hcontains), hbefore] at hroom
          cases hroom

end Export

end RomCast
