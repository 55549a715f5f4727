import RomCast.Proofs.Files.Rooted
import RomCast.Proofs.Files.Whole

set_option autoImplicit false

/-!
# Files that are replaced in a tree

What a whole write does to a tree in which everything lies in a directory: one that succeeds leaves
the content at its destination and takes its temporary file away, whatever that was before
(`writeWhole_ok_of_rooted`); one that is refused changes no file but perhaps its temporary one
(`writeWhole_error_of_rooted`).
-/

namespace RomCast.Export

open FileTree (Rooted Grows Closed Evolves)

variable {p : FilePath} {content : Bytes} {t t' : FileTree}

theorem makeRoom_grows (h : t.Rooted) (p : FilePath) :
    Grows (fun _ => False) t ((makeRoom p).state t) := by
  unfold makeRoom
  cases p.parent? with
  | none => exact h.grows _
  | some directory => exact h.createNested _

/-- A tree after the temporary file of a path has been written. -/
structure Drafted (p : FilePath) (content : Bytes) (t t' : FileTree) : Prop where
  grows : Grows (· = (temporary p).destination t.workingDirectory) t t'
  file : ∃ modified,
    t'.node? ((temporary p).destination t.workingDirectory) = some (.file content modified)
  others : ∀ place ≠ (temporary p).destination t.workingDirectory, t'.node? place = t.node? place
  locate : t'.locate (temporary p) = .ok ((temporary p).destination t.workingDirectory)

/-- A whole write is refused when it has made room, or it has written its temporary file and then
renames it. -/
theorem writeWhole_stages (h : t.Rooted) (p : FilePath) (content : Bytes) :
    (∃ cause, writeWhole p content t = .error cause ((makeRoom p).state t)) ∨
      ∃ t', Drafted p content ((makeRoom p).state t) t' ∧
        writeWhole p content t = FileTree.rename (temporary p) p t' := by
  have hroom := makeRoom_grows h p
  rw [writeWhole_eq, Action.bind_apply]
  cases hmake : makeRoom p t with
  | error cause t₁ =>
    rw [Action.state_of_error hmake]
    exact Or.inl ⟨cause, rfl⟩
  | ok _ t₁ =>
    rw [Action.state_of_ok hmake] at hroom ⊢
    simp only [Action.bind_apply]
    rcases FileTree.write_cases (temporary p) content t₁ with
      ⟨cause, hrefused⟩ | ⟨haccepts, hwritten⟩
    · rw [hrefused]
      exact Or.inl ⟨cause, rfl⟩
    · have hput := hroom.rooted.written haccepts content
      rw [hwritten]
      exact Or.inr ⟨_, ⟨hput, ⟨t₁.now, FileTree.node?_put_self t₁ _ haccepts.ne_root⟩,
        fun _ hne => FileTree.node?_put_of_ne t₁ _ hne,
        FileTree.locate_of_place (hput.place haccepts.place) haccepts.slash⟩, rfl⟩

/-- A path that a write has led to before. -/
structure Ready (t : FileTree) (p : FilePath) : Prop where
  place : t.place p = .ok (p.destination t.workingDirectory)
  slash : p.endsInSlash = false

theorem Ready.grows {touched : Location → Prop} (hready : Ready t p) (h : Grows touched t t') :
    Ready t' p := by
  refine ⟨?_, hready.slash⟩
  rw [h.workingDirectory]
  exact h.place hready.place

theorem Ready.evolves {touched : Location → Prop} (hready : Ready t p) (h : Evolves touched t t') :
    Ready t' p :=
  hready.grows h.grows

/-- A write that succeeds leaves its content behind, and no temporary file. -/
theorem writeWhole_ok_of_rooted (h : t.Rooted) (hok : writeWhole p content t = .ok () t') :
    Grows (fun place => place = (temporary p).destination t.workingDirectory ∨
        place = p.destination t.workingDirectory) t t' ∧
      (∃ modified, t'.node? (p.destination t.workingDirectory) = some (.file content modified)) ∧
      ((temporary p).destination t.workingDirectory ≠ p.destination t.workingDirectory →
        t'.node? ((temporary p).destination t.workingDirectory) = none) ∧
      Ready t' p := by
  have hroom := makeRoom_grows h p
  rcases writeWhole_stages h p content with ⟨cause, hrefused⟩ | ⟨t₂, hdraft, hrest⟩
  · rw [hrefused] at hok
    cases hok
  · obtain ⟨hwritten, ⟨modified, hfile⟩, -, -⟩ := hdraft
    rw [hroom.workingDirectory] at hwritten hfile
    have hgrows := (hroom.mono fun _ hfalse => hfalse.elim).trans hwritten
    have hbase := hgrows.workingDirectory
    rw [hrest] at hok
    rcases FileTree.rename_cases (temporary p) p t₂ with
      ⟨cause, hrefused⟩ | ⟨moved, modified', hthere, haccepts, hmoved⟩
    · rw [hrefused] at hok
      cases hok
    · have hrenamed := hgrows.rooted.renamed hthere haccepts
      have hready : Ready t₂ p := ⟨haccepts.place, haccepts.slash⟩
      have hroot := haccepts.ne_root
      rw [hmoved] at hok
      obtain ⟨-, rfl⟩ := EStateM.Result.ok.inj hok
      rw [hbase] at hthere hrenamed hroot ⊢
      rw [hfile] at hthere
      obtain ⟨rfl, rfl⟩ := FileNode.file.inj (Option.some.inj hthere)
      refine ⟨(hgrows.mono fun _ => Or.inl).trans hrenamed,
        ⟨modified, FileTree.node?_put_self _ _ hroot⟩, ?_, hready.grows hrenamed⟩
      intro hne
      rw [FileTree.node?_put_of_ne _ _ hne, FileTree.node?_removeAt_self]
      intro hnil
      rw [hnil] at hfile
      cases hfile

/-- A write that is refused ends when it has made room, or with its temporary file written; and this
is not the very file that the path leads to, or it would have been renamed to itself. -/
theorem writeWhole_error_stages (h : t.Rooted) {cause : SystemError}
    (herror : writeWhole p content t = .error cause t') :
    t' = (makeRoom p).state t ∨
      Drafted p content ((makeRoom p).state t) t' ∧
        ¬ ((temporary p).destination t'.workingDirectory = p.destination t'.workingDirectory ∧
          Ready t' p) := by
  rcases writeWhole_stages h p content with ⟨cause', hrefused⟩ | ⟨t₂, hdraft, hrest⟩
  · rw [hrefused] at herror
    obtain ⟨-, rfl⟩ := EStateM.Result.error.inj herror
    exact Or.inl rfl
  · have hbase := hdraft.grows.workingDirectory
    rw [hrest] at herror
    rcases FileTree.rename_cases (temporary p) p t₂ with
      ⟨cause', hrefused⟩ | ⟨_, _, _, _, hmoved⟩
    · obtain ⟨-, rfl⟩ := EStateM.Result.error.inj (hrefused.symm.trans herror)
      refine Or.inr ⟨hdraft, ?_⟩
      rintro ⟨hsame, hready⟩
      obtain ⟨modified, hfile⟩ := hdraft.file
      have hlocate := hdraft.locate
      rw [← hbase] at hfile hlocate
      have haccepts : t₂.Accepts p := ⟨hready.place, hready.slash, by simp [← hsame, hfile]⟩
      rw [FileTree.rename_of_accepts hlocate hfile haccepts] at hrefused
      cases hrefused
    · rw [hmoved] at herror
      cases herror

/-- A write that is refused changes no file but its temporary one; and not that one either when it
is the very file that was written before. -/
theorem writeWhole_error_of_rooted (h : t.Rooted) {cause : SystemError}
    (herror : writeWhole p content t = .error cause t') :
    Grows (fun place => place = (temporary p).destination t.workingDirectory ∧
      ¬ (place = p.destination t.workingDirectory ∧ Ready t p)) t t' := by
  have hroom := makeRoom_grows h p
  rcases writeWhole_error_stages h herror with rfl | ⟨hdraft, hother⟩
  · exact hroom.mono fun _ hfalse => hfalse.elim
  · have hwritten := hdraft.grows
    rw [hwritten.workingDirectory, hroom.workingDirectory] at hother
    rw [hroom.workingDirectory] at hwritten
    have hgrows := (hroom.mono fun _ hfalse => hfalse.elim).trans hwritten
    refine ⟨hgrows.rooted, hgrows.workingDirectory, hgrows.directory, ?_⟩
    intro place hplace
    refine hgrows.file fun htemporary => hplace ⟨htemporary, ?_⟩
    rintro ⟨hown, hready⟩
    exact hother ⟨Eq.trans (Eq.symm htemporary) hown, hready.grows hgrows⟩

/-! ## Closed trees -/

theorem writeWhole_replaces (h : t.Closed) (hok : writeWhole p content t = .ok () t') :
    Evolves (fun place => place = (temporary p).destination t.workingDirectory ∨
        place = p.destination t.workingDirectory) t t' ∧
      (∃ modified, t'.node? (p.destination t.workingDirectory) = some (.file content modified)) ∧
      ((temporary p).destination t.workingDirectory ≠ p.destination t.workingDirectory →
        t'.node? ((temporary p).destination t.workingDirectory) = none) ∧
      Ready t' p := by
  obtain ⟨hgrows, hrest⟩ := writeWhole_ok_of_rooted h.rooted hok
  exact ⟨h.evolves_of_grows hgrows, hrest⟩

theorem writeWhole_refused (h : t.Closed) {cause : SystemError}
    (herror : writeWhole p content t = .error cause t') :
    Evolves (fun place => place = (temporary p).destination t.workingDirectory ∧
      ¬ (place = p.destination t.workingDirectory ∧ Ready t p)) t t' :=
  h.evolves_of_grows (writeWhole_error_of_rooted h.rooted herror)

end RomCast.Export
