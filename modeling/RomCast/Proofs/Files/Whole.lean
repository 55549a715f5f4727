import RomCast.Export
import RomCast.Proofs.Files.Frame

set_option autoImplicit false

/-!
# Writing a file by way of another

A write that succeeds leaves the content at the path's destination, whatever stood there
(`writeWhole_ok`), and one that is refused leaves the destination as it was (`writeWhole_error`).
Everything else that a write touches is its temporary file and the directories on the way.
-/

namespace RomCast.Export

open FileTree (Standing)

variable {base place : Location} {node : Option FileNode}

/-- The temporary file of a path. -/
def temporary (p : FilePath) : FilePath := p.withExtension temporaryExtension

/-- Make the directory that a path lies in. -/
def makeRoom (p : FilePath) : Action SystemError FileTree Unit :=
  match p.parent? with
  | some directory => FileTree.createDirectories directory
  | none => pure ()

theorem writeWhole_eq (p : FilePath) (content : Bytes) :
    writeWhole p content = (makeRoom p >>= fun _ =>
      FileTree.write (temporary p) content >>= fun _ => FileTree.rename (temporary p) p) := by
  unfold writeWhole makeRoom temporary
  cases p.parent? with
  | none => rw [pure_bind]
  | some directory => simp only

/-- Neither the temporary file of a path nor a directory that it lies in is at a location. -/
structure Apart (base place : Location) (p : FilePath) : Prop where
  temporary : ¬ (temporary p).destination base <+: place
  directories : ∀ directory, p.parent? = some directory →
    ∀ d ∈ directory.ancestors, d.destination base ≠ place

theorem makeRoom_keeps {p : FilePath} (h : Apart base place p) :
    Action.Keeps (Standing base place node) (makeRoom p) := by
  unfold makeRoom
  cases hparent : p.parent? with
  | none => exact Action.keeps_pure _ ()
  | some directory => exact FileTree.createNested_keeps (h.directories directory hparent)

theorem writeTemporary_keeps {p : FilePath} (h : Apart base place p) (content : Bytes) :
    Action.Keeps (Standing base place node) (FileTree.write (temporary p) content) := by
  apply FileTree.write_keeps
  intro heq
  have hprefix : (temporary p).destination base <+: place := heq ▸ List.prefix_rfl
  exact h.temporary hprefix

/-- Writing another file. -/
theorem writeWhole_keeps {p : FilePath} (h : Apart base place p) (hp : p.destination base ≠ place)
    (content : Bytes) : Action.Keeps (Standing base place node) (writeWhole p content) := by
  rw [writeWhole_eq]
  apply (makeRoom_keeps h).bind
  intro _
  apply (writeTemporary_keeps h content).bind
  intro _
  exact FileTree.rename_keeps h.temporary hp

/-- A write that is refused has not reached the path's own file. -/
theorem writeWhole_error {p : FilePath} {content : Bytes} {t t' : FileTree} {cause : SystemError}
    (h : Apart base place p) (herror : writeWhole p content t = .error cause t')
    (ht : Standing base place node t) : Standing base place node t' := by
  rw [writeWhole_eq, Action.bind_apply] at herror
  have hroom := makeRoom_keeps  h t ht
  cases hmake : makeRoom p t with
  | error cause' t₁ =>
    rw [Action.state_of_error hmake] at hroom
    rw [hmake] at herror
    obtain ⟨-, rfl⟩ := EStateM.Result.error.inj herror
    exact hroom
  | ok _ t₁ =>
    rw [Action.state_of_ok hmake] at hroom
    simp only [hmake, Action.bind_apply] at herror
    have htemporary := writeTemporary_keeps h content t₁ hroom
    cases hwrite : FileTree.write (temporary p) content t₁ with
    | error cause' t₂ =>
      rw [Action.state_of_error hwrite] at htemporary
      rw [hwrite] at herror
      obtain ⟨-, rfl⟩ := EStateM.Result.error.inj herror
      exact htemporary
    | ok _ t₂ =>
      rw [Action.state_of_ok hwrite] at htemporary
      simp only [hwrite] at herror
      rcases FileTree.rename_cases (temporary p) p t₂ with ⟨cause', hrefused⟩ |
        ⟨_, _, _, _, hmoved⟩
      · rw [hrefused] at herror
        obtain ⟨-, rfl⟩ := EStateM.Result.error.inj herror
        exact htemporary
      · rw [hmoved] at herror
        cases herror

/-- A write that succeeds leaves its content behind. -/
theorem writeWhole_ok {p : FilePath} {content : Bytes} {t t' : FileTree}
    (h : Apart base place p) (hp : p.destination base = place)
    (hok : writeWhole p content t = .ok () t') (ht : Standing base place node t) :
    ∃ modified, Standing base place (some (.file content modified)) t' := by
  rw [writeWhole_eq, Action.bind_apply] at hok
  have hroom := makeRoom_keeps  h t ht
  cases hmake : makeRoom p t with
  | error cause t₁ => simp [hmake] at hok
  | ok _ t₁ =>
    rw [Action.state_of_ok hmake] at hroom
    simp only [hmake, Action.bind_apply] at hok
    rcases FileTree.write_cases (temporary p) content t₁ with ⟨cause, hrefused⟩ | ⟨-, hwritten⟩
    · simp [hrefused] at hok
    · simp only [hwritten, hroom.base] at hok
      have hroot : (temporary p).destination base ≠ [] := by
        intro hnil
        apply h.temporary
        rw [hnil]
        exact List.nil_prefix
      rcases FileTree.rename_cases (temporary p) p
        (t₁.put ((temporary p).destination base) (.file content t₁.now)) with
        ⟨cause, hrefused⟩ | ⟨moved, modified, hthere, haccepts, hmoved⟩
      · rw [hrefused] at hok
        cases hok
      · rw [hmoved] at hok
        obtain ⟨-, rfl⟩ := EStateM.Result.ok.inj hok
        have htarget := haccepts.ne_root
        simp only [FileTree.workingDirectory_put, hroom.base] at hthere htarget ⊢
        rw [FileTree.node?_put_self t₁ _ hroot] at hthere
        obtain ⟨rfl, rfl⟩ := FileNode.file.inj (Option.some.inj hthere)
        refine ⟨t₁.now, hroom.base, ?_⟩
        rw [← hp]
        exact FileTree.node?_put_self _ _ htarget

end RomCast.Export
