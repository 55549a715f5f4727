import RomCast.Dataspace
import RomCast.Proofs.Daemon.Exports
import RomCast.Proofs.Files.Entry

set_option autoImplicit false

/-!
# Exports are written whole or not at all

One export, a dataspace that contents are published to, and a tree of files that others change as
well.  Whatever has gone before, a look at the export finds the content written, replaces the file,
or is refused (`Export.Synced`); refused, it leaves what the path leads to as it was and will be
tried again (`sync_all_or_nothing`).  So what an export remembers to have written is in its file, as
long as nobody else changes that (`Scene.Truthful.run`).
-/

namespace RomCast.Export

open FileTree (Rooted Grows)

variable {κ : Type}

/-! ## Histories -/

/-- What others do to the files: anything that leaves everything in a directory. -/
structure Change where
  apply : FileTree → FileTree
  rooted : ∀ files : FileTree, files.Rooted → (apply files).Rooted

namespace Change

/-- Others write a file. -/
def write (p : FilePath) (content : Bytes) : Change :=
  ⟨(FileTree.write p content).state, fun _ h => (h.write p content).rooted⟩

/-- Others make a directory. -/
def createDirectory (p : FilePath) : Change :=
  ⟨(FileTree.createDirectory p).state, fun _ h => (h.createDirectory p).rooted⟩

/-- Others remove a file, or a directory with all that is in it. -/
def remove (p : FilePath) : Change :=
  ⟨(FileTree.remove p).state, fun _ h => h.remove p⟩

end Change

/-- What happens around an export. -/
inductive Event where
  | publish (content : Bytes)
  | sync
  | others (change : Change)

/-- An export of a dataspace, and the files. -/
structure Scene (κ : Type) where
  space : Dataspace κ
  copy : Export
  files : FileTree

namespace Scene

def step (s : Scene κ) : Event → Scene κ
  | .publish content => { s with space := s.space.publish content }
  | .sync =>
      let (copy, files) := s.copy.sync s.space.content s.files
      { s with copy, files }
  | .others change => { s with files := change.apply s.files }

def run (s : Scene κ) (events : List Event) : Scene κ := events.foldl step s

end Scene

/-! ## One look -/

/-- Write the content whether it has been written or not. -/
def attempt (content : Bytes) (e : Export) (files : FileTree) : Export × FileTree :=
  match writeWhole e.path content files with
  | .ok () files => ({ e with written := some (ContentHash.of content) }, files)
  | .error _ files => (e, files)

/-- What a look at an export makes of it and of the files. -/
inductive Synced (content : Bytes) (e : Export) (files : FileTree) : Export → FileTree → Prop where
  /-- The content is the one that was written last. -/
  | current (written : e.written = some (ContentHash.of content)) : Synced content e files e files
  /-- The file has the whole content. -/
  | replaced {after : FileTree} (due : e.written ≠ some (ContentHash.of content))
      (read : after.read e.path = .ok content)
      (elsewhere : Grows (fun place =>
        place = (temporary e.path).destination files.workingDirectory ∨
          place = e.path.destination files.workingDirectory) files after) :
      Synced content e files { e with written := some (ContentHash.of content) } after
  /-- The path leads to what it led to, nothing is remembered, and the next look tries again. -/
  | refused {after : FileTree} {cause : SystemError}
      (due : e.written ≠ some (ContentHash.of content))
      (write : writeWhole e.path content files = .error cause after)
      (entry : after.reached? e.path = files.reached? e.path ∨ Detours e.path files)
      (elsewhere : Grows (· = (temporary e.path).destination files.workingDirectory) files after)
      (again : ∀ later, e.sync content later = e.attempt content later) :
      Synced content e files e after

theorem sync_of_due {content : Bytes} {e : Export}
    (hdue : e.written ≠ some (ContentHash.of content)) (files : FileTree) :
    e.sync content files = e.attempt content files := by
  cases hwrite : writeWhole e.path content files with
  | ok _ after => simp only [sync, attempt, if_neg hdue, hwrite]
  | error cause after => simp only [sync, attempt, if_neg hdue, hwrite]

theorem sync_synced (content : Bytes) (e : Export) {files : FileTree} (h : files.Rooted) :
    Synced content e files (e.sync content files).1 (e.sync content files).2 := by
  rcases sync_cases content e files with
    ⟨hwritten, hs⟩ | ⟨hdue, ⟨after, hok, hs⟩ | ⟨cause, after, herror, hs⟩⟩
  · rw [hs]
    exact .current hwritten
  · obtain ⟨hgrows, ⟨modified, hfile⟩, -, hready⟩ := writeWhole_ok_of_rooted h hok
    rw [← hgrows.workingDirectory] at hfile
    have hentry : after.reached? e.path = some (.file content modified) :=
      FileTree.reached?_eq_some_iff.mpr ⟨hready.place, hfile, fun _ => hready.slash⟩
    rw [hs]
    exact .replaced hdue (FileTree.read_eq_ok_iff.mpr ⟨modified, hentry⟩) hgrows
  · have hgrows := (writeWhole_error_of_rooted h herror).mono fun _ => And.left
    rw [hs]
    exact .refused hdue herror (writeWhole_error_entry h herror) hgrows (sync_of_due hdue)

/-- A look keeps everything in directories. -/
theorem Synced.rooted {content : Bytes} {e e' : Export} {files files' : FileTree}
    (hsynced : Synced content e files e' files') (h : files.Rooted) : files'.Rooted := by
  cases hsynced with
  | current => exact h
  | replaced _ _ elsewhere => exact elsewhere.rooted
  | refused _ _ _ elsewhere => exact elsewhere.rooted

namespace Scene

theorem step_rooted {s : Scene κ} (h : s.files.Rooted) (event : Event) :
    (s.step event).files.Rooted := by
  cases event with
  | publish content => exact h
  | sync => exact (sync_synced s.space.content s.copy h).rooted h
  | others change => exact change.rooted s.files h

theorem run_rooted {s : Scene κ} (h : s.files.Rooted) (events : List Event) :
    (s.run events).files.Rooted := by
  induction events generalizing s with
  | nil => exact h
  | cons event rest ih => exact ih (step_rooted h event)

/-! ## What is remembered -/

/-- What the export remembers to have written is in its file. -/
def Truthful (s : Scene κ) : Prop :=
  ∀ hash, s.copy.written = some hash →
    ∃ content, ContentHash.of content = hash ∧ s.files.read s.copy.path = .ok content

/-- Others leave the export's file as it is. -/
def Undisturbed (s : Scene κ) : List Event → Prop
  | [] => True
  | .others change :: rest =>
      (change.apply s.files).read s.copy.path = s.files.read s.copy.path ∧
        Undisturbed (s.step (.others change)) rest
  | event :: rest => Undisturbed (s.step event) rest

theorem Truthful.sync {s : Scene κ} (h : s.Truthful) (hrooted : s.files.Rooted) :
    (s.step .sync).Truthful := by
  have hsynced := sync_synced s.space.content s.copy hrooted
  unfold Truthful step
  simp only
  generalize s.copy.sync s.space.content s.files = done at hsynced ⊢
  obtain ⟨copy, files⟩ := done
  cases hsynced with
  | current => exact h
  | replaced _ read =>
    rintro hash ⟨⟩
    exact ⟨s.space.content, rfl, read⟩
  | refused _ _ entry =>
    intro hash hwritten
    obtain ⟨content, hhash, hread⟩ := h hash hwritten
    obtain ⟨modified, hentry⟩ := FileTree.read_eq_ok_iff.mp hread
    -- What has been written is there to be read, so the path does not lead to nothing.
    have hsame : files.reached? s.copy.path = s.files.reached? s.copy.path := by
      refine entry.resolve_right fun hdetours => ?_
      rw [hdetours.nothing] at hentry
      cases hentry
    exact ⟨content, hhash, FileTree.read_eq_ok_iff.mpr ⟨modified, hsame.trans hentry⟩⟩

/-- The memory stays right as long as nobody else touches the file. -/
theorem Truthful.run {s : Scene κ} (h : s.Truthful) (hrooted : s.files.Rooted)
    {events : List Event} (hevents : s.Undisturbed events) : (s.run events).Truthful := by
  induction events generalizing s with
  | nil => exact h
  | cons event rest ih =>
    cases event with
    | publish content => exact ih h hrooted hevents
    | sync => exact ih (h.sync hrooted) (step_rooted hrooted .sync) hevents
    | others change =>
      obtain ⟨hread, hrest⟩ := hevents
      refine ih (fun hash hwritten => ?_) (change.rooted s.files hrooted) hrest
      obtain ⟨content, hhash, hcontent⟩ := h hash hwritten
      exact ⟨content, hhash, hread.trans hcontent⟩

end Scene

/-! ## All or nothing -/

/-- Whatever has been published, written, made and removed since an export was made, a look at it
finds the current content written last and changes nothing; or it leaves exactly the current content
in the file and remembers its hash; or it fails, at whichever step, and then the path leads to what
it led to before, nothing is remembered, and the next look tries again.  But for this file only the
temporary one is touched, and no directory is removed.

Only a path with `..` in it that leads to nothing, and whose directory is missing as well, may lead
to something after a failure: the directories on the way are made first. -/
theorem sync_all_or_nothing (path : FilePath) (space : Dataspace κ) {files : FileTree}
    (hrooted : files.Rooted) (events : List Event) :
    let s := Scene.run { space, copy := { path }, files } events
    Synced s.space.content s.copy s.files (s.step .sync).copy (s.step .sync).files := by
  intro s
  have hfiles : s.files.Rooted := Scene.run_rooted hrooted events
  exact sync_synced s.space.content s.copy hfiles

namespace Blocked

/-- A module without a default, exported to a path under which others have made a directory. -/
def scene : Scene Unit :=
  { space := Dataspace.new ⟨"exported", by decide⟩ none, copy := { path := ⟨"out"⟩ }, files := {} }

/-- The path is a file's first; that is removed, and a directory takes its place. -/
def events : List Event :=
  [.others (.write ⟨"out"⟩ [0]), .others (.remove ⟨"out"⟩), .others (.createDirectory ⟨"out"⟩),
    .publish [1, 2]]

theorem rooted : scene.files.Rooted := by
  refine ⟨fun {place name node} hnode => ?_⟩
  have hne : place ++ [name] ≠ [] := by simp
  simp [scene, FileTree.node?, hne] at hnode

end Blocked

/-- The look is refused; the directory stays, and nothing is remembered. -/
theorem blocked_export_refused :
    let s := Blocked.scene.run Blocked.events
    Synced [1, 2] s.copy s.files (s.step .sync).copy (s.step .sync).files ∧
      (s.step .sync).copy.written = none ∧
      (s.step .sync).files.reached? s.copy.path = some .directory :=
  ⟨sync_all_or_nothing Blocked.scene.copy.path Blocked.scene.space Blocked.rooted Blocked.events,
    by decide +kernel, by decide +kernel⟩

/-- The directory on the way to `d/../d` is the path's own destination.  It is made, and then in the
way of the file: the path leads to a directory where it led to nothing. -/
theorem detour_makes_its_own_entry :
    let e : Export := { path := ⟨"d/../d"⟩ }
    let files : FileTree := {}
    let done := e.sync [1, 2] files
    ¬ e.written = some (ContentHash.of [1, 2]) ∧
      ¬ (done.2.read e.path = .ok [1, 2] ∧ done.1.written = some (ContentHash.of [1, 2])) ∧
      ¬ (done.2.reached? e.path = files.reached? e.path ∧ done.1.written = e.written) := by
  intro e files done
  have hwritten : done.1.written = none := by decide +kernel
  have hbefore : files.reached? e.path = none := by decide +kernel
  have hafter : done.2.reached? e.path = some .directory := by decide +kernel
  rw [hwritten, hbefore, hafter]
  refine ⟨nofun, ?_, ?_⟩
  · rintro ⟨-, ⟨⟩⟩
  · rintro ⟨⟨⟩, -⟩

end RomCast.Export
