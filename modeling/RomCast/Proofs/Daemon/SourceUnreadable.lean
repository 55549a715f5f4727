import RomCast.Proofs.Daemon.SourceServed

set_option autoImplicit false

/-!
# Sources that cannot be read

A look at a source may find no file that it could read.  When nothing is there at all, the content
that came from the file goes and the default is served again.  When something else is in the way, a
directory in the file's place or a file in the place of one of its directories, the look changes
nothing, and what was read last is served on.  So a look that cannot read serves the default exactly
when the path is missing or nothing is held that serves anything else
(`Source.unreadable_serves_default_iff`).

Which version is held follows from what the looks have found (`Source.heldAfter`), whatever happened
to the file in between: this is the invariant of a run (`Source.Mirrors.refreshAll`).
-/

namespace RomCast.Source

variable {path : FilePath} {binary : Bool} {default : Option Bytes} {files : FileTree}
  {held : Option (Bytes × Nat)} {s : Source} {p : Publication}

/-- The version that is held after one more look: the file that it has found, unless the stamp is
the known one; nothing when the path is missing; and what was held before when it cannot be read. -/
def keep (held : Option (Bytes × Nat)) : Except SystemError FileNode → Option (Bytes × Nat)
  | .ok (.file content modified) =>
      if stampOf? held = some (stampOf content modified) then held else some (content, modified)
  | .error .noEntry => none
  | _ => held

/-- The version that is held after a look at each of these trees. -/
def heldAfter (path : FilePath) (trees : List FileTree) : Option (Bytes × Nat) :=
  trees.foldl (fun held files => keep held (files.stat path)) none

/-! ## One look -/

theorem keep_error {cause : SystemError} (h : cause ≠ .noEntry) :
    keep held (.error cause) = held := by
  unfold keep
  split
  · next hfile => cases hfile
  · next hmissing => exact absurd (Except.error.inj hmissing) h
  · rfl

/-- A look at something that is there and cannot be read changes nothing. -/
theorem refresh_of_unreadable (hunreadable : sighted? s.path files = none)
    (hthere : files.stat s.path ≠ .error .noEntry) (p : Publication) :
    s.refresh files p = (false, s, p) := by
  unfold refresh
  cases hstat : files.stat s.path with
  | ok node =>
    cases node with
    | directory => rfl
    | file content modified => simp [sighted?, hstat] at hunreadable
  | error cause =>
    have hcause : cause ≠ .noEntry := by
      rintro rfl
      exact hthere hstat
    exact if_neg hcause

/-- After a look, the version is held that follows from what it has found. -/
theorem Mirrors.look (h : Mirrors path binary default held s p) (files : FileTree) :
    Mirrors path binary default (keep held (files.stat path)) (s.refresh files p).2.1
      (s.refresh files p).2.2 := by
  have hpath := h.looks
  cases hstat : files.stat path with
  | ok node =>
    cases node with
    | directory =>
      have hrefresh : s.refresh files p = (false, s, p) :=
        refresh_of_unreadable (by simp [sighted?, hpath, hstat]) (by simp [hpath, hstat]) p
      rw [hrefresh]
      exact h
    | file content modified =>
      by_cases hknown : stampOf? held = some (stampOf content modified)
      · have hrefresh : s.refresh files p = (false, s, p) := by
          rw [Source.refresh, hpath, hstat]
          exact if_pos (h.stamp.trans hknown)
        rw [hrefresh, keep, if_pos hknown]
        exact h
      · have hrefresh : s.refresh files p = ((p.update content).1,
            { s with stamp := some (stampOf content modified) }, (p.update content).2) := by
          rw [Source.refresh, hpath, hstat]
          exact if_neg fun hstamp => hknown (h.stamp.symm.trans hstamp)
        rw [hrefresh, keep, if_neg hknown]
        exact h.withLive (some (content, modified))
  | error cause =>
    by_cases hmissing : cause = .noEntry
    · subst hmissing
      exact h.refresh_missing hstat
    · have hrefresh : s.refresh files p = (false, s, p) :=
        refresh_of_unreadable (by simp [sighted?, hpath, hstat])
          (by simp [hpath, hstat, hmissing]) p
      rw [hrefresh, keep_error hmissing]
      exact h

/-! ## Look after look -/

theorem Mirrors.refreshAll (h : Mirrors path binary default held s p) (trees : List FileTree) :
    Mirrors path binary default (trees.foldl (fun held files => keep held (files.stat path)) held)
      (Source.refreshAll trees s p).1 (Source.refreshAll trees s p).2 := by
  induction trees generalizing held s p with
  | nil => exact h
  | cons files rest ih => exact ih (h.look files)

/-- After any looks, anything having happened to the file in between, a look finds no file that it
could read.  If the path is missing, the default is served then.  Otherwise the look leaves all as
it was; and so the default is served exactly when the path is missing, or when no version is held
from the looks before, or one that serves the same bytes. -/
theorem unreadable_serves_default_iff (path : FilePath) (name : ModuleName) (binary : Bool)
    (default : Option Bytes) (before : List FileTree) (files : FileTree)
    (hunreadable : sighted? path files = none) :
    let state := refreshAll before { path } (Publication.new name binary default)
    let look := state.1.refresh files state.2
    let fallback := Publication.effective binary (default.getD [])
    (files.stat path = .error .noEntry → look.2.2.content = fallback) ∧
    (files.stat path ≠ .error .noEntry → look = (false, state)) ∧
    (look.2.2.content = fallback ↔ files.stat path = .error .noEntry ∨
      ∀ version ∈ heldAfter path before, Publication.effective binary version.1 = fallback) := by
  intro state look fallback
  have hstate : Mirrors path binary default (heldAfter path before) state.1 state.2 :=
    (mirrors_new path name binary default).refreshAll before
  have hmissing : files.stat path = .error .noEntry → look.2.2.content = fallback :=
    fun hstat => (hstate.refresh_missing hstat).content
  have hblocked : files.stat path ≠ .error .noEntry → look = (false, state) := by
    intro hthere
    rw [← hstate.looks] at hthere hunreadable
    exact refresh_of_unreadable hunreadable hthere state.2
  refine ⟨hmissing, hblocked, ?_⟩
  by_cases hstat : files.stat path = .error .noEntry
  · exact iff_of_true (hmissing hstat) (Or.inl hstat)
  · have hcontent := hstate.content
    rw [hblocked hstat, or_iff_right hstat]
    show state.2.content = fallback ↔ _
    rw [hcontent]
    cases heldAfter path before with
    | none => exact iff_of_true rfl nofun
    | some version => exact ⟨by rintro h _ ⟨⟩; exact h, fun h => h version rfl⟩

namespace Covered

/-- A directory in the place of the file. -/
def tree : FileTree := { nodes := [(["motd"], .directory)] }

end Covered

/-- A text is read, and then a directory takes the file's place: the default is not served. -/
theorem covered_file_served_on :
    sighted? Returning.file Covered.tree = none ∧
      Covered.tree.stat Returning.file ≠ .error .noEntry ∧
      let state := refreshAll [Returning.tree [0x61, 0x00, 0x62] 7] { path := Returning.file }
        (Publication.new Returning.name false (some [0x7A]))
      let look := state.1.refresh Covered.tree state.2
      look = (false, state) ∧ look.2.2.content ≠ Publication.effective false [0x7A] := by
  have hunreadable : sighted? Returning.file Covered.tree = none := by decide +kernel
  have hthere : Covered.tree.stat Returning.file ≠ .error .noEntry := by decide +kernel
  obtain ⟨-, hblocked, hiff⟩ := unreadable_serves_default_iff Returning.file Returning.name false
    (some [0x7A]) [Returning.tree [0x61, 0x00, 0x62] 7] Covered.tree hunreadable
  have hheld : heldAfter Returning.file [Returning.tree [0x61, 0x00, 0x62] 7] =
      some ([0x61, 0x00, 0x62], 7) := by decide +kernel
  refine ⟨hunreadable, hthere, hblocked hthere, ?_⟩
  intro hdefault
  rcases hiff.mp hdefault with hmissing | hsame
  · exact hthere hmissing
  · have hbytes := hsame _ hheld
    exact absurd hbytes (by decide)

end RomCast.Source
