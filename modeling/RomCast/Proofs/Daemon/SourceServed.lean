import RomCast.Proofs.Daemon.Refreshing

set_option autoImplicit false

/-!
# The source file is what is served

A source looks at its path again and again, and whatever may happen to the file in between, each
look finds a regular file or nothing.  A file is read again only when its time or its length is
another one, so a change that shows in neither is missed.  Where two looks in a row that find other
bytes find another stamp as well, the publication serves after each look what that look has found,
or its default when it has found nothing, and the look says that the content has changed exactly
when its hash has (`Source.refreshes_serve`).

The stamp and the live content go together: both are those of the file that was found last
(`Source.Mirrors`).  A look that finds nothing forgets the stamp, so a file that comes back is read
even if it comes back with the stamp that it had.
-/

namespace RomCast.Source

variable {path : FilePath} {binary : Bool} {default : Option Bytes} {files : FileTree}
  {found : Option (Bytes × Nat)} {s : Source} {p : Publication}

/-! ## Sightings -/

/-- The bytes of the file under a path and the time of its last change, if there is a file. -/
def sighted? (path : FilePath) (files : FileTree) : Option (Bytes × Nat) :=
  match files.stat path with
  | .ok (.file content modified) => some (content, modified)
  | _ => none

/-- There is a file under the path, or nothing at all. -/
def Plain (path : FilePath) (files : FileTree) : Prop :=
  files.stat path = .error .noEntry ∨ (sighted? path files).isSome = true

/-- The stamp of a file that was sighted. -/
def stampOf? (found : Option (Bytes × Nat)) : Option (Nat × Nat) :=
  found.map fun file => stampOf file.1 file.2

/-- A file that holds other bytes than at the look before has another stamp than it had then. -/
def Restamped (earlier later : Option (Bytes × Nat)) : Prop :=
  ∀ file ∈ earlier, ∀ file' ∈ later, file.1 ≠ file'.1 →
    stampOf file.1 file.2 ≠ stampOf file'.1 file'.2

/-- Before the first look nothing has been found, which the first look need not differ from. -/
theorem isChain_none_cons {sightings : List (Option (Bytes × Nat))}
    (h : sightings.IsChain Restamped) : (none :: sightings).IsChain Restamped := by
  cases sightings with
  | nil => exact .singleton none
  | cons first rest =>
    refine List.isChain_cons_cons.mpr ⟨?_, h⟩
    rintro file ⟨⟩

theorem stat_of_sighted {content : Bytes} {modified : Nat}
    (h : sighted? path files = some (content, modified)) :
    files.stat path = .ok (.file content modified) := by
  unfold sighted? at h
  split at h
  · next content' modified' hstat =>
    cases h
    exact hstat
  · cases h

theorem Plain.stat_of_missing (h : Plain path files) (hmissing : sighted? path files = none) :
    files.stat path = .error .noEntry := by
  refine h.resolve_right ?_
  rw [hmissing]
  exact Bool.false_ne_true

/-! ## One look -/

/-- A source and its publication hold what was found last: the stamp is that of the file, and the
live content is its bytes; without a file there is neither. -/
structure Mirrors (path : FilePath) (binary : Bool) (default : Option Bytes)
    (found : Option (Bytes × Nat)) (s : Source) (p : Publication) : Prop where
  looks : s.path = path
  stamp : s.stamp = stampOf? found
  live : p.live = found.map Prod.fst
  kind : p.binary = binary
  fallback : p.default = default
  content : p.content = Publication.served binary default (found.map Prod.fst)

/-- A source that has not looked yet, and a publication that has been given nothing. -/
theorem mirrors_new (path : FilePath) (name : ModuleName) (binary : Bool)
    (default : Option Bytes) :
    Mirrors path binary default none { path } (Publication.new name binary default) :=
  ⟨rfl, rfl, rfl, rfl, rfl, rfl⟩

/-- Live content that is replaced leaves the rest of a publication to follow. -/
theorem Mirrors.withLive (h : Mirrors path binary default found s p)
    (found' : Option (Bytes × Nat)) :
    Mirrors path binary default found' { s with stamp := stampOf? found' }
      (p.withLive (found'.map Prod.fst)) := by
  refine ⟨h.looks, rfl, rfl, h.kind, h.fallback, ?_⟩
  rw [← h.kind, ← h.fallback]
  rfl

/-- A look finds a file: it is read unless its stamp is the known one, and then it holds the bytes
that are known already. -/
theorem Mirrors.refresh_file (h : Mirrors path binary default found s p) {content : Bytes}
    {modified : Nat} (hsighted : sighted? path files = some (content, modified))
    (hrestamped : Restamped found (some (content, modified))) :
    Mirrors path binary default (some (content, modified)) (s.refresh files p).2.1
      (s.refresh files p).2.2 := by
  have hstat : files.stat s.path = .ok (.file content modified) := by
    rw [h.looks]
    exact stat_of_sighted hsighted
  by_cases hknown : s.stamp = some (stampOf content modified)
  · have hrefresh : s.refresh files p = (false, s, p) := by
      rw [refresh, hstat]
      exact if_pos hknown
    rw [h.stamp] at hknown
    obtain ⟨file, rfl, hstamp⟩ := Option.map_eq_some_iff.mp hknown
    have hsame : file.1 = content := by
      by_contra hother
      exact hrestamped file rfl _ rfl hother hstamp
    rw [hrefresh]
    refine ⟨h.looks, h.stamp.trans hknown, ?_, h.kind, h.fallback, ?_⟩
    · rw [h.live, Option.map_some, hsame]
      rfl
    · rw [h.content, Option.map_some, hsame]
      rfl
  · have hrefresh : s.refresh files p = ((p.update content).1,
        { s with stamp := some (stampOf content modified) }, (p.update content).2) := by
      rw [refresh, hstat]
      exact if_neg hknown
    rw [hrefresh]
    exact h.withLive (some (content, modified))

/-- A look finds nothing: the stamp is forgotten, and the content that came from the file goes. -/
theorem Mirrors.refresh_missing (h : Mirrors path binary default found s p)
    (hmissing : files.stat path = .error .noEntry) :
    Mirrors path binary default none (s.refresh files p).2.1 (s.refresh files p).2.2 := by
  have hrefresh : s.refresh files p = s.lose p := by
    rw [refresh, h.looks, hmissing]
    exact if_pos rfl
  rw [hrefresh]
  cases found with
  | none =>
    have hlose : s.lose p = (false, s, p) := by
      rw [lose, h.stamp]
      rfl
    rw [hlose]
    exact h
  | some file =>
    have hlose : s.lose p = (p.clear.1, { s with stamp := none }, p.clear.2) := by
      rw [lose, h.stamp]
      rfl
    have hclear : p.clear.2 = p.withLive none := by
      rw [Publication.clear, h.live]
      rfl
    rw [hlose, hclear]
    exact h.withLive none

/-- After a look, what it has found is held. -/
theorem Mirrors.refresh (h : Mirrors path binary default found s p) (hplain : Plain path files)
    (hrestamped : Restamped found (sighted? path files)) :
    Mirrors path binary default (sighted? path files) (s.refresh files p).2.1
      (s.refresh files p).2.2 := by
  cases hsighted : sighted? path files with
  | none => exact h.refresh_missing (hplain.stat_of_missing hsighted)
  | some file =>
    rw [hsighted] at hrestamped
    exact h.refresh_file hsighted hrestamped

/-! ## Look after look -/

/-- A source and its publication after one look at each of these trees. -/
def refreshAll (trees : List FileTree) (s : Source) (p : Publication) : Source × Publication :=
  trees.foldl (fun state files => (state.1.refresh files state.2).2) (s, p)

/-- However many looks there were before, the next one finds what is held after it. -/
theorem Mirrors.after (h : Mirrors path binary default found s p) (before : List FileTree)
    (hplain : ∀ tree ∈ before ++ [files], Plain path tree)
    (hrestamped : (found :: (before ++ [files]).map (sighted? path)).IsChain Restamped) :
    let state := refreshAll before s p
    Mirrors path binary default (sighted? path files) (state.1.refresh files state.2).2.1
      (state.1.refresh files state.2).2.2 := by
  induction before generalizing found s p with
  | nil =>
    obtain ⟨hfirst, -⟩ := List.isChain_cons_cons.mp hrestamped
    exact h.refresh (hplain files List.mem_cons_self) hfirst
  | cons tree rest ih =>
    obtain ⟨hfirst, hrest⟩ := List.isChain_cons_cons.mp hrestamped
    have hlook := h.refresh (hplain tree List.mem_cons_self) hfirst
    exact ih hlook (fun later hlater => hplain later (List.mem_cons_of_mem _ hlater)) hrest

theorem refreshAll_honest (h : p.Honest) (trees : List FileTree) :
    (refreshAll trees s p).2.Honest := by
  induction trees generalizing s p with
  | nil => exact h
  | cons files rest ih => exact ih (refresh_honest h)

/-- A look and another one may come at any time, and anything may happen to the file in between, as
long as each look finds a regular file or nothing and no two looks in a row find other bytes under
the same stamp.  Then what is served after a look is the file that the look has found, or the
default if it has found none; and the look says that the content has changed exactly when the hash
of what is served has. -/
theorem refreshes_serve (path : FilePath) (name : ModuleName) (binary : Bool)
    (default : Option Bytes) (before : List FileTree) (files : FileTree)
    (hplain : ∀ tree ∈ before ++ [files], Plain path tree)
    (hrestamped : ((before ++ [files]).map (sighted? path)).IsChain Restamped) :
    let state := refreshAll before { path } (Publication.new name binary default)
    let look := state.1.refresh files state.2
    look.2.2.content = Publication.effective binary
      (match sighted? path files with
        | some (content, _) => content
        | none => default.getD []) ∧
    look.2.2.hash = ContentHash.of look.2.2.content ∧
    (look.1 = true ↔ ContentHash.of state.2.content ≠ ContentHash.of look.2.2.content) := by
  intro state look
  have hmirrors := (mirrors_new path name binary default).after before hplain
    (isChain_none_cons hrestamped)
  have hhonest : state.2.Honest :=
    refreshAll_honest (Publication.new_honest name binary default) before
  have hhonest' : look.2.2.Honest := refresh_honest hhonest
  refine ⟨hmirrors.content.trans ?_, hhonest', ?_⟩
  · cases sighted? path files <;> rfl
  · have hchanged : look.1 = decide (state.2.hash ≠ look.2.2.hash) :=
      refresh_changed files state.1 state.2
    rw [hchanged, decide_eq_true_iff, hhonest, hhonest']

namespace Returning

/-- The file of a text module. -/
def file : FilePath := ⟨"motd"⟩

def name : ModuleName := ⟨"motd", by decide⟩

/-- The file with these bytes, last changed at this time. -/
def tree (content : Bytes) (modified : Nat) : FileTree :=
  { nodes := [(["motd"], .file content modified)] }

/-- The file is there, is gone, comes back as old and as long as it was but with other bytes, and is
touched. -/
def before : List FileTree := [tree [0x61, 0x00, 0x62] 7, {}, tree [0x63, 0x64, 0x00] 7]

/-- Then it is written again. -/
def rewritten : FileTree := tree [0x65, 0x00] 9

end Returning

theorem returning_file_served :
    (∀ tree ∈ Returning.before ++ [Returning.rewritten], Plain Returning.file tree) ∧
      ((Returning.before ++ [Returning.rewritten]).map
        (sighted? Returning.file)).IsChain Restamped ∧
      let state := refreshAll Returning.before { path := Returning.file }
        (Publication.new Returning.name false (some [0x7A]))
      let look := state.1.refresh Returning.rewritten state.2
      look.2.2.content = [0x65] ∧
      look.2.2.hash = ContentHash.of look.2.2.content ∧
      (look.1 = true ↔ ContentHash.of state.2.content ≠ ContentHash.of look.2.2.content) := by
  have hplain : ∀ tree ∈ Returning.before ++ [Returning.rewritten], Plain Returning.file tree := by
    unfold Plain
    decide +kernel
  have hrestamped : ((Returning.before ++ [Returning.rewritten]).map
      (sighted? Returning.file)).IsChain Restamped := by
    unfold Restamped
    decide +kernel
  exact ⟨hplain, hrestamped, refreshes_serve Returning.file Returning.name false (some [0x7A])
    Returning.before Returning.rewritten hplain hrestamped⟩

end RomCast.Source
