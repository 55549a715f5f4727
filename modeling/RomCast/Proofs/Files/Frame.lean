import RomCast.Files.Tree

set_option autoImplicit false

/-!
# What file operations leave alone

Where a path leads to is fixed by its text and the working directory: what stands in the tree only
decides whether it can be followed (`place_eq`).  So an operation changes the locations that its
paths name and no others.  For each operation there is one lemma that says all that it can do, and
one that says what it leaves alone.
-/

namespace RomCast

/-- The location that a path leads to, if it can be followed. -/
def FilePath.destination (p : FilePath) (workingDirectory : Location) : Location :=
  p.parts.foldl FileTree.child (if p.isAbsolute then [] else workingDirectory)

namespace FileTree

/-! ## Following paths -/

theorem follow_eq {t : FileTree} {here location : Location} {names : List String}
    (h : t.follow here names = .ok location) : location = names.foldl child here := by
  induction names generalizing here with
  | nil => exact (Except.ok.inj h).symm
  | cons name rest ih =>
    rw [follow] at h
    cases hnode : t.node? here with
    | none => simp [hnode] at h
    | some node =>
      cases node with
      | file content modified => simp [hnode] at h
      | directory =>
        simp only [hnode] at h
        split at h
        · cases h
        · exact ih h

/-- A path leads to its destination, whatever the tree holds. -/
theorem place_eq {t : FileTree} {p : FilePath} {location : Location}
    (h : t.place p = .ok location) : location = p.destination t.workingDirectory := by
  unfold place at h
  cases hrefusal : refusal? p with
  | some cause => simp [hrefusal] at h
  | none =>
    simp only [hrefusal] at h
    exact follow_eq h

/-- A path that leads somewhere can be followed; no slash is behind the name of a file. -/
theorem place_of_locate {t : FileTree} {p : FilePath} {location : Location}
    (h : t.locate p = .ok location) :
    t.place p = .ok location ∧
      ∀ content modified, t.node? location = some (.file content modified) →
        p.endsInSlash = false := by
  unfold locate at h
  cases hplace : t.place p with
  | error cause => simp [hplace, bind, Except.bind] at h
  | ok place =>
    simp only [hplace, bind, Except.bind] at h
    split at h
    · cases hslash : p.endsInSlash with
      | true =>
        rw [hslash] at h
        cases h
      | false =>
        rw [hslash] at h
        obtain rfl := Except.ok.inj h
        exact ⟨rfl, fun _ _ _ => rfl⟩
    · next hnot =>
      obtain rfl := Except.ok.inj h
      exact ⟨rfl, fun content modified hfile => absurd hfile (hnot content modified)⟩

/-- A path without a slash at its end leads to wherever it can be followed. -/
theorem locate_of_place {t : FileTree} {p : FilePath} {location : Location}
    (h : t.place p = .ok location) (hslash : p.endsInSlash = false) :
    t.locate p = .ok location := by
  unfold locate
  simp only [h, bind, Except.bind, hslash, Bool.false_eq_true, if_false]
  split <;> rfl

theorem locate_eq {t : FileTree} {p : FilePath} {location : Location}
    (h : t.locate p = .ok location) : location = p.destination t.workingDirectory :=
  place_eq (place_of_locate h).1

/-! ## Changing one location -/

theorem lookup_filter (entries : List (Location × FileNode)) (keep : Location → Bool)
    {location : Location} (h : keep location = true) :
    (entries.filter fun entry => keep entry.1).lookup location = entries.lookup location := by
  induction entries with
  | nil => rfl
  | cons entry rest ih =>
    obtain ⟨key, node⟩ := entry
    cases hkey : location == key with
    | true =>
      have hkept : keep key = true := by rw [← eq_of_beq hkey, h]
      rw [List.filter_cons, if_pos hkept, List.lookup_cons, List.lookup_cons, hkey]
    | false =>
      rw [List.lookup_cons, hkey, ← ih, List.filter_cons]
      split
      · rw [List.lookup_cons, hkey]
      · rfl

@[simp] theorem workingDirectory_put (t : FileTree) (location : Location) (node : FileNode) :
    (t.put location node).workingDirectory = t.workingDirectory := rfl

theorem node?_put_of_ne (t : FileTree) {location other : Location} (node : FileNode)
    (h : other ≠ location) : (t.put location node).node? other = t.node? other := by
  have hkept : (decide (other ≠ location)) = true := by simpa using h
  have hne : (other == location) = false := by simpa using h
  have hlookup := lookup_filter t.nodes (fun key => decide (key ≠ location)) hkept
  simp only [node?, put, List.lookup_append, hlookup, List.lookup_cons, hne, List.lookup_nil,
    Option.or_none]

theorem node?_put_self (t : FileTree) {location : Location} (node : FileNode)
    (h : location ≠ []) : (t.put location node).node? location = some node := by
  have hgone : (t.nodes.filter fun entry => decide (entry.1 ≠ location)).lookup location = none := by
    rw [List.lookup_eq_none_iff]
    intro entry hentry
    have hkept := (List.mem_filter.mp hentry).2
    simpa using Ne.symm (of_decide_eq_true hkept)
  simp only [node?, put, if_neg h, List.lookup_append, hgone, List.lookup_cons, beq_self_eq_true,
    Option.none_or]

theorem node?_removeAt (t : FileTree) {location other : Location} (h : ¬ location <+: other) :
    (t.removeAt location).node? other = t.node? other := by
  have hkept : (!location.isPrefixOf other) = true := by
    rw [Bool.not_eq_true', ← Bool.not_eq_true, List.isPrefixOf_iff_prefix]
    exact h
  have hlookup := lookup_filter t.nodes (fun key => !location.isPrefixOf key) hkept
  simp only [node?, removeAt, hlookup]

/-! ## What an operation can do -/

/-- A file can be put under a path: the path can be followed, ends in a name, and leads to no
directory. -/
structure Accepts (t : FileTree) (p : FilePath) : Prop where
  place : t.place p = .ok (p.destination t.workingDirectory)
  slash : p.endsInSlash = false
  free : t.node? (p.destination t.workingDirectory) ≠ some .directory

theorem Accepts.ne_root {t : FileTree} {p : FilePath} (h : t.Accepts p) :
    p.destination t.workingDirectory ≠ [] := by
  intro hroot
  apply h.free
  rw [hroot]
  rfl

/-- Writing is refused and changes nothing, or puts the file at its destination. -/
theorem write_cases (p : FilePath) (content : Bytes) (t : FileTree) :
    (∃ cause, write p content t = .error cause t) ∨
      t.Accepts p ∧ write p content t =
        .ok () (t.put (p.destination t.workingDirectory) (.file content t.now)) := by
  rw [write, Action.bind_apply, Action.get_apply]
  simp only [Action.ofExcept_bind_apply]
  cases hlocate : t.locate p with
  | error cause => exact Or.inl ⟨cause, rfl⟩
  | ok location =>
    obtain ⟨hplace, hfile⟩ := place_of_locate hlocate
    obtain rfl := place_eq hplace
    simp only
    cases hnode : t.node? (p.destination t.workingDirectory) with
    | none =>
      cases hslash : p.endsInSlash with
      | true => exact Or.inl ⟨_, rfl⟩
      | false => exact Or.inr ⟨⟨hplace, hslash, by simp [hnode]⟩, rfl⟩
    | some node =>
      cases node with
      | directory => exact Or.inl ⟨_, rfl⟩
      | file old modified =>
        exact Or.inr ⟨⟨hplace, hfile old modified hnode, by simp [hnode]⟩, rfl⟩

/-- Making a directory changes nothing, or puts a directory where nothing was. -/
theorem createDirectory_cases (p : FilePath) (t : FileTree) :
    (createDirectory p).state t = t ∨
      t.place p = .ok (p.destination t.workingDirectory) ∧
        t.node? (p.destination t.workingDirectory) = none ∧
        (createDirectory p).state t = t.put (p.destination t.workingDirectory) .directory := by
  rw [Action.state, createDirectory, Action.bind_apply, Action.get_apply]
  simp only [Action.ofExcept_bind_apply]
  cases hplace : t.place p with
  | error cause => exact Or.inl rfl
  | ok location =>
    obtain rfl := place_eq hplace
    simp only
    cases t.node? (p.destination t.workingDirectory) with
    | none => exact Or.inr ⟨trivial, rfl, rfl⟩
    | some node =>
      cases node with
      | directory => exact Or.inl rfl
      | file old modified => exact Or.inl rfl

theorem createNested_cons (p : FilePath) (outer : List FilePath) (t : FileTree) :
    createNested (p :: outer) t =
      if p.components.isEmpty then .ok () t
      else match createDirectory p t with
        | .error .noEntry t' => (createNested outer >>= fun _ => createDirectory p) t'
        | answer => answer := rfl

/-- Making directories changes nothing, or makes the first one, or makes the ones that it lies in
when they are missing and then tries again. -/
theorem createNested_cases (p : FilePath) (outer : List FilePath) (t : FileTree) :
    (createNested (p :: outer)).state t = t ∨
      (createNested (p :: outer)).state t = (createDirectory p).state t ∨
      ∃ t', createDirectory p t = .error .noEntry t' ∧
        (createNested (p :: outer)).state t =
          (createNested outer >>= fun _ => createDirectory p).state t' := by
  have heq := createNested_cons p outer t
  by_cases hempty : p.components.isEmpty = true
  · rw [if_pos hempty] at heq
    exact Or.inl (Action.state_of_ok heq)
  · rw [if_neg hempty] at heq
    cases hmade : createDirectory p t with
    | ok _ t' =>
      rw [hmade] at heq
      rw [Action.state_of_ok heq, Action.state_of_ok hmade]
      exact Or.inr (Or.inl rfl)
    | error cause t' =>
      rw [hmade] at heq
      by_cases hmissing : cause = .noEntry
      · subst hmissing
        exact Or.inr (Or.inr ⟨t', rfl, by rw [Action.state, heq]; rfl⟩)
      · have hrefused : createNested (p :: outer) t = .error cause t' := by
          rw [heq]
          split
          · next t'' hcause => exact absurd (EStateM.Result.error.inj hcause).1 hmissing
          · rfl
        rw [Action.state_of_error hrefused, Action.state_of_error hmade]
        exact Or.inr (Or.inl rfl)

/-- Renaming is refused and changes nothing, or moves a file to its new destination. -/
theorem rename_cases (source target : FilePath) (t : FileTree) :
    (∃ cause, rename source target t = .error cause t) ∨
      ∃ content modified,
        t.node? (source.destination t.workingDirectory) = some (.file content modified) ∧
        t.Accepts target ∧
        rename source target t =
          .ok () ((t.removeAt (source.destination t.workingDirectory)).put
            (target.destination t.workingDirectory) (.file content modified)) := by
  rw [rename, Action.bind_apply, Action.get_apply]
  simp only [Action.ofExcept_bind_apply]
  cases hsource : t.locate source with
  | error cause => exact Or.inl ⟨cause, rfl⟩
  | ok origin =>
    obtain rfl := locate_eq hsource
    simp only
    cases horigin : t.node? (source.destination t.workingDirectory) with
    | none => exact Or.inl ⟨_, rfl⟩
    | some node =>
      cases node with
      | directory => exact Or.inl ⟨_, rfl⟩
      | file content modified =>
        simp only [Action.ofExcept_bind_apply]
        cases htarget : t.locate target with
        | error cause => exact Or.inl ⟨cause, rfl⟩
        | ok location =>
          obtain ⟨hplace, hfile⟩ := place_of_locate htarget
          obtain rfl := place_eq hplace
          simp only
          cases hthere : t.node? (target.destination t.workingDirectory) with
          | none =>
            cases hslash : target.endsInSlash with
            | true => exact Or.inl ⟨_, rfl⟩
            | false =>
              exact Or.inr ⟨content, modified, rfl, ⟨hplace, hslash, by simp [hthere]⟩, rfl⟩
          | some there =>
            cases there with
            | directory => exact Or.inl ⟨_, rfl⟩
            | file old time =>
              exact Or.inr ⟨content, modified, rfl,
                ⟨hplace, hfile old time hthere, by simp [hthere]⟩, rfl⟩

/-! ## What an operation leaves alone -/

/-- Where relative paths begin, and what stands at one location. -/
structure Standing (workingDirectory location : Location) (node : Option FileNode)
    (t : FileTree) : Prop where
  base : t.workingDirectory = workingDirectory
  node : t.node? location = node

variable {base place : Location} {node : Option FileNode}

/-- Putting something elsewhere. -/
theorem Standing.put {t : FileTree} (h : Standing base place node t) {location : Location}
    (hne : location ≠ place) (other : FileNode) : Standing base place node (t.put location other) :=
  ⟨h.base, (node?_put_of_ne t other (Ne.symm hne)).trans h.node⟩

theorem Standing.removeAt {t : FileTree} (h : Standing base place node t) {location : Location}
    (hne : ¬ location <+: place) : Standing base place node (t.removeAt location) :=
  ⟨h.base, (node?_removeAt t hne).trans h.node⟩

theorem write_keeps {p : FilePath} (content : Bytes) (hp : p.destination base ≠ place) :
    Action.Keeps (Standing base place node) (write p content) := by
  intro t ht
  rcases write_cases p content t with ⟨cause, hrefused⟩ | ⟨-, hwritten⟩
  · rw [Action.state_of_error hrefused]
    exact ht
  · rw [Action.state_of_ok hwritten]
    apply ht.put
    rw [ht.base]
    exact hp

theorem createDirectory_keeps {p : FilePath} (hp : p.destination base ≠ place) :
    Action.Keeps (Standing base place node) (createDirectory p) := by
  intro t ht
  rcases createDirectory_cases p t with hsame | ⟨-, -, hmade⟩
  · rw [hsame]
    exact ht
  · rw [hmade]
    apply ht.put
    rw [ht.base]
    exact hp

theorem createNested_keeps {paths : List FilePath}
    (hpaths : ∀ p ∈ paths, p.destination base ≠ place) :
    Action.Keeps (Standing base place node) (createNested paths) := by
  induction paths with
  | nil => exact Action.keeps_pure _ ()
  | cons p outer ih =>
    obtain ⟨hp, houter⟩ := List.forall_mem_cons.mp hpaths
    intro t ht
    have hmake : Action.Keeps (Standing base place node) (createDirectory p) :=
      createDirectory_keeps hp
    have hfirst := hmake t ht
    rcases createNested_cases p outer t with hsame | hmade | ⟨t', hmissing, hretried⟩
    · rw [hsame]
      exact ht
    · rw [hmade]
      exact hfirst
    · rw [Action.state_of_error hmissing] at hfirst
      rw [hretried]
      exact (ih houter).bind (fun _ => hmake) t' hfirst

theorem rename_keeps {source target : FilePath} (hsource : ¬ source.destination base <+: place)
    (htarget : target.destination base ≠ place) :
    Action.Keeps (Standing base place node) (rename source target) := by
  intro t ht
  rcases rename_cases source target t with ⟨cause, hrefused⟩ | ⟨content, modified, -, -, hmoved⟩
  · rw [Action.state_of_error hrefused]
    exact ht
  · rw [Action.state_of_ok hmoved, ht.base]
    exact (ht.removeAt hsource).put htarget _

end FileTree

end RomCast
