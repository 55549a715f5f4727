import RomCast.Proofs.Replica.Deeds

set_option autoImplicit false

/-!
# Sessions by their names and by their numbers

A history knows sessions by their names, a dataspace by numbers that it gives out and takes back.
The two agree at every time (`tracks_after`), so that a dataspace signals a capability once for each
name that has it (`Tracks.count_signals`).  Sessions that a signalled capability has attached have
no name, and never get a capability.
-/

namespace RomCast.Observed

/-- The dataspace agrees with what is known of the names.  Each name has a number of its own, under
which the dataspace has attached what is known of the name; and whatever else is attached has no
capability. -/
structure Tracks (module : ModuleName) (known : Standing) (o : Observed) : Prop where
  module : o.replica.space.name = module
  numbered : o.replica.space.Numbered
  names : (o.sessions.map Prod.fst).Nodup
  ids : (o.sessions.map Prod.snd).Nodup
  held : ∀ name id, (name, id) ∈ o.sessions →
    ∃ c, (id, c) ∈ o.replica.space.sessions ∧ known name = some c
  named : ∀ name, known name ≠ none → name ∈ o.sessions.map Prod.fst
  loose : ∀ id c, (id, some c) ∈ o.replica.space.sessions → id ∈ o.sessions.map Prod.snd

section Tracking

variable {module : ModuleName} {known : Standing} {o : Observed}

theorem fresh_tracks (module : ModuleName) (default : Option Bytes) :
    Tracks module (fun _ => none) (fresh module default) := by
  refine ⟨rfl, Dataspace.new_numbered module default, List.nodup_nil, List.nodup_nil, ?_, ?_, ?_⟩
  · intro name id hmem
    cases hmem
  · intro name hknown
    exact absurd rfl hknown
  · intro id c hmem
    cases hmem

theorem Tracks.id_lt (h : Tracks module known o) {name : String} {id : Nat}
    (hmem : (name, id) ∈ o.sessions) : id < o.replica.space.nextId := by
  obtain ⟨c, hattached, -⟩ := h.held name id hmem
  exact h.numbered.used id (List.mem_map_of_mem hattached)

/-- Two sessions under one name are one. -/
theorem Tracks.same_id (h : Tracks module known o) {name : String} {id id' : Nat}
    (hmem : (name, id) ∈ o.sessions) (hmem' : (name, id') ∈ o.sessions) : id = id' :=
  congrArg Prod.snd (List.inj_on_of_nodup_map h.names hmem hmem' rfl)

/-- Two names of one session are one. -/
theorem Tracks.same_name (h : Tracks module known o) {name name' : String} {id : Nat}
    (hmem : (name, id) ∈ o.sessions) (hmem' : (name', id) ∈ o.sessions) : name = name' :=
  congrArg Prod.fst (List.inj_on_of_nodup_map h.ids hmem hmem' rfl)

/-- Two capabilities of one number are one. -/
theorem Tracks.same_capability (h : Tracks module known o) {id : Nat} {c c' : Option Capability}
    (hmem : (id, c) ∈ o.replica.space.sessions) (hmem' : (id, c') ∈ o.replica.space.sessions) :
    c = c' :=
  congrArg Prod.snd (List.inj_on_of_nodup_map h.numbered.nodup hmem hmem' rfl)

theorem mem_of_session? {name : String} {id : Nat} (h : o.session? name = some id) :
    (name, id) ∈ o.sessions := by
  obtain ⟨front, back, hsplit, -⟩ := List.lookup_eq_some_iff.mp h
  rw [hsplit]
  exact List.mem_append_right _ List.mem_cons_self

theorem Tracks.known_of_session? (h : Tracks module known o) {name : String}
    (hnone : o.session? name = none) : known name = none := by
  by_contra hknown
  obtain ⟨⟨name', id⟩, hmem, rfl⟩ := List.mem_map.mp (h.named name hknown)
  have hdiffers := List.lookup_eq_none_iff.mp hnone _ hmem
  simp at hdiffers

/-- What is done to the transfer or to the visible content does not concern the sessions. -/
theorem Tracks.congr (h : Tracks module known o) {o' : Observed}
    (hspace : o'.replica.space = { o.replica.space with foreground := o'.replica.space.foreground })
    (hsessions : o'.sessions = o.sessions) : Tracks module known o' := by
  refine ⟨?_, ?_, ?_, ?_, ?_, ?_, ?_⟩
  · rw [hspace]
    exact h.module
  · rw [hspace]
    exact ⟨h.numbered.nodup, h.numbered.used⟩
  · rw [hsessions]
    exact h.names
  · rw [hsessions]
    exact h.ids
  · rw [hspace, hsessions]
    exact h.held
  · rw [hsessions]
    exact h.named
  · rw [hspace, hsessions]
    exact h.loose

/-- A session without a name has no capability. -/
theorem Tracks.attached (h : Tracks module known o) (label : String) :
    Tracks module known (o.mapSpace (·.attached label)) := by
  show Tracks module known
    { o with replica := { o.replica with space := o.replica.space.attached label } }
  by_cases hlabel : requestedModule label = o.replica.space.name.text
  · have hattached : o.replica.space.attached label =
        { o.replica.space with
          sessions := o.replica.space.sessions ++ [(o.replica.space.nextId, none)]
          nextId := o.replica.space.nextId + 1 } := by
      simp only [Dataspace.attached, Dataspace.attach, if_pos hlabel]
    have hnumbered := h.numbered.attached label
    rw [hattached] at hnumbered ⊢
    refine ⟨h.module, hnumbered, h.names, h.ids, ?_, h.named, ?_⟩
    · intro name id hmem
      obtain ⟨c, hold, hknown⟩ := h.held name id hmem
      exact ⟨c, List.mem_append_left _ hold, hknown⟩
    · intro id c hmem
      rcases List.mem_append.mp hmem with hold | hnew
      · exact h.loose id c hold
      · cases List.mem_singleton.mp hnew
  · have hattached : o.replica.space.attached label = o.replica.space := by
      simp only [Dataspace.attached, Dataspace.attach, if_neg hlabel]
    rw [hattached]
    exact h

theorem Tracks.forget (h : Tracks module known o) (name : String) :
    Tracks module (Function.update known name none) (o.forget name) := by
  cases hsession : o.session? name with
  | none =>
    have hforget : o.forget name = o := by rw [Observed.forget, hsession]
    have hknown := h.known_of_session? hsession
    rw [hforget, ← hknown, Function.update_eq_self]
    exact h
  | some id =>
    have hmem := mem_of_session? hsession
    have hforget : o.forget name =
        { o.mapSpace (·.detach id) with
          sessions := o.sessions.filter fun entry => entry.1 ≠ name } := by
      rw [Observed.forget, hsession]
    have hsub : (o.sessions.filter fun entry => entry.1 ≠ name).Sublist o.sessions :=
      List.filter_sublist
    rw [hforget]
    refine ⟨h.module, h.numbered.detach id, (hsub.map Prod.fst).nodup h.names,
      (hsub.map Prod.snd).nodup h.ids, ?_, ?_, ?_⟩
    · intro name' id' hkept
      obtain ⟨hmem', hother⟩ := List.mem_filter.mp hkept
      have hne : name' ≠ name := by simpa using hother
      obtain ⟨c, hattached, hknown⟩ := h.held name' id' hmem'
      refine ⟨c, List.mem_filter.mpr ⟨hattached, ?_⟩, ?_⟩
      · refine decide_eq_true fun hid : id' = id => hne ?_
        subst hid
        exact h.same_name hmem' hmem
      · rw [Function.update_of_ne hne]
        exact hknown
    · intro name' hknown
      have hne : name' ≠ name := by
        rintro rfl
        exact hknown (Function.update_self _ _ _)
      rw [Function.update_of_ne hne] at hknown
      obtain ⟨⟨name'', id'⟩, hmem', rfl⟩ := List.mem_map.mp (h.named name' hknown)
      exact List.mem_map.mpr ⟨_, List.mem_filter.mpr ⟨hmem', by simpa using hne⟩, rfl⟩
    · intro id' c hkept
      obtain ⟨hattached, hother⟩ := List.mem_filter.mp hkept
      have hne : id' ≠ id := by simpa using hother
      obtain ⟨⟨name', id''⟩, hmem', rfl⟩ := List.mem_map.mp (h.loose id' c hattached)
      refine List.mem_map.mpr ⟨_, List.mem_filter.mpr ⟨hmem', ?_⟩, rfl⟩
      refine decide_eq_true fun hname : name' = name => hne ?_
      subst hname
      exact h.same_id hmem' hmem

/-- A session without a capability is given a name. -/
theorem Tracks.name_session (h : Tracks module known o) {name : String} {id : Nat}
    (hname : known name = none) (hid : id ∉ o.sessions.map Prod.snd)
    (hattached : (id, none) ∈ o.replica.space.sessions) :
    Tracks module (Function.update known name (some none))
      { o with sessions := (name, id) :: o.sessions } := by
  have hnew : name ∉ o.sessions.map Prod.fst := by
    intro hold
    obtain ⟨⟨name', id'⟩, hmem, rfl⟩ := List.mem_map.mp hold
    obtain ⟨c, -, hknown⟩ := h.held name' id' hmem
    rw [hname] at hknown
    cases hknown
  refine ⟨h.module, h.numbered, List.nodup_cons.mpr ⟨hnew, h.names⟩,
    List.nodup_cons.mpr ⟨hid, h.ids⟩, ?_, ?_, ?_⟩
  · intro name' id' hmem
    rcases List.mem_cons.mp hmem with hfirst | hrest
    · obtain ⟨rfl, rfl⟩ := Prod.mk.inj hfirst
      exact ⟨none, hattached, Function.update_self _ _ _⟩
    · have hne : name' ≠ name := by
        rintro rfl
        exact hnew (List.mem_map_of_mem hrest)
      rw [Function.update_of_ne hne]
      exact h.held name' id' hrest
  · intro name' hknown
    by_cases hsame : name' = name
    · rw [hsame]
      exact List.mem_cons_self
    · rw [Function.update_of_ne hsame] at hknown
      exact List.mem_cons_of_mem _ (h.named name' hknown)
  · intro id' c hmem
    exact List.mem_cons_of_mem _ (h.loose id' c hmem)

theorem sessions_mapSpace (f : Dataspace Capability → Dataspace Capability) (o : Observed) :
    (o.mapSpace f).sessions = o.sessions := rfl

/-- Forgetting a session only takes numbers away. -/
theorem snd_forget_subset (o : Observed) (name : String) :
    (o.forget name).sessions.map Prod.snd ⊆ o.sessions.map Prod.snd := by
  unfold Observed.forget
  cases o.session? name with
  | none => exact List.Subset.refl _
  | some id => exact (List.filter_sublist.map Prod.snd).subset

/-- Forgetting a session leaves every other one attached. -/
theorem mem_space_forget {name : String} {id : Nat} {c : Option Capability}
    (hattached : (id, c) ∈ o.replica.space.sessions)
    (hother : ∀ id', (name, id') ∈ o.sessions → id ≠ id') :
    (id, c) ∈ (o.forget name).replica.space.sessions := by
  unfold Observed.forget
  cases hsession : o.session? name with
  | none => exact hattached
  | some id' =>
    exact List.mem_filter.mpr
      ⟨hattached, decide_eq_true (hother id' (mem_of_session? hsession))⟩

/-- Attaching under a name. -/
theorem Tracks.attach (h : Tracks module known o) (name label : String) :
    Tracks module ((Deed.attach name label).enter module known)
      (o.perform (.attach name label)) := by
  rw [perform_attach, h.module, Deed.enter]
  by_cases hlabel : requestedModule label = module.text
  · rw [if_pos hlabel, if_pos hlabel]
    have hattached : (o.replica.space.nextId, none) ∈
        (o.mapSpace (·.attached label)).replica.space.sessions := by
      simp only [mapSpace, Dataspace.attached, Dataspace.attach, h.module, if_pos hlabel]
      exact List.mem_append_right _ List.mem_cons_self
    have hnew : ∀ name' id, (name', id) ∈ (o.mapSpace (·.attached label)).sessions →
        o.replica.space.nextId ≠ id := by
      intro name' id hmem
      rw [sessions_mapSpace] at hmem
      exact (Nat.ne_of_lt (h.id_lt hmem)).symm
    have hfree : o.replica.space.nextId ∉
        ((o.mapSpace (·.attached label)).forget name).sessions.map Prod.snd := by
      intro hold
      obtain ⟨⟨name', id⟩, hmem, hid⟩ := List.mem_map.mp (snd_forget_subset _ name hold)
      exact hnew name' id hmem hid.symm
    have hnamed := ((h.attached label).forget name).name_session
      (Function.update_self name none known) hfree (mem_space_forget hattached (hnew name))
    rw [Function.update_idem] at hnamed
    exact hnamed
  · rw [if_neg hlabel, if_neg hlabel]
    exact h

theorem Tracks.provide (h : Tracks module known o) (c : Capability) :
    Tracks module known (o.provide c) := by
  cases c with
  | counter name => exact h.congr rfl rfl
  | flag name => exact h.congr rfl rfl
  | opener label => exact h

theorem Tracks.register (h : Tracks module known o) (name : String) (c : Capability) :
    Tracks module (Function.update known name ((known name).map fun _ => some c))
      (o.register name c) := by
  unfold Observed.register
  split
  · next hsession =>
    rw [h.known_of_session? hsession, Option.map_none, ← h.known_of_session? hsession,
      Function.update_eq_self]
    exact h.provide c
  · next id hsession =>
    refine Tracks.provide ?_ c
    have hmem := mem_of_session? hsession
    obtain ⟨old, hattached, hknown⟩ := h.held name id hmem
    have hregistered : ∀ s ∈ o.replica.space.sessions,
        (if s.1 = id then (id, some c) else s) ∈
          (o.replica.space.register id c).sessions := by
      intro s hs
      exact List.mem_map.mpr ⟨s, hs, rfl⟩
    rw [hknown, Option.map_some]
    refine ⟨h.module, h.numbered.register id c, h.names, h.ids, ?_, ?_, ?_⟩
    · intro name' id' hmem'
      by_cases hsame : name' = name
      · subst hsame
        obtain rfl := h.same_id hmem hmem'
        refine ⟨some c, ?_, Function.update_self _ _ _⟩
        have hnew := hregistered _ hattached
        rw [if_pos rfl] at hnew
        exact hnew
      · obtain ⟨c', hattached', hknown'⟩ := h.held name' id' hmem'
        have hne : id' ≠ id := by
          rintro rfl
          exact hsame (h.same_name hmem' hmem)
        rw [Function.update_of_ne hsame]
        have hold := hregistered _ hattached'
        rw [if_neg hne] at hold
        exact ⟨c', hold, hknown'⟩
    · intro name' hknown'
      by_cases hsame : name' = name
      · rw [hsame]
        exact List.mem_map_of_mem hmem
      · rw [Function.update_of_ne hsame] at hknown'
        exact h.named name' hknown'
    · intro id' c' hmem'
      obtain ⟨s, hs, hnow⟩ := List.mem_map.mp hmem'
      by_cases hsame : s.1 = id
      · rw [if_pos hsame] at hnow
        obtain ⟨rfl, -⟩ := Prod.mk.inj hnow
        exact List.mem_map_of_mem hmem
      · rw [if_neg hsame] at hnow
        subst hnow
        exact h.loose id' c' hs

theorem Tracks.signal (h : Tracks module known o) (c : Capability) :
    Tracks module known (o.signal c) := by
  cases c with
  | counter name => exact h.congr rfl rfl
  | flag name => exact h.congr rfl rfl
  | opener label =>
    have hattached : Tracks module known
        { o with replica := { o.replica with space := o.replica.space.attached label } } :=
      h.attached label
    rw [Dataspace.attached] at hattached
    rw [Observed.signal]
    cases hattach : o.replica.space.attach label with
    | error refused => exact h
    | ok entry =>
      rw [hattach] at hattached
      exact hattached

theorem Tracks.signalAll (h : Tracks module known o) (capabilities : List Capability) :
    Tracks module known (o.signalAll capabilities) := by
  induction capabilities generalizing o with
  | nil => exact h
  | cons c rest ih => exact ih (h.signal c)

/-- The end of a transfer concerns the visible content of the dataspace alone, and signals what the
sessions have registered exactly when it commits. -/
theorem commit_effects (r : Replica Capability) :
    r.commit.2.2.space = { r.space with foreground := r.commit.2.2.space.foreground } ∧
      r.commit.2.1 = if r.commit.1 = .committed then r.space.signals else [] := by
  unfold Replica.commit
  simp only
  split
  · exact ⟨rfl, rfl⟩
  · split <;> exact ⟨rfl, rfl⟩

theorem space_abort (r : Replica Capability) : r.abort.2.space = r.space := by
  unfold Replica.abort
  split <;> rfl

/-- Whatever is done, the dataspace goes on agreeing with what is known of the names. -/
theorem Tracks.perform (h : Tracks module known o) (deed : Deed) :
    Tracks module (deed.enter module known) (o.perform deed) := by
  cases deed with
  | attach name label => exact h.attach name label
  | detach name => exact h.forget name
  | register name c => exact h.register name c
  | publish content => exact h.congr rfl rfl
  | start length expected => exact h.congr rfl rfl
  | write offset bytes => exact h.congr rfl rfl
  | finish abort =>
    cases abort with
    | true =>
      refine h.congr ?_ rfl
      show o.replica.abort.2.space =
        { o.replica.space with foreground := o.replica.abort.2.space.foreground }
      rw [space_abort]
    | false =>
      have hcommit : Tracks module known { o with replica := o.replica.commit.2.2 } :=
        h.congr (commit_effects o.replica).1 rfl
      exact hcommit.signalAll o.replica.commit.2.1

theorem tracks_after (module : ModuleName) (default : Option Bytes) (history : List Deed) :
    Tracks module (standing module history) ((fresh module default).after history) := by
  induction history using List.reverseRecOn with
  | nil => exact fresh_tracks module default
  | append_singleton history deed ih =>
    rw [standing_append_singleton, after_append_singleton]
    exact ih.perform deed

/-- A dataspace signals a capability once for each name that has it. -/
theorem Tracks.count_signals (h : Tracks module known o) (c : Capability) {names : Finset String}
    (hnames : ∀ name, name ∈ names ↔ known name = some (some c)) :
    o.replica.space.signals.count c = names.card := by
  -- The sessions with the capability, by their names and numbers, and in the dataspace.
  let mine := o.sessions.filter fun entry => known entry.1 = some (some c)
  let theirs := o.replica.space.sessions.filter fun s => s.2 = some c
  have hsub : mine.Sublist o.sessions := List.filter_sublist
  have hperm : (mine.map Prod.snd).Perm (theirs.map Prod.fst) := by
    refine (List.perm_ext_iff_of_nodup ((hsub.map Prod.snd).nodup h.ids)
      ((List.filter_sublist.map Prod.fst).nodup h.numbered.nodup)).mpr fun id => ?_
    constructor
    · intro hmine
      obtain ⟨⟨name, id⟩, hmem, rfl⟩ := List.mem_map.mp hmine
      obtain ⟨hsession, hknown⟩ := List.mem_filter.mp hmem
      obtain ⟨c', hattached, hknown'⟩ := h.held name id hsession
      rw [of_decide_eq_true hknown] at hknown'
      obtain rfl := Option.some.inj hknown'
      exact List.mem_map.mpr ⟨_, List.mem_filter.mpr ⟨hattached, decide_eq_true rfl⟩, rfl⟩
    · intro htheirs
      obtain ⟨⟨id, c'⟩, hmem, rfl⟩ := List.mem_map.mp htheirs
      obtain ⟨hattached, hc⟩ := List.mem_filter.mp hmem
      obtain rfl : c' = some c := of_decide_eq_true hc
      obtain ⟨⟨name, id⟩, hsession, rfl⟩ := List.mem_map.mp (h.loose id c hattached)
      obtain ⟨c'', hattached', hknown⟩ := h.held name id hsession
      rw [h.same_capability hattached' hattached] at hknown
      exact List.mem_map.mpr ⟨_, List.mem_filter.mpr ⟨hsession, decide_eq_true hknown⟩, rfl⟩
  have hcard : (mine.map Prod.fst).toFinset = names := by
    ext name
    rw [List.mem_toFinset, hnames]
    constructor
    · intro hmine
      obtain ⟨entry, hmem, rfl⟩ := List.mem_map.mp hmine
      exact of_decide_eq_true (List.mem_filter.mp hmem).2
    · intro hknown
      obtain ⟨entry, hsession, rfl⟩ :=
        List.mem_map.mp (h.named name (by rw [hknown]; exact Option.some_ne_none _))
      exact List.mem_map.mpr ⟨entry, List.mem_filter.mpr ⟨hsession, decide_eq_true hknown⟩, rfl⟩
  calc o.replica.space.signals.count c
      = theirs.length := o.replica.space.count_signals c
    _ = mine.length := by rw [← List.length_map Prod.fst, ← hperm.length_eq, List.length_map]
    _ = names.card := by
        rw [← hcard, List.toFinset_card_of_nodup ((hsub.map Prod.fst).nodup h.names),
          List.length_map]

end Tracking

end RomCast.Observed
