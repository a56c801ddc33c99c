import PackPlan.Proofs.Store.Arrival

/-!
# Sources in another order

Which id a path goes to may depend on the order in which records arrive, and with the path
goes what comes in under it without an identity. Where every such path belongs to one id at
most, and that id has no other path, nothing is left to the order: then all packs are the
same whichever way the sources are reordered. Where two ids share such a path they are not.

## Main definitions

* `Undisputed` — the paths that occur without an id leave no choice of an id
* `Store.packs` — the packs of a store, by id and by path

## Main results

* `combine?_eq_none_iff` — which sources are refused
* `absorbed_eq_of_undisputed` — what comes to an id without regard to order
* `combine?_packs_perm` — reordered sources give the same packs
* `combine?_sharedPath` — not if two ids share a path that occurs without an id
-/

namespace PackPlan

variable {rs rs' : List Record} {r w : Record} {id : AssetId} {path : String} {s s' : Store}

/-! ### Refused sources -/

theorem Store.add?_eq_none_iff : s.add? r = none ↔ r.identity? = none ∧ r.path = "" := by
  rw [Store.add?, Record.identity?_eq_none]
  cases r.hasIdentity <;> simp

/-- Sources are refused for a record that has neither an identity nor a path. -/
theorem combine?_eq_none_iff {sources : List (List Record)} : Store.combine? sources = none ↔
    ∃ r ∈ sources.flatten, r.identity? = none ∧ r.path = "" := by
  constructor
  · intro refused
    -- records that all have an identity or a path are combined
    by_contra named
    obtain ⟨s, combined, -⟩ := exists_tracking_combine? sources fun r mem anonymous empty =>
      named ⟨r, mem, anonymous, empty⟩
    exact absurd (refused.symm.trans combined) (by simp)
  · unfold Store.combine?
    generalize sources.flatten = rs, Store.empty = s
    rintro ⟨r, mem, nameless⟩
    induction rs generalizing s with
    | nil => exact absurd mem (by simp)
    | cons r' rs ih =>
      rw [List.foldlM_cons]
      rcases List.mem_cons.1 mem with rfl | later
      · rw [Store.add?_eq_none_iff.2 nameless]
        rfl
      · cases s.add? r' with
        | none => rfl
        | some added => exact ih added.1 later

/-! ### Undisputed paths -/

/-- A path that occurs without an identity belongs to one id at most, and such an id has no
other path. -/
def Undisputed (rs : List Record) : Prop :=
  ∀ w ∈ rs, w.hasIdentity = false → w.path ≠ "" →
    ∀ r ∈ rs, r.hasIdentity = true → r.path = w.path → ∀ r' ∈ rs, r'.hasIdentity = true →
      (r'.path = w.path → r'.id = r.id) ∧ (r'.id = r.id → r'.path ≠ "" → r'.path = w.path)

instance : DecidablePred Undisputed := fun rs =>
  inferInstanceAs (Decidable (∀ w ∈ rs, w.hasIdentity = false → w.path ≠ "" →
    ∀ r ∈ rs, r.hasIdentity = true → r.path = w.path → ∀ r' ∈ rs, r'.hasIdentity = true →
      (r'.path = w.path → r'.id = r.id) ∧ (r'.id = r.id → r'.path ≠ "" → r'.path = w.path)))

theorem Undisputed.perm (h : Undisputed rs) (reordered : rs'.Perm rs) : Undisputed rs' := by
  intro w memW anonymous nonempty r mem identified place r' mem'
  exact h w (reordered.mem_iff.1 memW) anonymous nonempty r (reordered.mem_iff.1 mem) identified
    place r' (reordered.mem_iff.1 mem')

/-- An id with an undisputed path takes this path. -/
theorem Undisputed.firstPath? (h : Undisputed rs) (memW : w ∈ rs) (anonymous : w.identity? = none)
    (carried : Carries rs id w.path) : firstPath? rs id = some w.path := by
  obtain ⟨path, first⟩ := Option.ne_none_iff_exists'.1 (firstPath?_ne_none carried)
  obtain ⟨nonempty, r, mem, identity, place⟩ := carried
  obtain ⟨nonempty', r', mem', identity', rfl⟩ := carries_of_firstPath? first
  obtain ⟨identified, rfl⟩ := Record.identity?_eq_some.1 identity
  obtain ⟨identified', same⟩ := Record.identity?_eq_some.1 identity'
  have only := h w memW (Record.identity?_eq_none.1 anonymous) nonempty r mem identified place
    r' mem' identified'
  rw [first, only.2 same nonempty']

/-- An undisputed path goes to the id that has it. -/
theorem Undisputed.claimant? (h : Undisputed rs) (memW : w ∈ rs) (anonymous : w.identity? = none)
    (carried : Carries rs id w.path) : claimant? rs w.path = some id := by
  obtain ⟨id', claim⟩ := Option.ne_none_iff_exists'.1
    (claimant?_ne_none (h.firstPath? memW anonymous carried))
  obtain ⟨nonempty, r, mem, identity, place⟩ := carried
  obtain ⟨-, r', mem', identity', place'⟩ :=
    carries_of_firstPath? (firstPath?_of_claimant? claim)
  obtain ⟨identified, rfl⟩ := Record.identity?_eq_some.1 identity
  obtain ⟨identified', rfl⟩ := Record.identity?_eq_some.1 identity'
  have only := h w memW (Record.identity?_eq_none.1 anonymous) nonempty r mem identified place
    r' mem' identified'
  rw [claim, only.1 place']

/-- To an id comes what has come in under its paths, in whatever order. -/
theorem absorbed_eq_of_undisputed (h : Undisputed rs) :
    absorbed rs id = {pack | ∃ path, Carries rs id path ∧ pack ∈ packsAtPath rs path} := by
  ext pack
  constructor
  · rintro ⟨path, claim, given⟩
    exact ⟨path, carries_of_firstPath? (firstPath?_of_claimant? claim), given⟩
  · rintro ⟨path, carried, w, memW, anonymous, rfl, rfl⟩
    exact ⟨w.path, h.claimant? memW anonymous carried, w, memW, anonymous, rfl, rfl⟩

theorem absorbed_perm (h : Undisputed rs) (reordered : rs'.Perm rs) :
    absorbed rs' id = absorbed rs id := by
  rw [absorbed_eq_of_undisputed h, absorbed_eq_of_undisputed (h.perm reordered)]
  simp only [Carries, packsAtPath, reordered.mem_iff]

/-! ### Packs in any order -/

/-- The packs of a store, by id and by path. -/
def Store.packs (s : Store) : (AssetId → Option Int) × (String → Option Int) :=
  (fun id => (s.find? id).map Record.pack, fun path => (s.pathOnly.get? path).map Record.pack)

/-- What records make of ids gives each of them one pack, in whatever order they come. -/
theorem Tracking.pack_perm (h : Tracking rs s) (h' : Tracking rs' s') (undisputed : Undisputed rs)
    (reordered : rs'.Perm rs) :
    (s'.find? id).map Record.pack = (s.find? id).map Record.pack := by
  have occurs : Occurs rs' id ↔ Occurs rs id := by simp only [Occurs, reordered.mem_iff]
  cases found : s.find? id with
  | none =>
    cases found' : s'.find? id with
    | none => rfl
    | some k' => exact absurd (occurs.1 (h'.present id k' found').occurs) (h.absent id found)
  | some k =>
    have here := h.present id k found
    cases found' : s'.find? id with
    | none => exact absurd (occurs.2 here.occurs) (h'.absent id found')
    | some k' =>
      have there := (h'.present id k' found').pack
      have packs : packsOfId rs' id = packsOfId rs id := by
        simp only [packsOfId, reordered.mem_iff]
      rw [packs, absorbed_perm undisputed reordered] at there
      exact congrArg some (there.unique here.pack)

/-- What waits at a path waits there in any order. -/
theorem Tracking.waiting_perm (h : Tracking rs s) (h' : Tracking rs' s')
    (undisputed : Undisputed rs) (reordered : rs'.Perm rs) (found : s.pathOnly.get? path = some w) :
    ∃ w', s'.pathOnly.get? path = some w' ∧ w'.pack = w.pack := by
  obtain ⟨free, anonymous, place, least⟩ := h.waiting path w found
  have packs : packsAtPath rs' path = packsAtPath rs path := by
    simp only [packsAtPath, reordered.mem_iff]
  obtain ⟨v, memV, anonymousV, rfl, -⟩ := least.1
  -- an id that takes the path in one order takes it in every order
  have free' : claimant? rs' v.path = none := by
    refine Option.eq_none_iff_forall_ne_some.2 fun id claim => ?_
    have carried : Carries rs id v.path := by
      simpa only [Carries, reordered.mem_iff] using
        carries_of_firstPath? (firstPath?_of_claimant? claim)
    exact absurd (free.symm.trans (undisputed.claimant? memV anonymousV carried)) (by simp)
  cases found' : s'.pathOnly.get? v.path with
  | none =>
    have nothing := h'.idle v.path found' free'
    rw [packs] at nothing
    exact absurd least.1 (by simp [nothing])
  | some w' =>
    obtain ⟨-, -, -, least'⟩ := h'.waiting v.path w' found'
    rw [packs] at least'
    exact ⟨w', rfl, least'.unique least⟩

theorem Tracking.packs_perm (h : Tracking rs s) (h' : Tracking rs' s')
    (undisputed : Undisputed rs) (reordered : rs'.Perm rs) : s'.packs = s.packs := by
  refine Prod.ext (funext fun id => h.pack_perm h' undisputed reordered) (funext fun path => ?_)
  change (s'.pathOnly.get? path).map Record.pack = (s.pathOnly.get? path).map Record.pack
  cases found : s.pathOnly.get? path with
  | some w =>
    obtain ⟨w', found', same⟩ := h.waiting_perm h' undisputed reordered found
    rw [found', Option.map_some, Option.map_some, same]
  | none =>
    cases found' : s'.pathOnly.get? path with
    | none => rfl
    | some w' =>
      -- what waits in one order waits in the other, whichever of them comes first
      obtain ⟨w, there, -⟩ :=
        h'.waiting_perm h (undisputed.perm reordered) reordered.symm found'
      exact absurd (found.symm.trans there) (by simp)

/-- Where no path that occurs without an identity is disputed, sources that are reordered, or
whose records are, are refused together or give every id and every path the same pack. An
id may have several paths, and a path several ids, if only it always occurs with one. -/
theorem combine?_packs_perm (sources sources' : List (List Record))
    (undisputed : Undisputed sources.flatten) (reordered : sources'.flatten.Perm sources.flatten) :
    (Store.combine? sources').map Store.packs = (Store.combine? sources).map Store.packs := by
  by_cases nameless : ∃ r ∈ sources.flatten, r.identity? = none ∧ r.path = ""
  · have nameless' : ∃ r ∈ sources'.flatten, r.identity? = none ∧ r.path = "" := by
      simpa only [reordered.mem_iff] using nameless
    rw [combine?_eq_none_iff.2 nameless, combine?_eq_none_iff.2 nameless']
  · have named : ∀ r ∈ sources.flatten, r.identity? = none → r.path ≠ "" :=
      fun r mem anonymous empty => nameless ⟨r, mem, anonymous, empty⟩
    obtain ⟨s, combined, tracking⟩ := exists_tracking_combine? sources named
    obtain ⟨s', combined', tracking'⟩ := exists_tracking_combine? sources' fun r mem =>
      named r (reordered.mem_iff.1 mem)
    rw [combined, combined', Option.map_some, Option.map_some,
      tracking.packs_perm tracking' undisputed reordered]

/-- Sources in which a path waits for its id, two ids share a path, and one of them has
another path besides. -/
def entangledSources : List (List Record) :=
  [[{ path := "a", pack := 3 }], [{ id := ⟨⟨1, Guid.one_lt⟩, 0⟩, path := "a", pack := 5 }],
    [{ id := ⟨⟨2, Guid.two_lt⟩, 0⟩, path := "b", pack := 7 },
      { id := ⟨⟨3, Guid.three_lt⟩, 0⟩, path := "b", pack := 8 }],
    [{ id := ⟨⟨2, Guid.two_lt⟩, 0⟩, path := "c", pack := 4 }]]

/-- From last to first they give the same packs. -/
theorem combine?_packs_reverse_entangledSources :
    Undisputed entangledSources.flatten ∧
    entangledSources.reverse.flatten.Perm entangledSources.flatten ∧
    (Store.combine? entangledSources.reverse).map Store.packs =
      (Store.combine? entangledSources).map Store.packs ∧
    (Store.combine? entangledSources).map (fun s => s.records.map Record.pack) =
      some [3, 4, 8] := by
  have undisputed : Undisputed entangledSources.flatten := by decide
  have reordered : entangledSources.reverse.flatten.Perm entangledSources.flatten :=
    (List.reverse_perm _).flatten
  exact ⟨undisputed, reordered, combine?_packs_perm _ _ undisputed reordered, by decide⟩

/-- Sources in which two ids share a path that also comes without an id. -/
def sharedPathSources : List (List Record) :=
  [[{ id := ⟨⟨1, Guid.one_lt⟩, 0⟩, path := "a", pack := 5 }],
    [{ id := ⟨⟨2, Guid.two_lt⟩, 0⟩, path := "a", pack := 0 }],
    [{ path := "a", pack := 0 }]]

/-- The first id has the pack of the path or its own, depending on which of the two comes
first. -/
theorem combine?_sharedPath :
    ∃ reordered : List (List Record), reordered.Perm sharedPathSources ∧
      (Store.combine? sharedPathSources).bind (fun s =>
        (s.find? ⟨⟨1, by decide⟩, 0⟩).map Record.pack) = some 0 ∧
      (Store.combine? reordered).bind (fun s =>
        (s.find? ⟨⟨1, by decide⟩, 0⟩).map Record.pack) = some 5 := by
  refine ⟨[[{ id := ⟨⟨2, by decide⟩, 0⟩, path := "a", pack := 0 }],
    [{ id := ⟨⟨1, by decide⟩, 0⟩, path := "a", pack := 5 }],
    [{ path := "a", pack := 0 }]], List.Perm.swap _ _ _, ?_⟩
  decide

end PackPlan
