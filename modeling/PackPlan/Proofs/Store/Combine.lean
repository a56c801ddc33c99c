import Mathlib.Data.List.Nodup
import PackPlan.Proofs.Store.Reordering

/-!
# Combining sources

Where ids and paths determine each other the order in which records arrive decides nothing.
What a store then holds of every id, every path and every claim, `Merging` says of the
records alone: one record for each id, and one for each path that no id has.

## Main definitions

* `Merging` — a store holds what the records so far come down to

## Main results

* `Tracking.merging` — what any store holds, where no path is ambiguous
* `exists_merging_combine?` — the store of all records
* `Merging.isMerge_records` — its records are what the sources come down to
* `combine?_isMerge` — the store of path-consistent sources, in any order
-/

namespace PackPlan

variable {rs : List Record} {r k w : Record} {id : AssetId} {path : String} {s : Store}

/-! ### The invariant -/

/-- A store holds what the records so far come down to. -/
structure Merging (rs : List Record) (s : Store) : Prop where
  /-- An id without a record does not occur. -/
  absent : ∀ id, s.find? id = none → ¬ Occurs rs id
  /-- The record of an id is what the id comes down to. -/
  present : ∀ id k, s.find? id = some k → IsMergedAt rs id k
  /-- Where nothing waits nothing has to. -/
  idle : ∀ path, s.pathOnly.get? path = none → ¬ Waits rs path
  /-- What waits at a path is what the path comes down to. -/
  waiting : ∀ path w, s.pathOnly.get? path = some w → IsWaitingAt rs path w
  /-- A path without a claim occurs with no id. -/
  free : ∀ path, s.claims.get? path = none → ∀ id, ¬ Carries rs id path
  /-- A path is claimed by an id with which it occurs. -/
  claimed : ∀ path id, s.claims.get? path = some id → Carries rs id path

/-- Where a merge has all it needs no path is disputed. -/
theorem Unambiguous.undisputed (clear : Unambiguous rs) : Undisputed rs := by
  intro w memW anonymous nonempty r mem identified place r' mem' identified'
  have carried : Carries rs r.id w.path :=
    ⟨nonempty, r, mem, Record.identity?_eq_some.2 ⟨identified, rfl⟩, place⟩
  have identity' := Record.identity?_eq_some.2 ⟨identified', rfl⟩
  constructor
  · intro place'
    exact clear.id_unique w memW (Record.identity?_eq_none.2 anonymous)
      ⟨nonempty, r', mem', identity', place'⟩ carried
  · intro same nonempty'
    exact clear.path_unique ⟨nonempty', r', mem', same ▸ identity', rfl⟩ carried

/-- Where no path is ambiguous, what records make of an id is what the id comes down to. -/
theorem IsTakenAs.isMergedAt (h : IsTakenAs rs id k) (clear : Unambiguous rs) :
    IsMergedAt rs id k := by
  have path : IsPathOf rs id k.path := by
    rw [h.path]
    cases first : firstPath? rs id with
    | some path => exact Or.inl (carries_of_firstPath? first)
    | none => exact Or.inr ⟨rfl, fun path carried => firstPath?_ne_none carried first⟩
  have share : absorbed rs id = packsAtPath rs k.path := by
    rw [absorbed_eq_of_undisputed clear.undisputed]
    ext pack
    constructor
    · rintro ⟨path', carried, given⟩
      rwa [clear.isPathOf_unique path (Or.inl carried)]
    · intro given
      refine ⟨k.path, path.resolve_right fun nowhere => ?_, given⟩
      rw [nowhere.1, clear.packsAtPath_empty] at given
      exact given
  refine ⟨h.identity, h.occurs, path, ?_⟩
  rw [← share]
  exact h.pack

/-- Where no path is ambiguous, a store holds what the records come down to. -/
theorem Tracking.merging (h : Tracking rs s) (clear : Unambiguous rs) : Merging rs s where
  absent := h.absent
  present id k found := (h.present id k found).isMergedAt clear
  idle path none := by
    rintro ⟨⟨r, mem, anonymous, rfl⟩, free⟩
    have unclaimed : claimant? rs r.path = Option.none := by
      refine Option.eq_none_iff_forall_ne_some.2 fun id claim => ?_
      exact free id (carries_of_firstPath? (firstPath?_of_claimant? claim))
    have given : r.pack ∈ packsAtPath rs r.path := ⟨r, mem, anonymous, rfl, rfl⟩
    rw [h.idle r.path none unclaimed] at given
    exact given
  waiting path w found := by
    obtain ⟨free, anonymous, place, least⟩ := h.waiting path w found
    obtain ⟨r, mem, nameless, rfl, -⟩ := least.1
    refine ⟨anonymous, place, ⟨⟨r, mem, nameless, rfl⟩, fun id carried => ?_⟩, least⟩
    exact absurd (free.symm.trans (clear.undisputed.claimant? mem nameless carried)) (by simp)
  free path none id carried := by
    rw [h.claims] at none
    obtain ⟨path', first⟩ := Option.ne_none_iff_exists'.1 (firstPath?_ne_none carried)
    have same := clear.path_unique carried (carries_of_firstPath? first)
    exact claimant?_ne_none (same ▸ first) none
  claimed path id claim :=
    carries_of_firstPath? (firstPath?_of_claimant? ((h.claims path).symm.trans claim))

/-! ### All records -/

/-- Unambiguous sources are combined, and the store holds what they come down to. -/
theorem exists_merging_combine? (sources : List (List Record))
    (clear : Unambiguous sources.flatten) :
    ∃ s, Store.combine? sources = some s ∧ Merging sources.flatten s := by
  obtain ⟨s, combined, tracking⟩ := exists_tracking_combine? sources clear.named
  exact ⟨s, combined, tracking.merging clear⟩

/-- The records with an identity tell their ids, each once. -/
theorem Merging.map_id_values (h : Merging rs s) :
    s.identified.values.map Record.id = s.identified.keys :=
  Table.map_values_eq_keys fun id k found =>
    (Record.identity?_eq_some.1 (h.present id k found).identity).2

theorem Merging.map_path_values (h : Merging rs s) :
    s.pathOnly.values.map Record.path = s.pathOnly.keys :=
  Table.map_values_eq_keys fun path w found => (h.waiting path w found).place

theorem Merging.nodup_records (h : Merging rs s) : s.records.Nodup := by
  refine List.nodup_append.2 ⟨List.Nodup.of_map Record.id ?_, List.Nodup.of_map Record.path ?_, ?_⟩
  · rw [h.map_id_values]
    exact s.identified.nodup
  · rw [h.map_path_values]
    exact s.pathOnly.nodup
  · -- a record in both tables would have an identity and have none
    rintro k mem w mem' rfl
    obtain ⟨id, found⟩ := Table.mem_values.1 mem
    obtain ⟨path, found'⟩ := Table.mem_values.1 mem'
    have identity := (h.present id k found).identity
    rw [(h.waiting path k found').anonymous] at identity
    exact absurd identity (by simp)

/-- The records of the store are what the records that came in come down to. -/
theorem Merging.isMerge_records (h : Merging rs s) : IsMerge rs s.records := by
  have at_id : ∀ k ∈ s.records, ∀ id, k.identity? = some id → s.find? id = some k := by
    intro k mem id identity
    rcases Store.mem_records.1 mem with ⟨id', found⟩ | ⟨path, found⟩
    · have here := (h.present id' k found).identity
      rwa [Option.some_inj.1 (identity.symm.trans here)]
    · exact absurd (identity.symm.trans (h.waiting path k found).anonymous) (by simp)
  have at_path : ∀ w ∈ s.records, w.identity? = none → s.pathOnly.get? w.path = some w := by
    intro w mem anonymous
    rcases Store.mem_records.1 mem with ⟨id, found⟩ | ⟨path, found⟩
    · exact absurd (anonymous.symm.trans (h.present id w found).identity) (by simp)
    · rwa [(h.waiting path w found).place]
  refine ⟨h.nodup_records, ?_, ?_, ?_, ?_⟩
  · intro id occurs
    cases found : s.find? id with
    | none => exact absurd occurs (h.absent id found)
    | some k =>
      refine ⟨k, ⟨Store.mem_records.2 (Or.inl ⟨id, found⟩), (h.present id k found).identity⟩, ?_⟩
      rintro k' ⟨mem, identity⟩
      exact Option.some_inj.1 ((at_id k' mem id identity).symm.trans found)
  · intro path waits
    cases found : s.pathOnly.get? path with
    | none => exact absurd waits (h.idle path found)
    | some w =>
      have there := h.waiting path w found
      refine ⟨w, ⟨Store.mem_records.2 (Or.inr ⟨path, found⟩), there.anonymous, there.place⟩, ?_⟩
      rintro w' ⟨mem, anonymous, rfl⟩
      exact Option.some_inj.1 ((at_path w' mem anonymous).symm.trans found)
  · intro k mem id identity
    exact h.present id k (at_id k mem id identity)
  · intro w mem anonymous
    exact h.waiting w.path w (at_path w mem anonymous)

/-- Where ids and paths determine each other, sources are combined into what they come
down to: one record for each id, at the one path that occurs with it and with the least of
the packs given to the id or to that path, and one record for each path that no id has. In
whatever order the sources and their records come, identities, paths and packs are the
same. -/
theorem combine?_isMerge (sources : List (List Record))
    (consistent : PathConsistent sources.flatten)
    (named : ∀ r ∈ sources.flatten, r.hasIdentity = true ∨ r.path ≠ "") :
    ∃ s, Store.combine? sources = some s ∧ IsMerge sources.flatten s.records ∧
      ∀ sources' : List (List Record), sources'.flatten.Perm sources.flatten →
        ∃ s', Store.combine? sources' = some s' ∧
          ∀ t, t ∈ s'.records.map Record.summary ↔ t ∈ s.records.map Record.summary := by
  have clear := consistent.unambiguous named
  obtain ⟨s, combined, merging⟩ := exists_merging_combine? sources clear
  refine ⟨s, combined, merging.isMerge_records, fun sources' reordered => ?_⟩
  obtain ⟨s', combined', merging'⟩ :=
    exists_merging_combine? sources' (clear.mono fun r mem => reordered.mem_iff.1 mem)
  have merge' := merging'.isMerge_records.congr fun r => reordered.mem_iff
  exact ⟨s', combined', merge'.mem_summary_iff clear merging.isMerge_records⟩

/-- Sources in which a path waits before its asset is known, and the asset is known before
it learns its path. -/
def lateSources : List (List Record) :=
  [[{ path := "a", pack := 3 }],
    [{ id := ⟨⟨1, Guid.one_lt⟩, 0⟩, pack := 5 }, { path := "b", pack := 2 }],
    [{ id := ⟨⟨1, Guid.one_lt⟩, 0⟩, path := "a", pack := 7 }]]

/-- The asset takes the pack that waited for it, and the other path still waits. -/
theorem combine?_lateSources :
    PathConsistent lateSources.flatten ∧
    (∀ r ∈ lateSources.flatten, r.hasIdentity = true ∨ r.path ≠ "") ∧
    ∃ s, Store.combine? lateSources = some s ∧ IsMerge lateSources.flatten s.records ∧
      s.records.map Record.summary = [(some ⟨⟨1, by decide⟩, 0⟩, "a", 3), (none, "b", 2)] := by
  have consistent : PathConsistent lateSources.flatten := by decide
  have named : ∀ r ∈ lateSources.flatten, r.hasIdentity = true ∨ r.path ≠ "" := by decide
  obtain ⟨s, combined, merge, -⟩ := combine?_isMerge lateSources consistent named
  have summaries : (Store.combine? lateSources).map (fun s => s.records.map Record.summary) =
      some [(some ⟨⟨1, by decide⟩, 0⟩, "a", 3), (none, "b", 2)] := by decide
  rw [combined] at summaries
  exact ⟨consistent, named, s, combined, merge, Option.some_inj.1 summaries⟩

end PackPlan
