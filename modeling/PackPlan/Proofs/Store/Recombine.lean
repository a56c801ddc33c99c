import PackPlan.Proofs.PathTable
import PackPlan.Proofs.Store.Assigned

/-!
# Combining what has been combined

Whatever ids share paths and whatever paths come with an id, a store keeps something of every
record: the record that it has fallen together with has its id, or its path if it came without
an identity, and no greater pack. So a store that takes in records which it has taken in before
stays as it is. Its own records keep apart, by id and by path, and taken in by an empty store,
those with an identity first, they stay the same and in the same order.

## Main definitions

* `Record.Apart` — two records that do not fall together
* `IsCombined` — records that others have been combined to

## Main results

* `Tracking.add?_of_mem` — a record that comes in again changes nothing
* `Tracking.pairwise_apart` — the records of a store keep apart
* `exists_combine?_of_apart` — records that keep apart are combined to themselves
* `Tracking.isCombined` — the records of a store are what it has taken in, combined
* `combine?_isCombined` — what sources are combined to, and that once more changes nothing
-/

namespace PackPlan

variable {rs ks : List Record} {r k w : Record} {id : AssetId} {path : String} {s : Store}

/-! ### Tables that stay as they are -/

namespace Table

variable {κ α : Type} [DecidableEq κ] {t : Table κ α} {key : κ} {v : α} {f : α → α}

/-- A change that changes no value of its key changes nothing. -/
theorem adjust_eq_self (fixed : ∀ v, t.get? key = some v → f v = v) : t.adjust key f = t := by
  have same : t.entries.map (fun e => (e.1, if e.1 = key then f e.2 else e.2)) = t.entries := by
    refine (List.map_congr_left fun e mem => ?_).trans (List.map_id _)
    split
    · next here =>
      rw [fixed e.2 (get?_eq_some.2 (here ▸ mem))]
      rfl
    · rfl
  rw [adjust, map]
  simp only [same]

/-- A pack is not lowered by a greater one. -/
theorem adjust_lowerPack_eq_self {t : Table κ Record} {pack : Int} (found : t.get? key = some k)
    (le : k.pack ≤ pack) : t.adjust key (·.lowerPack pack) = t := by
  refine adjust_eq_self fun v there => ?_
  obtain rfl := Option.some_inj.1 (found.symm.trans there)
  rw [Record.lowerPack, min_eq_left le]

/-- A key that is not there cannot go. -/
theorem erase_eq_self (absent : t.get? key = none) : t.erase key = t := by
  have same : t.entries.filter (fun e => e.1 ≠ key) = t.entries := by
    refine List.filter_eq_self.2 fun e mem => ?_
    have other : e.1 ≠ key := fun here => get?_eq_none.1 absent (here ▸ List.mem_map_of_mem mem)
    simpa using other
  rw [erase, filter]
  simp only [same]

/-- The value of a new key comes last. -/
theorem values_insertNew (absent : t.get? key = none) :
    (t.insertNew key v).values = t.values ++ [v] := by
  rw [values, entries_insertNew_of_not_contains (by rw [contains, absent]; rfl), List.map_append]
  rfl

end Table

/-- An id that takes the path of its own record changes no record, if nothing waits there. -/
theorem Store.records_claimPath (found : s.find? id = some k) (own : k.path = path)
    (idle : s.pathOnly.get? path = none) : (s.claimPath id path).records = s.records := by
  rw [claimPath]
  split
  · rfl
  · have same : s.identified.adjust id (fun r => { r with path := path }) = s.identified := by
      refine Table.adjust_eq_self fun v there => ?_
      obtain rfl := Option.some_inj.1 (found.symm.trans there)
      rw [← own]
    simp only [records, idle, same, Table.erase_eq_self idle]

/-! ### Records that come in again -/

namespace Tracking

/-- A record with an identity has fallen together with the record of its id. -/
theorem exists_find?_of_mem (h : Tracking rs s) (mem : r ∈ rs) (identity : r.identity? = some id) :
    ∃ k, s.find? id = some k ∧ k.pack ≤ r.pack := by
  cases found : s.find? id with
  | none => exact absurd ⟨r, mem, identity⟩ (h.absent id found)
  | some k => exact ⟨k, rfl, (h.present id k found).pack.2 (Or.inl ⟨r, mem, identity, rfl⟩)⟩

/-- A record without an identity has fallen together with that of the id its path goes to. -/
theorem exists_find?_of_claim (h : Tracking rs s) (mem : r ∈ rs) (anonymous : r.identity? = none)
    (claim : claimant? rs r.path = some id) :
    ∃ k, s.find? id = some k ∧ k.path = r.path ∧ k.pack ≤ r.pack := by
  have first := firstPath?_of_claimant? claim
  obtain ⟨-, r', mem', identity, -⟩ := carries_of_firstPath? first
  obtain ⟨k, found, -⟩ := h.exists_find?_of_mem mem' identity
  have here := h.present id k found
  refine ⟨k, found, ?_, here.pack.2 (Or.inr ⟨r.path, claim, r, mem, anonymous, rfl, rfl⟩)⟩
  rw [here.path, first, Option.getD_some]

/-- A record without an identity whose path goes to no id has fallen together with the one
that waits there. -/
theorem exists_waiting_of_mem (h : Tracking rs s) (mem : r ∈ rs) (anonymous : r.identity? = none)
    (free : claimant? rs r.path = none) :
    ∃ w, s.pathOnly.get? r.path = some w ∧ w.path = r.path ∧ w.pack ≤ r.pack := by
  have given : r.pack ∈ packsAtPath rs r.path := ⟨r, mem, anonymous, rfl, rfl⟩
  cases found : s.pathOnly.get? r.path with
  | none =>
    rw [h.idle r.path found free] at given
    exact absurd given (Set.notMem_empty _)
  | some w =>
    obtain ⟨-, -, place, least⟩ := h.waiting r.path w found
    exact ⟨w, rfl, place, least.2 given⟩

/-- A record that comes in again changes nothing. -/
theorem add?_of_mem (h : Tracking rs s) (mem : r ∈ rs) (named : r.identity? = none → r.path ≠ "") :
    s.add? r = some (s, true) := by
  unfold Store.add?
  cases identity : r.identity? with
  | some id =>
    obtain ⟨identified, rfl⟩ := Record.identity?_eq_some.1 identity
    obtain ⟨k, found, le⟩ := h.exists_find?_of_mem mem identity
    have here := h.present r.id k found
    rw [Store.find?] at found
    rw [if_pos identified, Store.addIdentified]
    simp only [found, Table.adjust_lowerPack_eq_self found le]
    split
    · next nowhere =>
      -- the id would have taken the path of the record
      have empty : r.path = "" := by
        by_contra nonempty
        have fresh := here.path_eq_empty_iff.1 nowhere
        exact firstPath?_ne_none ⟨nonempty, r, mem, identity, rfl⟩ fresh
      rw [Store.claimPath, if_pos empty]
    · rfl
  | none =>
    rw [if_neg (by simp [Record.identity?_eq_none.1 identity]), if_neg (named identity),
      Store.addPathOnly, h.claims]
    cases claim : claimant? rs r.path with
    | some id =>
      obtain ⟨k, found, -, le⟩ := h.exists_find?_of_claim mem identity claim
      simp only [Table.adjust_lowerPack_eq_self found le]
    | none =>
      obtain ⟨w, found, -, le⟩ := h.exists_waiting_of_mem mem identity claim
      have there : s.pathOnly.contains r.path = true := by rw [Table.contains, found]; rfl
      simp only [there, if_true, Table.adjust_lowerPack_eq_self found le]

/-- Records that come in again change nothing. -/
theorem foldlM_add?_of_subset (h : Tracking rs s) (sub : ks ⊆ rs)
    (named : ∀ r ∈ rs, r.identity? = none → r.path ≠ "") :
    ks.foldlM (fun s r => (s.add? r).map Prod.fst) s = some s := by
  induction ks with
  | nil => rfl
  | cons r ks ih =>
    obtain ⟨mem, sub⟩ := List.cons_subset.1 sub
    rw [List.foldlM_cons, h.add?_of_mem mem (named r mem)]
    exact ih sub

end Tracking

/-! ### Records that keep apart -/

/-- Two records keep apart if they have different ids or, where not both have an identity,
different paths. -/
def Record.Apart (k w : Record) : Prop :=
  if k.hasIdentity = true ∧ w.hasIdentity = true then k.id ≠ w.id else k.path ≠ w.path

theorem Record.apart_iff_id (identified : k.hasIdentity = true)
    (identified' : w.hasIdentity = true) : k.Apart w ↔ k.id ≠ w.id := by
  rw [Apart, if_pos ⟨identified, identified'⟩]

theorem Record.apart_iff_path (anonymous : w.identity? = none) : k.Apart w ↔ k.path ≠ w.path := by
  rw [Apart, if_neg (by simp [identity?_eq_none.1 anonymous])]

namespace Tracking

/-- A record without an identity waits at a path that is not empty. -/
theorem path_ne_empty_of_mem_records (h : Tracking rs s)
    (named : ∀ r ∈ rs, r.identity? = none → r.path ≠ "") (mem : k ∈ s.records)
    (anonymous : k.identity? = none) : k.path ≠ "" := by
  rcases Store.mem_records.1 mem with ⟨id, found⟩ | ⟨path, found⟩
  · rw [(h.present id k found).identity] at anonymous
    cases anonymous
  · obtain ⟨-, -, rfl, ⟨r, given, nameless, place, -⟩, -⟩ := h.waiting path k found
    exact place ▸ named r given nameless

theorem hasIdentity_of_mem_identified (h : Tracking rs s) (mem : k ∈ s.identified.values) :
    k.hasIdentity = true := by
  obtain ⟨id, found⟩ := Table.mem_values.1 mem
  exact (Record.identity?_eq_some.1 (h.present id k found).identity).1

theorem identity?_of_mem_pathOnly (h : Tracking rs s) (mem : w ∈ s.pathOnly.values) :
    w.identity? = none := by
  obtain ⟨path, found⟩ := Table.mem_values.1 mem
  exact (h.waiting path w found).2.1

/-- The records with an identity keep apart. -/
theorem pairwise_identified (h : Tracking rs s) : s.identified.values.Pairwise Record.Apart := by
  have ids : s.identified.values.map Record.id = s.identified.keys :=
    Table.map_values_eq_keys fun id k found =>
      (Record.identity?_eq_some.1 (h.present id k found).identity).2
  have distinct : (s.identified.values.map Record.id).Nodup := ids ▸ s.identified.nodup
  refine (List.pairwise_map.1 distinct).imp_of_mem fun mem mem' other => ?_
  exact (Record.apart_iff_id (h.hasIdentity_of_mem_identified mem)
    (h.hasIdentity_of_mem_identified mem')).2 other

/-- The records that wait keep apart. -/
theorem pairwise_pathOnly (h : Tracking rs s) : s.pathOnly.values.Pairwise Record.Apart := by
  have paths : s.pathOnly.values.map Record.path = s.pathOnly.keys :=
    Table.map_values_eq_keys fun path k found => (h.waiting path k found).2.2.1
  have distinct : (s.pathOnly.values.map Record.path).Nodup := paths ▸ s.pathOnly.nodup
  refine (List.pairwise_map.1 distinct).imp_of_mem fun _ mem other => ?_
  exact (Record.apart_iff_path (h.identity?_of_mem_pathOnly mem)).2 other

/-- The records of a store keep apart. -/
theorem pairwise_apart (h : Tracking rs s) (named : ∀ r ∈ rs, r.identity? = none → r.path ≠ "") :
    s.records.Pairwise Record.Apart := by
  refine List.pairwise_append.2 ⟨h.pairwise_identified, h.pairwise_pathOnly, ?_⟩
  intro k mem w memW
  obtain ⟨id, found⟩ := Table.mem_values.1 mem
  obtain ⟨path, waits⟩ := Table.mem_values.1 memW
  obtain ⟨free, anonymous, rfl, -⟩ := h.waiting path w waits
  refine (Record.apart_iff_path anonymous).2 fun same => ?_
  -- a path that an id takes does not wait
  have nonempty : k.path ≠ "" := same ▸ h.path_ne_empty_of_mem_records named
    (List.mem_append_right _ memW) anonymous
  have here := h.present id k found
  obtain ⟨path, first⟩ := Option.ne_none_iff_exists'.1 (mt here.path_eq_empty_iff.2 nonempty)
  have place := here.path
  rw [first, Option.getD_some, same] at place
  exact claimant?_ne_none (place ▸ first) free

/-- In a store the records with an identity come first. -/
theorem pairwise_ordered (h : Tracking rs s) :
    s.records.Pairwise fun k w => w.hasIdentity = true → k.hasIdentity = true := by
  refine List.pairwise_append.2 ⟨?_, ?_, ?_⟩
  · exact List.pairwise_of_forall_mem_list fun k mem _ _ _ => h.hasIdentity_of_mem_identified mem
  · refine List.pairwise_of_forall_mem_list fun _ _ w mem identified => ?_
    rw [Record.identity?_eq_none.1 (h.identity?_of_mem_pathOnly mem)] at identified
    cases identified
  · exact fun k mem _ _ _ => h.hasIdentity_of_mem_identified mem

/-- A record with an identity that keeps apart from all that are there, which have identities
as well, comes last. -/
theorem records_addIdentified (h : Tracking rs s) (identity : r.identity? = some r.id)
    (apart : ∀ k ∈ s.records, k.Apart r) (ordered : ∀ k ∈ s.records, k.hasIdentity = true) :
    (s.addIdentified r).1.records = s.records ++ [r] := by
  have identified := (Record.identity?_eq_some.1 identity).1
  have missing : s.find? r.id = none := by
    refine Option.eq_none_iff_forall_ne_some.2 fun k found => ?_
    obtain ⟨mem, same⟩ := h.mem_records_identity?_iff.2 found
    exact (Record.apart_iff_id (ordered k mem) identified).1 (apart k mem)
      (Record.identity?_eq_some.1 same).2
  have idle : s.pathOnly.values = [] := by
    refine List.eq_nil_iff_forall_not_mem.2 fun w mem => ?_
    have anonymous := Record.identity?_eq_none.1 (h.identity?_of_mem_pathOnly mem)
    rw [ordered w (List.mem_append_right _ mem)] at anonymous
    cases anonymous
  have nothing : s.pathOnly.get? r.path = none := by
    refine Option.eq_none_iff_forall_ne_some.2 fun w found => ?_
    exact List.not_mem_nil (idle ▸ Table.mem_values.2 ⟨r.path, found⟩)
  have there := (Store.find?_insertNew missing).trans (if_pos rfl)
  have kept := Store.records_claimPath there rfl nothing
  rw [Store.find?] at missing
  rw [Store.addIdentified, missing]
  dsimp only
  rw [kept, Store.records, Store.records, Table.values_insertNew missing, idle, List.append_nil,
    List.append_nil]

/-- A record without an identity that keeps apart from all that are there comes last. -/
theorem records_addPathOnly (h : Tracking rs s) (anonymous : r.identity? = none)
    (apart : ∀ k ∈ s.records, k.Apart r) : (s.addPathOnly r).1.records = s.records ++ [r] := by
  have free : claimant? rs r.path = none := by
    refine Option.eq_none_iff_forall_ne_some.2 fun id claim => ?_
    have first := firstPath?_of_claimant? claim
    obtain ⟨-, r', mem, identity, -⟩ := carries_of_firstPath? first
    obtain ⟨k, found, -⟩ := h.exists_find?_of_mem mem identity
    have place : k.path = r.path := by rw [(h.present id k found).path, first, Option.getD_some]
    have there : k ∈ s.records := Store.mem_records.2 (.inl ⟨id, found⟩)
    exact (Record.apart_iff_path anonymous).1 (apart k there) place
  have empty : s.pathOnly.get? r.path = none := by
    refine Option.eq_none_iff_forall_ne_some.2 fun w found => ?_
    have mem : w ∈ s.records := Store.mem_records.2 (.inr ⟨r.path, found⟩)
    exact (Record.apart_iff_path anonymous).1 (apart w mem) (h.waiting r.path w found).2.2.1
  have absent : s.pathOnly.contains r.path = false := by rw [Table.contains, empty]; rfl
  simp only [Store.addPathOnly, h.claims, free, absent, Store.records]
  rw [if_neg Bool.false_ne_true, Table.values_insertNew empty, List.append_assoc]

/-- A record that keeps apart from all that are there comes last. -/
theorem exists_add?_of_apart (h : Tracking rs s) (named : r.identity? = none → r.path ≠ "")
    (apart : ∀ k ∈ s.records, k.Apart r)
    (ordered : ∀ k ∈ s.records, r.hasIdentity = true → k.hasIdentity = true) :
    ∃ s' known, s.add? r = some (s', known) ∧ Tracking (rs ++ [r]) s' ∧
      s'.records = s.records ++ [r] := by
  obtain ⟨s', known, added, tracking⟩ := h.add named
  refine ⟨s', known, added, tracking, ?_⟩
  rw [Store.add?] at added
  split at added
  · next identified =>
    obtain rfl : (s.addIdentified r).1 = s' := congrArg Prod.fst (Option.some_inj.1 added)
    exact h.records_addIdentified (Record.identity?_eq_some.2 ⟨identified, rfl⟩) apart
      fun k mem => ordered k mem identified
  · next anonymous =>
    split at added
    · cases added
    · obtain rfl : (s.addPathOnly r).1 = s' := congrArg Prod.fst (Option.some_inj.1 added)
      exact h.records_addPathOnly (Record.identity?_eq_none.2 (Bool.eq_false_iff.2 anonymous)) apart

/-- Records that keep apart are taken in as they come, if those with an identity come first. -/
theorem exists_foldlM_add?_of_apart (apart : ks.Pairwise Record.Apart)
    (ordered : ks.Pairwise fun k w => w.hasIdentity = true → k.hasIdentity = true)
    (named : ∀ r ∈ ks, r.identity? = none → r.path ≠ "") :
    ∃ s, ks.foldlM (fun s r => (s.add? r).map Prod.fst) Store.empty = some s ∧
      Tracking ks s ∧ s.records = ks := by
  induction ks using List.reverseRecOn with
  | nil => exact ⟨Store.empty, rfl, Tracking.empty, rfl⟩
  | append_singleton ks r ih =>
    obtain ⟨apart, -, apart'⟩ := List.pairwise_append.1 apart
    obtain ⟨ordered, -, ordered'⟩ := List.pairwise_append.1 ordered
    obtain ⟨s, run, tracking, rfl⟩ :=
      ih apart ordered fun r' mem => named r' (List.mem_append_left _ mem)
    obtain ⟨s', known, added, tracking', records⟩ := tracking.exists_add?_of_apart
      (named r (by simp)) (fun k mem => apart' k mem r (by simp))
      fun k mem => ordered' k mem r (by simp)
    refine ⟨s', ?_, tracking', records⟩
    rw [List.foldlM_append, run]
    simp [added]

end Tracking

/-- Records that keep apart are combined to themselves, if those with an identity come first. -/
theorem exists_combine?_of_apart (apart : ks.Pairwise Record.Apart)
    (ordered : ks.Pairwise fun k w => w.hasIdentity = true → k.hasIdentity = true)
    (named : ∀ r ∈ ks, r.identity? = none → r.path ≠ "") :
    ∃ s, Store.combine? [ks] = some s ∧ s.records = ks := by
  obtain ⟨s, run, -, records⟩ := Tracking.exists_foldlM_add?_of_apart apart ordered named
  refine ⟨s, ?_, records⟩
  rw [Store.combine?, List.flatten_singleton]
  exact run

/-! ### What sources are combined to -/

/-- Records that others have been combined to. -/
structure IsCombined (rs ks : List Record) : Prop where
  /-- Every record has fallen together with one of its id or, if it has no identity, of its
  path, which has no greater pack. -/
  covers : ∀ r ∈ rs, ∃ k ∈ ks, k.pack ≤ r.pack ∧ (r.hasIdentity = true → k.id = r.id) ∧
    (r.hasIdentity = false → k.path = r.path)
  /-- Every pack has been given by a record of the same id or of the same path. -/
  given : ∀ k ∈ ks, ∃ r ∈ rs, r.pack = k.pack ∧
    (k.hasIdentity = true ∧ r.id = k.id ∨ k.path ≠ "" ∧ r.path = k.path)
  /-- No two of them have an id in common or, where not both have an identity, a path. -/
  apart : ks.Pairwise Record.Apart

/-- The records of a store are what it has taken in, combined. -/
theorem Tracking.isCombined (h : Tracking rs s)
    (named : ∀ r ∈ rs, r.identity? = none → r.path ≠ "") : IsCombined rs s.records where
  covers := by
    intro r mem
    cases identity : r.identity? with
    | some id =>
      obtain ⟨k, found, le⟩ := h.exists_find?_of_mem mem identity
      obtain ⟨identified, rfl⟩ := Record.identity?_eq_some.1 identity
      refine ⟨k, Store.mem_records.2 (.inl ⟨r.id, found⟩), le, fun _ => ?_, by simp [identified]⟩
      exact (Record.identity?_eq_some.1 (h.present r.id k found).identity).2
    | none =>
      have nameless := Record.identity?_eq_none.1 identity
      cases claim : claimant? rs r.path with
      | some id =>
        obtain ⟨k, found, place, le⟩ := h.exists_find?_of_claim mem identity claim
        exact ⟨k, Store.mem_records.2 (.inl ⟨id, found⟩), le, by simp [nameless], fun _ => place⟩
      | none =>
        obtain ⟨w, found, place, le⟩ := h.exists_waiting_of_mem mem identity claim
        exact ⟨w, Store.mem_records.2 (.inr ⟨r.path, found⟩), le, by simp [nameless],
          fun _ => place⟩
  given := by
    intro k mem
    rcases Store.mem_records.1 mem with ⟨id, found⟩ | ⟨path, found⟩
    · have here := h.present id k found
      obtain ⟨identified, rfl⟩ := Record.identity?_eq_some.1 here.identity
      rcases here.pack.1 with ⟨r, mem, identity, same⟩ | ⟨path, claim, r, mem, -, place, same⟩
      · exact ⟨r, mem, same, .inl ⟨identified, (Record.identity?_eq_some.1 identity).2⟩⟩
      · have first := firstPath?_of_claimant? claim
        have own : k.path = path := by rw [here.path, first, Option.getD_some]
        exact ⟨r, mem, same, .inr ⟨own ▸ (carries_of_firstPath? first).1, place.trans own.symm⟩⟩
    · obtain ⟨-, anonymous, rfl, ⟨r, mem, nameless, place, same⟩, -⟩ := h.waiting path k found
      exact ⟨r, mem, same, .inr ⟨place ▸ named r mem nameless, place⟩⟩
  apart := h.pairwise_apart named

/-- Whatever ids share paths and whatever paths come with an id, combining sources keeps for
each of their records one that has its id, or its path where it has no identity, and no greater
pack. No pack is made up, and no two of the records that are kept fall together. Combining these
once more, or the sources with themselves, leaves the same records in the same order. -/
theorem combine?_isCombined {sources : List (List Record)}
    (combined : Store.combine? sources = some s) :
    IsCombined sources.flatten s.records ∧
    (∃ s', Store.combine? [s.records] = some s' ∧ s'.records = s.records) ∧
    ∃ s', Store.combine? (sources ++ sources) = some s' ∧ s'.records = s.records := by
  have tracking := tracking_of_combine? combined
  have named : ∀ r ∈ sources.flatten, r.identity? = none → r.path ≠ "" :=
    fun _ mem anonymous => path_ne_empty_of_combine? combined mem anonymous
  refine ⟨tracking.isCombined named, ?_, s, ?_, rfl⟩
  · exact exists_combine?_of_apart (tracking.pairwise_apart named) tracking.pairwise_ordered
      fun _ => tracking.path_ne_empty_of_mem_records named
  · rw [Store.combine?] at combined ⊢
    rw [List.flatten_append, List.foldlM_append, combined]
    exact tracking.foldlM_add?_of_subset (List.Subset.refl _) named

/-- Sources in which two ids share a path, one of them comes with two paths, and records of the
paths come before the ids and after. -/
def crossedSources : List (List Record) :=
  [[{ path := "a", pack := 6 }, { id := ⟨⟨1, Guid.one_lt⟩, 0⟩, pack := 9 }],
    [{ id := ⟨⟨2, Guid.two_lt⟩, 0⟩, path := "a", pack := 5 },
      { id := ⟨⟨1, Guid.one_lt⟩, 0⟩, path := "a", pack := 7 }, { path := "a", pack := 4 }],
    [{ id := ⟨⟨2, Guid.two_lt⟩, 0⟩, path := "b", pack := 3 }, { path := "b", pack := 2 },
      { path := "a", pack := 8 }]]

/-- The shared path goes to the id that takes it first, and the other path of that id waits. -/
theorem combine?_isCombined_crossedSources :
    ∃ s, Store.combine? crossedSources = some s ∧
      (IsCombined crossedSources.flatten s.records ∧
        (∃ s', Store.combine? [s.records] = some s' ∧ s'.records = s.records) ∧
        ∃ s', Store.combine? (crossedSources ++ crossedSources) = some s' ∧
          s'.records = s.records) ∧
      s.records.map Record.summary = [(some ⟨⟨1, Guid.one_lt⟩, 0⟩, "a", 7),
        (some ⟨⟨2, Guid.two_lt⟩, 0⟩, "a", 3), (none, "b", 2)] := by
  have summaries : (Store.combine? crossedSources).map (fun s => s.records.map Record.summary) =
      some [(some ⟨⟨1, Guid.one_lt⟩, 0⟩, "a", 7), (some ⟨⟨2, Guid.two_lt⟩, 0⟩, "a", 3),
        (none, "b", 2)] := by decide
  obtain ⟨s, combined, records⟩ := Option.map_eq_some_iff.1 summaries
  exact ⟨s, combined, combine?_isCombined combined, records⟩

end PackPlan
