import PackPlan.Command.Seeds
import PackPlan.Proofs.Command.HintFiles
import PackPlan.Proofs.Store.Assigned

/-!
# What an edit makes of a list of seeds

An edit adds the seeds that the catalogs know to the records of a list, then lets go of the ids
that the catalogs find at the paths to be removed, and last gives the overriding pack to the ids
that it has added. All else that becomes of an id is decided by the records together.

## Main definitions

* `CatalogSet.idAt` — the id that catalogs find at a path
* `SeedList.resolved`, `SeedList.removed` — the records that are added, and the ids that go
* `SeedList.edited` — the store of a list after an edit
* `SeedList.existing` — the records in a file of seeds
* `SeedList.written` — the document that an update writes
* `SeedList.Leaves` — what an edit makes of an id

## Main results

* `SeedList.exists_runFrom_apply`, `SeedList.run_update_outcome` — an edit and an update run
* `SeedList.exists_find?_edited_iff` — the record of an id after an edit
-/

namespace PackPlan

variable {catalogs : CatalogSet} {platforms : List String} {path : String} {id : AssetId}
  {pack : Int} {rs added : List Record} {s : Store} {ids : List AssetId}

/-! ### Catalogs -/

namespace CatalogSet

/-- The id that the catalogs of some platforms find at a path. -/
def idAt (catalogs : CatalogSet) (platforms : List String) (path : String) : AssetId :=
  (catalogs.resolveId path platforms).1

/-- An id that is found is that of a catalog. -/
theorem exists_of_isValid_idAt (valid : (catalogs.idAt platforms path).isValid = true) :
    ∃ c ∈ catalogs.catalogs.values,
      c.ids.get? (AssetPath.normalize path) = some (catalogs.idAt platforms path) := by
  rw [idAt, resolveId] at valid ⊢
  dsimp only at valid ⊢
  split at valid
  · next known =>
    rw [if_pos known]
    -- the last answer counts
    generalize answers : List.map _ (catalogs.selected platforms) = given at valid ⊢
    cases last : given.getLast? with
    | none =>
      rw [last] at valid
      exact absurd valid (by decide)
    | some answer =>
      rw [last] at valid
      have mem := List.mem_of_getLast? last
      rw [← answers] at mem
      obtain ⟨⟨platform, c⟩, asked, rfl⟩ := List.mem_map.1 mem
      obtain ⟨p, -, here⟩ := List.mem_filterMap.1 asked
      obtain ⟨c', found, same⟩ := Option.map_eq_some_iff.1 here
      obtain ⟨rfl, rfl⟩ := Prod.mk.inj same
      refine ⟨c', Table.mem_values.2 ⟨p, found⟩, ?_⟩
      simp only [Option.map_some, Option.getD_some, Catalog.idOf] at valid ⊢
      cases there : c'.ids.get? (AssetPath.normalize path) with
      | none =>
        rw [there] at valid
        exact absurd valid (by decide)
      | some id => rw [Option.getD_some]
  · exact absurd valid (by decide)

end CatalogSet

/-! ### Stores -/

/-- More records with an identity, taken one by one. -/
theorem Tracking.foldl_addIdentified (h : Tracking rs s)
    (identified : ∀ r ∈ added, r.identity? = some r.id) :
    Tracking (rs ++ added) (added.foldl (fun s r => (s.addIdentified r).1) s) := by
  induction added generalizing rs s with
  | nil => rwa [List.append_nil]
  | cons r added ih =>
    rw [List.forall_mem_cons] at identified
    have later := ih (h.addIdentified identified.1) identified.2
    rwa [List.append_assoc, List.singleton_append] at later

namespace Store

theorem remove_of_find?_eq_none (missing : s.find? id = none) : s.remove id = s := by
  rw [find?] at missing
  rw [remove, missing]

/-- Of the ids that go no record is found. -/
theorem find?_foldl_remove :
    (ids.foldl remove s).find? id = if id ∈ ids then none else s.find? id := by
  induction ids generalizing s with
  | nil => rw [List.foldl_nil, if_neg List.not_mem_nil]
  | cons a ids ih =>
    have step : (s.remove a).find? id = if id = a then none else s.find? id := by
      cases found : s.find? a with
      | some k => exact find?_remove found
      | none =>
        rw [remove_of_find?_eq_none found]
        split
        · next same => rw [same, found]
        · rfl
    rw [List.foldl_cons, ih, step]
    by_cases here : id = a
    · rw [if_pos here, ite_self, if_pos (List.mem_cons.2 (.inl here))]
    · rw [if_neg here]
      refine if_congr ?_ rfl rfl
      rw [List.mem_cons, or_iff_right here]

theorem pathOnly_foldl_remove : (ids.foldl remove s).pathOnly = s.pathOnly := by
  induction ids generalizing s with
  | nil => rfl
  | cons a ids ih =>
    rw [List.foldl_cons, ih]
    cases found : s.find? a with
    | some k => exact pathOnly_remove found
    | none => rw [remove_of_find?_eq_none found]

/-- An override gives its pack to the records of some ids, unless it is that of the
unassigned. -/
theorem overridePacks_some : (s.overridePacks pack (some ids)).1 =
    s.repack fun id old => if pack ≠ unassigned ∧ id ∈ s.present ids then pack else old := by
  unfold overridePacks
  split
  · next none => simp [none, repack_id]
  · next some => simp only [foldl_setPack, ne_eq, some, not_false_eq_true, true_and]

theorem mem_present (there : s.find? id ≠ none) : id ∈ s.present ids ↔ id ∈ ids := by
  have contains : s.contains id = true := by
    rw [contains, Table.contains, Option.isSome_iff_ne_none]
    exact there
  rw [present, List.mem_filter, List.mem_eraseDups, and_iff_left contains]

theorem find?_overridePacks : (s.overridePacks pack (some ids)).1.find? id =
    (s.find? id).map fun r =>
      { r with pack := if pack ≠ unassigned ∧ id ∈ ids then pack else r.pack } := by
  rw [overridePacks_some, find?_repack]
  cases found : s.find? id with
  | none => rfl
  | some k =>
    have there : s.find? id ≠ none := by
      rw [found]
      exact nofun
    simp only [Option.map_some, mem_present there]

theorem pathOnly_overridePacks :
    (s.overridePacks pack (some ids)).1.pathOnly = s.pathOnly := by
  rw [overridePacks_some, pathOnly_repack]

end Store

namespace SeedList

variable {list file : FilePath} {edit : Edit} {seeds : List Seed} {paths : List String}
  {r k : Record} {t : FileTree} {w : Workspace} {told : List Notice}

/-! ### Edits -/

variable (catalogs platforms) in
/-- The record of a seed in a list. -/
def resolvedSeed (seed : Seed) : Record :=
  { id := catalogs.idAt platforms seed.path, path := seed.path, pack := seed.pack }

variable (catalogs platforms) in
/-- The records of the seeds that are known. -/
def resolved (seeds : List Seed) : List Record :=
  (seeds.map (resolvedSeed catalogs platforms)).filter Record.hasIdentity

variable (catalogs platforms) in
/-- The ids at the paths that are to be removed. -/
def removed (paths : List String) : List AssetId :=
  paths.map fun path => catalogs.idAt platforms (AssetPath.normalize path)

variable (catalogs platforms) in
/-- The store of a list with the seeds that an edit adds. -/
def extended (edit : Edit) (s : Store) : Store :=
  (resolved catalogs platforms edit.add).foldl (fun s r => (s.addIdentified r).1) s

variable (catalogs platforms) in
/-- The store of a list after an edit. -/
def edited (edit : Edit) (s : Store) : Store :=
  (((removed catalogs platforms edit.remove).foldl Store.remove
    (extended catalogs platforms edit s)).overridePacks edit.override
      (some ((resolved catalogs platforms edit.add).map Record.id))).1

theorem mem_resolved : r ∈ resolved catalogs platforms seeds ↔
    ∃ seed ∈ seeds, (catalogs.idAt platforms seed.path).isValid = true ∧
      resolvedSeed catalogs platforms seed = r := by
  rw [resolved, List.mem_filter, List.mem_map]
  constructor
  · rintro ⟨⟨seed, mem, rfl⟩, identified⟩
    exact ⟨seed, mem, identified, rfl⟩
  · rintro ⟨seed, mem, valid, rfl⟩
    exact ⟨⟨seed, mem, rfl⟩, valid⟩

theorem identity?_of_mem_resolved (mem : r ∈ resolved catalogs platforms seeds) :
    r.identity? = some r.id :=
  Record.identity?_eq_some.2 ⟨(List.mem_filter.1 mem).2, rfl⟩

theorem resolved_cons_of_valid {seed : Seed}
    (valid : (catalogs.idAt platforms seed.path).isValid = true) :
    resolved catalogs platforms (seed :: seeds) =
      resolvedSeed catalogs platforms seed :: resolved catalogs platforms seeds := by
  unfold resolved
  rw [List.map_cons, List.filter_cons_of_pos (by exact valid)]

theorem resolved_cons_of_invalid {seed : Seed}
    (invalid : (catalogs.idAt platforms seed.path).isValid = false) :
    resolved catalogs platforms (seed :: seeds) = resolved catalogs platforms seeds := by
  unfold resolved
  rw [List.map_cons, List.filter_cons_of_neg (by exact Bool.not_eq_true _ ▸ invalid)]

variable (catalogs platforms) in
/-- Seeds are added one after the other, but for those that are not known. -/
theorem exists_runFrom_addSeeds (seeds : List Seed) (s : Store) (told : List Notice) :
    ∃ told', (Attempt.ofTelling (addSeeds catalogs platforms seeds s)).runFrom told =
      (.ok ((resolved catalogs platforms seeds).foldl (fun s r => (s.addIdentified r).1) s,
        (resolved catalogs platforms seeds).map Record.id), told') := by
  induction seeds generalizing s told with
  | nil => exact ⟨told, rfl⟩
  | cons seed seeds ih =>
    have answer : (catalogs.resolveId seed.path platforms).1 =
      catalogs.idAt platforms seed.path := rfl
    rw [addSeeds]
    generalize catalogs.resolveId seed.path platforms = asked at answer ⊢
    obtain ⟨id, notices⟩ := asked
    dsimp only at answer ⊢
    subst answer
    rw [Attempt.ofTelling_bind, Attempt.ofTelling_forM_tell,
      Attempt.runFrom_bind_ok (Attempt.runFrom_forM_tell _)]
    cases valid : (catalogs.idAt platforms seed.path).isValid with
    | true =>
      obtain ⟨told', rest⟩ :=
        ih (s.addIdentified (resolvedSeed catalogs platforms seed)).1 (told ++ notices)
      refine ⟨told', ?_⟩
      rw [if_pos rfl, resolved_cons_of_valid valid, Attempt.ofTelling_bind]
      exact Attempt.runFrom_bind_ok rest
    | false =>
      rw [if_neg Bool.false_ne_true, resolved_cons_of_invalid valid, Attempt.ofTelling_bind,
        Attempt.ofTelling_tell, Attempt.runFrom_bind_ok (Attempt.runFrom_tell _)]
      exact ih s _

variable (catalogs platforms) in
/-- Ids are let go one after the other. -/
theorem exists_runFrom_removeSeeds (name : String) (paths : List String) (s : Store)
    (told : List Notice) :
    ∃ told', (Attempt.ofTelling (removeSeeds catalogs platforms name paths s)).runFrom told =
      (.ok ((removed catalogs platforms paths).foldl Store.remove s), told') := by
  induction paths generalizing s told with
  | nil => exact ⟨told, rfl⟩
  | cons path paths ih =>
    have answer : (catalogs.resolveId (AssetPath.normalize path) platforms).1 =
      catalogs.idAt platforms (AssetPath.normalize path) := rfl
    rw [removeSeeds, removed, List.map_cons, List.foldl_cons]
    generalize catalogs.resolveId (AssetPath.normalize path) platforms = asked at answer ⊢
    obtain ⟨id, notices⟩ := asked
    dsimp only at answer ⊢
    subst answer
    rw [Attempt.ofTelling_bind, Attempt.ofTelling_forM_tell,
      Attempt.runFrom_bind_ok (Attempt.runFrom_forM_tell _)]
    split
    · rw [Attempt.ofTelling_bind, Attempt.ofTelling_tell,
        Attempt.runFrom_bind_ok (Attempt.runFrom_tell _)]
      exact ih _ _
    · exact ih _ _

variable (catalogs platforms) in
theorem exists_runFrom_apply (name : String) (edit : Edit) (s : Store) (told : List Notice) :
    ∃ told', (Attempt.ofTelling (apply catalogs platforms name edit s)).runFrom told =
      (.ok (edited catalogs platforms edit s), told') := by
  obtain ⟨mid, added⟩ := exists_runFrom_addSeeds catalogs platforms edit.add s told
  obtain ⟨told', gone⟩ := exists_runFrom_removeSeeds catalogs platforms name edit.remove
    (extended catalogs platforms edit s) mid
  refine ⟨told', ?_⟩
  rw [apply, Attempt.ofTelling_bind, Attempt.runFrom_bind_ok added, Attempt.ofTelling_bind]
  exact Attempt.runFrom_bind_ok gone

/-! ### Updates -/

variable (catalogs platforms) in
/-- The records in a file of seeds; there is nothing in a file that is not there. -/
def existing (file : FilePath) (t : FileTree) : Attempt (List Record) := do
  if ← Attempt.ofExcept ((t.exists? file).mapError .files) then
    HintFiles.read (HintFiles.resolver catalogs platforms) file t
  else return []

variable (catalogs platforms) in
/-- The document that an update writes, if it comes to that. -/
def written (file : FilePath) (edit : Edit) (t : FileTree) : Except Fault Json.Value := do
  let s ← (readStore catalogs platforms file t).run.1
  (Hints.document (edited catalogs platforms edit s).records).run.1

theorem readStore_eq : readStore catalogs platforms file t =
    existing catalogs platforms file t >>= fun rs =>
      Attempt.ofExcept (HintFiles.addAll .empty rs) := by
  rw [readStore, existing, bind_assoc]
  congr 1
  funext there
  split
  · rfl
  · rfl

/-- The records in a file that is there are read from its bytes. -/
theorem existing_of_readBytes {bytes : Bytes} (content : t.readBytes file = .ok bytes) :
    existing catalogs platforms file t =
      Hints.readBytes (HintFiles.resolver catalogs platforms) file.text bytes := by
  rw [existing, FileTree.exists?_of_readBytes content, HintFiles.read, content]
  rfl

/-- Records are read from the bytes of a file, or there are none. -/
theorem eq_nil_or_exists_of_existing
    (read : (existing catalogs platforms file t).run.1 = .ok rs) :
    rs = [] ∨ ∃ bytes told, t.readBytes file = .ok bytes ∧
      (Hints.readBytes (HintFiles.resolver catalogs platforms) file.text bytes).runFrom [] =
        (.ok rs, told) := by
  obtain ⟨told, read⟩ : ∃ told, (existing catalogs platforms file t).runFrom [] = (.ok rs, told) :=
    ⟨_, Prod.ext read rfl⟩
  cases content : t.readBytes file with
  | ok bytes =>
    rw [existing_of_readBytes content] at read
    exact .inr ⟨bytes, told, rfl, read⟩
  | error cause =>
    rw [existing] at read
    obtain ⟨there, mid, -, read⟩ := Attempt.exists_of_runFrom_bind read
    split at read
    · rw [HintFiles.read, content] at read
      cases read
    · cases read
      exact .inl rfl

variable (catalogs platforms file t) in
theorem isSteady_existing : (existing catalogs platforms file t).IsSteady := by
  refine (Attempt.isSteady_ofExcept _).bind fun there => ?_
  split
  · exact (Attempt.isSteady_ofExcept _).bind fun _ => Hints.isSteady_readBytes _ _ _
  · exact Attempt.isSteady_pure _

variable (catalogs platforms file t) in
theorem isSteady_readStore : (readStore catalogs platforms file t).IsSteady := by
  rw [readStore_eq]
  exact (isSteady_existing catalogs platforms file t).bind fun _ => Attempt.isSteady_ofExcept _

/-- Records that can be added to a store of nothing have an identity or a path, and the store
holds what they make of these. -/
theorem tracking_of_addAll (h : HintFiles.addAll .empty rs = .ok s) :
    Tracking rs s ∧ ∀ r ∈ rs, r.identity? = none → r.path ≠ "" := by
  rw [HintFiles.addAll] at h
  split at h
  · next s' added =>
    obtain rfl := Except.ok.inj h
    have combined : Store.combine? [rs] = some s' := by
      rw [Store.combine?, List.flatten_singleton]
      exact added
    have tracking := tracking_of_combine? combined
    rw [List.flatten_singleton] at tracking
    refine ⟨tracking, fun r mem => path_ne_empty_of_combine? combined ?_⟩
    rwa [List.flatten_singleton]
  · cases h

/-- The store of a list holds the records in its file. -/
theorem exists_existing_of_readStore
    (h : (readStore catalogs platforms file t).run.1 = .ok s) :
    ∃ rs, (existing catalogs platforms file t).run.1 = .ok rs ∧ Tracking rs s ∧
      ∀ r ∈ rs, r.identity? = none → r.path ≠ "" := by
  obtain ⟨told, h⟩ : ∃ told, (readStore catalogs platforms file t).runFrom [] = (.ok s, told) :=
    ⟨_, Prod.ext h rfl⟩
  rw [readStore_eq] at h
  obtain ⟨rs, mid, read, added⟩ := Attempt.exists_of_runFrom_bind h
  rw [Attempt.runFrom_ofExcept] at added
  exact ⟨rs, congrArg Prod.fst read, tracking_of_addAll (Prod.mk.inj added).1⟩

/-- Records with an identity or a path can be added to a store of nothing. -/
theorem exists_addAll (named : ∀ r ∈ rs, r.identity? = none → r.path ≠ "") :
    ∃ s, HintFiles.addAll .empty rs = .ok s := by
  obtain ⟨s, combined, -⟩ := exists_tracking_combine? [rs] (by rwa [List.flatten_singleton])
  rw [Store.combine?, List.flatten_singleton] at combined
  exact ⟨s, by rw [HintFiles.addAll, combined]⟩

/-- A list has a store if the records in its file can be added to one. -/
theorem readStore_of_existing (read : (existing catalogs platforms file t).run.1 = .ok rs)
    (added : HintFiles.addAll .empty rs = .ok s) :
    (readStore catalogs platforms file t).run.1 = .ok s := by
  obtain ⟨told, read⟩ : ∃ told, (existing catalogs platforms file t).runFrom [] = (.ok rs, told) :=
    ⟨_, Prod.ext read rfl⟩
  rw [readStore_eq, Attempt.run_eq_runFrom, Attempt.runFrom_bind_ok read, added]
  rfl

/-- What becomes of an update. -/
inductive Outcome (catalogs : CatalogSet) (platforms : List String) (file : FilePath)
    (edit : Edit) (w : Workspace) : Except Fault Unit × Workspace → Prop
  /-- There is nothing to be written, and the files stay as they are. -/
  | stopped (fault : Fault) (told : List Notice)
      (reason : written catalogs platforms file edit w.files = .error fault) :
      Outcome catalogs platforms file edit w (.error fault, { w with notices := told })
  /-- The file is written, if it can be. -/
  | wrote (v : Json.Value) (told : List Notice) (r : Except Fault Unit) (w' : Workspace)
      (document : written catalogs platforms file edit w.files = .ok v)
      (wrote : (Job.writeFile file (Hints.render v)).run { w with notices := told } = (r, w'))
      (told' : List Notice) :
      Outcome catalogs platforms file edit w (r, { w' with notices := told' })

variable (catalogs platforms) in
theorem run_update_outcome (named : HintFiles.seedFile list = .ok file) (edit : Edit)
    (w : Workspace) :
    Outcome catalogs platforms file edit w ((update catalogs platforms list edit).run w) := by
  have path : (Job.path (HintFiles.seedFile list)).run w = (.ok file, w) := by
    rw [named]
    rfl
  have store := (isSteady_readStore catalogs platforms file w.files).runFrom_fst w.notices
  rw [update, Job.run_bind_ok path, Job.run_bind, Job.run_inspect, store]
  cases read : (readStore catalogs platforms file w.files).run.1 with
  | error fault =>
    refine .stopped fault _ ?_
    rw [written, read]
    rfl
  | ok s =>
    obtain ⟨told, applied⟩ := exists_runFrom_apply catalogs platforms file.name edit s
      ((readStore catalogs platforms file w.files).runFrom w.notices).2
    have document : written catalogs platforms file edit w.files =
        (Hints.document (edited catalogs platforms edit s).records).run.1 := by
      rw [written, read]
      rfl
    dsimp only
    rw [Job.run_bind, Job.run_ofAttempt, applied]
    dsimp only
    rw [Job.run_bind_ok (Job.run_tell _), HintFiles.write, bind_assoc, Job.run_bind,
      Job.run_ofAttempt, (Hints.isSteady_document _).runFrom_fst, ← document]
    dsimp only
    cases made : written catalogs platforms file edit w.files with
    | error fault => exact .stopped fault _ made
    | ok v =>
      dsimp only
      rw [Job.run_bind]
      generalize came : (Job.writeFile file (Hints.render v)).run _ = outcome
      obtain ⟨_ | _, w'⟩ := outcome
      · exact .wrote v _ _ w' made came _
      · exact .wrote v _ _ w' made came _

/-- The document of records whose numbers can be written can be had, and its text. -/
theorem exists_written (edit : Edit)
    (stored : (readStore catalogs platforms file t).run.1 = .ok s)
    (packs : ∀ k ∈ (edited catalogs platforms edit s).records,
      0 ≤ k.pack ∧ Numeral.isTooLong k.pack = false)
    (fits : ∀ k ∈ (edited catalogs platforms edit s).records, k.pack ≠ unassigned → k.IdFits) :
    ∃ v text, written catalogs platforms file edit t = .ok v ∧ Hints.render v = .ok text := by
  obtain ⟨v, warnings, text, document, rendered, -⟩ := Hints.exists_text packs fits
  refine ⟨v, text, ?_, rendered⟩
  rw [written, stored]
  exact congrArg Prod.fst (document [])

/-- An update runs to its end if its document can be had and the file can be written. -/
theorem exists_run_update_of_written {v : Json.Value} {text : String}
    (named : HintFiles.seedFile list = .ok file)
    (document : written catalogs platforms file edit w.files = .ok v)
    (rendered : Hints.render v = .ok text)
    (writable : ∀ told, ∃ w', (Job.writeFile file (.ok text)).run { w with notices := told } =
      (.ok (), w')) :
    ∃ w', (update catalogs platforms list edit).run w = (.ok (), w') := by
  have outcome := run_update_outcome catalogs platforms named edit w
  generalize (update catalogs platforms list edit).run w = result at outcome ⊢
  cases outcome with
  | stopped fault told reason =>
    rw [document] at reason
    cases reason
  | wrote v' told r w' document' wrote told' =>
    obtain rfl := Except.ok.inj (document.symm.trans document')
    obtain ⟨w'', done⟩ := writable told
    rw [rendered, done] at wrote
    obtain ⟨rfl, rfl⟩ := Prod.mk.inj wrote
    exact ⟨_, rfl⟩

/-! ### What becomes of an id -/

variable (catalogs platforms) in
/-- What an edit makes of an id that occurs and does not go: it is at the first path that comes
with it, in the overriding pack if there is one and a seed has been added for it, and else in the
least pack that is given to it. -/
structure Leaves (edit : Edit) (rs : List Record) (id : AssetId) (path : String) (pack : Int) :
    Prop where
  occurs : Occurs (rs ++ resolved catalogs platforms edit.add) id
  spared : id ∉ removed catalogs platforms edit.remove
  path : path = (firstPath? (rs ++ resolved catalogs platforms edit.add) id).getD ""
  pack : if edit.override ≠ unassigned ∧ id ∈ (resolved catalogs platforms edit.add).map Record.id
    then pack = edit.override
    else IsLeast (packsOfId (rs ++ resolved catalogs platforms edit.add) id ∪
      absorbed (rs ++ resolved catalogs platforms edit.add) id) pack

variable (catalogs platforms edit) in
theorem tracking_extended (h : Tracking rs s) :
    Tracking (rs ++ resolved catalogs platforms edit.add) (extended catalogs platforms edit s) :=
  h.foldl_addIdentified fun _ mem => identity?_of_mem_resolved mem

/-- The record of an id after an edit is the one before it in another pack. -/
theorem find?_edited_eq_some : (edited catalogs platforms edit s).find? id = some k ↔
    id ∉ removed catalogs platforms edit.remove ∧
      ∃ k', (extended catalogs platforms edit s).find? id = some k' ∧
        { k' with pack := if edit.override ≠ unassigned ∧
            id ∈ (resolved catalogs platforms edit.add).map Record.id
          then edit.override else k'.pack } = k := by
  rw [edited, Store.find?_overridePacks, Store.find?_foldl_remove, Option.map_eq_some_iff]
  by_cases gone : id ∈ removed catalogs platforms edit.remove
  · simp [gone]
  · rw [if_neg gone, and_iff_right gone]

theorem pathOnly_edited : (edited catalogs platforms edit s).pathOnly =
    (extended catalogs platforms edit s).pathOnly := by
  rw [edited, Store.pathOnly_overridePacks, Store.pathOnly_foldl_remove]

theorem identity?_of_find?_edited (h : Tracking rs s)
    (found : (edited catalogs platforms edit s).find? id = some k) : k.identity? = some id := by
  obtain ⟨-, k', there, rfl⟩ := find?_edited_eq_some.1 found
  exact ((tracking_extended catalogs platforms edit h).present id k' there).identity

/-- The record of an id after an edit. -/
theorem exists_find?_edited_iff (h : Tracking rs s) :
    (∃ k, (edited catalogs platforms edit s).find? id = some k ∧ k.path = path ∧ k.pack = pack) ↔
      Leaves catalogs platforms edit rs id path pack := by
  have tracking := tracking_extended catalogs platforms edit h
  constructor
  · rintro ⟨k, found, rfl, rfl⟩
    obtain ⟨spared, k', there, rfl⟩ := find?_edited_eq_some.1 found
    have taken := tracking.present id k' there
    refine ⟨taken.occurs, spared, taken.path, ?_⟩
    split
    · rfl
    · exact taken.pack
  · intro leaves
    cases there : (extended catalogs platforms edit s).find? id with
    | none => exact absurd leaves.occurs (tracking.absent id there)
    | some k =>
      have taken := tracking.present id k there
      refine ⟨_, find?_edited_eq_some.2 ⟨leaves.spared, k, there, rfl⟩,
        taken.path.trans leaves.path.symm, ?_⟩
      have pack := leaves.pack
      dsimp only
      split
      · next overridden =>
        rw [if_pos overridden] at pack
        exact pack.symm
      · next own =>
        rw [if_neg own] at pack
        exact taken.pack.unique pack

end SeedList

end PackPlan
