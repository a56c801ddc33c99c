import PackPlan.Command.Plans
import PackPlan.Proofs.Command.Editing
import PackPlan.Proofs.Plan.LeastPacks
import PackPlan.Proofs.Seed

/-!
# Plans from a list of seeds

The seeds of a plan can be given as they are, or put into a list from whose file they are read.
On one platform both come to the same plan: the list keeps of each seed that the catalog knows
the least pack, and no more of it counts.

## Main definitions

* `SeedList.known`, `SeedList.store` — the records of the seeds that a catalog knows, and the list
  of them
* `SeedList.reread` — what is read from the file of the list
* `SeedList.given`, `SeedList.kept` — the inputs of a plan for seeds, and for the list of them
* `SeedList.Comparison` — what becomes of seeds that are put into a list

## Main results

* `SeedList.exists_run_update` — seeds are written into a list that is not there yet
* `SeedList.isLeastOf` — what is read from the list are the seeds in their least packs
* `SeedList.update_plans` — the plans of both ways are the same
-/

namespace PackPlan

variable {catalogs : CatalogSet} {platforms : List String} {platform : String} {c : Catalog}
  {seed : Seed} {seeds : List Seed} {told : List Notice} {list file : FilePath} {w : Workspace}

/-- With the catalog of one platform an id is asked of this catalog alone. -/
theorem CatalogSet.idAt_of_selected (selected : catalogs.selected platforms = [(platform, c)])
    (path : String) : catalogs.idAt platforms path =
      if (c.idOf path).isValid then c.idOf path else .none := by
  rw [CatalogSet.idAt, CatalogSet.resolveId, selected]
  cases valid : (c.idOf path).isValid with
  | true => simp [valid]
  | false => simp [valid]

namespace SeedList

/-! ### The list -/

/-- The record of a seed in a list. -/
def listed (c : Catalog) (seed : Seed) : Record :=
  { id := c.idOf seed.path, path := seed.path, pack := seed.pack }

/-- The records of the seeds that a catalog knows. -/
def known (c : Catalog) (seeds : List Seed) : List Record :=
  (seeds.filter fun seed => (c.idOf seed.path).isValid).map (listed c)

/-- The list of the seeds that a catalog knows. -/
def store (c : Catalog) (seeds : List Seed) : Store :=
  (known c seeds).foldl (fun s r => (s.addIdentified r).1) .empty

theorem known_cons_of_valid (valid : (c.idOf seed.path).isValid = true) :
    known c (seed :: seeds) = listed c seed :: known c seeds := by
  rw [known, List.filter_cons_of_pos (by exact valid), List.map_cons, known]

theorem known_cons_of_invalid (invalid : (c.idOf seed.path).isValid = false) :
    known c (seed :: seeds) = known c seeds := by
  rw [known, List.filter_cons_of_neg (by rw [invalid]; exact Bool.false_ne_true), known]

theorem mem_known {r : Record} : r ∈ known c seeds ↔
    ∃ seed ∈ seeds, (c.idOf seed.path).isValid = true ∧ listed c seed = r := by
  simp only [known, List.mem_map, List.mem_filter, and_assoc]

theorem identity?_of_mem_known (r : Record) (mem : r ∈ known c seeds) :
    r.identity? = some r.id := by
  obtain ⟨seed, -, valid, rfl⟩ := mem_known.1 mem
  exact Record.identity?_eq_some.2 ⟨valid, rfl⟩

theorem tracking_store (c : Catalog) (seeds : List Seed) :
    Tracking (known c seeds) (store c seeds) :=
  tracking_foldl_addIdentified identity?_of_mem_known

/-- With the catalog of one platform the seeds that are added are those that it knows. -/
theorem resolved_eq_known (selected : catalogs.selected platforms = [(platform, c)]) :
    resolved catalogs platforms seeds = known c seeds := by
  induction seeds with
  | nil => rfl
  | cons seed seeds ih =>
    have found := CatalogSet.idAt_of_selected selected seed.path
    cases valid : (c.idOf seed.path).isValid with
    | true =>
      rw [valid, if_pos rfl] at found
      rw [known_cons_of_valid valid, resolved_cons_of_valid (by rwa [found]), resolvedSeed, found,
        ih, listed]
    | false =>
      rw [valid, if_neg Bool.false_ne_true] at found
      rw [known_cons_of_invalid valid, resolved_cons_of_invalid (by rw [found]; rfl), ih]

theorem edited_empty (selected : catalogs.selected platforms = [(platform, c)]) :
    edited catalogs platforms { add := seeds } .empty = store c seeds := by
  rw [edited, extended, resolved_eq_known selected]
  rfl

/-- There is nothing in a list that is not there. -/
theorem runFrom_readStore (absent : w.files.exists? file = .ok false) :
    (readStore catalogs platforms file w.files).runFrom told = (.ok .empty, told) := by
  rw [readStore, absent]
  rfl

/-- Seeds are written into a list that is not there yet. -/
theorem exists_run_update (selected : catalogs.selected platforms = [(platform, c)])
    (named : HintFiles.seedFile list = .ok file) (absent : w.files.exists? file = .ok false)
    (seeds : List Seed) :
    ∃ told, (update catalogs platforms list { add := seeds }).run w =
      (HintFiles.write (store c seeds).records file >>= fun _ =>
        Job.tell (.info s!"wrote {file}")).run { w with notices := told } := by
  obtain ⟨told, applied⟩ :=
    exists_runFrom_apply catalogs platforms file.name { add := seeds } .empty w.notices
  rw [edited_empty selected] at applied
  have path : (Job.path (HintFiles.seedFile list)).run w = (.ok file, w) := by
    rw [named]
    rfl
  have before : (Job.inspect (readStore catalogs platforms file)).run w = (.ok .empty, w) := by
    rw [Job.run_inspect, runFrom_readStore absent]
  have after : (Job.ofAttempt (Attempt.ofTelling
      (apply catalogs platforms file.name { add := seeds } .empty))).run w =
      (.ok (store c seeds), { w with notices := told }) := by
    rw [Job.run_ofAttempt, applied]
  rw [update, Job.run_bind_ok path, Job.run_bind_ok before, Job.run_bind_ok after,
    Job.run_bind_ok (Job.run_tell _)]
  exact ⟨_, rfl⟩

/-! ### The records of the list -/

theorem packsOfId_known {id : AssetId} (valid : id.isValid = true) :
    packsOfId (known c seeds) id = {p | ∃ seed ∈ seeds, c.idOf seed.path = id ∧ seed.pack = p} := by
  ext p
  constructor
  · rintro ⟨r, mem, identity, rfl⟩
    obtain ⟨seed, there, -, rfl⟩ := mem_known.1 mem
    exact ⟨seed, there, (Record.identity?_eq_some.1 identity).2, rfl⟩
  · rintro ⟨seed, there, rfl, rfl⟩
    exact ⟨listed c seed, mem_known.2 ⟨seed, there, valid, rfl⟩,
      Record.identity?_eq_some.2 ⟨valid, rfl⟩, rfl⟩

/-- A record of the list is that of a seed that the catalog knows. -/
theorem of_mem_store {k : Record} (mem : k ∈ (store c seeds).records) :
    k.hasIdentity = true ∧ ∃ seed ∈ seeds, c.idOf seed.path = k.id ∧ seed.pack = k.pack := by
  have tracking := tracking_store c seeds
  have taken := tracking.present k.id k ((tracking.mem_records_iff identity?_of_mem_known).1 mem)
  have valid := (Record.identity?_eq_some.1 taken.identity).1
  have given := (taken.isLeast identity?_of_mem_known).1
  rw [packsOfId_known valid] at given
  exact ⟨valid, given⟩

theorem lt_pow_of_assigned {pack : Int} (assigned : pack < unassigned) :
    pack < 10 ^ Numeral.maxDigits :=
  Numeral.lt_pow_of_lt (lt_trans assigned (by decide))

theorem isTooLong_of_assigned {pack : Int} (natural : 0 ≤ pack) (assigned : pack < unassigned) :
    Numeral.isTooLong pack = false :=
  Numeral.isTooLong_of_lt_pow natural (lt_pow_of_assigned assigned)

/-- The ids that a catalog finds have numbers that fit. -/
theorem idFits_of_mem_store {k : Record} (mem : k ∈ (store c seeds).records)
    (fits : ∀ id ∈ c.ids.values, 0 ≤ id.subId ∧ id.subId < 10 ^ Numeral.maxDigits) : k.IdFits := by
  obtain ⟨identified, seed, -, same, -⟩ := of_mem_store mem
  intro _
  rw [Catalog.idOf] at same
  cases found : c.ids.get? (AssetPath.normalize seed.path) with
  | none =>
    rw [found] at same
    rw [Record.hasIdentity, ← same] at identified
    cases identified
  | some id =>
    rw [found, Option.getD_some] at same
    obtain ⟨natural, below⟩ := fits id (Table.mem_values.2 ⟨_, found⟩)
    rw [← same]
    exact ⟨natural, Numeral.isTooLong_of_lt_pow natural below⟩

/-! ### What is read from the list -/

/-- What is read from the hint file of the list, its records being completed by a resolver. -/
def reread (resolver : Hints.Resolver) (c : Catalog) (seeds : List Seed) : List Record :=
  ((Hints.fileOrder (store c seeds).records).filter Record.isNamed).map fun r =>
    (Hints.readBack resolver r).1

/-- Every record of the list is read from its file. -/
theorem mem_reread {resolver : Hints.Resolver} (assigned : ∀ seed ∈ seeds, seed.pack < unassigned)
    {r : Record} : r ∈ reread resolver c seeds ↔
      ∃ k ∈ (store c seeds).records, (Hints.readBack resolver k).1 = r := by
  rw [reread, List.mem_map]
  refine exists_congr fun k => and_congr_left fun _ => ?_
  rw [(Hints.filter_fileOrder_perm Record.isNamed _).mem_iff, List.mem_filter, decide_eq_true_eq,
    and_iff_left_iff_imp]
  intro mem
  obtain ⟨identified, seed, there, -, same⟩ := of_mem_store mem
  exact ⟨same ▸ (assigned seed there).ne, Hints.isNamed_of_hasIdentity identified⟩

/-- Its seed is the asset of the record. -/
theorem seedId_readBack (resolver : Hints.Resolver) {k : Record}
    (identified : k.hasIdentity = true) :
    Plan.seedId c (Hints.readBack resolver k).1 = k.id := by
  have same := Hints.id_readBack resolver identified
  rw [Plan.seedId, Record.hasIdentity, same]
  exact if_pos identified

/-- The input of a plan for seeds as they are. -/
def given (seeds : List Seed) (exclusions : Exclusions) : PlanInput :=
  { seeds := Groups.collect (seeds.map Planning.seedRecord), exclusions }

/-- The input of a plan for what is read from the list. -/
def kept (resolver : Hints.Resolver) (c : Catalog) (seeds : List Seed) (exclusions : Exclusions) :
    PlanInput :=
  { seeds := Groups.collect (reread resolver c seeds), exclusions }

section Inputs

variable {resolver : Hints.Resolver} {exclusions : Exclusions} {id : AssetId} {pack : Int}

theorem isSeed_given : (given seeds exclusions).IsSeed c pack id ↔
    (∃ seed ∈ seeds, c.idOf seed.path = id ∧ seed.pack = pack) ∧ Plan.isKnown c id = true := by
  rw [PlanInput.isSeed_iff rfl]
  constructor
  · rintro ⟨_, mem, rfl, rfl, isKnown⟩
    obtain ⟨seed, there, rfl⟩ := List.mem_map.1 mem
    exact ⟨⟨seed, there, rfl, rfl⟩, isKnown⟩
  · rintro ⟨⟨seed, there, rfl, rfl⟩, isKnown⟩
    exact ⟨_, List.mem_map_of_mem there, rfl, rfl, isKnown⟩

theorem mem_keys_given (key : pack ∈ (given seeds exclusions).seeds.keys) :
    ∃ seed ∈ seeds, seed.pack = pack := by
  obtain ⟨_, mem, rfl⟩ := Groups.mem_keys_collect.1 key
  obtain ⟨seed, there, rfl⟩ := List.mem_map.1 mem
  exact ⟨seed, there, rfl⟩

variable (assigned : ∀ seed ∈ seeds, seed.pack < unassigned)
include assigned

theorem isSeed_kept : (kept resolver c seeds exclusions).IsSeed c pack id ↔
    (∃ k ∈ (store c seeds).records, k.id = id ∧ k.pack = pack) ∧ Plan.isKnown c id = true := by
  rw [PlanInput.isSeed_iff rfl]
  constructor
  · rintro ⟨_, mem, rfl, rfl, isKnown⟩
    obtain ⟨k, there, rfl⟩ := (mem_reread assigned).1 mem
    refine ⟨⟨k, there, ?_, ?_⟩, isKnown⟩
    · rw [seedId_readBack resolver (of_mem_store there).1]
    · rw [Hints.pack_readBack]
  · rintro ⟨⟨k, there, rfl, rfl⟩, isKnown⟩
    refine ⟨_, (mem_reread assigned).2 ⟨k, there, rfl⟩, Hints.pack_readBack _ _, ?_, isKnown⟩
    exact seedId_readBack resolver (of_mem_store there).1

theorem mem_keys_kept (key : pack ∈ (kept resolver c seeds exclusions).seeds.keys) :
    ∃ seed ∈ seeds, seed.pack = pack := by
  obtain ⟨_, mem, rfl⟩ := Groups.mem_keys_collect.1 key
  obtain ⟨k, there, rfl⟩ := (mem_reread assigned).1 mem
  obtain ⟨-, seed, there, -, same⟩ := of_mem_store there
  exact ⟨seed, there, by rw [Hints.pack_readBack, same]⟩

/-- What is read from the list are the seeds in their least packs. -/
theorem isLeastOf : PlanInput.IsLeastOf c (given seeds exclusions)
    (kept resolver c seeds exclusions) where
  exclusions := rfl
  seeds pack id := by
    rw [isSeed_kept assigned,
      (tracking_store c seeds).exists_mem_records_iff identity?_of_mem_known]
    simp only [isSeed_given]
    cases isKnown : Plan.isKnown c id with
    | true =>
      have valid : id.isValid = true := by
        rw [Plan.isKnown, Bool.and_eq_true] at isKnown
        exact isKnown.1
      rw [packsOfId_known valid]
      simp only [and_true]
    | false =>
      -- an asset that is not known is no seed in any pack
      simp only [Bool.false_eq_true, and_false, false_iff]
      exact fun lowest => lowest.1

/-- The plans for the seeds as they are and for what is read from the list are the same. -/
theorem exists_plans (resolver : Hints.Resolver) (platform : String) (c : Catalog)
    (exclusions : Exclusions) (natural : ∀ seed ∈ seeds, 0 ≤ seed.pack) :
    ∃ planned s, (Plan.build platform c (given seeds exclusions)).run.1 = .ok planned ∧
      (Plan.build platform c (kept resolver c seeds exclusions)).run.1 = .ok s ∧
      (s.records.map Record.bare).Perm (planned.records.map Record.bare) ∧
      ∀ p, HintFiles.write s.records p = HintFiles.write planned.records p := by
  have short : ∀ seed ∈ seeds, Numeral.isTooLong seed.pack = false := fun seed mem =>
    isTooLong_of_assigned (natural seed mem) (assigned seed mem)
  obtain ⟨planned, built, plan⟩ :=
    Plan.exists_isPlan_build platform c (given seeds exclusions) fun pack key => by
      obtain ⟨seed, mem, rfl⟩ := mem_keys_given key
      exact short seed mem
  obtain ⟨s, built', plan'⟩ :=
    Plan.exists_isPlan_build platform c (kept resolver c seeds exclusions) fun pack key => by
      obtain ⟨seed, mem, rfl⟩ := mem_keys_kept assigned key
      exact short seed mem
  have same := plan.perm_bare plan' (isLeastOf assigned) rfl rfl rfl rfl
  exact ⟨planned, s, built, built', same, HintFiles.write_eq_of_perm plan'.nodup_ids same⟩

end Inputs

/-! ### Plans from the list -/

/-- What is written into the file of the list is read from it as its records. -/
theorem exists_text (resolver : Hints.Resolver) (file : FilePath)
    (fits : ∀ id ∈ c.ids.values, 0 ≤ id.subId ∧ id.subId < 10 ^ Numeral.maxDigits)
    (natural : ∀ seed ∈ seeds, 0 ≤ seed.pack) (assigned : ∀ seed ∈ seeds, seed.pack < unassigned) :
    ∃ v warnings text, (∀ told, (Hints.document (store c seeds).records).runFrom told =
        (.ok v, told ++ warnings)) ∧ Hints.render v = .ok text ∧
      ∀ t : FileTree, t.readBytes file = .ok (Utf8.ofString text) → ∀ told, ∃ told',
        (HintFiles.read resolver file t).runFrom told = (.ok (reread resolver c seeds), told') := by
  have packs : ∀ k ∈ (store c seeds).records, 0 ≤ k.pack ∧ Numeral.isTooLong k.pack = false := by
    intro k mem
    obtain ⟨-, seed, there, -, same⟩ := of_mem_store mem
    rw [← same]
    exact ⟨natural seed there, isTooLong_of_assigned (natural seed there) (assigned seed there)⟩
  obtain ⟨v, warnings, text, written, rendered, layout, read⟩ :=
    Hints.exists_text packs fun k mem _ => idFits_of_mem_store mem fits
  exact ⟨v, warnings, text, written, rendered, fun t content told =>
    ⟨_, HintFiles.runFrom_read content layout (read resolver file.text told)⟩⟩

theorem run_readSeeds {t : FileTree} {rs : List Record}
    (named : HintFiles.seedFile list = .ok file) (there : t.isFile? file = .ok true)
    (read : ∀ told, ∃ told', (HintFiles.read (HintFiles.resolver catalogs platforms) file t).runFrom
      told = (.ok rs, told')) :
    (Planning.readSeeds catalogs platforms [list] [] t).run.1 = .ok (Groups.collect rs) := by
  obtain ⟨told, read⟩ := read []
  have path : (HintFiles.seedFile list).mapError Fault.path = .ok file := by
    rw [named]
    rfl
  have isFile : (t.isFile? file).mapError Fault.files = .ok true := by
    rw [there]
    rfl
  have records : (Planning.readSeedList catalogs platforms t list).runFrom [] =
      (.ok rs, told) := by
    rw [Planning.readSeedList, path, Attempt.runFrom_bind_ok (Attempt.runFrom_ofExcept _), isFile,
      Attempt.runFrom_bind_ok (Attempt.runFrom_ofExcept _), if_pos rfl, read]
  have lists : ([list].mapM (Planning.readSeedList catalogs platforms t)).runFrom [] =
      (.ok [rs], told) := by
    rw [List.mapM_cons, Attempt.runFrom_bind_ok records]
    rfl
  rw [Planning.readSeeds, Attempt.run_eq_runFrom, Attempt.runFrom_bind_ok lists,
    Attempt.runFrom_pure, List.map_nil, List.append_nil, List.flatten_singleton]

/-- What becomes of seeds that are put into a list from which a plan is made, where `planned` is
the plan of the seeds themselves. -/
inductive Comparison (catalogs : CatalogSet) (platforms : List String) (platform : String)
    (c : Catalog) (list file : FilePath) (exclusions : Exclusions) (w : Workspace)
    (planned : Store) : Except Fault Unit × Workspace → Prop
  /-- The file of the list cannot be written. -/
  | refused (content : String) (told : List Notice) (fault : Fault) (w' : Workspace)
      (refusal : (Job.writeFile file (.ok content)).run { w with notices := told } =
        (.error fault, w')) :
      Comparison catalogs platforms platform c list file exclusions w planned (.error fault, w')
  /-- The plan of what is read from it has the same assets at the same paths in the same packs,
  and the same hint files. -/
  | planned (w' : Workspace) (groups : Groups) (s : Store)
      (read : (Planning.readSeeds catalogs platforms [list] [] w'.files).run.1 = .ok groups)
      (built : (Plan.build platform c { seeds := groups, exclusions }).run.1 = .ok s)
      (same : (s.records.map Record.bare).Perm (planned.records.map Record.bare))
      (hints : ∀ p, HintFiles.write s.records p = HintFiles.write planned.records p) :
      Comparison catalogs platforms platform c list file exclusions w planned (.ok (), w')

/-- On one platform seeds can be planned as they are or from a list into which they are put: unless
the file of the list cannot be written, the plans are the same, and so are the hint files that
are written of them. -/
theorem update_plans (selected : catalogs.selected platforms = [(platform, c)])
    (fits : ∀ id ∈ c.ids.values, 0 ≤ id.subId ∧ id.subId < 10 ^ Numeral.maxDigits)
    (read : ∀ seed ∈ seeds, ∃ text, (Seed.read text).run.1 = .ok seed)
    (assigned : ∀ seed ∈ seeds, seed.pack < unassigned) (exclusions : Exclusions)
    (named : HintFiles.seedFile list = .ok file) (proper : w.files.IsProper)
    (absent : w.files.exists? file = .ok false) :
    ∃ groups planned,
      (Planning.readSeeds catalogs platforms [] seeds w.files).run.1 = .ok groups ∧
      (Plan.build platform c { seeds := groups, exclusions }).run.1 = .ok planned ∧
      Comparison catalogs platforms platform c list file exclusions w planned
        ((update catalogs platforms list { add := seeds }).run w) := by
  have natural : ∀ seed ∈ seeds, 0 ≤ seed.pack := by
    intro seed mem
    obtain ⟨text, read⟩ := read seed mem
    exact Seed.pack_nonneg_of_read read
  obtain ⟨planned, s, built, built', same, hints⟩ :=
    exists_plans assigned (HintFiles.resolver catalogs platforms) platform c exclusions natural
  refine ⟨_, planned, rfl, built, ?_⟩
  obtain ⟨v, warnings, text, written, rendered, read⟩ :=
    exists_text (HintFiles.resolver catalogs platforms) file fits natural assigned
  obtain ⟨told, run⟩ := exists_run_update selected named absent seeds
  rw [run, Job.run_bind, HintFiles.run_write (written told) rendered]
  cases wrote : (Job.writeFile file (.ok text)).run { w with notices := told ++ warnings } with
  | mk r w' =>
    cases r with
    | error fault => exact .refused text _ fault w' wrote
    | ok _ =>
      have content : w'.files.readBytes file = .ok (Utf8.ofString text) :=
        Job.readBytes_of_run_writeFile (w := { w with notices := told ++ warnings }) proper wrote
      have isFile := FileTree.isFile?_eq_true.2 ⟨_, content⟩
      exact .planned _ _ s (run_readSeeds named isFile (read w'.files content)) built' same hints

/-! ### A list of two assets -/

/-- A catalog of two assets, of which one depends on the other. -/
def pairCatalog : Catalog :=
  (Catalog.empty.add ⟨⟨1, Guid.one_lt⟩, 0⟩ "a" [⟨⟨2, Guid.two_lt⟩, 0⟩]).add
    ⟨⟨2, Guid.two_lt⟩, 0⟩ "b" []

/-- The catalogs of one platform. -/
def pairCatalogs : CatalogSet := { catalogs := Table.empty.insert "pc" pairCatalog }

/-- Seeds in several packs, one of which is not known. -/
def pairSeeds : List Seed := [⟨"a", 5⟩, ⟨"b", 7⟩, ⟨"b", 3⟩, ⟨"c", 0⟩]

theorem read_of_mem_pairSeeds :
    ∀ seed ∈ pairSeeds, ∃ text, (Seed.read text).run.1 = .ok seed := by
  intro seed mem
  simp only [pairSeeds, List.mem_cons, List.not_mem_nil, or_false] at mem
  rcases mem with rfl | rfl | rfl | rfl
  · exact ⟨"A[5]", rfl⟩
  · exact ⟨"b[7]", rfl⟩
  · exact ⟨"\\b [3] ", rfl⟩
  · exact ⟨"./c", rfl⟩

/-- Where there is nothing yet, the file of a list can be written. -/
theorem exists_run_writeFile_empty (content : String) (told : List Notice) :
    ∃ w, (Job.writeFile ⟨"", ["s.seed.assethints"]⟩ (.ok content)).run ⟨.empty, told⟩ =
      (.ok (), w) :=
  ⟨_, Job.run_writeFile (w := ⟨.empty, told⟩) (FileTree.makeDirs_parent_of_name _) rfl rfl rfl⟩

/-- The seeds are put into a list, and the plan of the list is the plan of the seeds. -/
theorem update_plans_pair : (∀ seed ∈ pairSeeds, ∃ text, (Seed.read text).run.1 = .ok seed) ∧
    ∃ planned w groups s,
      (Plan.build "pc" pairCatalog (given pairSeeds {})).run.1 = .ok planned ∧
      (update pairCatalogs ["pc"] ⟨"", ["s"]⟩ { add := pairSeeds }).run ⟨.empty, []⟩ =
        (.ok (), w) ∧
      (Planning.readSeeds pairCatalogs ["pc"] [⟨"", ["s"]⟩] [] w.files).run.1 = .ok groups ∧
      (Plan.build "pc" pairCatalog { seeds := groups }).run.1 = .ok s ∧
      (s.records.map Record.bare).Perm (planned.records.map Record.bare) := by
  have fits : ∀ id ∈ pairCatalog.ids.values, 0 ≤ id.subId ∧ id.subId < 10 ^ Numeral.maxDigits := by
    intro id mem
    have zero : id.subId = 0 := by
      revert id
      decide
    rw [zero]
    exact ⟨le_rfl, Int.pow_pos (by decide)⟩
  have selected : pairCatalogs.selected ["pc"] = [("pc", pairCatalog)] := rfl
  have assigned : ∀ seed ∈ pairSeeds, seed.pack < unassigned := by decide
  have named : HintFiles.seedFile ⟨"", ["s"]⟩ = .ok ⟨"", ["s.seed.assethints"]⟩ := rfl
  have proper : FileTree.empty.IsProper := by decide
  have absent : FileTree.empty.exists? ⟨"", ["s.seed.assethints"]⟩ = .ok false := rfl
  refine ⟨read_of_mem_pairSeeds, ?_⟩
  obtain ⟨groups, planned, read, built, comparison⟩ :=
    update_plans selected fits read_of_mem_pairSeeds assigned {} named (w := ⟨.empty, []⟩) proper
      absent
  cases read
  generalize (update pairCatalogs ["pc"] ⟨"", ["s"]⟩ { add := pairSeeds }).run
    ⟨.empty, []⟩ = outcome at comparison ⊢
  cases comparison with
  | refused content told fault w refusal =>
    -- nothing stands in the way of the file
    obtain ⟨w', wrote⟩ := exists_run_writeFile_empty content told
    rw [wrote] at refusal
    cases refusal
  | planned w groups s read built' same hints =>
    exact ⟨planned, w, groups, s, built, rfl, read, built', same⟩

end SeedList

end PackPlan
