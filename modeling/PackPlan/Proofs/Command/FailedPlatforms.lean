import Mathlib.Data.List.Perm.Subperm
import PackPlan.Command.Session
import PackPlan.Proofs.Catalog.Absent
import PackPlan.Proofs.Command.PerPlatform
import PackPlan.Proofs.Plan.Steady

/-!
# Platforms that fail beside others

Plans are made for several platforms, and the catalogs of some of them cannot be loaded. The run
is compared with one for the other platforms alone: it finds the same ids and paths, reads the
same seeds, level roots and exclusions, and leaves the same files; all it adds is one error for
each of the platforms that failed.

## Main definitions

* `Session.prepare` — what plans are made from, read with the catalogs of platforms

## Main results

* `Session.makePlans_eq` — plans are prepared and then made
* `Session.run_makePlans_filter` — plans for all of some platforms, and for those that are kept
* `Session.makePlans_failedPlatforms` — platforms that fail make no difference to the others
-/

namespace PackPlan

/-- Part of a list, in its order, is what the list has of it. -/
theorem filter_mem_of_sublist {α : Type} [DecidableEq α] {xs ys : List α} (sub : xs.Sublist ys)
    (distinct : ys.Nodup) : ys.filter (· ∈ xs) = xs := by
  have inside : xs.Sublist (ys.filter (· ∈ xs)) := by
    have filtered := sub.filter (· ∈ xs)
    rwa [List.filter_eq_self.2 (by simp)] at filtered
  -- it has no more members than the part, as it has none of them twice
  have members : ys.filter (· ∈ xs) ⊆ xs := by
    intro y mem
    simpa using (List.mem_filter.1 mem).2
  have few := (List.subperm_of_subset (distinct.filter _) members).length_le
  exact (inside.eq_of_length_le few).symm

theorem Platform.nodup_ofNames {taken names found : List String} (distinct : taken.Nodup)
    (h : ofNames taken names = .ok found) : found.Nodup := by
  induction names generalizing taken with
  | nil =>
    cases h
    exact distinct
  | cons name names ih =>
    rw [ofNames] at h
    split at h
    · refine ih ?_ h
      split
      · exact distinct
      · next fresh =>
        rw [List.nodup_append]
        refine ⟨distinct, by simp, fun p mem q last => ?_⟩
        rw [List.mem_singleton.1 last]
        rintro rfl
        exact fresh mem
    · cases h

theorem Platform.nodup_readList {values found : List String} (h : readList values = .ok found) :
    found.Nodup :=
  nodup_ofNames List.nodup_nil h

namespace Session

variable {r : PlansRequest} {target : Target} {names : List String}
  {catalogs catalogs' : CatalogSet}

/-! ### What plans are made from -/

/-- What plans are made from, read with the catalogs of platforms. -/
def prepare (r : PlansRequest) (names : List String) (catalogs : CatalogSet) : Job PlanInput := do
  let add ← readSeeds r.add
  let levelFiles ← add.filterMapM fun seed => Job.path (Seed.levelHints? r.project seed.path)
  let (exclusions, notices) := catalogs.readExclusions names r.skip
  Job.tellAll notices
  let seeds ← Job.inspect (Planning.readSeeds catalogs names r.lists add)
  let levels ← Job.inspect (Planning.readLevels catalogs names levelFiles)
  let override ← Job.ofExcept (override r.pack)
  return { seeds, levels, exclusions, override }

/-- What becomes of the plans of a request. -/
def outputOf (r : PlansRequest) : Planning.Output :=
  { list := r.output, print := r.print, overwrite := r.overwrite }

/-- Everything is read before any plan is made. -/
theorem makePlans_eq (r : PlansRequest) : makePlans r = do
    let (names, catalogs) ← Session.catalogs r.target
    let input ← prepare r names catalogs
    let failures ← Planning.run catalogs names input (outputOf r)
    return statusOf failures := by
  simp only [makePlans, prepare, outputOf, bind_assoc, pure_bind]

theorem isSteady_prepare (r : PlansRequest) (names : List String) (catalogs : CatalogSet) :
    (prepare r names catalogs).IsSteady := by
  refine (Job.isStepwise_isSteady.mapM fun _ _ =>
    Job.isSteady_ofAttempt (Seed.isSteady_read _)).bind fun add => ?_
  refine (Job.isStepwise_isSteady.filterMapM fun _ _ => Job.isSteady_ofExcept _).bind
    fun levelFiles => ?_
  refine (Job.isSteady_ofAttempt (Attempt.isSteady_forM_tell _)).bind fun _ => ?_
  refine (Job.isSteady_inspect (Planning.isSteady_readSeeds _ _ _ _)).bind fun seeds => ?_
  refine (Job.isSteady_inspect (Planning.isSteady_readLevels _ _ _)).bind fun levels => ?_
  exact (Job.isSteady_ofExcept _).bind fun _ => Job.isSteady_pure _

theorem prepare_congr {names' : List String} (r : PlansRequest)
    (select : catalogs.select names = catalogs'.select names')
    (selected : catalogs.selected names = catalogs'.selected names') :
    prepare r names catalogs = prepare r names' catalogs' := by
  have resolver := CatalogSet.resolver_congr select selected
  have seedList : Planning.readSeedList catalogs names =
      Planning.readSeedList catalogs' names' := by
    funext t list
    rw [Planning.readSeedList, Planning.readSeedList, resolver]
  have level : Planning.readLevel catalogs names = Planning.readLevel catalogs' names' := by
    funext t file
    rw [Planning.readLevel, Planning.readLevel, resolver]
  have seeds : Planning.readSeeds catalogs names = Planning.readSeeds catalogs' names' := by
    funext lists more t
    rw [Planning.readSeeds, Planning.readSeeds, seedList]
  have levels : Planning.readLevels catalogs names = Planning.readLevels catalogs' names' := by
    funext files t
    rw [Planning.readLevels, Planning.readLevels, level]
  rw [prepare, prepare, seeds, levels, CatalogSet.readExclusions_congr selected]

/-! ### Platforms that are named -/

section Named

variable {w w' : Workspace} {found : List String}
  (named : Platform.readList target.platforms = .ok names) (nonempty : names ≠ [])
include named nonempty

theorem run_platforms_of_named (w : Workspace) : (platforms target).run w = (.ok names, w) := by
  rw [platforms, named]
  cases names with
  | nil => exact absurd rfl nonempty
  | cons name names => rfl

theorem run_catalogs_of_load {told : List Notice}
    (loaded : (CatalogSet.load w.files target.root names target.catalog).runFrom w.notices =
      (.ok catalogs, told)) :
    (Session.catalogs target).run w = (.ok (names, catalogs), { w with notices := told }) := by
  have inspected : (Job.inspect fun t => CatalogSet.load t target.root names target.catalog).run w =
      (.ok catalogs, { w with notices := told }) := by
    rw [Job.run_inspect, loaded]
  rw [Session.catalogs, Job.run_bind_ok (run_platforms_of_named named nonempty w),
    Job.run_bind_ok inspected, Job.run_pure]

theorem exists_load_of_run_catalogs
    (h : (Session.catalogs target).run w = (.ok (found, catalogs), w')) :
    found = names ∧ ∃ told,
      (CatalogSet.load w.files target.root names target.catalog).runFrom w.notices =
        (.ok catalogs, told) ∧ w' = { w with notices := told } := by
  rw [Session.catalogs, Job.run_bind_ok (run_platforms_of_named named nonempty w)] at h
  obtain ⟨loaded, mid, inspected, h⟩ := Job.exists_of_run_bind h
  cases h
  rw [Job.run_inspect] at inspected
  obtain ⟨yields, rfl⟩ := Prod.mk.inj inspected
  exact ⟨rfl, _, Prod.ext yields rfl, rfl⟩

end Named

/-! ### Plans for some platforms among others -/

/-- The catalogs of a run are loaded, plans are prepared, and each platform has its task. -/
theorem exists_of_run_makePlans {w w' : Workspace} {status : Nat}
    (named : Platform.readList r.target.platforms = .ok names) (nonempty : names ≠ [])
    (ran : (makePlans r).run w = (.ok status, w')) :
    ∃ catalogs told input mid failures,
      (CatalogSet.load w.files r.target.root names r.target.catalog).runFrom w.notices =
        (.ok catalogs, told) ∧
      (prepare r names catalogs).run { w with notices := told } = (.ok input, mid) ∧
      (Planning.run catalogs names input (outputOf r)).run mid = (.ok failures, w') := by
  rw [makePlans_eq] at ran
  obtain ⟨⟨found, catalogs⟩, first, listed, ran⟩ := Job.exists_of_run_bind ran
  obtain ⟨rfl, told, loaded, rfl⟩ := exists_load_of_run_catalogs named nonempty listed
  obtain ⟨input, mid, prepared, ran⟩ := Job.exists_of_run_bind ran
  obtain ⟨failures, last, planned, ran⟩ := Job.exists_of_run_bind ran
  cases ran
  exact ⟨catalogs, told, input, mid, failures, loaded, prepared, planned⟩

theorem run_makePlans_of {w w' mid : Workspace} {told : List Notice} {input : PlanInput}
    {failures : Nat} (named : Platform.readList r.target.platforms = .ok names)
    (nonempty : names ≠ [])
    (loaded : (CatalogSet.load w.files r.target.root names r.target.catalog).runFrom w.notices =
      (.ok catalogs, told))
    (prepared : (prepare r names catalogs).run { w with notices := told } = (.ok input, mid))
    (planned : (Planning.run catalogs names input (outputOf r)).run mid = (.ok failures, w')) :
    (makePlans r).run w = (.ok (statusOf failures), w') := by
  rw [makePlans_eq, Job.run_bind_ok (run_catalogs_of_load named nonempty loaded),
    Job.run_bind_ok prepared, Job.run_bind_ok planned, Job.run_pure]

end Session

/-- The task of a platform that has no catalog fails at once. -/
theorem Planning.run_make_of_get {catalogs : CatalogSet} {platform : String} {fault : Fault}
    (missing : catalogs.get platform = .error fault) (input : PlanInput) (output : Planning.Output)
    (w : Workspace) : (Planning.make catalogs input output platform).run w = (.error fault, w) := by
  rw [Planning.make, missing]
  exact Job.run_bind_error rfl

/-- The task of a platform depends on its catalog only. -/
theorem Planning.make_congr {catalogs catalogs' : CatalogSet} {platform : String}
    (same : catalogs.get platform = catalogs'.get platform) (input : PlanInput)
    (output : Planning.Output) :
    Planning.make catalogs input output platform =
      Planning.make catalogs' input output platform := by
  rw [Planning.make, Planning.make, same]

/-- Where plans are asked for, there is a task for each platform. -/
theorem Planning.run_eq_of_run {catalogs : CatalogSet} {platforms : List String}
    {input : PlanInput} {output : Planning.Output} {w w' : Workspace} {n : Nat}
    (ran : (Planning.run catalogs platforms input output).run w = (.ok n, w')) :
    (PerPlatform.run (Planning.make catalogs input output) platforms).run w = (.ok n, w') ∧
      ∀ catalogs' platforms', Planning.run catalogs' platforms' input output =
        PerPlatform.run (Planning.make catalogs' input output) platforms' := by
  rw [Planning.run] at ran
  split at ran
  · cases ran
  · next asked => exact ⟨ran, fun catalogs' platforms' => by rw [Planning.run, if_neg asked]⟩

namespace Session

variable {r : PlansRequest} {all alone names among : List String} {why : String → Fault}
  {t : FileTree} {status : Nat} {w : Workspace}

/-- The request, with its platforms named in another way. -/
def naming (r : PlansRequest) (platforms : List String) : PlansRequest :=
  { r with target := { r.target with platforms } }

/-- Plans for all of some platforms, where those for the kept ones come to an end and the catalogs
of the others cannot be loaded. -/
theorem run_makePlans_filter {keep : String → Bool} (distinct : names.Nodup)
    (named : Platform.readList all = .ok names)
    (namedAlone : Platform.readList alone = .ok (names.filter keep))
    (nonempty : names.filter keep ≠ [])
    (fails : ∀ p ∈ names, keep p = false →
      CatalogSet.outcome t r.target.root r.target.catalog p = .error (why p) ∧
        (why p).isRecoverable = true)
    (ran : (makePlans (naming r alone)).run { files := t } = (.ok status, w)) :
    ∃ n w', (makePlans (naming r all)).run { files := t } =
        (.ok (statusOf (n + (names.filter (!keep ·)).length)), w') ∧
      w'.files = w.files ∧
      (w'.notices.filter (·.isError)).Perm (w.notices.filter (·.isError) ++
        (names.filter (!keep ·)).map fun p => PerPlatform.complaint p (why p)) := by
  have full : names ≠ [] := by
    rintro rfl
    exact nonempty rfl
  obtain ⟨catalogs', told', input, mid, failures, loaded', prepared', planned'⟩ :=
    exists_of_run_makePlans (r := naming r alone) namedAlone nonempty ran
  obtain ⟨catalogs, told, loaded, further⟩ :=
    CatalogSet.exists_extends_of_load loaded' nonempty fails []
  -- the preparation is the same job, run after other notices
  have same : prepare (naming r all) names catalogs =
      prepare (naming r alone) (names.filter keep) catalogs' :=
    prepare_congr (naming r all) further.select further.selected
  obtain ⟨result, after, notices, prepares⟩ :=
    isSteady_prepare (naming r alone) (names.filter keep) catalogs' t
  rw [prepares] at prepared'
  cases prepared'
  have prepared : (prepare (naming r all) names catalogs).run ⟨t, told⟩ =
      (.ok input, ⟨after, told ++ notices⟩) := by
    rw [same, prepares]
  -- the tasks of the other platforms fail at once
  obtain ⟨tasks', asked⟩ := Planning.run_eq_of_run planned'
  obtain ⟨w', tasks, files, more, errors, errors', toldAll, toldAlone, areErrors, areErrors',
      perm⟩ := PerPlatform.run_filter distinct
    (fun p mem kept => Planning.make_congr (further.get_of_kept p mem kept) input _)
    (fun p _ _ => Planning.isSteady_make catalogs input _ p)
    (fun p mem dropped => Planning.run_make_of_get (further.get_of_dropped p mem dropped) input _)
    (fun p mem dropped => (fails p mem dropped).2) tasks' (told ++ notices)
  rw [← asked] at tasks
  refine ⟨_, w', run_makePlans_of (r := naming r all) (w := { files := t }) named full loaded
    prepared tasks, files, ?_⟩
  have quiet := CatalogSet.filter_isError_of_load loaded
  have quiet' := CatalogSet.filter_isError_of_load loaded'
  rw [toldAll, toldAlone]
  simp only [List.filter_append, quiet, quiet', List.nil_append, List.filter_eq_self.2 areErrors,
    List.filter_eq_self.2 areErrors', List.append_assoc]
  exact (perm.append_left _).append_left _

/-- Plans are made for some platforms, and made again with others among them whose catalogs cannot
be loaded. If the first run ends with a status, the second leaves the same files, tells the same
errors and one more for each of the others, and fails. -/
theorem makePlans_failedPlatforms
    (named : Platform.readList all = .ok names) (namedAlone : Platform.readList alone = .ok among)
    (part : among.Sublist names) (nonempty : among ≠ []) (others : ∃ p ∈ names, p ∉ among)
    (fails : ∀ p ∈ names, p ∉ among →
      CatalogSet.outcome t r.target.root r.target.catalog p = .error (why p) ∧
        (why p).isRecoverable = true)
    (ran : (makePlans (naming r alone)).run { files := t } = (.ok status, w)) :
    ∃ w', (makePlans (naming r all)).run { files := t } = (.ok failed, w') ∧
      w'.files = w.files ∧
      (w'.notices.filter (·.isError)).Perm (w.notices.filter (·.isError) ++
        (names.filter (· ∉ among)).map fun p => .error s!"[{p}] {(why p).message}") := by
  have distinct := Platform.nodup_readList named
  have kept : names.filter (· ∈ among) = among := filter_mem_of_sublist part distinct
  have dropped : names.filter (fun p => !decide (p ∈ among)) = names.filter (· ∉ among) := by
    simp only [decide_not]
  obtain ⟨n, w', planned, files, errors⟩ := run_makePlans_filter distinct named
    (namedAlone.trans (congrArg _ kept.symm)) (by rwa [kept])
    (fun p mem out => fails p mem (of_decide_eq_false out)) ran
  rw [dropped] at planned errors
  -- one platform at least has failed, which makes the status that of a failure
  have some : (names.filter (· ∉ among)).length ≠ 0 := by
    obtain ⟨p, mem, outside⟩ := others
    have left : p ∈ names.filter (· ∉ among) := List.mem_filter.2 ⟨mem, by simp [outside]⟩
    exact (List.length_pos_of_mem left).ne'
  refine ⟨w', ?_, files, errors⟩
  rw [planned, statusOf, if_neg (by omega)]

/-- A tree with the catalog of one platform. -/
def oneCatalogTree : FileTree where
  nodes :=
    { entries := [(["r"], .dir), (["r", "pc"], .dir), (["r", "pc", "assetcatalog.tsv"],
        .file (Utf8.ofString "asset_id\trelative_path\tdependencies\n"))]
      nodup := by simp }

/-- A request for plans that are written. -/
def plansRequest : PlansRequest where
  target := { platforms := [], root := ⟨"", ["r"]⟩ }
  lists := []
  add := []
  skip := []
  output := some ⟨"", ["a"]⟩
  project := ⟨"", []⟩
  print := false
  overwrite := false
  pack := none

/-- The second of two platforms has no catalog. -/
theorem makePlans_failedPlatforms_oneCatalog :
    ((makePlans (naming plansRequest ["pc"])).run { files := oneCatalogTree }).1 = .ok done ∧
    ∃ w', (makePlans (naming plansRequest ["pc,linux"])).run { files := oneCatalogTree } =
        (.ok failed, w') ∧
      w'.files =
        ((makePlans (naming plansRequest ["pc"])).run { files := oneCatalogTree }).2.files ∧
      (w'.notices.filter (·.isError)).Perm
        (((makePlans (naming plansRequest ["pc"])).run
            { files := oneCatalogTree }).2.notices.filter (·.isError) ++
          [.error ("[linux] failed to open asset catalog file ( r/linux/assetcatalog.tsv )")]) := by
  have ended : ((makePlans (naming plansRequest ["pc"])).run { files := oneCatalogTree }).1 =
      .ok done := by
    decide +kernel
  have absent : CatalogSet.outcome oneCatalogTree ⟨"", ["r"]⟩ none "linux" =
      .error (.noCatalog "r/linux/assetcatalog.tsv") := by
    rfl
  refine ⟨ended, ?_⟩
  refine @makePlans_failedPlatforms plansRequest ["pc,linux"] ["pc"] ["pc", "linux"] ["pc"]
    (fun _ => .noCatalog "r/linux/assetcatalog.tsv") oneCatalogTree _ _
    (by decide) (by decide) (by decide) (by decide) (by decide) ?_ (Prod.ext ended rfl)
  intro p mem outside
  have linux : p = "linux" := by
    rcases List.mem_cons.1 mem with rfl | other
    · exact absurd (List.mem_singleton_self _) outside
    · exact List.mem_singleton.1 other
  rw [linux]
  exact ⟨absent, rfl⟩

end Session

end PackPlan
