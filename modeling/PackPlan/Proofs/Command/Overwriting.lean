import PackPlan.Command.Session
import PackPlan.Proofs.Files.Losses

/-!
# Calls that must not overwrite

A call that makes plans or merges hint files, and has no leave to overwrite, guards the paths that
it writes at. Files that stand elsewhere keep their content, and so do those that the guard finds.
What it does not find are the drafts of its own files, and files behind directories that are yet
to be made.

## Main definitions

* `Request.IsGuarded` — a request without leave to overwrite
* `Request.HasOutput` — the paths at which a request writes

## Main results

* `Request.leadsTo_perform` — what a guarded request costs
* `Session.call_spares` — the files that a guarded call spares
* `Session.call_loses_draft` — a file that it does not spare
-/

namespace PackPlan

open FileTree (LeadsTo)

variable {α β : Type} {written : FilePath → Prop}

/-! ### Jobs that cost exposed files only -/

/-- A change that costs exposed files only, of a tree that is proper. -/
def Spares (written : FilePath → Prop) (t t' : FileTree) : Prop := t.IsProper → LeadsTo written t t'

theorem Spares.refl (t : FileTree) : Spares written t t := LeadsTo.refl

theorem Spares.trans (t t' t'' : FileTree) (first : Spares written t t')
    (second : Spares written t' t'') : Spares written t t'' :=
  fun proper => (first proper).trans (second (first proper).proper)

theorem HintFiles.changesBy_write {p : FilePath} (output : written p) (records : List Record) :
    (HintFiles.write records p).ChangesBy fun t t' =>
      t.exists? p = .ok false → Spares written t t' := by
  refine (Job.isStill_ofAttempt _).bind_changesBy (fun t _ => .refl t) fun _ document _ _ => ?_
  exact Job.changesBy_writeFile output (Hints.render document)

namespace Planning

theorem changesBy_write {list : FilePath} {platform : String}
    (output : ∀ p, HintFiles.planFile list platform = .ok p → written p) (s : Store) :
    (write s list false platform).ChangesBy (Spares written) := by
  refine (Job.isStill_ofExcept _).bind_changesBy .refl fun w file w' named => ?_
  rw [Job.run_ofExcept] at named
  have isOutput := output file (Prod.mk.inj named).1
  -- nothing changes between the guard and the file, which is therefore free when it is written
  refine Job.ChangesBy.guarded .refl ?_
  refine (Job.isStill_tell _).bind_changesBy (fun t _ => .refl t) fun _ _ _ _ => ?_
  exact (HintFiles.changesBy_write isOutput _).bind_isStill fun _ => Job.isStill_tell _

theorem changesBy_make (catalogs : CatalogSet) (input : PlanInput) {output : Output}
    (guarded : output.overwrite = false) {platform : String}
    (outputs : ∀ list p, output.list = some list → HintFiles.planFile list platform = .ok p →
      written p) :
    (make catalogs input output platform).ChangesBy (Spares written) := by
  refine (Job.isStill_ofExcept _).bind_changesBy .refl fun _ c _ _ => ?_
  refine (Job.isStill_ofAttempt _).bind_changesBy .refl fun _ s _ _ => ?_
  have printed : (Job.ofAttempt (Plan.print platform s)).IsStill := Job.isStill_ofAttempt _
  cases listed : output.list with
  | none =>
    have nothing : Job.IsStill (pure ()) := Job.isStill_pure _
    dsimp only
    split
    · exact (printed.bind fun _ => nothing).changesBy .refl
    · exact nothing.changesBy .refl
  | some list =>
    have wrote : (write s list output.overwrite platform).ChangesBy (Spares written) := by
      rw [guarded]
      exact changesBy_write (fun p => outputs list p listed) s
    dsimp only
    split
    · exact printed.bind_changesBy .refl fun _ _ _ _ => wrote
    · exact wrote

end Planning

/-- What each task costs, all of them cost together. -/
theorem PerPlatform.changesBy_run {task : String → Job Unit} {platforms : List String}
    (each : ∀ p ∈ platforms, (task p).ChangesBy (Spares written)) :
    (run task platforms).ChangesBy (Spares written) := by
  have tasks : (outcomes task platforms).ChangesBy (Spares written) := by
    refine (Job.isStepwise_changesBy .refl .trans).foldlM (fun done platform mem => ?_) _
    exact (each platform mem).outcome.bind_isStill fun _ => Job.isStill_pure _
  exact tasks.bind_isStill fun _ => Job.isStill_ofAttempt _

/-! ### Platforms -/

namespace Platform

/-- Only platforms are taken from names. -/
theorem known_of_ofNames {taken names found : List String} (earlier : ∀ p ∈ taken, p ∈ known)
    (h : ofNames taken names = .ok found) : ∀ p ∈ found, p ∈ known := by
  induction names generalizing taken with
  | nil =>
    cases h
    exact earlier
  | cons name names ih =>
    rw [ofNames] at h
    split at h
    · next isKnown =>
      refine ih ?_ h
      split
      · exact earlier
      · intro p mem
        rcases List.mem_append.1 mem with before | last
        · exact earlier p before
        · rwa [List.mem_singleton.1 last]
    · cases h

theorem known_of_readList {values found : List String} (h : readList values = .ok found) :
    ∀ p ∈ found, p ∈ known :=
  known_of_ofNames (fun _ mem => absurd mem List.not_mem_nil) h

end Platform

namespace Session

variable {target : Target} {w w' : Workspace} {names : List String}

theorem isStill_platforms (target : Target) : (platforms target).IsStill := by
  rw [platforms]
  split
  · exact Job.isStill_throw _
  · apply Job.isStill_get_bind
    intro w
    refine (Job.isStill_ofExcept _).bind fun found => ?_
    dsimp only
    split
    · exact Job.isStill_throw _
    · exact (Job.isStill_tell _).bind fun _ => Job.isStill_pure _
  · exact Job.isStill_pure _

theorem known_of_platforms (h : (platforms target).run w = (.ok names, w')) :
    ∀ p ∈ names, p ∈ Platform.known := by
  rw [platforms] at h
  split at h
  · cases h
  · rw [Job.run_get_bind] at h
    obtain ⟨found, mid, discovered, h⟩ := Job.exists_of_run_bind h
    rw [Job.run_ofExcept] at discovered
    split at h
    · cases h
    · obtain ⟨_, mid', -, h⟩ := Job.exists_of_run_bind h
      cases h
      exact fun p mem => ((mem_filterM (congrArg Prod.fst discovered)).1 mem).1
  · next named _ read =>
    cases h
    exact Platform.known_of_readList read

theorem isStill_catalogs (target : Target) : (catalogs target).IsStill :=
  (isStill_platforms target).bind fun _ => (Job.isStill_inspect _).bind fun _ => Job.isStill_pure _

theorem known_of_catalogs {loaded : CatalogSet}
    (h : (catalogs target).run w = (.ok (names, loaded), w')) :
    ∀ p ∈ names, p ∈ Platform.known := by
  obtain ⟨found, mid, listed, h⟩ := Job.exists_of_run_bind h
  obtain ⟨loaded', mid', -, h⟩ := Job.exists_of_run_bind h
  cases h
  exact known_of_platforms listed

/-- Nothing is written before the plans are. -/
theorem changesBy_makePlans {r : PlansRequest} (guarded : r.overwrite = false)
    (outputs : ∀ list, r.output = some list → ∀ platform ∈ Platform.known, ∀ p,
      HintFiles.planFile list platform = .ok p → written p) :
    (makePlans r).ChangesBy (Spares written) := by
  -- the platforms must be known ones, as only these make outputs of the request
  refine (isStill_catalogs _).bind_changesBy .refl ?_
  rintro w ⟨names, loaded⟩ w' found
  have isKnown := known_of_catalogs found
  refine (Job.isStepwise_isStill.mapM fun _ _ => Job.isStill_ofAttempt _).bind_changesBy .refl
    fun _ add _ _ => ?_
  refine (Job.isStepwise_isStill.filterMapM fun _ _ => Job.isStill_ofExcept _).bind_changesBy
    .refl fun _ levelFiles _ _ => ?_
  refine (Job.isStill_ofAttempt _).bind_changesBy .refl fun _ _ _ _ => ?_
  refine (Job.isStill_inspect _).bind_changesBy .refl fun _ seeds _ _ => ?_
  refine (Job.isStill_inspect _).bind_changesBy .refl fun _ levels _ _ => ?_
  refine (Job.isStill_ofExcept _).bind_changesBy .refl fun _ override _ _ => ?_
  refine Job.ChangesBy.bind_isStill ?_ fun _ => Job.isStill_pure _
  rw [Planning.run]
  split
  · exact (Job.isStill_throw _).changesBy .refl
  · apply PerPlatform.changesBy_run
    intro platform mem
    apply Planning.changesBy_make _ _ guarded
    exact fun list p named made => outputs list named platform (isKnown platform mem) p made

theorem changesBy_mergeHints {r : MergeRequest} (guarded : r.overwrite = false)
    (output : written r.output) : (mergeHints r).ChangesBy (Spares written) := by
  refine (Job.isStill_ofExcept _).bind_changesBy .refl fun _ override _ _ => ?_
  refine Job.ChangesBy.bind_isStill ?_ fun _ => Job.isStill_pure _
  rw [Merging.run, guarded]
  split
  · exact (Job.isStill_throw _).changesBy .refl
  · refine Job.ChangesBy.guarded .refl ?_
    refine (Job.isStill_inspect _).bind_changesBy (fun t _ => .refl t) fun _ s _ _ => ?_
    refine (Job.isStill_ofAttempt _).bind_changesBy (fun t _ => .refl t) fun _ items _ _ => ?_
    refine (Job.changesBy_writeFile output _).bind_isStill fun _ => ?_
    exact (Job.isStill_tell _).bind fun _ => Job.isStill_pure _

end Session

/-! ### Requests and calls -/

namespace Request

/-- A request to make plans or to merge hint files, without leave to overwrite. -/
def IsGuarded : Request → Prop
  | .plans r => r.overwrite = false
  | .merge r => r.overwrite = false
  | _ => False

/-- The paths at which such a request writes: the plans of platforms, or the log. -/
def HasOutput (p : FilePath) : Request → Prop
  | .plans r => ∃ list, r.output = some list ∧ ∃ platform ∈ Platform.known,
      HintFiles.planFile list platform = .ok p
  | .merge r => p = r.output
  | _ => False

/-- A guarded request costs only files that are exposed to its outputs. -/
theorem changesBy_perform (reader : Containers.Reader) {request : Request}
    (guarded : request.IsGuarded) :
    (request.perform reader).ChangesBy (Spares fun p => request.HasOutput p) := by
  cases request with
  | seeds r => exact guarded.elim
  | plans r =>
    apply Session.changesBy_makePlans guarded
    exact fun list named platform isKnown p made => ⟨list, named, platform, isKnown, made⟩
  | bundles r => exact guarded.elim
  | merge r => exact Session.changesBy_mergeHints guarded rfl

end Request

namespace Session

variable {reader : Containers.Reader} {args : List String} {files : FileTree} {place : Location}
  {content : Bytes}

/-- A call that makes plans or merges hint files without leave to overwrite, however it ends,
leaves every file in place with its content, unless it is exposed to one of the outputs: it stands
where the draft is put, or the output steps up out of a directory that was not there. This is said
of the files in a tree, which has no links and out of which no path leads: an output at a path with
a root is not written, and a step up from the working directory stays there. -/
theorem call_spares (proper : files.IsProper)
    (guarded : ∀ request verbose, Request.read args = .ok (request, verbose) → request.IsGuarded)
    (there : files.node? place = some (.file content)) :
    (call reader args files).files.node? place = some (.file content) ∨
      ∃ request verbose p, Request.read args = .ok (request, verbose) ∧ request.HasOutput p ∧
        files.IsExposed (call reader args files).files p place := by
  rw [call]
  cases asked : Request.read args with
  | error why => exact .inl there
  | ok request =>
    obtain ⟨request, verbose⟩ := request
    have spared := Request.changesBy_perform reader (guarded request verbose asked)
    rcases (spared { files } proper).spares place content there with kept | ⟨p, output, exposed⟩
    · exact .inl kept
    · exact .inr ⟨request, verbose, p, rfl, output, exposed⟩

/-- A hint file without records, and a file that has the name of a draft. -/
def draftFiles : FileTree where
  nodes :=
    { entries := [(["h.assethints"], .file (Utf8.ofString "{}")),
        (["x.log.tmp"], .file (Utf8.ofString "kept"))]
      nodup := by simp }

/-- The arguments that merge the hint file. -/
def mergeArguments : List String :=
  ["merge-hints", "--asset-hints-file", "h.assethints", "--output-sampling-log", "x.log"]

/-- The request that they make. -/
def mergeRequest : MergeRequest := ⟨[⟨"", ["h.assethints"]⟩], ⟨"", ["x.log"]⟩, false, none⟩

theorem read_mergeArguments : Request.read mergeArguments = .ok (.merge mergeRequest, false) := by
  rfl

/-- The hint file is spared, as its place is none of a draft and the log has no step up. -/
theorem call_spares_hintFile : draftFiles.IsProper ∧
    draftFiles.node? ["h.assethints"] = some (.file (Utf8.ofString "{}")) ∧
    ((call Containers.zipReader mergeArguments draftFiles).files.node? ["h.assethints"] =
        some (.file (Utf8.ofString "{}")) ∨
      ∃ request verbose p, Request.read mergeArguments = .ok (request, verbose) ∧
        request.HasOutput p ∧ draftFiles.IsExposed
          (call Containers.zipReader mergeArguments draftFiles).files p ["h.assethints"]) := by
  have proper : draftFiles.IsProper := by decide
  have there : draftFiles.node? ["h.assethints"] = some (.file (Utf8.ofString "{}")) := rfl
  have guarded : ∀ request verbose, Request.read mergeArguments = .ok (request, verbose) →
      request.IsGuarded := by
    intro request verbose read
    rw [read_mergeArguments] at read
    cases read
    rfl
  exact ⟨proper, there, call_spares proper guarded there⟩

/-- A file that has the name of a draft is not spared. -/
theorem call_loses_draft :
    Request.read mergeArguments = .ok (.merge mergeRequest, false) ∧
    mergeRequest.overwrite = false ∧
    draftFiles.node? ["x.log.tmp"] = some (.file (Utf8.ofString "kept")) ∧
    (call Containers.zipReader mergeArguments draftFiles).ending = .finished 0 ∧
    (call Containers.zipReader mergeArguments draftFiles).files.node? ["x.log.tmp"] = none := by
  refine ⟨read_mergeArguments, rfl, rfl, ?_, ?_⟩
  · decide +kernel
  · decide +kernel

end Session

end PackPlan
