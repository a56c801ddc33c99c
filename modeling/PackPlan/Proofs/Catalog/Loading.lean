import PackPlan.Catalog.CatalogSet
import PackPlan.Proofs.Attempt
import PackPlan.Proofs.Catalog.Rows
import PackPlan.Proofs.Results

/-!
# Catalogs apart from each other

The catalogs of several platforms are loaded one after the other. What comes of loading one
does not depend on the others, and a catalog that cannot be loaded is kept as the fault of its
platform. There is one exception: a field that is too long stops the job.

## Main definitions

* `CatalogSet.outcome` — what comes of loading the catalog of one platform by itself
* `CatalogSet.KeepsApart` — each platform stands in the table in which its outcome belongs

## Main results

* `CatalogSet.loadFile_fault` — why the catalog of a platform cannot be loaded
* `CatalogSet.KeepsApart.put`, `CatalogSet.KeepsApart.foldlM_put` — what one more platform
  preserves, and what all of them preserve
* `CatalogSet.KeepsApart.get` — the set answers for a platform what came of its catalog
* `CatalogSet.load_keepsApart` — the platforms of a job, one catalog or one fault for each,
  unless a field of one of the files is too long
* `CatalogSet.not_load_longField` — such a field keeps all other catalogs from being loaded
-/

namespace PackPlan

/-! ### One catalog -/

namespace Catalog

variable {path : String} {bytes : Bytes} {fault : Fault} {told told' : List Notice} {c : Catalog}

theorem isSteady_load (path : String) (bytes : Bytes) : (load path bytes).IsSteady := by
  rw [load]
  split
  · exact Attempt.isSteady_throw _
  · exact Attempt.isSteady_throw _
  · dsimp only
    split
    · exact Attempt.isSteady_throw _
    · refine (Attempt.isSteady_forM_tell _).bind fun _ => ?_
      split
      · exact Attempt.isSteady_throw _
      · exact Attempt.isSteady_pure _

/-- A catalog that is there can be loaded, or its rows or its columns are at fault. -/
theorem load_fault (h : ((load path bytes).runFrom told).1 = .error fault) :
    (Rows.ofBytes bytes).2 = some fault ∨ ∃ missing, fault = .columns path missing := by
  rw [load] at h
  split at h
  · next cause rows =>
    cases h
    exact .inl (by rw [rows])
  · cases h
    exact .inr ⟨_, rfl⟩
  · next header rows cause whole =>
    dsimp only at h
    split at h
    · cases h
      exact .inr ⟨_, rfl⟩
    · rw [Attempt.runFrom_bind_ok (Attempt.runFrom_forM_tell _)] at h
      split at h
      · cases h
        exact .inl (by rw [whole])
      · cases h

/-- What is added to a catalog is not at the empty path. -/
theorem get?_ids_add_empty (named : c.ids.get? "" = none) (id : AssetId) (path : String)
    (dependencies : List AssetId) : (c.add id path dependencies).ids.get? "" = none := by
  rw [add]
  dsimp only
  split
  · exact named
  · next nonempty => rw [Table.get?_insert, if_neg (Ne.symm nonempty), named]

end Catalog

namespace CatalogSet

variable {t : FileTree} {root path : FilePath} {file? : Option FilePath} {platform : String}
  {platforms done : List String} {s s' : CatalogSet} {c : Catalog} {fault : Fault}
  {told : List Notice}

theorem isSteady_loadFile (t : FileTree) (path : FilePath) : (loadFile t path).IsSteady := by
  refine (Attempt.isSteady_ofExcept _).bind fun there => ?_
  split
  · exact Attempt.isSteady_throw _
  · exact (Attempt.isSteady_ofExcept _).bind fun bytes => Catalog.isSteady_load _ _

/-- A job goes on after every fault of a catalog but a field that is too long. Only in a file
with more bytes than a field may have characters is there such a field. -/
theorem loadFile_fault (h : ((loadFile t path).runFrom told).1 = .error fault) :
    fault.isRecoverable = true ∨ fault = .longField ∧
      ∃ bytes, t.readBytes path = .ok bytes ∧ Fault.maxField < bytes.length := by
  -- what the file system says is never the end of a job
  have system : ∀ cause : FileTree.Fault, (Fault.files cause).isRecoverable = true := by
    rintro (_ | _) <;> rfl
  rw [loadFile] at h
  cases there : t.isFile? path with
  | error cause =>
    rw [there, Except.mapError, Attempt.runFrom_bind_error (Attempt.runFrom_ofExcept _)] at h
    cases h
    exact .inl (system cause)
  | ok found =>
    rw [there, Except.mapError, Attempt.runFrom_bind_ok (Attempt.runFrom_ofExcept _)] at h
    split at h
    · cases h
      exact .inl rfl
    · cases content : t.readBytes path with
      | error cause =>
        rw [content, Except.mapError, Attempt.runFrom_bind_error (Attempt.runFrom_ofExcept _)] at h
        cases h
        exact .inl (system cause)
      | ok bytes =>
        rw [content, Except.mapError, Attempt.runFrom_bind_ok (Attempt.runFrom_ofExcept _)] at h
        rcases Catalog.load_fault h with rows | ⟨missing, rfl⟩
        · rcases Rows.fault_of_ofBytes rows with ⟨cause, rfl⟩ | ⟨rfl, long⟩
          · exact .inl rfl
          · exact .inr ⟨rfl, bytes, rfl, long⟩
        · exact .inl rfl

/-- The file that holds the catalog of a platform. -/
def fileOf (root : FilePath) (file? : Option FilePath) (platform : String) : FilePath :=
  file?.getD (pathFor root platform)

/-- What comes of loading the catalog of one platform by itself. -/
def outcome (t : FileTree) (root : FilePath) (file? : Option FilePath) (platform : String) :
    Except Fault Catalog :=
  (loadFile t (fileOf root file? platform)).run.1

/-- Loading catalogs one after the other puts what comes of each of them into the set. -/
theorem loadFrom_fst (t : FileTree) (root : FilePath) (file? : Option FilePath)
    (platforms : List String) (s : CatalogSet) (told : List Notice) :
    ((loadFrom t root file? platforms s).runFrom told).1 =
      platforms.foldlM (fun s p => s.put p (outcome t root file? p)) s := by
  induction platforms generalizing s told with
  | nil => rfl
  | cons p platforms ih =>
    rw [loadFrom, Attempt.runFrom_bind_ok (Attempt.runFrom_tell _),
      Attempt.runFrom_bind_ok (Attempt.runFrom_lift_run _),
      (isSteady_loadFile t _).runFrom_fst, List.foldlM_cons]
    change ((Attempt.ofExcept (s.put p (outcome t root file? p)) >>= _).runFrom _).1 = _
    cases s.put p (outcome t root file? p) with
    | error fault => rw [Attempt.runFrom_bind_error (Attempt.runFrom_ofExcept _)]; rfl
    | ok s' => rw [Attempt.runFrom_bind_ok (Attempt.runFrom_ofExcept _), ih]; rfl

/-! ### All catalogs -/

/-- A catalog goes into the one table, and a fault of which the job recovers into the other. -/
theorem put_cases {came : Except Fault Catalog} (step : s.put platform came = .ok s') :
    (∃ c, came = .ok c ∧ s' = { s with catalogs := s.catalogs.insert platform c }) ∨
      ∃ fault, came = .error fault ∧ fault.isRecoverable = true ∧
        s' = { s with failed := s.failed.insert platform fault } := by
  cases came with
  | ok c => cases step; exact .inl ⟨c, rfl, rfl⟩
  | error fault =>
    rw [put.eq_def] at step
    dsimp only at step
    split at step
    · next recovers => cases step; exact .inr ⟨fault, rfl, recovers, rfl⟩
    · cases step

theorem put_eq_error {came : Except Fault Catalog} :
    s.put platform came = .error fault ↔ came = .error fault ∧ fault.isRecoverable = false := by
  cases came with
  | ok c => simp [put]
  | error cause =>
    rw [put.eq_def]
    dsimp only
    split
    · next recovers =>
      constructor
      · rintro ⟨⟩
      · rintro ⟨⟨⟩, stops⟩
        rw [recovers] at stops
        cases stops
    · next stops =>
      simp only [Except.error.injEq, iff_self_and]
      rintro rfl
      exact Bool.eq_false_iff.2 stops

/-- Each of the given platforms stands in the table in which what came of it belongs, and no
platform stands in either table otherwise. -/
structure KeepsApart (came : String → Except Fault Catalog) (platforms : List String)
    (s : CatalogSet) : Prop where
  /-- The catalogs that could be loaded. -/
  loaded : ∀ p c, s.catalogs.get? p = some c ↔ p ∈ platforms ∧ came p = .ok c
  /-- The faults of those that could not. -/
  failed : ∀ p fault, s.failed.get? p = some fault ↔ p ∈ platforms ∧ came p = .error fault

namespace KeepsApart

variable {came : String → Except Fault Catalog}

theorem empty (came : String → Except Fault Catalog) : KeepsApart came [] {} where
  loaded p c := by simp
  failed p fault := by simp

/-- One more platform goes into the one table or the other, and the rest stay where they are. -/
theorem put (before : KeepsApart came done s) (step : s.put platform (came platform) = .ok s') :
    KeepsApart came (done ++ [platform]) s' := by
  -- a platform that is named twice has the same outcome twice, and stays in its table
  obtain ⟨c, ok, rfl⟩ | ⟨fault, error, -, rfl⟩ := put_cases step
  · refine ⟨fun p c' => ?_, fun p fault => ?_⟩
    · rw [Table.get?_insert]
      split
      · next same => simp [same, ok]
      · next other => simp [before.loaded, other]
    · have other : came p = .error fault → p ≠ platform := by
        rintro error rfl
        rw [ok] at error
        cases error
      rw [before.failed, List.mem_append, List.mem_singleton]
      tauto
  · refine ⟨fun p c => ?_, fun p fault' => ?_⟩
    · have other : came p = .ok c → p ≠ platform := by
        rintro ok rfl
        rw [error] at ok
        cases ok
      rw [before.loaded, List.mem_append, List.mem_singleton]
      tauto
    · rw [Table.get?_insert]
      split
      · next same => simp [same, error]
      · next other => simp [before.failed, other]

/-- Where no outcome stops the job, all platforms are kept apart. -/
theorem foldlM_put (before : KeepsApart came done s)
    (run : platforms.foldlM (fun s p => s.put p (came p)) s = .ok s') :
    KeepsApart came (done ++ platforms) s' := by
  induction platforms generalizing s done with
  | nil => cases run; rwa [List.append_nil]
  | cons p platforms ih =>
    rw [List.foldlM_cons] at run
    obtain ⟨mid, step, run⟩ := exists_of_bind_ok run
    have after := ih (before.put step) run
    rwa [List.append_assoc] at after

theorem mem_catalogs_iff (apart : KeepsApart came platforms s) :
    platform ∈ s.catalogs.keys ↔ platform ∈ platforms ∧ ∃ c, came platform = .ok c := by
  rw [← Table.contains_iff, Table.contains, Option.isSome_iff_exists]
  simp [apart.loaded]

theorem mem_failed_iff (apart : KeepsApart came platforms s) :
    platform ∈ s.failed.keys ↔ platform ∈ platforms ∧ ∃ fault, came platform = .error fault := by
  rw [← Table.contains_iff, Table.contains, Option.isSome_iff_exists]
  simp [apart.failed]

/-- Every platform stands in exactly one of the tables. -/
theorem xor (apart : KeepsApart came platforms s) (mem : platform ∈ platforms) :
    Xor (platform ∈ s.catalogs.keys) (platform ∈ s.failed.keys) := by
  rw [apart.mem_catalogs_iff, apart.mem_failed_iff]
  cases came platform with
  | ok c => exact .inl ⟨⟨mem, c, rfl⟩, by simp⟩
  | error fault => exact .inr ⟨⟨mem, fault, rfl⟩, by simp⟩

/-- The set answers for a platform what came of its catalog. -/
theorem get (apart : KeepsApart came platforms s) (mem : platform ∈ platforms) :
    s.get platform = came platform := by
  rw [CatalogSet.get]
  cases outcome : came platform with
  | ok c =>
    have absent : s.failed.get? platform = none := by
      rw [Table.get?_eq_none, apart.mem_failed_iff, outcome]
      simp
    rw [absent, (apart.loaded _ _).2 ⟨mem, outcome⟩]
  | error fault => rw [(apart.failed _ _).2 ⟨mem, outcome⟩]

end KeepsApart

/-- What stops the loading is the fault of one of the platforms. -/
theorem foldlM_put_fault {came : String → Except Fault Catalog}
    (run : platforms.foldlM (fun s p => s.put p (came p)) s = .error fault) :
    fault.isRecoverable = false ∧ ∃ p ∈ platforms, came p = .error fault := by
  induction platforms generalizing s with
  | nil => cases run
  | cons p platforms ih =>
    rw [List.foldlM_cons] at run
    rcases exists_of_bind_error run with stopped | ⟨mid, -, run⟩
    · obtain ⟨error, stops⟩ := put_eq_error.1 stopped
      exact ⟨stops, p, List.mem_cons_self, error⟩
    · obtain ⟨stops, q, mem, error⟩ := ih run
      exact ⟨stops, q, List.mem_cons_of_mem p mem, error⟩

/-- A fault from which there is no recovery stops the loading. -/
theorem recoverable_of_foldlM_put {came : String → Except Fault Catalog}
    (run : platforms.foldlM (fun s p => s.put p (came p)) s = .ok s') :
    ∀ p ∈ platforms, ∀ fault, came p = .error fault → fault.isRecoverable = true := by
  induction platforms generalizing s with
  | nil => simp
  | cons p platforms ih =>
    rw [List.foldlM_cons] at run
    obtain ⟨mid, step, run⟩ := exists_of_bind_ok run
    intro q mem fault error
    rcases List.mem_cons.1 mem with rfl | member
    · by_contra stops
      rw [put_eq_error.2 ⟨error, Bool.eq_false_iff.2 stops⟩] at step
      cases step
    · exact ih run q member fault error

/-- Whatever is in the files, either the loading ends and each platform has a catalog or a
fault, but not both, just as if it had been loaded by itself; or a field in the file of one of
them is too long, which no file of up to so many bytes can hold, and the loading stops. -/
theorem load_keepsApart (t : FileTree) (root : FilePath) (platforms : List String)
    (file? : Option FilePath) :
    (∃ s, (load t root platforms file?).run.1 = .ok s ∧
      KeepsApart (outcome t root file?) platforms s ∧
      (∀ p ∈ platforms, Xor (p ∈ s.catalogs.keys) (p ∈ s.failed.keys)) ∧
      ∀ p ∈ platforms, outcome t root file? p ≠ .error .longField) ∨
    ((load t root platforms file?).run.1 = .error .longField ∧
      ∃ p ∈ platforms, outcome t root file? p = .error .longField ∧
        ∃ bytes, t.readBytes (fileOf root file? p) = .ok bytes ∧
          Fault.maxField < bytes.length) := by
  have run : (load t root platforms file?).run.1 = _ := loadFrom_fst t root file? platforms {} []
  cases ended :
      platforms.foldlM (fun s p => s.put p (outcome t root file? p)) ({} : CatalogSet) with
  | ok s =>
    have apart : KeepsApart (outcome t root file?) ([] ++ platforms) s :=
      (KeepsApart.empty _).foldlM_put ended
    refine .inl ⟨s, run.trans ended, apart, fun p mem => apart.xor mem, fun p mem long => ?_⟩
    exact absurd (recoverable_of_foldlM_put ended p mem _ long) (by decide)
  | error fault =>
    obtain ⟨stops, p, mem, error⟩ := foldlM_put_fault ended
    rcases loadFile_fault error with recoverable | ⟨rfl, bytes, content, length⟩
    · rw [stops] at recoverable
      cases recoverable
    · exact .inr ⟨run.trans ended, p, mem, error, bytes, content, length⟩

/-! ### A field that is too long -/

/-- A header, and nothing else. -/
def bareCatalog : List Char := "asset_id\trelative_path\tdependencies\n".toList

/-- A tree with the catalogs of two platforms. There is nothing wrong with the second. -/
def twoCatalogs (first : Bytes) : FileTree where
  nodes :=
    { entries := [(["r"], .dir), (["r", "pc"], .dir), (["r", "linux"], .dir),
        (["r", "pc", "assetcatalog.tsv"], .file first),
        (["r", "linux", "assetcatalog.tsv"], .file (Utf8.encode bareCatalog))]
      nodup := by simp }

/-- The root of both. -/
def twoRoot : FilePath := ⟨"", ["r"]⟩

theorem outcome_twoCatalogs_pc (first : Bytes) : outcome (twoCatalogs first) twoRoot none "pc" =
    (Catalog.load "r/pc/assetcatalog.tsv" first).run.1 := rfl

theorem outcome_twoCatalogs_linux (first : Bytes) :
    outcome (twoCatalogs first) twoRoot none "linux" = .ok .empty := by
  change (Catalog.load "r/linux/assetcatalog.tsv" (Utf8.encode bareCatalog)).run.1 = _
  rw [Catalog.load, Rows.ofBytes_encode]
  rfl

/-- One field that is too long for the catalog of one platform, and the catalog of the other is
not loaded either. -/
theorem not_load_longField :
    let t := twoCatalogs (Utf8.encode (List.replicate 131073 'x'))
    outcome t twoRoot none "linux" = .ok .empty ∧
      ¬∃ s, (load t twoRoot ["pc", "linux"] none).run.1 = .ok s := by
  intro t
  refine ⟨outcome_twoCatalogs_linux _, ?_⟩
  rintro ⟨s, loaded⟩
  have rows : Rows.ofBytes (Utf8.encode (List.replicate 131073 'x')) = ([], some .longField) := by
    refine Rows.ofBytes_of_plain ?_ ?_
    · simp only [List.mem_replicate]
      rintro c ⟨-, rfl⟩
      decide
    · rw [List.length_replicate]
      decide
  have pc : outcome t twoRoot none "pc" = .error .longField := by
    rw [outcome_twoCatalogs_pc, Catalog.load, rows]
    rfl
  have run := (loadFrom_fst t twoRoot none ["pc", "linux"] {} []).symm.trans loaded
  exact absurd (recoverable_of_foldlM_put run "pc" List.mem_cons_self _ pc) (by decide)

end CatalogSet

end PackPlan
