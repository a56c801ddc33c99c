import PackPlan.Command.HintFiles
import PackPlan.Proofs.Catalog.Loading
import PackPlan.Proofs.Steady

/-!
# Platforms without a catalog

A platform whose catalog cannot be loaded takes no part in the answers that catalogs give
together: the answers for platforms are those for the ones that have a catalog. Loading tells
warnings and details, and never an error.

## Main definitions

* `CatalogSet.Extends` — catalogs of more platforms, of which the further ones have none

## Main results

* `CatalogSet.KeepsApart.select_eq`, `CatalogSet.KeepsApart.selected_eq` — the platforms that
  answer
* `CatalogSet.answers_congr` — platforms without a catalog make no difference to the answers
* `CatalogSet.filter_isError_of_load` — loading tells no error
* `CatalogSet.exists_load` — which catalogs can be loaded
* `CatalogSet.exists_extends_of_load` — platforms without a catalog beside those that are loaded
-/

namespace PackPlan

/-! ### What loading tells -/

namespace Catalog

theorem isError_readDependencies (place : String) (tokens : List (List Char)) :
    ∀ n ∈ (readDependencies place tokens).2, n.isError = false := by
  induction tokens with
  | nil => exact fun n mem => absurd mem List.not_mem_nil
  | cons token tokens ih =>
    rw [readDependencies]
    dsimp only
    split
    · exact ih
    · split
      · intro n mem
        rcases List.mem_cons.1 mem with rfl | later
        · rfl
        · exact ih n later
      · exact ih

theorem isError_listing (place : String) (header row : Rows.Row) :
    ∀ n ∈ (listing place header row).2, n.isError = false := by
  have single : ∀ text, ∀ n ∈ [Notice.warning text], n.isError = false := by
    intro text n mem
    rw [List.mem_singleton.1 mem]
    rfl
  rw [listing]
  split
  · exact single _
  · split
    · exact single _
    · exact isError_readDependencies _ _

theorem isError_addRows (path : String) (header : Rows.Row) (line : Nat) (rows : List Rows.Row)
    (c : Catalog) : ∀ n ∈ (addRows path header line rows c).2, n.isError = false := by
  induction rows generalizing line c with
  | nil => exact fun n mem => absurd mem List.not_mem_nil
  | cons row rows ih =>
    rw [addRows]
    intro n mem
    rcases List.mem_append.1 mem with here | later
    · exact isError_listing _ _ _ n here
    · exact ih _ _ n later

theorem tellsOnly_load (path : String) (bytes : Bytes) :
    (load path bytes).TellsOnly (·.isError = false) := by
  rw [load]
  split
  · exact Attempt.tellsOnly_throw _
  · exact Attempt.tellsOnly_throw _
  · dsimp only
    split
    · exact Attempt.tellsOnly_throw _
    · refine (Attempt.tellsOnly_forM_tell (isError_addRows _ _ _ _ _)).bind fun _ => ?_
      split
      · exact Attempt.tellsOnly_throw _
      · exact Attempt.tellsOnly_pure _

end Catalog

namespace CatalogSet

variable {t : FileTree} {root : FilePath} {file? : Option FilePath} {s s' : CatalogSet}
  {platforms : List String} {came : String → Except Fault Catalog}

theorem tellsOnly_loadFile (t : FileTree) (path : FilePath) :
    (loadFile t path).TellsOnly (·.isError = false) := by
  refine (Attempt.tellsOnly_ofExcept _).bind fun there => ?_
  split
  · exact Attempt.tellsOnly_throw _
  · exact (Attempt.tellsOnly_ofExcept _).bind fun _ => Catalog.tellsOnly_load _ _

theorem tellsOnly_loadFrom (t : FileTree) (root : FilePath) (file? : Option FilePath)
    (platforms : List String) (s : CatalogSet) :
    (loadFrom t root file? platforms s).TellsOnly (·.isError = false) := by
  have detail : ∀ text, (Attempt.tell (.detail text)).TellsOnly (·.isError = false) :=
    fun text => Attempt.tellsOnly_tell rfl
  induction platforms generalizing s with
  | nil => exact Attempt.tellsOnly_pure _
  | cons p platforms ih =>
    refine (detail _).bind fun _ => ?_
    refine (tellsOnly_loadFile t _).lift_run.bind fun loaded => ?_
    exact (Attempt.tellsOnly_ofExcept _).bind fun s => ih s

/-- Loading catalogs tells warnings and details, and no error. -/
theorem tellsOnly_load (t : FileTree) (root : FilePath) (platforms : List String)
    (file? : Option FilePath) : (load t root platforms file?).TellsOnly (·.isError = false) :=
  tellsOnly_loadFrom t root file? platforms {}

theorem filter_isError_of_load {told : List Notice}
    (loaded : (load t root platforms file?).runFrom [] = (.ok s, told)) :
    told.filter (·.isError) = [] := by
  obtain ⟨more, here, each⟩ := tellsOnly_load t root platforms file? []
  rw [loaded, List.nil_append] at here
  obtain rfl : told = more := here
  rw [List.filter_eq_nil_iff]
  intro n mem
  rw [each n mem]
  exact Bool.false_ne_true

/-! ### Which catalogs can be loaded -/

theorem keepsApart_of_load {told told' : List Notice}
    (loaded : (load t root platforms file?).runFrom told = (.ok s, told')) :
    KeepsApart (outcome t root file?) platforms s := by
  have ended := (loadFrom_fst t root file? platforms {} told).symm.trans (congrArg Prod.fst loaded)
  exact (KeepsApart.empty _).foldlM_put ended

/-- Catalogs can be loaded if a job survives the fault of each that is at fault. -/
theorem exists_load (recoverable : ∀ p ∈ platforms, ∀ fault,
      outcome t root file? p = .error fault → fault.isRecoverable = true) (told : List Notice) :
    ∃ s told', (load t root platforms file?).runFrom told = (.ok s, told') := by
  cases ended : (load t root platforms file?).runFrom told with
  | mk r told' =>
    cases r with
    | ok s => exact ⟨s, told', rfl⟩
    | error fault =>
      have stopped :=
        (loadFrom_fst t root file? platforms {} told).symm.trans (congrArg Prod.fst ended)
      obtain ⟨stops, p, mem, error⟩ := foldlM_put_fault stopped
      rw [recoverable p mem fault error] at stops
      cases stops

theorem recoverable_of_load {told told' : List Notice}
    (loaded : (load t root platforms file?).runFrom told = (.ok s, told')) :
    ∀ p ∈ platforms, ∀ fault, outcome t root file? p = .error fault →
      fault.isRecoverable = true :=
  recoverable_of_foldlM_put
    ((loadFrom_fst t root file? platforms {} told).symm.trans (congrArg Prod.fst loaded))

/-! ### Answers -/

theorem KeepsApart.select_eq (apart : KeepsApart came platforms s) (nonempty : platforms ≠ []) :
    s.select platforms = platforms.filter fun p => (came p).toOption.isSome := by
  rw [select, if_neg nonempty]
  apply List.filter_congr
  intro p mem
  rw [Bool.eq_iff_iff, Table.contains_iff, apart.mem_catalogs_iff]
  cases came p <;> simp [mem, Except.toOption]

theorem KeepsApart.selected_eq (apart : KeepsApart came platforms s) (nonempty : platforms ≠ []) :
    s.selected platforms = platforms.filterMap fun p => (came p).toOption.map (p, ·) := by
  rw [selected, apart.select_eq nonempty, List.filterMap_filter]
  apply List.filterMap_congr
  intro p mem
  -- a platform at fault is left out, and one that is loaded is found with its catalog
  cases outcome : came p with
  | error fault => simp [Except.toOption]
  | ok c => simp [Except.toOption, (apart.loaded p c).2 ⟨mem, outcome⟩]

/-- Platforms without a catalog make no difference to the answers of the others. -/
theorem answers_congr {keep : String → Bool} (apart : KeepsApart came platforms s)
    (apart' : KeepsApart came (platforms.filter keep) s')
    (nonempty : platforms.filter keep ≠ [])
    (fails : ∀ p ∈ platforms, keep p = false → ∃ fault, came p = .error fault) :
    s.select platforms = s'.select (platforms.filter keep) ∧
      s.selected platforms = s'.selected (platforms.filter keep) := by
  have all : platforms ≠ [] := by
    rintro rfl
    exact nonempty rfl
  constructor
  · rw [apart.select_eq all, apart'.select_eq nonempty, List.filter_filter]
    apply List.filter_congr
    intro p mem
    cases kept : keep p with
    | true => simp
    | false =>
      obtain ⟨fault, failed⟩ := fails p mem kept
      simp [failed, Except.toOption]
  · rw [apart.selected_eq all, apart'.selected_eq nonempty, List.filterMap_filter]
    apply List.filterMap_congr
    intro p mem
    cases kept : keep p with
    | true => simp
    | false =>
      obtain ⟨fault, failed⟩ := fails p mem kept
      simp [failed, Except.toOption]

/-- Catalogs of more platforms than those that are kept, where the further ones have a fault in
the place of a catalog. -/
structure Extends (s s' : CatalogSet) (platforms : List String) (keep : String → Bool)
    (why : String → Fault) : Prop where
  select : s.select platforms = s'.select (platforms.filter keep)
  selected : s.selected platforms = s'.selected (platforms.filter keep)
  get_of_kept : ∀ p ∈ platforms, keep p = true → s.get p = s'.get p
  get_of_dropped : ∀ p ∈ platforms, keep p = false → s.get p = .error (why p)

/-- Platforms can be loaded beside others if a job survives the faults of their catalogs. -/
theorem exists_extends_of_load {keep : String → Bool} {why : String → Fault}
    {told told' : List Notice}
    (loaded : (load t root (platforms.filter keep) file?).runFrom told = (.ok s', told'))
    (nonempty : platforms.filter keep ≠ [])
    (fails : ∀ p ∈ platforms, keep p = false →
      outcome t root file? p = .error (why p) ∧ (why p).isRecoverable = true)
    (before : List Notice) :
    ∃ s after, (load t root platforms file?).runFrom before = (.ok s, after) ∧
      Extends s s' platforms keep why := by
  have recoverable : ∀ p ∈ platforms, ∀ fault, outcome t root file? p = .error fault →
      fault.isRecoverable = true := by
    intro p mem fault failed
    -- a kept platform was loaded before, in a run that survived its fault
    cases kept : keep p with
    | true => exact recoverable_of_load loaded p (List.mem_filter.2 ⟨mem, kept⟩) fault failed
    | false =>
      obtain ⟨failed', survived⟩ := fails p mem kept
      rw [failed] at failed'
      cases failed'
      exact survived
  obtain ⟨s, after, loaded'⟩ := exists_load recoverable before
  have apart := keepsApart_of_load loaded'
  have apart' := keepsApart_of_load loaded
  obtain ⟨select, selected⟩ := answers_congr apart apart' nonempty
    fun p mem dropped => ⟨why p, (fails p mem dropped).1⟩
  refine ⟨s, after, loaded', select, selected, ?_, ?_⟩
  · intro p mem kept
    rw [apart.get mem, apart'.get (List.mem_filter.2 ⟨mem, kept⟩)]
  · intro p mem dropped
    rw [apart.get mem, (fails p mem dropped).1]

section Congr

variable {among among' : List String} (select : s.select among = s'.select among')
  (selected : s.selected among = s'.selected among')
include selected

theorem resolveId_congr (path : String) : s.resolveId path among = s'.resolveId path among' := by
  rw [resolveId, resolveId, selected]

theorem readExclusions_congr (entries : List String) :
    s.readExclusions among entries = s'.readExclusions among' entries := by
  induction entries with
  | nil => rfl
  | cons entry entries ih =>
    rw [readExclusions, readExclusions, ih, resolveId_congr selected]

include select in
/-- Catalogs that select the same of platforms are one resolver. -/
theorem resolver_congr : HintFiles.resolver s among = HintFiles.resolver s' among' := by
  have ids : (s.resolveId · among) = (s'.resolveId · among') :=
    funext (resolveId_congr selected)
  have paths : (s.resolvePath · among) = (s'.resolvePath · among') := by
    funext id
    rw [resolvePath, resolvePath, selected, select]
  rw [HintFiles.resolver, HintFiles.resolver, ids, paths]

end Congr

end CatalogSet

end PackPlan
