import PackPlan.Proofs.Catalog.Loading
import PackPlan.Proofs.Command.SeedEntries

/-!
# A list edited twice

An edit that is applied again to what it has left of a list changes nothing: the ids that it lets
go are gone, and those that it leaves are at their paths and in their packs. So an update that is
run a second time leaves the file of the list as the first has left it. What has to be known of
the file before is only that it comes from updates, whatever these were.

## Main definitions

* `CatalogSet.IsRegular`, `SeedList.Edit.IsRegular` — paths are normal, and numbers fit
* `SeedList.IsWritten` — bytes that an update leaves in the file of a list
* `Record.IsSeed` — the record of a seed that is read as it is written

## Main results

* `SeedList.leaves_again_iff` — an edit applied again to what it has left
* `SeedList.IsWritten.holdsListed` — what updates leave in a file
* `SeedList.update_again` — an update run twice
-/

namespace PackPlan

variable {catalogs : CatalogSet} {platforms : List String} {path : String} {id : AssetId}
  {pack : Int} {rs rs' : List Record} {s s' : Store} {r k : Record}

/-! ### Catalogs and edits -/

/-- In catalogs nothing is at the empty path, as in all that have been loaded; the paths are normal,
and the numbers of the ids fit. -/
structure CatalogSet.IsRegular (catalogs : CatalogSet) : Prop where
  named : ∀ c ∈ catalogs.catalogs.values, c.ids.get? "" = none
  normal : ∀ c ∈ catalogs.catalogs.values, ∀ path ∈ c.ids.keys, AssetPath.normalize path = path
  fits : ∀ c ∈ catalogs.catalogs.values, ∀ id ∈ c.ids.values,
    0 ≤ id.subId ∧ id.subId < 10 ^ Numeral.maxDigits

/-! ### Records of seeds -/

/-- The record of a seed that is read as it is written. -/
structure Record.IsSeed (r : Record) : Prop where
  identified : r.hasIdentity = true
  named : r.path ≠ ""
  writable : r.Writable

/-- The record of a seed that is read with a path in normal form. -/
structure Record.IsListed (r : Record) : Prop where
  identified : r.hasIdentity = true
  named : AssetPath.normalize r.path ≠ ""
  normal : AssetPath.normalize (AssetPath.normalize r.path) = AssetPath.normalize r.path

theorem Record.IsSeed.isListed (h : r.IsSeed) : r.IsListed := by
  refine ⟨h.identified, ?_, ?_⟩
  · rw [h.writable.normal]
    exact h.named
  · rw [h.writable.normal, h.writable.normal]

/-- A record with an identity, of which the numbers fit and the path is normal, is read as it is
written. -/
theorem Record.isSeed_of_fits (identified : r.hasIdentity = true) (named : r.path ≠ "")
    (number : 0 ≤ r.pack ∧ Numeral.isTooLong r.pack = false) (fits : r.IdFits)
    (normal : AssetPath.normalize r.path = r.path) : r.IsSeed := by
  obtain ⟨natural, short⟩ := fits identified
  refine ⟨identified, named, number.1, number.2, natural, short, ?_, normal⟩
  intro anonymous
  rw [identified] at anonymous
  cases anonymous

theorem Record.IsSeed.idFits (h : r.IsSeed) : r.IdFits := Hints.idFits_of_writable h.writable

theorem Record.IsSeed.number (h : r.IsSeed) : 0 ≤ r.pack ∧ Numeral.isTooLong r.pack = false :=
  ⟨h.writable.pack_nonneg, h.writable.pack_short⟩

/-- What is read of the record of a seed is read again as it is. -/
theorem Record.IsListed.isSeed_reread (h : r.IsListed)
    (number : 0 ≤ r.pack ∧ Numeral.isTooLong r.pack = false) (fits : r.IdFits) :
    r.reread.IsSeed := by
  have same : r.reread.id = r.id := if_pos h.identified
  have identified : r.reread.hasIdentity = true := by
    rw [Record.hasIdentity, same]
    exact h.identified
  refine isSeed_of_fits identified h.named number (fun _ => ?_) h.normal
  rw [same]
  exact fits h.identified

theorem Record.IsListed.path_ne_empty (h : r.IsListed) : r.path ≠ "" := by
  intro empty
  refine h.named ?_
  rw [empty]
  rfl

/-- The catalogs are not asked for what the record of a seed says. -/
theorem Hints.readBack_eq_reread {resolver : Resolver} (h : r.IsListed) :
    (readBack resolver r).1 = r.reread := by
  unfold readBack complete Record.reread
  rw [if_pos h.identified, if_pos h.identified]
  dsimp only
  rw [if_neg fun asked => h.named asked.1]

namespace SeedList

variable {edit : Edit} {list file : FilePath} {t t' : FileTree} {bytes : Bytes} {v : Json.Value}
  {text : String} {w w' w'' : Workspace}

/-- The paths that an edit adds are normal, and the numbers of its packs fit. -/
structure Edit.IsRegular (edit : Edit) : Prop where
  normal : ∀ seed ∈ edit.add, AssetPath.normalize seed.path = seed.path
  packs : ∀ seed ∈ edit.add, 0 ≤ seed.pack ∧ seed.pack < 10 ^ Numeral.maxDigits
  override : 0 ≤ edit.override ∧ edit.override < 10 ^ Numeral.maxDigits

theorem isRegular_pairCatalogs : pairCatalogs.IsRegular := by
  have only : ∀ c ∈ pairCatalogs.catalogs.values, c = pairCatalog := fun c mem =>
    List.mem_singleton.1 mem
  refine ⟨fun c mem => ?_, fun c mem => ?_, fun c mem => ?_⟩
  · rw [only c mem]
    exact Catalog.get?_ids_add_empty (Catalog.get?_ids_add_empty rfl _ _ _) _ _ _
  · rw [only c mem]
    decide
  · rw [only c mem]
    have small : ∀ id ∈ pairCatalog.ids.values, 0 ≤ id.subId ∧ id.subId < unassigned := by decide
    exact fun id there => ⟨(small id there).1, lt_pow_of_assigned (small id there).2⟩

theorem isRegular_twoSeedEdit : twoSeedEdit.IsRegular := by
  have small : ∀ seed ∈ twoSeedEdit.add, AssetPath.normalize seed.path = seed.path ∧
      0 ≤ seed.pack ∧ seed.pack < unassigned := by decide
  exact ⟨fun seed mem => (small seed mem).1,
    fun seed mem => ⟨(small seed mem).2.1, lt_pow_of_assigned (small seed mem).2.2⟩,
    by decide, lt_pow_of_assigned (by decide)⟩

/-! ### An edit applied again -/

/-- An edit leaves an id at one path and in one pack. -/
theorem Leaves.unique {path' : String} {pack' : Int}
    (h : Leaves catalogs platforms edit rs id path pack)
    (h' : Leaves catalogs platforms edit rs id path' pack') : path = path' ∧ pack = pack' := by
  refine ⟨h.path.trans h'.path.symm, ?_⟩
  have given := h.pack
  have given' := h'.pack
  split at given
  · next overridden =>
    rw [if_pos overridden] at given'
    exact given.trans given'.symm
  · next own =>
    rw [if_neg own] at given'
    exact given.unique given'

/-- An id that occurs and does not go is left. -/
theorem exists_leaves (h : Tracking rs s)
    (occurs : Occurs (rs ++ resolved catalogs platforms edit.add) id)
    (spared : id ∉ removed catalogs platforms edit.remove) :
    ∃ path pack, Leaves catalogs platforms edit rs id path pack := by
  have tracking := tracking_extended catalogs platforms edit h
  cases there : (extended catalogs platforms edit s).find? id with
  | none => exact absurd occurs (tracking.absent id there)
  | some k =>
    exact ⟨_, _, (exists_find?_edited_iff h).1
      ⟨_, find?_edited_eq_some.2 ⟨spared, k, there, rfl⟩, rfl, rfl⟩⟩

/-- An id is left at a path that comes with it, if one does. -/
theorem Leaves.exists_mem (h : Leaves catalogs platforms edit rs id path pack)
    (named : ∀ r ∈ rs ++ resolved catalogs platforms edit.add, r.path ≠ "") :
    ∃ r ∈ rs ++ resolved catalogs platforms edit.add, r.identity? = some id ∧ r.path = path := by
  obtain ⟨r, mem, identity⟩ := h.occurs
  have carried : Carries (rs ++ resolved catalogs platforms edit.add) id r.path :=
    ⟨named r mem, r, mem, identity, rfl⟩
  obtain ⟨path', first⟩ := Option.ne_none_iff_exists'.1 (firstPath?_ne_none carried)
  have path := h.path
  rw [first, Option.getD_some] at path
  subst path
  exact (carries_of_firstPath? first).2

theorem Leaves.pack_of_own (h : Leaves catalogs platforms edit rs id path pack)
    (identified : ∀ r ∈ rs, r.hasIdentity = true)
    (own : ¬ (edit.override ≠ unassigned ∧
      id ∈ (resolved catalogs platforms edit.add).map Record.id)) :
    IsLeast (packsOfId rs id ∪ packsOfId (resolved catalogs platforms edit.add) id) pack := by
  have least := h.pack
  rwa [if_neg own, absorbed_append_resolved identified, Set.union_empty, packsOfId_append] at least

section Again

variable (h : Tracking rs s) (identified : ∀ r ∈ rs, r.hasIdentity = true)
  (identified' : ∀ r ∈ rs', r.hasIdentity = true)
  (named : ∀ r ∈ rs ++ resolved catalogs platforms edit.add, r.path ≠ "")
  (assigned : ∀ r ∈ rs, r.pack ≠ unassigned)
  (left : ∀ id path pack,
    (∃ r ∈ rs', r.identity? = some id ∧ r.path = path ∧ r.pack = pack) ↔
      Leaves catalogs platforms edit rs id path pack ∧ pack ≠ unassigned)

include identified identified' named left in
/-- An id that has been left with a pack is left there again. -/
theorem leaves_again_of_left (leaves : Leaves catalogs platforms edit rs id path pack)
    (has : pack ≠ unassigned) : Leaves catalogs platforms edit rs' id path pack := by
  obtain ⟨r, mem, identity, atPath, inPack⟩ := (left id path pack).2 ⟨leaves, has⟩
  -- nothing else is left of the id
  have only : ∀ r ∈ rs', r.identity? = some id → r.path = path ∧ r.pack = pack := by
    intro r mem identity
    exact ((left id r.path r.pack).1 ⟨r, mem, identity, rfl, rfl⟩).1.unique leaves
  refine ⟨⟨r, List.mem_append_left _ mem, identity⟩, leaves.spared, ?path, ?pack⟩
  case path =>
    obtain ⟨r', mem', -, atPath'⟩ := leaves.exists_mem named
    have carried : Carries rs' id path := ⟨atPath' ▸ named r' mem', r, mem, identity, atPath⟩
    obtain ⟨path', first⟩ := Option.ne_none_iff_exists'.1 (firstPath?_ne_none carried)
    obtain ⟨-, r'', mem'', identity'', rfl⟩ := carries_of_firstPath? first
    rw [firstPath?_append_of_some first, Option.getD_some]
    exact (only r'' mem'' identity'').1.symm
  case pack =>
    split
    · next overridden =>
      have given := leaves.pack
      rwa [if_pos overridden] at given
    · next own =>
      have least := leaves.pack_of_own identified own
      rw [absorbed_append_resolved identified', Set.union_empty, packsOfId_append]
      refine ⟨.inl ⟨r, mem, identity, inPack⟩, ?_⟩
      rintro p (⟨r', mem', identity', rfl⟩ | added)
      · exact (only r' mem' identity').2.ge
      · exact least.2 (.inr added)

include h identified identified' assigned left in
/-- An id that has not been left with a pack comes with none again. -/
theorem eq_unassigned_of_leaves_again
    (gone : ∀ path pack, ¬ (Leaves catalogs platforms edit rs id path pack ∧ pack ≠ unassigned))
    (again : Leaves catalogs platforms edit rs' id path pack) : pack = unassigned := by
  have absent : ∀ r ∈ rs', r.identity? ≠ some id := fun r mem identity =>
    gone _ _ ((left id r.path r.pack).1 ⟨r, mem, identity, rfl, rfl⟩)
  have nothing : packsOfId rs' id = ∅ :=
    packsOfId_eq_empty fun ⟨r, mem, identity⟩ => absent r mem identity
  -- so a seed is added for it, and before it was left without a pack
  obtain ⟨r, mem, identity⟩ := again.occurs
  have added := (List.mem_append.1 mem).resolve_left fun before => absent r before identity
  obtain ⟨path', pack', leaves⟩ := exists_leaves h
    ⟨r, List.mem_append_right rs added, identity⟩ again.spared
  obtain rfl : pack' = unassigned := by
    by_contra has
    exact gone path' pack' ⟨leaves, has⟩
  have own : ¬ (edit.override ≠ unassigned ∧
      id ∈ (resolved catalogs platforms edit.add).map Record.id) := by
    intro overridden
    have given := leaves.pack
    rw [if_pos overridden] at given
    exact overridden.1 given.symm
  -- the pack of the unassigned is then the least of those that the seeds give
  have least := leaves.pack_of_own identified own
  have least' := again.pack_of_own identified' own
  rw [nothing, Set.empty_union] at least'
  refine le_antisymm (least'.2 ?_) (least.2 (.inr least'.1))
  rcases least.1 with ⟨r', mem', -, none⟩ | given
  · exact absurd none (assigned r' mem')
  · exact given

include h identified identified' named assigned left in
/-- An edit that is applied again to what it has left with a pack leaves the same. -/
theorem leaves_again_iff :
    (Leaves catalogs platforms edit rs' id path pack ∧ pack ≠ unassigned) ↔
      (Leaves catalogs platforms edit rs id path pack ∧ pack ≠ unassigned) := by
  constructor
  · rintro ⟨again, has⟩
    by_cases gone : ∀ path pack,
        ¬ (Leaves catalogs platforms edit rs id path pack ∧ pack ≠ unassigned)
    · exact absurd
        (eq_unassigned_of_leaves_again h identified identified' assigned left gone again) has
    · push Not at gone
      obtain ⟨path', pack', leaves, has'⟩ := gone
      obtain ⟨rfl, rfl⟩ := again.unique
        (leaves_again_of_left identified identified' named left leaves has')
      exact ⟨leaves, has⟩
  · rintro ⟨leaves, has⟩
    exact ⟨leaves_again_of_left identified identified' named left leaves has, has⟩

end Again

/-! ### The document of what an edit leaves -/

variable (catalogs platforms edit) in
theorem nodup_ids_kept_edited (h : Tracking rs s) (identified : ∀ r ∈ rs, r.hasIdentity = true) :
    ((Groups.kept false (edited catalogs platforms edit s).records).map Record.id).Nodup :=
  (List.filter_sublist.map Record.id).nodup (nodup_ids_edited identified h)

/-- What is written of a list after an edit is what the edit leaves with a pack. -/
theorem mem_kept_edited_iff (h : Tracking rs s) (identified : ∀ r ∈ rs, r.hasIdentity = true) :
    r ∈ (Groups.kept false (edited catalogs platforms edit s).records).map Record.bare ↔
      r.bare = r ∧ Leaves catalogs platforms edit rs r.id r.path r.pack ∧ r.pack ≠ unassigned := by
  rw [← exists_find?_edited_iff h, List.mem_map]
  constructor
  · rintro ⟨k, mem, rfl⟩
    rw [Groups.kept, List.mem_filter, Bool.false_or, decide_eq_true_eq] at mem
    exact ⟨rfl, ⟨k, (mem_records_edited identified h).1 mem.1, rfl, rfl⟩, mem.2⟩
  · rintro ⟨bare, ⟨k, found, path, pack⟩, assigned⟩
    have same := (Record.identity?_eq_some.1 (identity?_of_find?_edited h found)).2
    refine ⟨k, ?_, ?_⟩
    · rw [Groups.kept, List.mem_filter, Bool.false_or, decide_eq_true_eq, pack]
      exact ⟨(mem_records_edited identified h).2 (by rw [same, found]), assigned⟩
    · rw [← bare, Record.bare, Record.bare, same, path, pack]

/-- Lists of which an edit leaves the same have the same document after it. -/
theorem document_edited_congr (h : Tracking rs s) (h' : Tracking rs' s')
    (identified : ∀ r ∈ rs, r.hasIdentity = true) (identified' : ∀ r ∈ rs', r.hasIdentity = true)
    (same : ∀ id path pack,
      (Leaves catalogs platforms edit rs' id path pack ∧ pack ≠ unassigned) ↔
        (Leaves catalogs platforms edit rs id path pack ∧ pack ≠ unassigned)) :
    Hints.document (edited catalogs platforms edit s').records =
      Hints.document (edited catalogs platforms edit s).records := by
  rw [← Hints.document_kept, ← Hints.document_kept (edited catalogs platforms edit s).records]
  have distinct := nodup_ids_kept_edited catalogs platforms edit h identified
  have distinct' := nodup_ids_kept_edited catalogs platforms edit h' identified'
  refine Hints.document_eq_of_perm distinct' ?_
  refine (List.perm_ext_iff_of_nodup (Record.nodup_map_bare distinct')
    (Record.nodup_map_bare distinct)).2 fun r => ?_
  rw [mem_kept_edited_iff h' identified', mem_kept_edited_iff h identified, same]

/-! ### What updates leave in a file -/

/-- Bytes are those of the hint file of records of seeds. -/
def HoldsListed (bytes : Bytes) : Prop :=
  ∃ records text, bytes = Utf8.ofString text ∧ Hints.IsTextOf records text ∧
    ∀ r ∈ records, r.IsListed

/-- What is read from the hint file of records of seeds are such records, all with a pack. -/
theorem isSeed_of_existing
    (before : ∀ bytes, t.readBytes file = .ok bytes → HoldsListed bytes)
    (read : (existing catalogs platforms file t).run.1 = .ok rs) :
    ∀ r ∈ rs, r.IsSeed ∧ r.pack ≠ unassigned := by
  rcases eq_nil_or_exists_of_existing read with rfl | ⟨bytes, told, content, accepted⟩
  · exact nofun
  · obtain ⟨records, text, rfl, isText, listed⟩ := before bytes content
    rw [Hints.readBytes_of_layout isText.layout] at accepted
    rw [Hints.eq_of_readDocument isText accepted]
    intro r mem
    obtain ⟨k, member, rfl⟩ := List.mem_map.1 mem
    rw [(Hints.filter_fileOrder_perm Record.isNamed records).mem_iff, List.mem_filter,
      decide_eq_true_eq] at member
    obtain ⟨there, assigned, -⟩ := member
    -- since the file is read at all, its numbers are as they have to be
    obtain ⟨number, fits⟩ := Hints.fits_of_readDocument isText accepted there assigned
    rw [Hints.readBack_eq_reread (listed k there)]
    exact ⟨(listed k there).isSeed_reread number fits, assigned⟩

/-- The records of seeds that catalogs know are at paths that can be read in normal form. -/
theorem isListed_of_mem_resolved {seeds : List Seed} (regular : catalogs.IsRegular)
    (mem : r ∈ resolved catalogs platforms seeds) : r.IsListed := by
  obtain ⟨seed, -, valid, rfl⟩ := mem_resolved.1 mem
  obtain ⟨c, there, found⟩ := CatalogSet.exists_of_isValid_idAt valid
  have key : AssetPath.normalize seed.path ∈ c.ids.keys := by
    rw [← Table.contains_iff, Table.contains, found]
    rfl
  refine ⟨valid, ?_, regular.normal c there _ key⟩
  change AssetPath.normalize seed.path ≠ ""
  intro empty
  rw [empty, regular.named c there] at found
  cases found

/-- A record after an edit is at a path of its id, and in a pack of it or in the overriding one. -/
theorem exists_mem_of_mem_edited (h : Tracking rs s)
    (identified : ∀ r ∈ rs, r.hasIdentity = true)
    (named : ∀ r ∈ rs ++ resolved catalogs platforms edit.add, r.path ≠ "")
    (mem : k ∈ (edited catalogs platforms edit s).records) :
    k.hasIdentity = true ∧
      (∃ r ∈ rs ++ resolved catalogs platforms edit.add, r.id = k.id ∧ r.path = k.path) ∧
      (k.pack = edit.override ∨
        ∃ r ∈ rs ++ resolved catalogs platforms edit.add, r.pack = k.pack) := by
  have found := (mem_records_edited identified h).1 mem
  have leaves := (exists_find?_edited_iff h).1 ⟨k, found, rfl, rfl⟩
  refine ⟨hasIdentity_of_mem_edited identified h k mem, ?_, ?_⟩
  · obtain ⟨r, there, identity, path⟩ := leaves.exists_mem named
    exact ⟨r, there, (Record.identity?_eq_some.1 identity).2, path⟩
  · have given := leaves.pack
    split at given
    · exact .inl given
    · next own =>
      rw [absorbed_append_resolved identified, Set.union_empty] at given
      obtain ⟨r, there, -, pack⟩ := given.1
      exact .inr ⟨r, there, pack⟩

theorem isSeed_of_mem_resolved (regular : catalogs.IsRegular) (fits : edit.IsRegular)
    (mem : r ∈ resolved catalogs platforms edit.add) : r.IsSeed := by
  have listed := isListed_of_mem_resolved regular mem
  obtain ⟨seed, there, valid, rfl⟩ := mem_resolved.1 mem
  obtain ⟨c, known, found⟩ := CatalogSet.exists_of_isValid_idAt valid
  obtain ⟨natural, below⟩ := fits.packs seed there
  obtain ⟨subId, small⟩ := regular.fits c known _ (Table.mem_values.2 ⟨_, found⟩)
  exact Record.isSeed_of_fits listed.identified listed.path_ne_empty
    ⟨natural, Numeral.isTooLong_of_lt_pow natural below⟩
    (fun _ => ⟨subId, Numeral.isTooLong_of_lt_pow subId small⟩) (fits.normal seed there)

variable (catalogs) in
/-- Bytes that an update leaves in the file of a list, if what it has found there has been left by
updates. -/
inductive IsWritten : Bytes → Prop
  | update (platforms : List String) (list file : FilePath) (edit : Edit) (w w' : Workspace)
      (bytes : Bytes) (named : HintFiles.seedFile list = .ok file) (proper : w.files.IsProper)
      (before : ∀ bytes, w.files.readBytes file = .ok bytes → IsWritten bytes)
      (ran : (update catalogs platforms list edit).run w = (.ok (), w'))
      (content : w'.files.readBytes file = .ok bytes) : IsWritten bytes

/-- An update leaves records of seeds if it has found such records. -/
theorem holdsListed_of_run_update (regular : catalogs.IsRegular) (proper : w.files.IsProper)
    (named : HintFiles.seedFile list = .ok file)
    (before : ∀ bytes, w.files.readBytes file = .ok bytes → HoldsListed bytes)
    (ran : (update catalogs platforms list edit).run w = (.ok (), w'))
    (content : w'.files.readBytes file = .ok bytes) : HoldsListed bytes := by
  obtain ⟨rs, s, text, read, tracking, content', isText⟩ := exists_of_run_update proper named ran
  obtain rfl := Except.ok.inj (content.symm.trans content')
  have seeds := isSeed_of_existing before read
  refine ⟨_, text, rfl, isText, fun k mem => ?_⟩
  have listed : ∀ r ∈ rs ++ resolved catalogs platforms edit.add, r.IsListed := by
    intro r mem
    rcases List.mem_append.1 mem with old | added
    · exact (seeds r old).1.isListed
    · exact isListed_of_mem_resolved regular added
  obtain ⟨identified, ⟨r, there, -, path⟩, -⟩ := exists_mem_of_mem_edited tracking
    (fun r mem => (seeds r mem).1.identified) (fun r mem => (listed r mem).path_ne_empty) mem
  have same := listed r there
  refine ⟨identified, ?_, ?_⟩
  · rw [← path]
    exact same.named
  · rw [← path]
    exact same.normal

theorem IsWritten.holdsListed (regular : catalogs.IsRegular) (written : IsWritten catalogs bytes) :
    HoldsListed bytes := by
  induction written with
  | update platforms list file edit w w' bytes named proper before ran content ih =>
    exact holdsListed_of_run_update regular proper named ih ran content

/-- The document of the two seeds is written where there is nothing yet. -/
theorem written_twoSeeds :
    written pairCatalogs ["pc"] ⟨"", ["s.seed.assethints"]⟩ { add := [⟨"a", 5⟩, ⟨"b", 7⟩] }
      .empty = .ok (.obj (Hints.members twoSeedGroups)) := by
  have nothing : (readStore pairCatalogs ["pc"] ⟨"", ["s.seed.assethints"]⟩ .empty).run.1 =
      .ok .empty := rfl
  have records : (edited pairCatalogs ["pc"] { add := [⟨"a", 5⟩, ⟨"b", 7⟩] } .empty).records =
      twoSeeds := by decide +kernel
  have collected : (Groups.collect (Groups.kept false twoSeeds)).entries = twoSeedGroups := by
    decide +kernel
  have sorted : twoSeedGroups.mergeSort (fun a b => decide (a.1 ≤ b.1)) = twoSeedGroups :=
    List.mergeSort_of_pairwise (by decide)
  have groups : (Groups.ofRecords twoSeeds).entries = twoSeedGroups := by
    change ((Groups.collect (Groups.kept false twoSeeds)).entries.mergeSort
      (fun a b => decide (a.1 ≤ b.1))).map (fun e => (e.1, Record.sort e.2)) = _
    rw [collected, sorted, twoSeedGroups, List.map_map]
    exact List.map_congr_left fun r _ => by simp [Record.sort]
  have small : ∀ r ∈ twoSeeds, 0 ≤ r.pack ∧ r.pack < unassigned := by decide
  have document : (Hints.document twoSeeds).runFrom [] = _ :=
    Hints.runFrom_document_of_packs fun r mem =>
      ⟨(small r mem).1, isTooLong_of_assigned (small r mem).1 (small r mem).2⟩
  rw [groups, ← records] at document
  rw [written, nothing]
  exact congrArg Prod.fst document

/-- So the hint file of two seeds comes from an update. -/
theorem isWritten_twoSeedHints : IsWritten pairCatalogs (Utf8.ofString (twoSeedHints ++ "\n")) := by
  have rendered : Hints.render (.obj (Hints.members twoSeedGroups)) =
      .ok (twoSeedHints ++ "\n") := by rw [Hints.render, pretty_twoSeeds]
  have proper : FileTree.empty.IsProper := by decide
  have absent : FileTree.empty.exists? ⟨"", ["s.seed.assethints"]⟩ = .ok false := rfl
  obtain ⟨w', ran⟩ := exists_run_update_of_written (w := ⟨.empty, []⟩) seedFile_seedWorkspace
    written_twoSeeds rendered fun told => exists_run_writeFile_empty _ told
  obtain ⟨v, text, document, rendered', content⟩ := exists_written_of_run_update proper
    seedFile_seedWorkspace ran
  obtain rfl := Except.ok.inj (written_twoSeeds.symm.trans document)
  obtain rfl := Except.ok.inj (rendered.symm.trans rendered')
  refine .update ["pc"] ⟨"", ["s"]⟩ _ _ _ w' _ seedFile_seedWorkspace proper
    (fun bytes before => ?_) ran content
  cases absent.symm.trans (FileTree.exists?_of_readBytes before)

/-! ### The second of two updates -/

variable (catalogs platforms) in
/-- What has been written of records of seeds is read as what is said of those with a pack. -/
theorem exists_existing_of_document {records : List Record} (seeds : ∀ r ∈ records, r.IsSeed)
    (document : (Hints.document records).run.1 = .ok v) (rendered : Hints.render v = .ok text)
    (content : t.readBytes file = .ok (Utf8.ofString text)) :
    ∃ rs, (existing catalogs platforms file t).run.1 = .ok rs ∧
      rs.Perm ((Groups.kept false records).map Record.bare) := by
  obtain ⟨v', warnings, text', written, rendered', layout, read⟩ := Hints.exists_text
    (fun r mem => (seeds r mem).number) fun r mem _ => (seeds r mem).idFits
  obtain rfl : v = v' :=
    Except.ok.inj (document.symm.trans (congrArg Prod.fst (written [])))
  obtain rfl := Except.ok.inj (rendered.symm.trans rendered')
  have order := Hints.filter_fileOrder_perm Record.isNamed records
  have all : (records.filter fun r => r.pack ≠ unassigned ∧ r.isNamed = true) =
      Groups.kept false records := by
    refine List.filter_congr fun r mem => ?_
    rw [Hints.isNamed_of_hasIdentity (seeds r mem).identified, Bool.false_or]
    simp only [and_true]
  rw [all] at order
  have back : ∀ r ∈ (Hints.fileOrder records).filter Record.isNamed,
      (Hints.readBack (HintFiles.resolver catalogs platforms) r).1 = r.bare := by
    intro r mem
    have seed := seeds r (List.mem_filter.1 (order.mem_iff.1 mem)).1
    rw [Hints.readBack_eq_reread seed.isListed, Hints.reread_eq_bare seed.writable]
  refine ⟨_, ?_, order.map Record.bare⟩
  rw [existing_of_readBytes content, Hints.readBytes_of_layout layout,
    ← List.map_congr_left back]
  exact congrArg Prod.fst (read _ _ [])

section Twice

variable (regular : catalogs.IsRegular) (fits : edit.IsRegular)
  (before : ∀ bytes, t.readBytes file = .ok bytes → HoldsListed bytes)
include regular fits before

theorem isSeed_of_mem_edited (h : Tracking rs s)
    (read : (existing catalogs platforms file t).run.1 = .ok rs)
    (mem : k ∈ (edited catalogs platforms edit s).records) : k.IsSeed := by
  have seeds : ∀ r ∈ rs ++ resolved catalogs platforms edit.add, r.IsSeed := by
    intro r mem
    rcases List.mem_append.1 mem with old | added
    · exact (isSeed_of_existing before read r old).1
    · exact isSeed_of_mem_resolved regular fits added
  obtain ⟨identified, ⟨r, there, id, path⟩, pack⟩ := exists_mem_of_mem_edited h
    (fun r mem => (seeds r (List.mem_append_left _ mem)).identified)
    (fun r mem => (seeds r mem).named) mem
  have same := seeds r there
  have number : 0 ≤ k.pack ∧ Numeral.isTooLong k.pack = false := by
    rcases pack with overriding | ⟨r', there', own⟩
    · rw [overriding]
      exact ⟨fits.override.1, Numeral.isTooLong_of_lt_pow fits.override.1 fits.override.2⟩
    · rw [← own]
      exact (seeds r' there').number
  refine Record.isSeed_of_fits identified ?_ number (fun _ => ?_) ?_
  · rw [← path]
    exact same.named
  · rw [← id]
    exact same.idFits same.identified
  · rw [← path]
    exact same.writable.normal

/-- What an update writes can be written. -/
theorem exists_render_of_written
    (document : written catalogs platforms file edit t = .ok v) :
    ∃ text, Hints.render v = .ok text := by
  obtain ⟨s, stored, -⟩ := exists_of_bind_ok document
  obtain ⟨rs, read, tracking, -⟩ := exists_existing_of_readStore stored
  have seeds := fun k => isSeed_of_mem_edited (k := k) regular fits before tracking read
  obtain ⟨v', text, document', rendered⟩ := exists_written edit stored
    (fun k mem => (seeds k mem).number) fun k mem _ => (seeds k mem).idFits
  obtain rfl := Except.ok.inj (document.symm.trans document')
  exact ⟨text, rendered⟩

/-- Where an update finds what it has written, it writes the same. -/
theorem written_again (document : written catalogs platforms file edit t = .ok v)
    (rendered : Hints.render v = .ok text)
    (content : t'.readBytes file = .ok (Utf8.ofString text)) :
    written catalogs platforms file edit t' = .ok v := by
  obtain ⟨s, stored, document⟩ := exists_of_bind_ok document
  obtain ⟨rs, read, tracking, -⟩ := exists_existing_of_readStore stored
  have seeds := isSeed_of_existing before read
  have identified : ∀ r ∈ rs, r.hasIdentity = true := fun r mem => (seeds r mem).1.identified
  obtain ⟨rs', read', same⟩ := exists_existing_of_document catalogs platforms
    (fun k => isSeed_of_mem_edited regular fits before tracking read)
    document rendered content
  -- what is read is what the edit has left with a pack
  have mem_iff : ∀ r, r ∈ rs' ↔
      r.bare = r ∧ Leaves catalogs platforms edit rs r.id r.path r.pack ∧ r.pack ≠ unassigned :=
    fun r => same.mem_iff.trans (mem_kept_edited_iff tracking identified)
  have valid : ∀ {id path pack}, Leaves catalogs platforms edit rs id path pack →
      id.isValid = true := by
    intro id path pack leaves
    obtain ⟨r, -, identity⟩ := leaves.occurs
    obtain ⟨valid, rfl⟩ := Record.identity?_eq_some.1 identity
    exact valid
  have identified' : ∀ r ∈ rs', r.hasIdentity = true := fun r mem =>
    valid ((mem_iff r).1 mem).2.1
  have identities : ∀ r ∈ rs', r.identity? = none → r.path ≠ "" := by
    intro r mem anonymous
    rw [Record.identity?_eq_none, identified' r mem] at anonymous
    cases anonymous
  obtain ⟨s', added⟩ := exists_addAll identities
  have tracking' := (tracking_of_addAll added).1
  rw [written, readStore_of_existing read' added]
  refine Eq.trans (congrArg (fun attempt : Attempt Json.Value => attempt.run.1) ?_) document
  refine document_edited_congr tracking tracking' identified identified' fun id path pack => ?_
  refine leaves_again_iff tracking identified identified' ?named
    (fun r mem => (seeds r mem).2) ?left
  case named =>
    intro r mem
    rcases List.mem_append.1 mem with old | new
    · exact (seeds r old).1.named
    · exact (isListed_of_mem_resolved regular new).path_ne_empty
  case left =>
    intro id path pack
    constructor
    · rintro ⟨r, mem, identity, rfl, rfl⟩
      obtain ⟨-, rfl⟩ := Record.identity?_eq_some.1 identity
      exact ((mem_iff r).1 mem).2
    · rintro ⟨leaves, assigned⟩
      exact ⟨{ id, path, pack }, (mem_iff _).2 ⟨rfl, leaves, assigned⟩,
        Record.identity?_eq_some.2 ⟨valid leaves, rfl⟩, rfl, rfl⟩

end Twice

/-- An update that is run twice in a row, on a file that is not there or comes from updates, leaves
the file the second time as it has left it the first time, and it ends as it did then. -/
theorem update_again {r r' : Except Fault Unit} (regular : catalogs.IsRegular)
    (fits : edit.IsRegular) (proper : w.files.IsProper)
    (named : HintFiles.seedFile list = .ok file)
    (before : ∀ bytes, w.files.readBytes file = .ok bytes → IsWritten catalogs bytes)
    (first : (update catalogs platforms list edit).run w = (r, w'))
    (second : (update catalogs platforms list edit).run w' = (r', w'')) :
    (r' = .ok () ↔ r = .ok ()) ∧
      ∀ bytes, w''.files.readBytes file = .ok bytes ↔ w'.files.readBytes file = .ok bytes := by
  have listed := fun bytes content => (before bytes content).holdsListed regular
  have name := HintFiles.endsInName_of_seedFile named
  have one := run_update_outcome catalogs platforms named edit w
  have two := run_update_outcome catalogs platforms named edit w'
  rw [first] at one
  rw [second] at two
  cases one with
  | stopped fault told reason =>
    -- the files are as they were, so there is nothing to be written again
    cases two with
    | stopped fault' told' reason' => exact ⟨iff_of_false nofun nofun, fun bytes => Iff.rfl⟩
    | wrote v told' r' w'' document wrote told'' =>
      have reason' : written catalogs platforms file edit w.files = .ok v := document
      rw [reason] at reason'
      cases reason'
  | wrote v told r w₁ document wrote told' =>
    obtain ⟨text, rendered⟩ := exists_render_of_written regular fits listed document
    have proper₀ : Workspace.files { w with notices := told } |>.IsProper := proper
    have drafted := Job.run_writeFile_outcome proper₀ name (Hints.render v)
    rw [wrote, rendered] at drafted
    have proper₁ := drafted.isProper proper₀
    cases r with
    | error fault =>
      -- the place of the file cannot be taken, whatever is to be written
      cases two with
      | stopped fault' told₂ reason => exact ⟨iff_of_false nofun nofun, fun bytes => Iff.rfl⟩
      | wrote v₂ told₂ r₂ w₂ document₂ wrote₂ told₂' =>
        have drafted₂ := Job.run_writeFile_outcome (w := { w₁ with notices := told₂ })
          proper₁ name (Hints.render v₂)
        rw [wrote₂] at drafted₂
        obtain ⟨failed, same⟩ := drafted.again_of_error proper₀ drafted₂
        exact ⟨iff_of_false failed nofun, same⟩
    | ok _ =>
      -- what has been written is read, and the same is written again
      have again : written catalogs platforms file edit w₁.files = .ok v := by
        cases drafted with
        | written _ above text' dirs proper' same had takes content =>
          obtain rfl := Except.ok.inj had
          exact written_again regular fits listed document rendered content
      cases two with
      | stopped fault told₂ reason =>
        rw [again] at reason
        cases reason
      | wrote v₂ told₂ r₂ w₂ document₂ wrote₂ told₂' =>
        obtain rfl := Except.ok.inj (again.symm.trans document₂)
        have drafted₂ := Job.run_writeFile_outcome (w := { w₁ with notices := told₂ })
          proper₁ name (Hints.render v)
        rw [wrote₂, rendered] at drafted₂
        obtain ⟨done, same⟩ := drafted.again_of_ok proper₀ drafted₂
        exact ⟨iff_of_true done rfl, same⟩

/-- It is edited twice, the second time to no effect. -/
theorem update_again_twoSeeds :
    ∃ w' w'' bytes, (update pairCatalogs ["pc"] ⟨"", ["s"]⟩ twoSeedEdit).run
        (seedWorkspace (twoSeedHints ++ "\n")) = (.ok (), w') ∧
      (update pairCatalogs ["pc"] ⟨"", ["s"]⟩ twoSeedEdit).run w' = (.ok (), w'') ∧
      w'.files.readBytes ⟨"", ["s.seed.assethints"]⟩ = .ok bytes ∧
      w''.files.readBytes ⟨"", ["s.seed.assethints"]⟩ = .ok bytes := by
  obtain ⟨w', ran⟩ := exists_run_update_twoSeeds
  obtain ⟨-, text, -, -, content⟩ := exists_written_of_run_update (isProper_seedWorkspace _)
    seedFile_seedWorkspace ran
  have before : ∀ bytes, (seedWorkspace (twoSeedHints ++ "\n")).files.readBytes
      ⟨"", ["s.seed.assethints"]⟩ = .ok bytes → IsWritten pairCatalogs bytes := by
    intro bytes content
    have there : (seedWorkspace (twoSeedHints ++ "\n")).files.readBytes
        ⟨"", ["s.seed.assethints"]⟩ = .ok (Utf8.ofString (twoSeedHints ++ "\n")) := rfl
    obtain rfl := Except.ok.inj (there.symm.trans content)
    exact isWritten_twoSeedHints
  generalize again : (update pairCatalogs ["pc"] ⟨"", ["s"]⟩ twoSeedEdit).run w' = result
  obtain ⟨r', w''⟩ := result
  obtain ⟨ends, same⟩ := update_again isRegular_pairCatalogs isRegular_twoSeedEdit
    (isProper_seedWorkspace _) seedFile_seedWorkspace before ran again
  exact ⟨w', w'', _, ran, by rw [again, ends.2 rfl], content, (same _).2 content⟩

end SeedList

end PackPlan
