import PackPlan.Proofs.Command.SeedList
import PackPlan.Proofs.Files.Rewriting
import PackPlan.Proofs.Hints.Entries

/-!
# What stands in the file of an edited list

After an update the file of a list holds one entry for each id that the edit keeps, in the pack
that it has then. What an edit removes are ids, and not paths: a seed at a path that is to be
removed stays if it has no id, or another than the catalogs find there.

## Main definitions

* `SeedList.IsKept` — an edit keeps an id of a list in a pack
* `SeedList.StaysAt` — an edit leaves a seed at a path

## Main results

* `SeedList.exists_of_run_update` — the file of a list after an update
* `SeedList.update_holdsEntries` — the ids and packs in it, where every record has an id
* `SeedList.update_itemAt_iff` — the paths in it
-/

namespace PackPlan

/-- The name of the hint file of a list is no step up. -/
theorem HintFiles.endsInName_of_seedFile {list file : FilePath}
    (named : seedFile list = .ok file) : FileTree.endsInName file = true := by
  have dotted : list.withExtension seedExtension =
    list.withName (list.stem ++ ".seed.assethints") := rfl
  have extension : ".seed.assethints".length = 16 := rfl
  have long : 2 < (list.stem ++ ".seed.assethints").length := by
    rw [String.length_append]
    omega
  rw [seedFile, dotted, FilePath.withName] at named
  generalize list.stem ++ ".seed.assethints" = name at named long
  split at named
  · cases named
  · split at named
    · cases named
      exact FilePath.endsInName_rename long
    · cases named

namespace SeedList

open Json (Value)

variable {catalogs : CatalogSet} {platforms : List String} {path : String} {id : AssetId}
  {pack : Int} {rs : List Record} {s : Store} {list file : FilePath} {edit : Edit}
  {r k : Record} {w w' : Workspace}

/-! ### The records after an edit -/

theorem isNamed_of_mem_edited (h : Tracking rs s)
    (named : ∀ r ∈ rs, r.identity? = none → r.path ≠ "") :
    ∀ k ∈ (edited catalogs platforms edit s).records, k.isNamed = true := by
  intro k mem
  rcases Store.mem_records.1 mem with ⟨id, found⟩ | ⟨path, found⟩
  · have identity := identity?_of_find?_edited h found
    exact Hints.isNamed_of_hasIdentity (Record.identity?_eq_some.1 identity).1
  · rw [pathOnly_edited] at found
    obtain ⟨-, -, rfl, ⟨r, member, anonymous, same, -⟩, -⟩ :=
      (tracking_extended catalogs platforms edit h).waiting path k found
    have nonempty : k.path ≠ "" := by
      rcases List.mem_append.1 member with before | added
      · exact same ▸ named r before anonymous
      · rw [identity?_of_mem_resolved added] at anonymous
        cases anonymous
    rw [Record.isNamed, decide_eq_true nonempty, Bool.or_true]

/-- After an update the file of the list has the text of the document that is written. -/
theorem exists_written_of_run_update (proper : w.files.IsProper)
    (named : HintFiles.seedFile list = .ok file)
    (ran : (update catalogs platforms list edit).run w = (.ok (), w')) :
    ∃ v text, written catalogs platforms file edit w.files = .ok v ∧ Hints.render v = .ok text ∧
      w'.files.readBytes file = .ok (Utf8.ofString text) := by
  have outcome := run_update_outcome catalogs platforms named edit w
  rw [ran] at outcome
  generalize came : ((.ok (), w') : Except Fault Unit × Workspace) = result at outcome
  cases outcome with
  | stopped fault told reason => cases came
  | wrote v told r w'' document wrote told' =>
    cases came
    have content := Job.run_writeFile_outcome (w := { w with notices := told }) proper
      (HintFiles.endsInName_of_seedFile named) (Hints.render v)
    rw [wrote] at content
    cases content with
    | written _ above text dirs proper' same rendered takes content =>
      exact ⟨v, text, document, rendered, content⟩

/-- After an update the file of the list holds what the edit has made of the records in it. -/
theorem exists_of_run_update (proper : w.files.IsProper)
    (named : HintFiles.seedFile list = .ok file)
    (ran : (update catalogs platforms list edit).run w = (.ok (), w')) :
    ∃ rs s text, (existing catalogs platforms file w.files).run.1 = .ok rs ∧ Tracking rs s ∧
      w'.files.readBytes file = .ok (Utf8.ofString text) ∧
      Hints.IsTextOf (edited catalogs platforms edit s).records text := by
  obtain ⟨v, text, document, rendered, content⟩ := exists_written_of_run_update proper named ran
  obtain ⟨s, stored, document⟩ := exists_of_bind_ok document
  obtain ⟨rs, read, tracking, named'⟩ := exists_existing_of_readStore stored
  exact ⟨rs, s, text, read, tracking, content, Hints.isTextOf_of_render
    (isNamed_of_mem_edited tracking named') (Prod.ext document rfl) rendered⟩

/-! ### A list in a workspace -/

/-- A workspace with the file of a list. -/
def seedWorkspace (text : String) : Workspace where
  files := { nodes := ⟨[(["s.seed.assethints"], .file (Utf8.ofString text))], by simp⟩ }

theorem isProper_seedWorkspace (text : String) : (seedWorkspace text).files.IsProper := by
  constructor
  · intro place mem
    obtain rfl := List.mem_singleton.1 mem
    change ∀ n ∈ ["s.seed.assethints"], '/' ∉ n.toList
    decide
  · intro place mem
    obtain rfl := List.mem_singleton.1 mem
    rfl

theorem seedFile_seedWorkspace :
    HintFiles.seedFile ⟨"", ["s"]⟩ = .ok ⟨"", ["s.seed.assethints"]⟩ := rfl

/-- What is read from the file. -/
theorem existing_seedWorkspace {ms : List (String × Value)} {text : String}
    {parts : List (List Record)} (plain : (Value.obj ms).IsPlain)
    (pretty : (Value.obj ms).pretty = some text)
    (read : (ms.mapM (Hints.readPackItems (HintFiles.resolver catalogs platforms)
      "s.seed.assethints")).run.1 = .ok parts) :
    (existing catalogs platforms ⟨"", ["s.seed.assethints"]⟩
      (seedWorkspace (text ++ "\n")).files).run.1 = .ok parts.flatten := by
  obtain ⟨text', pretty', value, layout⟩ := plain.exists_pretty
  obtain rfl := Option.some_inj.1 (pretty.symm.trans pretty')
  obtain ⟨told, read⟩ : ∃ told, (ms.mapM (Hints.readPackItems
      (HintFiles.resolver catalogs platforms) "s.seed.assethints")).runFrom [] =
      (.ok parts, told) := ⟨_, Prod.ext read rfl⟩
  have document : (Hints.readDocument (HintFiles.resolver catalogs platforms)
      "s.seed.assethints" (text ++ "\n")).runFrom [] = (.ok parts.flatten, told) := by
    unfold Hints.readDocument
    rw [value]
    dsimp only
    rw [Attempt.runFrom_bind_ok read]
    rfl
  have content : (seedWorkspace (text ++ "\n")).files.readBytes ⟨"", ["s.seed.assethints"]⟩ =
      .ok (Utf8.ofString (text ++ "\n")) := rfl
  rw [existing_of_readBytes content, Hints.readBytes_of_layout layout]
  exact congrArg Prod.fst document

/-- An update that leaves small numbers runs to its end. -/
theorem exists_run_update_seedWorkspace {text : String}
    (read : (existing catalogs platforms ⟨"", ["s.seed.assethints"]⟩
      (seedWorkspace text).files).run.1 = .ok rs)
    (added : HintFiles.addAll .empty rs = .ok s)
    (small : ∀ k ∈ (edited catalogs platforms edit s).records, (0 ≤ k.pack ∧ k.pack < unassigned) ∧
      0 ≤ k.id.subId ∧ k.id.subId < unassigned) :
    ∃ w', (update catalogs platforms ⟨"", ["s"]⟩ edit).run (seedWorkspace text) = (.ok (), w') := by
  obtain ⟨v, content, document, rendered⟩ := exists_written edit
    (readStore_of_existing read added)
    (fun k mem => ⟨(small k mem).1.1, isTooLong_of_assigned (small k mem).1.1 (small k mem).1.2⟩)
    fun k mem _ _ => ⟨(small k mem).2.1,
      isTooLong_of_assigned (small k mem).2.1 (small k mem).2.2⟩
  refine exists_run_update_of_written seedFile_seedWorkspace document rendered fun told => ?_
  -- nothing stands in the way of the file
  have dirs : (seedWorkspace text).files.makeDirs (FilePath.parent ⟨"", ["s.seed.assethints"]⟩) =
      .ok (seedWorkspace text).files := by
    rw [FileTree.makeDirs]
    rfl
  exact ⟨_, Job.run_writeFile (w := { seedWorkspace text with notices := told }) dirs rfl rfl rfl⟩

/-- Two seeds with their ids. -/
def twoSeeds : List Record :=
  [{ id := ⟨⟨1, Guid.one_lt⟩, 0⟩, path := "a", pack := 5 },
    { id := ⟨⟨2, Guid.two_lt⟩, 0⟩, path := "b", pack := 7 }]

/-- Their hint file. -/
def twoSeedHints : String :=
  "\x7b
    \"5\": [
        \x7b
            \"guid\": \"\x7b00000000-0000-0000-0000-000000000001\x7d\",
            \"subId\": 0,
            \"assetHint\": \"a\"
        \x7d
    ],
    \"7\": [
        \x7b
            \"guid\": \"\x7b00000000-0000-0000-0000-000000000002\x7d\",
            \"subId\": 0,
            \"assetHint\": \"b\"
        \x7d
    ]
\x7d"

/-- They are in groups of their own. -/
def twoSeedGroups : List (Int × List Record) := twoSeeds.map fun r => (r.pack, [r])

theorem pretty_twoSeeds : (Value.obj (Hints.members twoSeedGroups)).pretty = some twoSeedHints := by
  decide +kernel

theorem existing_twoSeedHints : (existing pairCatalogs ["pc"] ⟨"", ["s.seed.assethints"]⟩
    (seedWorkspace (twoSeedHints ++ "\n")).files).run.1 = .ok twoSeeds := by
  have small : ∀ r ∈ twoSeeds, 0 ≤ r.id.subId ∧ r.id.subId < unassigned := by decide
  have plain : (Value.obj (Hints.members twoSeedGroups)).IsPlain :=
    Hints.isPlain_members (by decide) fun e mem r member _ => by
      obtain ⟨r', there, rfl⟩ := List.mem_map.1 mem
      obtain rfl := List.mem_singleton.1 member
      exact isTooLong_of_assigned (small r there).1 (small r there).2
  have read : ((Hints.members twoSeedGroups).mapM
      (Hints.readPackItems (HintFiles.resolver pairCatalogs ["pc"]) "s.seed.assethints")).run.1 =
      .ok (twoSeeds.map fun r => [r]) := by decide +kernel
  exact existing_seedWorkspace plain pretty_twoSeeds read

/-- One of the seeds comes again in a smaller pack, and a third pack overrides it; the other is to
be removed. -/
def twoSeedEdit : Edit := { add := [⟨"a", 3⟩], remove := ["B"], override := 6 }

theorem exists_run_update_twoSeeds :
    ∃ w', (update pairCatalogs ["pc"] ⟨"", ["s"]⟩ twoSeedEdit).run
      (seedWorkspace (twoSeedHints ++ "\n")) = (.ok (), w') :=
  exists_run_update_seedWorkspace
    (s := twoSeeds.foldl (fun s r => (s.addIdentified r).1) .empty) existing_twoSeedHints rfl
    (by decide +kernel)

/-! ### Lists in which every record has an id -/

variable (catalogs platforms) in
/-- An edit keeps an id in a pack. -/
structure IsKept (edit : Edit) (rs : List Record) (id : AssetId) (pack : Int) : Prop where
  /-- The id is in the list, or that of a seed that is added. -/
  occurs : Occurs rs id ∨ ∃ seed ∈ edit.add, catalogs.idAt platforms seed.path = id
  /-- It is not that of a path to be removed. -/
  spared : ∀ path ∈ edit.remove, catalogs.idAt platforms (AssetPath.normalize path) ≠ id
  /-- The pack is the overriding one, if there is one and a seed is added for the id, and else the
  least in which the list or the seeds have it. -/
  given : if edit.override ≠ unassigned ∧
      ∃ seed ∈ edit.add, catalogs.idAt platforms seed.path = id then pack = edit.override
    else IsLeast (packsOfId rs id ∪
      {p | ∃ seed ∈ edit.add, catalogs.idAt platforms seed.path = id ∧ seed.pack = p}) pack
  /-- It is not that of the unassigned. -/
  assigned : pack ≠ unassigned

theorem mem_removed : id ∈ removed catalogs platforms edit.remove ↔
    ∃ path ∈ edit.remove, catalogs.idAt platforms (AssetPath.normalize path) = id :=
  List.mem_map

section Resolved

variable {seeds : List Seed} (valid : id.isValid = true)
include valid

theorem mem_ids_resolved : id ∈ (resolved catalogs platforms seeds).map Record.id ↔
    ∃ seed ∈ seeds, catalogs.idAt platforms seed.path = id := by
  rw [List.mem_map]
  constructor
  · rintro ⟨r, mem, rfl⟩
    obtain ⟨seed, there, -, rfl⟩ := mem_resolved.1 mem
    exact ⟨seed, there, rfl⟩
  · rintro ⟨seed, there, rfl⟩
    exact ⟨_, mem_resolved.2 ⟨seed, there, valid, rfl⟩, rfl⟩

theorem occurs_append_resolved_iff : Occurs (rs ++ resolved catalogs platforms seeds) id ↔
    Occurs rs id ∨ ∃ seed ∈ seeds, catalogs.idAt platforms seed.path = id := by
  rw [← mem_ids_resolved valid, List.mem_map]
  simp only [Occurs, List.mem_append, or_and_right, exists_or]
  refine or_congr_right (exists_congr fun r => and_congr_right fun mem => ?_)
  rw [identity?_of_mem_resolved mem, Option.some_inj]

theorem packsOfId_append_resolved : packsOfId (rs ++ resolved catalogs platforms seeds) id =
    packsOfId rs id ∪
      {p | ∃ seed ∈ seeds, catalogs.idAt platforms seed.path = id ∧ seed.pack = p} := by
  ext p
  constructor
  · rintro ⟨r, mem, identity, rfl⟩
    rcases List.mem_append.1 mem with before | added
    · exact .inl ⟨r, before, identity, rfl⟩
    · obtain ⟨seed, there, -, rfl⟩ := mem_resolved.1 added
      exact .inr ⟨seed, there, (Record.identity?_eq_some.1 identity).2, rfl⟩
  · rintro (⟨r, mem, identity, rfl⟩ | ⟨seed, there, rfl, rfl⟩)
    · exact ⟨r, List.mem_append_left _ mem, identity, rfl⟩
    · have mem : resolvedSeed catalogs platforms seed ∈ resolved catalogs platforms seeds :=
        mem_resolved.2 ⟨seed, there, valid, rfl⟩
      exact ⟨_, List.mem_append_right _ mem, identity?_of_mem_resolved mem, rfl⟩

end Resolved

section Identified

variable (identified : ∀ r ∈ rs, r.hasIdentity = true)
include identified

theorem identity?_of_mem_append {seeds : List Seed} (r : Record)
    (mem : r ∈ rs ++ resolved catalogs platforms seeds) : r.identity? = some r.id := by
  rcases List.mem_append.1 mem with before | added
  · exact Record.identity?_eq_some.2 ⟨identified r before, rfl⟩
  · exact identity?_of_mem_resolved added

/-- No packs go to their ids by a path. -/
theorem absorbed_append_resolved {seeds : List Seed} :
    absorbed (rs ++ resolved catalogs platforms seeds) id = ∅ := by
  refine Set.eq_empty_of_forall_notMem ?_
  rintro p ⟨path, -, given⟩
  rwa [packsAtPath_of_identified (identity?_of_mem_append identified)] at given

/-- Where every record has an id, an edit leaves the ids that it keeps in the packs in which it
keeps them. -/
theorem exists_leaves_iff (valid : id.isValid = true) :
    ((∃ path, Leaves catalogs platforms edit rs id path pack) ∧ pack ≠ unassigned) ↔
      IsKept catalogs platforms edit rs id pack := by
  have nothing : absorbed (rs ++ resolved catalogs platforms edit.add) id = ∅ :=
    absorbed_append_resolved identified
  constructor
  · rintro ⟨⟨path, occurs, spared, -, given⟩, assigned⟩
    rw [nothing, Set.union_empty, packsOfId_append_resolved valid] at given
    refine ⟨(occurs_append_resolved_iff valid).1 occurs, ?_, ?_, assigned⟩
    · intro path mem same
      exact spared (mem_removed.2 ⟨path, mem, same⟩)
    · simpa only [mem_ids_resolved valid] using given
  · rintro ⟨occurs, spared, given, assigned⟩
    refine ⟨⟨_, (occurs_append_resolved_iff valid).2 occurs, ?_, rfl, ?_⟩, assigned⟩
    · intro mem
      obtain ⟨path, there, same⟩ := mem_removed.1 mem
      exact spared path there same
    · rw [nothing, Set.union_empty, packsOfId_append_resolved valid]
      simpa only [mem_ids_resolved valid] using given

variable (h : Tracking rs s)
include h

theorem pathOnly_edited_of_identified :
    (edited catalogs platforms edit s).pathOnly.get? path = none := by
  rw [pathOnly_edited, Option.eq_none_iff_forall_ne_some]
  intro k found
  obtain ⟨-, -, -, given, -⟩ := (tracking_extended catalogs platforms edit h).waiting path k found
  rwa [packsAtPath_of_identified (identity?_of_mem_append identified)] at given

theorem mem_records_edited : k ∈ (edited catalogs platforms edit s).records ↔
    (edited catalogs platforms edit s).find? k.id = some k := by
  rw [Store.mem_records]
  constructor
  · rintro (⟨id, found⟩ | ⟨path, found⟩)
    · have identity := identity?_of_find?_edited h found
      rwa [(Record.identity?_eq_some.1 identity).2]
    · rw [pathOnly_edited_of_identified identified h] at found
      cases found
  · intro found
    exact .inl ⟨k.id, found⟩

theorem hasIdentity_of_mem_edited (k : Record)
    (mem : k ∈ (edited catalogs platforms edit s).records) : k.hasIdentity = true := by
  have found := (mem_records_edited identified h).1 mem
  exact (Record.identity?_eq_some.1 (identity?_of_find?_edited h found)).1

theorem nodup_ids_edited : ((edited catalogs platforms edit s).records.map Record.id).Nodup := by
  have waiting : (edited catalogs platforms edit s).pathOnly.values = [] := by
    refine List.eq_nil_iff_forall_not_mem.2 fun k mem => ?_
    obtain ⟨path, found⟩ := Table.mem_values.1 mem
    rw [pathOnly_edited_of_identified identified h] at found
    cases found
  have keys := Table.map_values_eq_keys
    (t := (edited catalogs platforms edit s).identified) (f := Record.id) fun id k found =>
      (Record.identity?_eq_some.1 (identity?_of_find?_edited h found)).2
  rw [Store.records, waiting, List.append_nil, keys]
  exact Table.nodup _

/-- The records of a list after an edit are those that the edit keeps. -/
theorem exists_mem_edited_iff (valid : id.isValid = true) :
    (∃ k ∈ (edited catalogs platforms edit s).records,
        k.pack ≠ unassigned ∧ k.id = id ∧ k.pack = pack) ↔
      IsKept catalogs platforms edit rs id pack := by
  rw [← exists_leaves_iff identified valid]
  simp only [← exists_find?_edited_iff h]
  constructor
  · rintro ⟨k, mem, assigned, rfl, rfl⟩
    exact ⟨⟨k.path, k, (mem_records_edited identified h).1 mem, rfl, rfl⟩, assigned⟩
  · rintro ⟨⟨path, k, found, -, rfl⟩, assigned⟩
    have same := (Record.identity?_eq_some.1 (identity?_of_find?_edited h found)).2
    exact ⟨k, (mem_records_edited identified h).2 (same.symm ▸ found), assigned, same, rfl⟩

end Identified

/-- Where every record of a list has an id, an update that runs to its end leaves a file with one
entry for each id that the edit keeps, in the pack in which it keeps it, and no others. -/
theorem update_holdsEntries (proper : w.files.IsProper)
    (named : HintFiles.seedFile list = .ok file)
    (read : (existing catalogs platforms file w.files).run.1 = .ok rs)
    (identified : ∀ r ∈ rs, r.hasIdentity = true)
    (ran : (update catalogs platforms list edit).run w = (.ok (), w')) :
    ∃ text ms, w'.files.readBytes file = .ok (Utf8.ofString text) ∧
      Json.read text = .ok (.obj ms) ∧
      Hints.HoldsEntries ms (IsKept catalogs platforms edit rs) := by
  obtain ⟨rs', s, text, read', tracking, content, isText⟩ := exists_of_run_update proper named ran
  obtain rfl := Except.ok.inj (read.symm.trans read')
  obtain ⟨ms, value, held⟩ := isText.exists_items
  have holds := Hints.holdsEntries_of_perm (hasIdentity_of_mem_edited identified tracking)
    (nodup_ids_edited identified tracking) held
  refine ⟨text, ms, content, value, holds.once, fun id pack valid => ?_, holds.identified⟩
  rw [holds.entry id pack valid]
  exact exists_mem_edited_iff identified tracking valid

/-- The first has an entry in the overriding pack, and the other none. -/
theorem update_holdsEntries_twoSeeds :
    (∀ r ∈ twoSeeds, r.hasIdentity = true) ∧
    ∃ w' text ms, (update pairCatalogs ["pc"] ⟨"", ["s"]⟩ twoSeedEdit).run
        (seedWorkspace (twoSeedHints ++ "\n")) = (.ok (), w') ∧
      w'.files.readBytes ⟨"", ["s.seed.assethints"]⟩ = .ok (Utf8.ofString text) ∧
      Json.read text = .ok (.obj ms) ∧
      (∃ item ∈ Hints.items ms, Hints.IsItemOf ⟨⟨1, Guid.one_lt⟩, 0⟩ 6 item) ∧
      ∀ item ∈ Hints.items ms, ∀ pack, ¬ Hints.IsItemOf ⟨⟨2, Guid.two_lt⟩, 0⟩ pack item := by
  have identified : ∀ r ∈ twoSeeds, r.hasIdentity = true := by decide
  obtain ⟨w', ran⟩ := exists_run_update_twoSeeds
  obtain ⟨text, ms, content, value, holds⟩ := update_holdsEntries (isProper_seedWorkspace _)
    seedFile_seedWorkspace existing_twoSeedHints identified ran
  refine ⟨identified, w', text, ms, ran, content, value, ?_, ?_⟩
  · rw [holds.entry _ _ (by decide)]
    refine ⟨.inr ⟨⟨"a", 3⟩, by decide, by decide⟩, by decide, ?_, by decide⟩
    rw [if_pos ⟨by decide, ⟨"a", 3⟩, by decide, by decide⟩]
    rfl
  · intro item mem pack isItem
    have kept := (holds.entry _ pack (by decide)).1 ⟨item, mem, isItem⟩
    exact kept.spared "B" (by decide) (by decide)

/-! ### Seeds at a path -/

variable (catalogs platforms) in
/-- A seed stays at a path. -/
inductive StaysAt (edit : Edit) (rs : List Record) (path : String) : Prop
  /-- The edit leaves an id at the path. -/
  | identified (id : AssetId) (pack : Int) (leaves : Leaves catalogs platforms edit rs id path pack)
      (assigned : pack ≠ unassigned)
  /-- The list has the path without an id, and no id takes it. -/
  | waiting (pack : Int) (assigned : pack ≠ unassigned)
      (unclaimed : claimant? (rs ++ resolved catalogs platforms edit.add) path = none)
      (least : IsLeast (packsAtPath rs path) pack)

theorem packsAtPath_append_resolved {seeds : List Seed} :
    packsAtPath (rs ++ resolved catalogs platforms seeds) path = packsAtPath rs path := by
  ext p
  constructor
  · rintro ⟨r, mem, anonymous, same, rfl⟩
    rcases List.mem_append.1 mem with before | added
    · exact ⟨r, before, anonymous, same, rfl⟩
    · rw [identity?_of_mem_resolved added] at anonymous
      cases anonymous
  · rintro ⟨r, mem, rest⟩
    exact ⟨r, List.mem_append_left _ mem, rest⟩

/-- The records of a list after an edit stand at the paths at which seeds stay. -/
theorem exists_mem_edited_at_iff (h : Tracking rs s) :
    (∃ k ∈ (edited catalogs platforms edit s).records, k.pack ≠ unassigned ∧ k.path = path) ↔
      StaysAt catalogs platforms edit rs path := by
  have tracking := tracking_extended catalogs platforms edit h
  constructor
  · rintro ⟨k, mem, assigned, rfl⟩
    rcases Store.mem_records.1 mem with ⟨id, found⟩ | ⟨path, found⟩
    · exact .identified id k.pack ((exists_find?_edited_iff h).1 ⟨k, found, rfl, rfl⟩) assigned
    · rw [pathOnly_edited] at found
      obtain ⟨unclaimed, -, rfl, least⟩ := tracking.waiting path k found
      rw [packsAtPath_append_resolved] at least
      exact .waiting k.pack assigned unclaimed least
  · rintro (⟨id, pack, leaves, assigned⟩ | ⟨pack, assigned, unclaimed, least⟩)
    · obtain ⟨k, found, rfl, rfl⟩ := (exists_find?_edited_iff h).2 leaves
      exact ⟨k, Store.mem_records.2 (.inl ⟨id, found⟩), assigned, rfl⟩
    · cases found : (extended catalogs platforms edit s).pathOnly.get? path with
      | none =>
        have nothing := tracking.idle path found unclaimed
        rw [packsAtPath_append_resolved] at nothing
        rw [nothing] at least
        exact absurd least.1 (Set.notMem_empty _)
      | some k =>
        obtain ⟨-, -, same, least'⟩ := tracking.waiting path k found
        rw [packsAtPath_append_resolved] at least'
        obtain rfl := least.unique least'
        refine ⟨k, Store.mem_records.2 (.inr ⟨path, ?_⟩), assigned, same⟩
        rw [pathOnly_edited, found]

/-- After an update that runs to its end no entry of the file has an id that the catalogs find at
a path to be removed. The paths of its entries are those at which seeds stay. -/
theorem update_itemAt_iff (proper : w.files.IsProper)
    (named : HintFiles.seedFile list = .ok file)
    (read : (existing catalogs platforms file w.files).run.1 = .ok rs)
    (ran : (update catalogs platforms list edit).run w = (.ok (), w')) :
    ∃ text ms, w'.files.readBytes file = .ok (Utf8.ofString text) ∧
      Json.read text = .ok (.obj ms) ∧
      (∀ path ∈ edit.remove, ∀ item ∈ Hints.items ms, ∀ pack,
        ¬ Hints.IsItemOf (catalogs.idAt platforms (AssetPath.normalize path)) pack item) ∧
      ∀ path, path ≠ "" → ((∃ item ∈ Hints.items ms, Hints.IsItemAt path item) ↔
        StaysAt catalogs platforms edit rs path) := by
  obtain ⟨rs', s, text, read', tracking, content, isText⟩ := exists_of_run_update proper named ran
  obtain rfl := Except.ok.inj (read.symm.trans read')
  obtain ⟨ms, value, held⟩ := isText.exists_items
  refine ⟨text, ms, content, value, ?gone, ?stays⟩
  case gone =>
    intro path there item mem pack isItem
    obtain ⟨k, stored, rfl⟩ := List.mem_map.1 (held.mem_iff.1 mem)
    obtain ⟨identified, same, -⟩ := Hints.isItemOf_itemOf.1 isItem
    rcases Store.mem_records.1 (Hints.mem_stored.1 stored).1 with ⟨id, found⟩ | ⟨path, found⟩
    · have own := (Record.identity?_eq_some.1 (identity?_of_find?_edited tracking found)).2
      exact (find?_edited_eq_some.1 found).1 (mem_removed.2 ⟨path, there, same.symm.trans own⟩)
    · rw [pathOnly_edited] at found
      obtain ⟨-, anonymous, -⟩ :=
        (tracking_extended catalogs platforms edit tracking).waiting path k found
      rw [Record.identity?_eq_none.1 anonymous] at identified
      cases identified
  case stays =>
    intro path nonempty
    rw [Hints.exists_isItemAt_iff held, and_iff_right nonempty,
      exists_mem_edited_at_iff tracking]

/-- Of their paths the first is still there, and the other is not. -/
theorem update_itemAt_twoSeeds :
    ∃ w' text ms, (update pairCatalogs ["pc"] ⟨"", ["s"]⟩ twoSeedEdit).run
        (seedWorkspace (twoSeedHints ++ "\n")) = (.ok (), w') ∧
      w'.files.readBytes ⟨"", ["s.seed.assethints"]⟩ = .ok (Utf8.ofString text) ∧
      Json.read text = .ok (.obj ms) ∧
      (∃ item ∈ Hints.items ms, Hints.IsItemAt "a" item) ∧
      ¬ ∃ item ∈ Hints.items ms, Hints.IsItemAt "b" item := by
  obtain ⟨w', ran⟩ := exists_run_update_twoSeeds
  obtain ⟨text, ms, content, value, -, stays⟩ := update_itemAt_iff (isProper_seedWorkspace _)
    seedFile_seedWorkspace existing_twoSeedHints ran
  refine ⟨w', text, ms, ran, content, value, ?_, ?_⟩
  · rw [stays "a" (by decide)]
    refine .identified ⟨⟨1, Guid.one_lt⟩, 0⟩ 6 ⟨?_, by decide, by decide, ?_⟩ (by decide)
    · exact ⟨_, List.mem_cons_self, by decide⟩
    · rw [if_pos (by decide)]
      rfl
  · rw [stays "b" (by decide)]
    rintro (⟨id, pack, leaves, -⟩ | ⟨pack, -, -, least⟩)
    · obtain ⟨r, mem, identity⟩ := leaves.occurs
      obtain ⟨-, rfl⟩ := Record.identity?_eq_some.1 identity
      -- of the two ids one goes, and the other is at the other path
      have goes : ∀ r ∈ twoSeeds ++ resolved pairCatalogs ["pc"] twoSeedEdit.add,
          "b" = (firstPath? (twoSeeds ++ resolved pairCatalogs ["pc"] twoSeedEdit.add)
              r.id).getD "" →
            r.id ∈ removed pairCatalogs ["pc"] twoSeedEdit.remove := by decide
      exact leaves.spared (goes r mem leaves.path)
    · obtain ⟨r, mem, anonymous, -⟩ := least.1
      revert r
      decide

/-- A hint file with a seed that has no id. -/
def pathOnlySeed : String :=
  "\x7b
    \"0\": [
        \x7b
            \"assetHint\": \"p\"
        \x7d
    ]
\x7d"

theorem existing_pathOnlySeed : (existing pairCatalogs ["pc"] ⟨"", ["s.seed.assethints"]⟩
    (seedWorkspace (pathOnlySeed ++ "\n")).files).run.1 = .ok [{ path := "p", pack := 0 }] := by
  have plain : (Value.obj (Hints.members [(0, [{ path := "p", pack := 0 }])])).IsPlain :=
    Hints.isPlain_members (by decide) (by decide)
  have pretty : (Value.obj (Hints.members [(0, [{ path := "p", pack := 0 }])])).pretty =
      some pathOnlySeed := by decide +kernel
  have read : ((Hints.members [(0, [{ path := "p", pack := 0 }])]).mapM
      (Hints.readPackItems (HintFiles.resolver pairCatalogs ["pc"]) "s.seed.assethints")).run.1 =
      .ok [[{ path := "p", pack := 0 }]] := by decide +kernel
  exact existing_seedWorkspace plain pretty read

theorem exists_run_update_pathOnlySeed :
    ∃ w', (update pairCatalogs ["pc"] ⟨"", ["s"]⟩ { remove := ["p"] }).run
      (seedWorkspace (pathOnlySeed ++ "\n")) = (.ok (), w') :=
  exists_run_update_seedWorkspace (s := (Store.empty.addPathOnly { path := "p", pack := 0 }).1)
    existing_pathOnlySeed rfl (by decide +kernel)

/-- The seed is to be removed, and stays. -/
theorem exists_isItemAt_pathOnlySeed :
    ∃ w' text ms, (update pairCatalogs ["pc"] ⟨"", ["s"]⟩ { remove := ["p"] }).run
        (seedWorkspace (pathOnlySeed ++ "\n")) = (.ok (), w') ∧
      w'.files.readBytes ⟨"", ["s.seed.assethints"]⟩ = .ok (Utf8.ofString text) ∧
      Json.read text = .ok (.obj ms) ∧
      ∃ item ∈ Hints.items ms, Hints.IsItemAt (AssetPath.normalize "p") item := by
  obtain ⟨w', ran⟩ := exists_run_update_pathOnlySeed
  obtain ⟨rs, s, text, read, tracking, content, isText⟩ := exists_of_run_update
    (isProper_seedWorkspace _) seedFile_seedWorkspace ran
  obtain rfl := Except.ok.inj (existing_pathOnlySeed.symm.trans read)
  obtain ⟨ms, value, held⟩ := isText.exists_items
  refine ⟨w', text, ms, ran, content, value, ?_⟩
  rw [Hints.exists_isItemAt_iff held, exists_mem_edited_at_iff tracking]
  refine ⟨by decide, .waiting 0 (by decide) (by decide) ⟨?_, ?_⟩⟩
  · exact ⟨_, List.mem_singleton_self _, by decide, by decide, rfl⟩
  · rintro p ⟨r, mem, -, -, rfl⟩
    rw [List.mem_singleton.1 mem]

end SeedList

end PackPlan
