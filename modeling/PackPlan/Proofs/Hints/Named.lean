import PackPlan.Proofs.Hints.Entries
import PackPlan.Proofs.Results
import PackPlan.Proofs.Store.Reordering

/-!
# Entries that name an asset

An entry of a hint file may have all that it needs and still say nothing of an asset: its path may
come to nothing once it is in normal form, and its guid may be blank, or the nil guid. It is read
all the same, as a record with neither an id nor a path, and no such record can be stored. So
records from any number of hint files can be combined exactly if each entry of theirs names an
asset.

## Main definitions

* `Hints.NamesId`, `Hints.NamesPath`, `Hints.NamesAsset` — what an entry names
* `Hints.entriesOf` — the entries of the text of a hint file
* `Hints.Accepts` — a text is read as records, without a resolver
* `Hints.IsReadAs` — a record is what an entry says

## Main results

* `Hints.isNamed_iff_namesAsset` — what is read of an entry has an id or a path if it names an asset
* `Hints.combine?_isSome_iff_namesAsset` — which hint files can be combined
* `Hints.combine?_emptyHint` — one that is accepted, but cannot be combined
-/

namespace PackPlan.Hints

open Json (Value)
open Attempt

variable {records : List Record} {r : Record} {told told' : List Notice} {text path key : String}
  {fields : List (String × Value)} {id? : Option AssetId} {v : Value} {item : String × Value}

/-- An entry has a guid other than the nil guid, and a sub id. -/
def NamesId (v : Value) : Prop :=
  ∃ guid spelling g, field? guidKey v = some guid ∧ (field? subIdKey v).isSome = true ∧
    guid.asText = some spelling ∧ Guid.read? spelling = some g ∧ g ≠ .nil

/-- An entry has a path of which something is left in normal form. -/
def NamesPath (v : Value) : Prop :=
  ∃ hint text, field? pathKey v = some hint ∧ hint.asText = some text ∧
    AssetPath.normalize text ≠ ""

/-- An entry says something of an asset. -/
def NamesAsset (v : Value) : Prop := NamesId v ∨ NamesPath v

/-- The entries of the text of a hint file. -/
def entriesOf (text : String) : List (String × Value) :=
  match Json.read text with
  | .ok (.obj ms) => items ms
  | _ => []

/-- A text is read as records, without a resolver. -/
def Accepts (text : String) (records : List Record) : Prop :=
  ∃ path told, (readDocument .none path text).run = (.ok records, told)

/-- A record is what an entry says, and nothing is added to it. -/
def IsReadAs (item : String × Value) (r : Record) : Prop :=
  ∃ fields id?, item.2 = .obj fields ∧ readFields fields = .ok (r.path, id?) ∧
    r.id = id?.getD .none

/-! ### Fields -/

/-- What an entry says of the path, in normal form. -/
def readPathField (fields : List (String × Value)) : Except EntryFault String :=
  match Json.member? fields pathKey with
  | some v => (asText v).map AssetPath.normalize
  | none => pure ""

/-- The id that an entry gives. -/
def readIdFields (fields : List (String × Value)) : Except EntryFault (Option AssetId) :=
  match Json.member? fields guidKey, Json.member? fields subIdKey with
  | some guid, some subId => do
    let guid ← asText guid
    let subId ← readSubId subId
    some <$> (AssetId.make guid subId).mapError .assetId
  | _, _ => pure none

/-- The fields of the path and of the id are read one after the other. -/
theorem readFields_eq (fields : List (String × Value)) : readFields fields =
    if ((Json.member? fields guidKey).isNone ∨ (Json.member? fields subIdKey).isNone) ∧
        (Json.member? fields pathKey).isNone then throw .incomplete
    else do
      let path ← readPathField fields
      let id? ← readIdFields fields
      return (path, id?) := by
  unfold readFields readPathField readIdFields
  dsimp only
  split
  · rfl
  · -- whichever of the fields are there
    cases Json.member? fields pathKey <;> cases Json.member? fields guidKey <;>
      cases Json.member? fields subIdKey <;> simp

theorem asText_eq_ok {s : String} (h : asText v = .ok s) : v.asText = some s := by
  rw [asText] at h
  split at h
  · next s' found => exact found.trans (congrArg some (Except.ok.inj h))
  · cases h

theorem guid_of_make {spelling : String} {subId : Int} {id : AssetId}
    (h : AssetId.make spelling subId = .ok id) : Guid.read? spelling = some id.guid := by
  rw [AssetId.make] at h
  split at h
  · next g found =>
    obtain rfl := Except.ok.inj h
    exact found
  · cases h

theorem isValid_none : AssetId.none.isValid = false := by decide

/-- Something is left of the path of an entry exactly if the entry names one. -/
theorem ne_empty_iff_namesPath (h : readPathField fields = .ok path) :
    path ≠ "" ↔ NamesPath (.obj fields) := by
  rw [readPathField] at h
  split at h
  · next hint there =>
    cases said : asText hint with
    | error fault => rw [said] at h; cases h
    | ok text =>
      rw [said] at h
      obtain rfl : AssetPath.normalize text = path := Except.ok.inj h
      constructor
      · intro nonempty
        exact ⟨hint, text, there, asText_eq_ok said, nonempty⟩
      · rintro ⟨hint', text', there', said', nonempty⟩
        obtain rfl := Option.some_inj.1 (there.symm.trans there')
        obtain rfl := Option.some_inj.1 ((asText_eq_ok said).symm.trans said')
        exact nonempty
  · next lacks =>
    obtain rfl := Except.ok.inj h
    refine iff_of_false (fun nonempty => nonempty rfl) ?_
    rintro ⟨hint, text, there, -⟩
    exact absurd (lacks.symm.trans there) (by simp)

/-- The id that an entry gives is that of an asset exactly if the entry names one. -/
theorem isValid_iff_namesId (h : readIdFields fields = .ok id?) :
    (id?.getD .none).isValid = true ↔ NamesId (.obj fields) := by
  rw [readIdFields] at h
  split at h
  · next guid subId there there' =>
    obtain ⟨spelling, text, h⟩ := exists_of_bind_ok h
    obtain ⟨n, -, h⟩ := exists_of_bind_ok h
    cases made : AssetId.make spelling n with
    | error cause => rw [made] at h; cases h
    | ok id =>
      rw [made] at h
      obtain rfl : some id = id? := Except.ok.inj h
      -- only the guid tells whether an id is that of an asset
      have spelled := guid_of_make made
      rw [Option.getD_some, AssetId.isValid, decide_eq_true_iff]
      constructor
      · intro valid
        refine ⟨guid, spelling, id.guid, there, ?_, asText_eq_ok text, spelled, valid⟩
        exact Option.isSome_iff_exists.2 ⟨subId, there'⟩
      · rintro ⟨guid', spelling', g, same, -, text', spelled', valid⟩
        obtain rfl := Option.some_inj.1 (there.symm.trans same)
        obtain rfl := Option.some_inj.1 ((asText_eq_ok text).symm.trans text')
        obtain rfl := Option.some_inj.1 (spelled.symm.trans spelled')
        exact valid
  · next lacks =>
    obtain rfl := Except.ok.inj h
    rw [Option.getD_none, isValid_none]
    refine iff_of_false Bool.false_ne_true ?_
    rintro ⟨guid, -, -, there, subId, -⟩
    obtain ⟨subId', there'⟩ := Option.isSome_iff_exists.1 subId
    exact lacks guid subId' there there'

/-- What is read of an entry has an id or a path exactly if the entry names an asset. -/
theorem isNamed_iff_namesAsset (read : IsReadAs item r) :
    r.isNamed = true ↔ NamesAsset item.2 := by
  obtain ⟨fields, id?, object, read, same⟩ := read
  rw [readFields_eq] at read
  split at read
  · cases read
  · obtain ⟨path, hinted, read⟩ := exists_of_bind_ok read
    obtain ⟨id?', identified, read⟩ := exists_of_bind_ok read
    obtain ⟨rfl, rfl⟩ := Prod.mk.inj (Except.ok.inj read)
    rw [object, NamesAsset, ← ne_empty_iff_namesPath hinted, ← isValid_iff_namesId identified,
      Record.isNamed, Record.hasIdentity, same, Bool.or_eq_true, decide_eq_true_eq]

/-! ### Documents -/

theorem isReadAs_of_readItem {pack : Int} (read : (readItem .none path key pack v).runFrom told =
    (.ok r, told')) : IsReadAs (key, v) r := by
  unfold readItem at read
  split at read
  · next fields =>
    split at read
    · cases read
    · next assetPath id? said =>
      rw [complete_none] at read
      obtain rfl := Except.ok.inj (Prod.mk.inj read).1
      exact ⟨fields, id?, rfl, said, rfl⟩
  · cases read

/-- The records of a pack are what its entries say. -/
theorem forall₂_of_readPackItems {m : String × Value}
    (read : (readPackItems .none path m).runFrom told = (.ok records, told')) :
    List.Forall₂ IsReadAs (items [m]) records := by
  unfold readPackItems at read
  dsimp only at read
  split at read
  · cases read
  · split at read
    · next entries array =>
      have whole : items [m] = entries.map (m.1, ·) := by
        rw [items, List.flatMap_singleton, array]
      rw [whole, List.forall₂_map_left_iff]
      refine (forall₂_of_mapM read).imp ?_
      rintro v r ⟨before, after, item⟩
      exact isReadAs_of_readItem item
    · cases read

/-- The records of a hint file are what its entries say, in the same order. -/
theorem forall₂_of_accepts (accepted : Accepts text records) :
    List.Forall₂ IsReadAs (entriesOf text) records := by
  obtain ⟨path, told, read⟩ := accepted
  have whole := read
  unfold readDocument at whole
  rw [entriesOf]
  split at whole
  · cases whole
  · cases whole
  · next ms object =>
    obtain ⟨parts, after, rfl, each⟩ := mapM_of_readDocument object read
    have packs : List.Forall₂ (fun m part => List.Forall₂ IsReadAs (items [m]) part) ms parts := by
      refine (forall₂_of_mapM each).imp ?_
      rintro m part ⟨before, after, pack⟩
      exact forall₂_of_readPackItems pack
    -- entries and records are both gathered pack by pack
    have singly : items ms = (ms.map fun m => items [m]).flatten := by
      rw [← List.flatMap_def, items]
      exact List.flatMap_congr fun m _ => (List.flatMap_singleton _ _).symm
    rw [object]
    dsimp only
    rw [singly]
    exact List.rel_flatten (List.forall₂_map_left_iff.2 packs)
  · cases whole

/-! ### Several files -/

theorem forall_mem_iff_of_forall₂ {α β : Type} {p : α → Prop} {q : β → Prop} {as : List α}
    {bs : List β} (h : List.Forall₂ (fun a b => q b ↔ p a) as bs) :
    (∀ b ∈ bs, q b) ↔ ∀ a ∈ as, p a := by
  induction h with
  | nil => simp
  | cons here _ ih => rw [List.forall_mem_cons, List.forall_mem_cons, here, ih]

/-- Records can be combined exactly if each has an id or a path. -/
theorem combine?_isSome_iff {sources : List (List Record)} :
    (Store.combine? sources).isSome = true ↔ ∀ r ∈ sources.flatten, r.isNamed = true := by
  have refused : Store.combine? sources = none ↔ _ := combine?_eq_none_iff
  rw [← Option.not_isSome_iff_eq_none] at refused
  rw [← not_iff_not, refused, not_forall]
  refine exists_congr fun r => ?_
  rw [Classical.not_imp, Record.isNamed, Record.identity?_eq_none]
  cases r.hasIdentity <;> simp

/-- Whatever hint files are accepted, each record of theirs has an id or a path exactly if its
entry names an asset, and the records can be combined exactly if all entries do. -/
theorem combine?_isSome_iff_namesAsset {files : List (String × List Record)}
    (accepted : ∀ file ∈ files, Accepts file.1 file.2) :
    (∀ file ∈ files, List.Forall₂
      (fun item r => (r.hasIdentity = true ∨ r.path ≠ "") ↔ NamesAsset item.2)
      (entriesOf file.1) file.2) ∧
    ((Store.combine? (files.map Prod.snd)).isSome = true ↔
      ∀ file ∈ files, ∀ item ∈ entriesOf file.1, NamesAsset item.2) := by
  have named : ∀ file ∈ files, List.Forall₂ (fun item r => r.isNamed = true ↔ NamesAsset item.2)
      (entriesOf file.1) file.2 := fun file mem =>
    (forall₂_of_accepts (accepted file mem)).imp fun _ _ => isNamed_iff_namesAsset
  constructor
  · intro file mem
    refine (named file mem).imp fun item r same => ?_
    rw [← same, Record.isNamed, Bool.or_eq_true, decide_eq_true_eq]
  · rw [combine?_isSome_iff, List.forall_mem_flatten, List.forall_mem_map]
    exact forall₂_congr fun file mem => forall_mem_iff_of_forall₂ (named file mem)

/-! ### Entries with a path only -/

/-- A hint file with entries that give a path each. -/
def onlyPaths (paths : List String) : Value :=
  .obj [("0", .arr (paths.map fun path => .obj [(pathKey, .str path)]))]

theorem isPlain_onlyPaths (paths : List String) : (onlyPaths paths).IsPlain := by
  refine .obj (by simp) fun m mem => ?_
  obtain rfl := List.mem_singleton.1 mem
  refine .arr fun v mem => ?_
  obtain ⟨path, -, rfl⟩ := List.mem_map.1 mem
  refine .obj (by simp) fun m mem => ?_
  obtain rfl := List.mem_singleton.1 mem
  exact .str _

/-- The first path names an asset, and of the second nothing is left in normal form. -/
def rootHints : String :=
  "\x7b
    \"0\": [
        \x7b
            \"assetHint\": \"A\\\\b\"
        \x7d,
        \x7b
            \"assetHint\": \"/\"
        \x7d
    ]
\x7d"

theorem combine?_isSome_iff_namesAsset_rootHints :
    ∃ records, Accepts (rootHints ++ "\n") records ∧
      (∀ file ∈ [(rootHints ++ "\n", records)], List.Forall₂
        (fun item r => (r.hasIdentity = true ∨ r.path ≠ "") ↔ NamesAsset item.2)
        (entriesOf file.1) file.2) ∧
      ((Store.combine? [records]).isSome = true ↔
        ∀ file ∈ [(rootHints ++ "\n", records)], ∀ item ∈ entriesOf file.1, NamesAsset item.2) := by
  have written : (onlyPaths ["A\\b", "/"]).pretty = some rootHints := by decide +kernel
  have accepted : Accepts (rootHints ++ "\n") [{ path := "a/b", pack := 0 }, { pack := 0 }] := by
    refine ⟨"", [], ?_⟩
    unfold readDocument
    rw [(isPlain_onlyPaths _).read_of_pretty written]
    decide +kernel
  exact ⟨_, accepted, combine?_isSome_iff_namesAsset (by simpa using accepted)⟩

/-- A hint file whose only path is empty. -/
def emptyHint : String :=
  "\x7b
    \"0\": [
        \x7b
            \"assetHint\": \"\"
        \x7d
    ]
\x7d"

/-- A hint file with an empty path is accepted, as a record with neither an id nor a path, and
cannot be combined. -/
theorem combine?_emptyHint :
    ∃ records, Accepts (emptyHint ++ "\n") records ∧
      (∃ r ∈ records, r.hasIdentity = false ∧ r.path = "") ∧ Store.combine? [records] = none := by
  have written : (onlyPaths [""]).pretty = some emptyHint := by decide +kernel
  refine ⟨[{ pack := 0 }], ⟨"", [], ?_⟩, by decide, by decide⟩
  unfold readDocument
  rw [(isPlain_onlyPaths _).read_of_pretty written]
  decide +kernel

end PackPlan.Hints
