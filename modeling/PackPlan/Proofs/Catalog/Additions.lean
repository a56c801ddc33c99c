import PackPlan.Catalog.Loader

/-!
# Catalogs that grow

What is asked of a catalog is answered by the latest addition that has something to say of it. So
the path of an asset is the one with which it was added last, and the asset at a path is the one
that was added there last. The two directions need not agree: an asset that is added once more at
another path is still found at the path of before. They agree at a path exactly if the asset that
was added there last has not been added again since.

## Main definitions

* `Catalog.addAll` — a catalog to which listings are added in order
* `Catalog.ofListings` — the catalog that has nothing else
* `Catalog.IsGivenBy` — an answer that each addition either gives or leaves as it was

## Main results

* `Catalog.pathOf_add`, `Catalog.idOf_add`, `Catalog.dependencies?_add` — what one addition
  changes
* `Catalog.IsGivenBy.addAll_of_silent`, `Catalog.IsGivenBy.addAll_of_last`,
  `Catalog.IsGivenBy.addAll_cases`, `Catalog.IsGivenBy.addAll_of_mem` — what all additions come to
* `Catalog.pathOf_idOf_eq_iff` — where the two directions agree
* `Catalog.pathOf_idOf_ne_movedAsset` — they do not for an asset that has been moved
-/

namespace PackPlan.Catalog

variable {c : Catalog} {id other : AssetId} {path sought : String} {dependencies : List AssetId}
  {listings before later : List Listing} {l : Listing} {α : Type} {answer : Catalog → α}
  {concerns : Listing → Prop} [DecidablePred concerns] {value : Listing → α}

/-! ### One addition -/

theorem pathOf_add : (c.add id path dependencies).pathOf other =
    if id = other then AssetPath.normalize path else c.pathOf other := by
  rw [pathOf, add, Table.get?_insert]
  by_cases same : id = other
  · rw [if_pos same.symm, if_pos same]
    rfl
  · rw [if_neg (Ne.symm same), if_neg same]
    rfl

/-- Nothing is found at the empty path. -/
theorem idOf_add : (c.add id path dependencies).idOf sought =
    if AssetPath.normalize sought ≠ "" ∧ AssetPath.normalize path = AssetPath.normalize sought
      then id else c.idOf sought := by
  rw [idOf, add]
  dsimp only
  split
  · next unnamed => rw [unnamed, if_neg fun h => h.1 h.2.symm]; rfl
  · next named =>
    rw [Table.get?_insert]
    by_cases same : AssetPath.normalize path = AssetPath.normalize sought
    · rw [if_pos same.symm, if_pos ⟨same ▸ named, same⟩]
      rfl
    · rw [if_neg (Ne.symm same), if_neg fun h => same h.2]
      rfl

/-- Without dependencies an addition leaves those of before. -/
theorem dependencies?_add : (c.add id path dependencies).dependencies? other =
    if dependencies ≠ [] ∧ id = other then some dependencies else c.dependencies? other := by
  rw [dependencies?, add]
  dsimp only
  split
  · next none => rw [if_neg fun h => h.1 none]; rfl
  · next some =>
    rw [Table.get?_insert]
    by_cases same : id = other
    · rw [if_pos same.symm, if_pos ⟨some, same⟩]
    · rw [if_neg (Ne.symm same), if_neg fun h => same h.2]
      rfl

/-- An answer that an addition gives if it concerns what is asked, and leaves as it was
otherwise. -/
def IsGivenBy (answer : Catalog → α) (concerns : Listing → Prop) [DecidablePred concerns]
    (value : Listing → α) : Prop :=
  ∀ c l, answer (add c l.id l.path l.dependencies) = if concerns l then value l else answer c

theorem pathOf_isGivenBy (id : AssetId) :
    IsGivenBy (pathOf · id) (·.id = id) fun l => AssetPath.normalize l.path :=
  fun _ _ => pathOf_add

theorem idOf_isGivenBy (path : String) : IsGivenBy (idOf · path)
    (fun l => AssetPath.normalize path ≠ "" ∧
      AssetPath.normalize l.path = AssetPath.normalize path) Listing.id :=
  fun _ _ => idOf_add

theorem dependencies?_isGivenBy (id : AssetId) : IsGivenBy (dependencies? · id)
    (fun l => l.dependencies ≠ [] ∧ l.id = id) fun l => some l.dependencies :=
  fun _ _ => dependencies?_add

/-! ### All additions -/

/-- A catalog to which listings are added in order. -/
def addAll (c : Catalog) (listings : List Listing) : Catalog :=
  listings.foldl (fun c l => c.add l.id l.path l.dependencies) c

/-- The catalog of listings that are added in order. -/
def ofListings (listings : List Listing) : Catalog := addAll .empty listings

theorem addAll_cons (c : Catalog) (l : Listing) (listings : List Listing) :
    c.addAll (l :: listings) = (c.add l.id l.path l.dependencies).addAll listings := rfl

theorem addAll_append (c : Catalog) (before later : List Listing) :
    c.addAll (before ++ later) = (c.addAll before).addAll later := List.foldl_append

namespace IsGivenBy

/-- Additions that do not concern what is asked leave the answer as it was. -/
theorem addAll_of_silent (given : IsGivenBy answer concerns value)
    (silent : ∀ m ∈ listings, ¬ concerns m) : answer (c.addAll listings) = answer c := by
  induction listings generalizing c with
  | nil => rfl
  | cons l listings ih =>
    rw [List.forall_mem_cons] at silent
    rw [addAll_cons, ih silent.2, given, if_neg silent.1]

/-- The latest addition that concerns it answers. -/
theorem addAll_of_last (given : IsGivenBy answer concerns value) (told : concerns l)
    (silent : ∀ m ∈ later, ¬ concerns m) :
    answer (c.addAll (before ++ l :: later)) = value l := by
  rw [addAll_append, addAll_cons, given.addAll_of_silent silent, given, if_pos told]

/-- Either no addition concerns what is asked, or one is the latest that does. -/
theorem addAll_cases (given : IsGivenBy answer concerns value) (c : Catalog)
    (listings : List Listing) :
    (answer (c.addAll listings) = answer c ∧ ∀ m ∈ listings, ¬ concerns m) ∨
      ∃ before l later, listings = before ++ l :: later ∧ concerns l ∧
        (∀ m ∈ later, ¬ concerns m) ∧ answer (c.addAll listings) = value l := by
  induction listings generalizing c with
  | nil => exact .inl ⟨rfl, List.forall_mem_nil _⟩
  | cons l listings ih =>
    rw [addAll_cons]
    -- the first addition decides only what the later ones leave as it was
    rcases ih (c.add l.id l.path l.dependencies) with ⟨same, silent⟩ | ⟨before, m, later, rfl, cut⟩
    · rw [same, given]
      by_cases told : concerns l
      · exact .inr ⟨[], l, listings, rfl, told, silent, if_pos told⟩
      · exact .inl ⟨if_neg told, List.forall_mem_cons.2 ⟨told, silent⟩⟩
    · exact .inr ⟨l :: before, m, later, rfl, cut⟩

/-- Of additions with distinct keys one answers alone. -/
theorem addAll_of_mem {κ : Type} {key : Listing → κ} (given : IsGivenBy answer concerns value)
    (nodup : (listings.map key).Nodup) (mem : l ∈ listings) (told : concerns l)
    (only : ∀ m, concerns m → key m = key l) : answer (c.addAll listings) = value l := by
  obtain ⟨before, later, rfl⟩ := List.append_of_mem mem
  -- no later addition has the key again
  refine given.addAll_of_last told fun m member concerned => ?_
  rw [List.map_append, List.map_cons] at nodup
  have apart := (List.nodup_cons.1 (List.nodup_append.1 nodup).2.1).1
  exact apart (only m concerned ▸ List.mem_map_of_mem member)

end IsGivenBy

/-! ### Both directions -/

/-- The asset that is found at a path is the one that was added there last. The path of this asset
is the one at which it was found exactly if the asset has not been added again since. -/
theorem pathOf_idOf_eq_iff (listings : List Listing) (path : String)
    (known : ((ofListings listings).idOf path).isValid = true) :
    ∃ before l later, listings = before ++ l :: later ∧
      AssetPath.normalize l.path = AssetPath.normalize path ∧
      (∀ m ∈ later, AssetPath.normalize m.path ≠ AssetPath.normalize path) ∧
      (ofListings listings).idOf path = l.id ∧
      ((ofListings listings).pathOf ((ofListings listings).idOf path) =
          AssetPath.normalize path ↔ ∀ m ∈ later, m.id ≠ l.id) := by
  rcases (idOf_isGivenBy path).addAll_cases .empty listings with
    ⟨nowhere, -⟩ | ⟨before, l, later, rfl, ⟨nonempty, there⟩, silent, found⟩
  · -- the catalog of nothing finds no asset
    change ((addAll .empty listings).idOf path).isValid = true at known
    rw [nowhere] at known
    cases known
  · change (ofListings (before ++ l :: later)).idOf path = l.id at found
    have apart : ∀ m ∈ later, AssetPath.normalize m.path ≠ AssetPath.normalize path :=
      fun m mem same => silent m mem ⟨nonempty, same⟩
    refine ⟨before, l, later, rfl, there, apart, found, ?_⟩
    rw [found, ofListings]
    constructor
    · intro agree m mem again
      rw [addAll_append, addAll_cons] at agree
      rcases (pathOf_isGivenBy l.id).addAll_cases
          ((addAll .empty before).add l.id l.path l.dependencies) later with
        ⟨-, never⟩ | ⟨front, k, back, rfl, -, -, moved⟩
      · exact never m mem again
      · -- the asset has the path of a later addition, none of which is at the path
        exact apart k (by simp) (moved.symm.trans agree)
    · intro last
      rw [← there]
      exact (pathOf_isGivenBy l.id).addAll_of_last rfl last

/-- An asset. -/
def hall : AssetId := { guid := ⟨1, Guid.one_lt⟩ }

/-- Another asset of the same source. -/
def rock : AssetId := { guid := ⟨1, Guid.one_lt⟩, subId := -42 }

/-- One asset is added at two paths, and then the other at the first of these. -/
def regrown : List Listing :=
  [⟨hall, "maps/a", []⟩, ⟨hall, "maps/b", []⟩, ⟨rock, "Maps\\A", [hall]⟩]

theorem pathOf_idOf_eq_iff_regrown :
    ((ofListings regrown).idOf "maps/a").isValid = true ∧
      ∃ before l later, regrown = before ++ l :: later ∧
        AssetPath.normalize l.path = AssetPath.normalize "maps/a" ∧
        (∀ m ∈ later, AssetPath.normalize m.path ≠ AssetPath.normalize "maps/a") ∧
        (ofListings regrown).idOf "maps/a" = l.id ∧
        ((ofListings regrown).pathOf ((ofListings regrown).idOf "maps/a") =
            AssetPath.normalize "maps/a" ↔ ∀ m ∈ later, m.id ≠ l.id) :=
  ⟨by decide, pathOf_idOf_eq_iff regrown "maps/a" (by decide)⟩

/-- An asset that has been moved is still found at the path that it no longer has. -/
theorem pathOf_idOf_ne_movedAsset :
    ((ofListings [⟨hall, "a", []⟩, ⟨hall, "b", []⟩]).idOf "a").isValid = true ∧
      (ofListings [⟨hall, "a", []⟩, ⟨hall, "b", []⟩]).pathOf
          ((ofListings [⟨hall, "a", []⟩, ⟨hall, "b", []⟩]).idOf "a") ≠
        AssetPath.normalize "a" := by
  decide

end PackPlan.Catalog
