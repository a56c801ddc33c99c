import Mathlib.Data.List.Nodup
import PackPlan.Proofs.Attempt
import PackPlan.Proofs.Catalog.Additions
import PackPlan.Proofs.Catalog.PlainRows
import PackPlan.Proofs.Identity

/-!
# Catalogs read back

A catalog that is laid out plainly, one line for each asset and nothing in quotation marks, is
loaded as it is. Ids are laid out in their written form, dependencies with commas between them.
Assets need distinct ids and distinct paths, and the paths have to be as a catalog keeps them.
Whether lines end in line feeds, in carriage returns or in both makes no difference.

## Main definitions

* `Catalog.document` — listings laid out
* `Catalog.Listing.IsPlain` — a listing that can be laid out
* `Catalog.IsExactly` — a catalog of these listings and nothing else

## Main results

* `Catalog.listing_row` — a row is read as the listing that it lays out
* `Catalog.load_eq_ofListings` — the rows of a document are added one after the other
* `Catalog.isExactly_ofListings` — what listings with distinct ids and paths come to
* `Catalog.load_document` — catalogs read back
-/

namespace PackPlan.Catalog

open Rows (Row)

variable {c : Catalog} {l : Listing} {listings : List Listing}

/-- The columns in the order in which they are laid out. -/
def header : Row := ["asset_id", "relative_path", "dependencies"]

/-- Ids with commas between them. -/
def layIds (ids : List AssetId) : List Char := Text.join [','] (ids.map (·.text.toList))

/-- The fields of a listing. -/
def Listing.row (l : Listing) : Row := [l.id.text, l.path, String.ofList (layIds l.dependencies)]

/-- Listings laid out below a header, on a line each. -/
def document (e : Text.LineEnd) (closed : Bool) (listings : List Listing) : List Char :=
  Rows.layRows e closed (header :: listings.map Listing.row)

/-- A listing that can be laid out without quotation marks, and whose path is as it is kept. -/
structure Listing.IsPlain (l : Listing) : Prop where
  valid : l.id.isValid = true
  named : l.path ≠ ""
  normal : AssetPath.normalize l.path = l.path
  unbroken : ∀ c ∈ l.path.toList, c ≠ '\t' ∧ c ≠ '\n' ∧ c ≠ '\r'
  unquoted : l.path.toList.head? ≠ some '"'
  dependencies : ∀ id ∈ l.dependencies, id.isValid = true
  short : ∀ field ∈ l.row, field.length ≤ Fault.maxField

/-- A catalog of listings and nothing else: it answers as they say for the ids and paths that
they have, and knows no others. -/
structure IsExactly (c : Catalog) (listings : List Listing) : Prop where
  pathOf : ∀ l ∈ listings, c.pathOf l.id = l.path
  idOf : ∀ l ∈ listings, c.idOf l.path = l.id
  dependencies? : ∀ l ∈ listings,
    c.dependencies? l.id = if l.dependencies = [] then none else some l.dependencies
  pathOf_of_unknown : ∀ id, (∀ l ∈ listings, l.id ≠ id) → c.pathOf id = ""
  idOf_of_unknown : ∀ path, (∀ l ∈ listings, l.path ≠ AssetPath.normalize path) →
    c.idOf path = .none
  dependencies?_of_unknown : ∀ id, (∀ l ∈ listings, l.id ≠ id) → c.dependencies? id = none
  readable : c.unreadable = []

/-! ### Fields -/

theorem isPart_of_mem_layIds {ids : List AssetId} {c : Char} (mem : c ∈ layIds ids) :
    c = ',' ∨ Guid.isPart c = true := by
  rcases Text.mem_join mem with comma | inside
  · exact .inl (List.mem_singleton.1 comma)
  · obtain ⟨chars, member, here⟩ := List.mem_flatten.1 inside
    obtain ⟨id, -, rfl⟩ := List.mem_map.1 member
    exact .inr (AssetId.isPart_of_mem_text here)

/-- Ids are made of characters that stand for themselves in a field. -/
theorem isPlainField_of_parts {s : List Char}
    (parts : ∀ c ∈ s, c = ',' ∨ Guid.isPart c = true) : Rows.IsPlainField s where
  inside := by
    intro c mem
    -- neither a line end nor a tab is a part of an id
    have other : ∀ d, (d = ',' ∨ Guid.isPart d = true → False) → c ≠ d := by
      rintro d nothing rfl
      exact nothing (parts c mem)
    exact ⟨Rows.isLineEnd_eq_false_iff.2 ⟨other '\n' (by decide), other '\r' (by decide)⟩,
      other '\t' (by decide)⟩
  unquoted := fun quote => absurd (parts '"' (List.mem_of_mem_head? quote)) (by decide)

theorem isPlainRow_row (plain : l.IsPlain) : Rows.IsPlainRow l.row where
  two := Nat.le_succ 2
  fits := by
    intro field mem
    refine ⟨?_, plain.short field mem⟩
    simp only [Listing.row, List.mem_cons, List.not_mem_nil, or_false] at mem
    rcases mem with rfl | rfl | rfl
    · exact isPlainField_of_parts fun c mem => .inr (AssetId.isPart_of_mem_text mem)
    · exact
        { inside := fun c mem =>
            ⟨Rows.isLineEnd_eq_false_iff.2 (plain.unbroken c mem).2, (plain.unbroken c mem).1⟩
          unquoted := plain.unquoted }
    · rw [String.toList_ofList]
      exact isPlainField_of_parts fun c mem => isPart_of_mem_layIds mem

theorem isPlainRow_header : Rows.IsPlainRow header where
  two := by decide
  fits := by
    intro field mem
    simp only [header, List.mem_cons, List.not_mem_nil, or_false] at mem
    have plain : ∀ name : String, name.toList.all Rows.isPlain = true →
        Rows.IsPlainField name.toList := fun name all =>
      Rows.isPlainField_of_isPlain (List.all_eq_true.1 all)
    rcases mem with rfl | rfl | rfl <;> exact ⟨plain _ (by decide), by decide⟩

/-! ### Rows -/

theorem readDependencies_texts {ids : List AssetId} (valid : ∀ id ∈ ids, id.isValid = true)
    (place : String) : readDependencies place (ids.map (·.text.toList)) = (ids, []) := by
  induction ids with
  | nil => rfl
  | cons id ids ih =>
    rw [List.forall_mem_cons] at valid
    have nonblank : Text.trim id.text.toList ≠ [] := by
      rw [AssetId.trim_text, AssetId.text, String.toList_ofList]
      simp
    rw [List.map_cons, readDependencies, ih valid.2]
    dsimp only
    rw [if_neg nonblank, String.ofList_toList, AssetId.read_text]
    dsimp only
    rw [valid.1, if_pos rfl]

/-- Ids are read from what is laid out of them, and from nothing there are none. -/
theorem readDependencies_layIds {ids : List AssetId} (valid : ∀ id ∈ ids, id.isValid = true)
    (place : String) :
    readDependencies place (Text.splitAt ',' (layIds ids)) = (ids, []) := by
  by_cases none : ids = []
  · subst none
    rfl
  · rw [layIds, Text.splitAt_join (by simpa using none), readDependencies_texts valid]
    simp only [List.mem_map]
    rintro piece ⟨id, -, rfl⟩ comma
    exact absurd (AssetId.isPart_of_mem_text comma) (by decide)

/-- A row is read as the listing that it lays out. -/
theorem listing_row (plain : l.IsPlain) (place : String) :
    listing place header l.row = (some l, []) := by
  have id : fieldOf header l.row "asset_id" = l.id.text := rfl
  have path : fieldOf header l.row "relative_path" = l.path := rfl
  have dependencies : fieldOf header l.row "dependencies" =
      String.ofList (layIds l.dependencies) := rfl
  rw [listing, id, AssetId.read_text]
  dsimp only
  rw [plain.valid, dependencies, String.toList_ofList,
    readDependencies_layIds plain.dependencies, path]
  rfl

theorem addRows_rows (plain : ∀ l ∈ listings, l.IsPlain) (path : String) (line : Nat)
    (c : Catalog) :
    addRows path header line (listings.map Listing.row) c = (c.addAll listings, []) := by
  induction listings generalizing line c with
  | nil => rfl
  | cons l listings ih =>
    rw [List.forall_mem_cons] at plain
    rw [List.map_cons, addRows, listing_row plain.1]
    dsimp only
    rw [ih plain.2]
    rfl

/-- The rows of a document are added one after the other, and nothing is told of them. -/
theorem load_eq_ofListings (plain : ∀ l ∈ listings, l.IsPlain) (path : String)
    (e : Text.LineEnd) (closed : Bool) :
    (load path (Utf8.encode (document e closed listings))).run =
      (.ok (ofListings listings), []) := by
  have rows : Rows.ofBytes (Utf8.encode (document e closed listings)) =
      (header :: listings.map Listing.row, none) := by
    have laid : Rows.ofText (document e closed listings) =
        (header :: listings.map Listing.row, false) := by
      refine Rows.ofText_layRows e closed (List.cons_ne_nil _ _) ?_
      rw [List.forall_mem_cons, List.forall_mem_map]
      exact ⟨isPlainRow_header, fun l mem => isPlainRow_row (plain l mem)⟩
    rw [Rows.ofBytes_encode, laid]
    rfl
  have whole : (listings.map Listing.row).filter (· ≠ []) = listings.map Listing.row := by
    rw [List.filter_eq_self, List.forall_mem_map]
    intro l _
    rfl
  have columns : missingColumns header = [] := by decide
  rw [load, rows]
  dsimp only
  rw [if_neg (by rw [columns]; simp), whole, addRows_rows plain, ofListings,
    Attempt.run_eq_runFrom, Attempt.runFrom_bind_ok (Attempt.runFrom_forM_tell _)]
  rfl

/-! ### What is asked -/

/-- What listings with distinct ids and distinct paths come to. -/
theorem isExactly_ofListings (normal : ∀ l ∈ listings, AssetPath.normalize l.path = l.path)
    (named : ∀ l ∈ listings, l.path ≠ "") (ids : (listings.map Listing.id).Nodup)
    (paths : (listings.map Listing.path).Nodup) : (ofListings listings).IsExactly listings where
  pathOf := fun l mem =>
    ((pathOf_isGivenBy l.id).addAll_of_mem ids mem rfl fun _ same => same).trans (normal l mem)
  idOf := by
    intro l mem
    have there : AssetPath.normalize l.path ≠ "" := by
      rw [normal l mem]
      exact named l mem
    -- paths are told apart as they are kept
    have kept : (listings.map fun m => AssetPath.normalize m.path).Nodup := by
      rw [List.map_congr_left normal]
      exact paths
    exact (idOf_isGivenBy l.path).addAll_of_mem kept mem ⟨there, rfl⟩ fun _ concerned =>
      concerned.2
  dependencies? := by
    intro l mem
    by_cases none : l.dependencies = []
    · rw [if_pos none]
      refine (dependencies?_isGivenBy l.id).addAll_of_silent fun m member concerned => ?_
      exact concerned.1 (List.inj_on_of_nodup_map ids member mem concerned.2 ▸ none)
    · rw [if_neg none]
      exact (dependencies?_isGivenBy l.id).addAll_of_mem ids mem ⟨none, rfl⟩ fun _ concerned =>
        concerned.2
  pathOf_of_unknown := fun id unknown => (pathOf_isGivenBy id).addAll_of_silent unknown
  idOf_of_unknown := fun path unknown => (idOf_isGivenBy path).addAll_of_silent
    fun l mem concerned => unknown l mem ((normal l mem).symm.trans concerned.2)
  dependencies?_of_unknown := fun id unknown =>
    (dependencies?_isGivenBy id).addAll_of_silent fun l mem concerned =>
      unknown l mem concerned.2
  readable := by
    -- no addition concerns what cannot be looked up
    have given : IsGivenBy unreadable (fun _ => False) fun _ => [] := fun _ _ => (if_neg id).symm
    exact given.addAll_of_silent fun _ _ => id

/-- A catalog that is laid out plainly is loaded as it is, and nothing is told of it. -/
theorem load_document (path : String) (e : Text.LineEnd) (closed : Bool)
    (plain : ∀ l ∈ listings, l.IsPlain) (ids : (listings.map Listing.id).Nodup)
    (paths : (listings.map Listing.path).Nodup) :
    ∃ c, (load path (Utf8.encode (document e closed listings))).run = (.ok c, []) ∧
      c.IsExactly listings :=
  ⟨ofListings listings, load_eq_ofListings plain path e closed,
    isExactly_ofListings (fun l mem => (plain l mem).normal) (fun l mem => (plain l mem).named)
      ids paths⟩

/-- Two assets, of which one has a quotation mark within its path. -/
def site : List Listing :=
  [⟨hall, "höhle/\"a\"", [rock, hall, rock]⟩, ⟨rock, "stein.dds", []⟩]

theorem load_document_site :
    (∀ l ∈ site, l.IsPlain) ∧ (site.map Listing.id).Nodup ∧ (site.map Listing.path).Nodup ∧
      ∃ c, (load "assetcatalog.tsv" (Utf8.encode (document .both true site))).run = (.ok c, []) ∧
        c.IsExactly site := by
  have unbroken : ∀ path : String,
      path.toList.all (fun c => c ≠ '\t' && (c ≠ '\n' && c ≠ '\r')) = true →
        ∀ c ∈ path.toList, c ≠ '\t' ∧ c ≠ '\n' ∧ c ≠ '\r' := by
    intro path all
    simpa using all
  have plain : ∀ l ∈ site, l.IsPlain := by
    rw [site, List.forall_mem_cons, List.forall_mem_singleton]
    constructor
    · exact ⟨by decide, by decide, by decide +kernel, unbroken _ (by decide), by decide, by decide,
        by decide +kernel⟩
    · exact ⟨by decide, by decide, by decide +kernel, unbroken _ (by decide), by decide, by decide,
        by decide +kernel⟩
  have ids : (site.map Listing.id).Nodup := by decide
  have paths : (site.map Listing.path).Nodup := by decide
  exact ⟨plain, ids, paths, load_document "assetcatalog.tsv" .both true plain ids paths⟩

example : document .feed true [⟨rock, "stein.dds", [hall]⟩] =
    ("asset_id\trelative_path\tdependencies\n" ++
      "\x7b00000000-0000-0000-0000-000000000001\x7d:-2a\tstein.dds\t" ++
      "\x7b00000000-0000-0000-0000-000000000001\x7d:0\n").toList := by decide +kernel

end PackPlan.Catalog
