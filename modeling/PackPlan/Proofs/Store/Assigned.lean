import PackPlan.Proofs.Grouping
import PackPlan.Proofs.Store.Reordering

/-!
# Assets that keep a pack

The pack of the unassigned takes part in a merge as a number among others, and packs have no
upper bound. An asset is therefore left out of the groups not only if it has no other pack, but
also if all its other packs are greater. With a pack below that of the unassigned it is never
left out.

## Main definitions

* `Groups.Holds` — the group of a pack holds a record of an id

## Main results

* `tracking_of_combine?` — what the store of combined sources holds
* `holds_combine?_iff` — the group in which an id stands
* `not_holds_greaterPack` — an asset with a pack that is left out
-/

namespace PackPlan

variable {sources : List (List Record)} {s : Store} {id : AssetId} {pack : Int}

/-- The group of a pack holds a record of an id. -/
def Groups.Holds (groups : Groups) (id : AssetId) (pack : Int) : Prop :=
  ∃ group, (pack, group) ∈ groups.entries ∧ ∃ r ∈ group, r.identity? = some id

/-- Of sources that are combined no record has neither an identity nor a path. -/
theorem path_ne_empty_of_combine? (combined : Store.combine? sources = some s) {r : Record}
    (mem : r ∈ sources.flatten) (anonymous : r.identity? = none) : r.path ≠ "" := by
  intro empty
  rw [combine?_eq_none_iff.2 ⟨r, mem, anonymous, empty⟩] at combined
  cases combined

/-- Sources that are combined leave a store of what they make of ids and paths. -/
theorem tracking_of_combine? (combined : Store.combine? sources = some s) :
    Tracking sources.flatten s := by
  obtain ⟨s', combined', tracking⟩ := exists_tracking_combine? sources
    fun _ mem anonymous => path_ne_empty_of_combine? combined mem anonymous
  rw [combined] at combined'
  rwa [Option.some_inj.1 combined']

namespace Tracking

variable {rs : List Record}

/-- A record with an identity is the one that its id finds. -/
theorem mem_records_identity?_iff (h : Tracking rs s) {k : Record} :
    (k ∈ s.records ∧ k.identity? = some id) ↔ s.find? id = some k := by
  rw [Store.mem_records]
  constructor
  · rintro ⟨⟨id', found⟩ | ⟨path, found⟩, identity⟩
    · rw [(h.present id' k found).identity] at identity
      rwa [← Option.some_inj.1 identity]
    · rw [(h.waiting path k found).2.1] at identity
      cases identity
  · intro found
    exact ⟨.inl ⟨id, found⟩, (h.present id k found).identity⟩

/-- An id stands in the group of the least pack that comes to it, unless this is the pack of the
unassigned. -/
theorem holds_ofRecords_iff (h : Tracking rs s) : (Groups.ofRecords s.records).Holds id pack ↔
    pack ≠ unassigned ∧ IsLeast (packsOfId rs id ∪ absorbed rs id) pack := by
  have grouped : (Groups.ofRecords s.records).Holds id pack ↔
      ∃ k, s.find? id = some k ∧ k.pack ≠ unassigned ∧ k.pack = pack := by
    unfold Groups.Holds
    constructor
    · rintro ⟨group, there, k, member, identity⟩
      obtain ⟨keep, same⟩ := Groups.exists_mem_ofRecords_iff.1 ⟨group, there, member⟩
      rw [Groups.kept, List.mem_filter, Bool.false_or, decide_eq_true_eq] at keep
      exact ⟨k, h.mem_records_identity?_iff.1 ⟨keep.1, identity⟩, keep.2, same⟩
    · rintro ⟨k, found, assigned, same⟩
      obtain ⟨mem, identity⟩ := h.mem_records_identity?_iff.2 found
      have keep : k ∈ Groups.kept false s.records :=
        List.mem_filter.2 ⟨mem, by rw [Bool.false_or, decide_eq_true_eq]; exact assigned⟩
      obtain ⟨group, there, member⟩ := Groups.exists_mem_ofRecords_iff.2 ⟨keep, same⟩
      exact ⟨group, there, k, member, identity⟩
  rw [grouped]
  constructor
  · rintro ⟨k, found, assigned, rfl⟩
    exact ⟨assigned, (h.present id k found).pack⟩
  · rintro ⟨assigned, least⟩
    cases found : s.find? id with
    | none =>
      -- an id that does not occur has no packs, neither its own nor those of a path
      have missing := h.absent id found
      rcases least.1 with ⟨r, mem, identity, -⟩ | ⟨path, claim, -⟩
      · exact absurd ⟨r, mem, identity⟩ missing
      · obtain ⟨-, r, mem, identity, -⟩ := carries_of_firstPath? (firstPath?_of_claimant? claim)
        exact absurd ⟨r, mem, identity⟩ missing
    | some k =>
      obtain rfl := (h.present id k found).pack.unique least
      exact ⟨k, rfl, assigned, rfl⟩

end Tracking

/-- In the groups of combined sources an id stands under the least of the packs that are given to
it or to a path that goes to it, unless this is the pack of the unassigned. So it is in one of
the groups if any pack that is given to it is below that of the unassigned. -/
theorem holds_combine?_iff (combined : Store.combine? sources = some s) (id : AssetId) :
    (∀ pack, (Groups.ofRecords s.records).Holds id pack ↔ pack ≠ unassigned ∧
      IsLeast (packsOfId sources.flatten id ∪ absorbed sources.flatten id) pack) ∧
    ((∃ pack ∈ packsOfId sources.flatten id, pack < unassigned) →
      ∃ pack, (Groups.ofRecords s.records).Holds id pack) := by
  have tracking := tracking_of_combine? combined
  refine ⟨fun pack => tracking.holds_ofRecords_iff, ?_⟩
  rintro ⟨pack, given, below⟩
  have ⟨r, mem, identity, _⟩ := given
  cases found : s.find? id with
  | none => exact absurd ⟨r, mem, identity⟩ (tracking.absent id found)
  | some k =>
    have least := (tracking.present id k found).pack
    refine ⟨k.pack, tracking.holds_ofRecords_iff.2 ⟨?_, least⟩⟩
    exact ((least.2 (.inl given)).trans_lt below).ne

/-- Sources in which an asset has the pack of the unassigned, a greater one, and a smaller one
that waits at its path. -/
def lateAssignment : List (List Record) :=
  [[{ id := ⟨⟨1, Guid.one_lt⟩, 0⟩, path := "a", pack := 4294967296 }],
    [{ id := ⟨⟨1, Guid.one_lt⟩, 0⟩, path := "a" }, { path := "a", pack := 7 }]]

/-- It stands in the group of the smaller one. -/
theorem holds_combine?_lateAssignment :
    ∃ s, Store.combine? lateAssignment = some s ∧
      (Groups.ofRecords s.records).Holds ⟨⟨1, Guid.one_lt⟩, 0⟩ 7 := by
  obtain ⟨s, combined⟩ : ∃ s, Store.combine? lateAssignment = some s := ⟨_, rfl⟩
  obtain ⟨group, -⟩ := holds_combine?_iff combined ⟨⟨1, Guid.one_lt⟩, 0⟩
  refine ⟨s, combined, (group 7).2 ⟨by decide, ?_, ?_⟩⟩
  · exact .inr ⟨"a", by decide, { path := "a", pack := 7 }, by decide, rfl, rfl, rfl⟩
  · rintro pack (⟨r, mem, -, rfl⟩ | ⟨path, -, r, mem, -, -, rfl⟩) <;>
    · revert r
      decide

/-- Sources that give an asset a pack, and then none. -/
def greaterPack : List (List Record) :=
  [[{ id := ⟨⟨1, Guid.one_lt⟩, 0⟩, path := "a", pack := 4294967296 }],
    [{ id := ⟨⟨1, Guid.one_lt⟩, 0⟩, path := "a" }]]

/-- The asset has a pack, and stands in no group. -/
theorem not_holds_greaterPack :
    ∃ s, Store.combine? greaterPack = some s ∧
      (∃ pack ∈ packsOfId greaterPack.flatten ⟨⟨1, Guid.one_lt⟩, 0⟩, 0 ≤ pack ∧
        pack ≠ unassigned) ∧
      ¬ ∃ pack, (Groups.ofRecords s.records).Holds ⟨⟨1, Guid.one_lt⟩, 0⟩ pack := by
  obtain ⟨s, combined⟩ : ∃ s, Store.combine? greaterPack = some s := ⟨_, rfl⟩
  have nothing : (Store.combine? greaterPack).map (fun s => Groups.kept false s.records) =
      some [] := by decide
  rw [combined, Option.map_some, Option.some_inj] at nothing
  refine ⟨s, combined, ⟨4294967296, ?_, by decide, by decide⟩, ?_⟩
  · exact ⟨{ id := ⟨⟨1, Guid.one_lt⟩, 0⟩, path := "a", pack := 4294967296 }, by decide, by decide,
      rfl⟩
  · rintro ⟨pack, group, there, r, member, -⟩
    have keep := (Groups.exists_mem_ofRecords_iff.1 ⟨group, there, member⟩).1
    rw [nothing] at keep
    exact List.not_mem_nil keep

end PackPlan
