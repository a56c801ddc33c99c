import PackPlan.Proofs.Store.Changes

/-!
# Looking up paths

A path may be shared by the records of several ids, while one id alone claims it. As long
as every path of a record is claimed, looking up a path finds a record whenever there is
one. Every change keeps it so but one: removing the id that claims a path leaves the other
records of the path without a claim.

## Main definitions

* `Store.Indexed` — every path of a record is claimed
* `Store.SparesClaims`, `Store.Orderly` — no claim goes while another record has the path

## Main results

* `Store.Indexed.of_effect` — changes that spare claims leave every path claimed
* `Store.findByPath?_after` — what looking up a path finds after changes
* `Store.sharedPath_not_found` — a path is not found once its claim has gone
-/

namespace PackPlan.Store

variable {s t : Store} {c : Change} {r k : Record} {id : AssetId} {path : String}

/-- Every path of a record that has an id is claimed. -/
def Indexed (s : Store) : Prop :=
  ∀ id k, s.find? id = some k → k.path ≠ "" → s.claims.get? k.path ≠ none

/-- A change does not take the claim to a path away while another id has the path. -/
def SparesClaims (s : Store) : Change → Prop
  | .remove id => ∀ path, s.claims.get? path = some id →
      ∀ id' k, s.find? id' = some k → k.path = path → id' = id
  | _ => True

/-- Changes one after the other, none of which takes a claim away from another record. -/
def Orderly : Store → List Change → Prop
  | _, [] => True
  | s, c :: changes => s.SparesClaims c ∧ Orderly (s.change c) changes

namespace Indexed

theorem empty : Indexed Store.empty := by
  intro id k found
  simp [Store.find?, Store.empty] at found

theorem of_samePlaces (h : Indexed s) (same : SamePlaces s t) : Indexed t := by
  intro id k found nonempty
  obtain ⟨k', found', -, samePath⟩ := same.find? found
  rw [same.claims, ← samePath]
  exact h id k' found' (samePath ▸ nonempty)

/-- An id that takes its path leaves every path claimed, if those of the others were. -/
theorem claimPath (others : ∀ id' k', id' ≠ id → s.find? id' = some k' → k'.path ≠ "" →
      s.claims.get? k'.path ≠ none)
    (found : s.find? id = some k) (own : k.path = "" ∨ k.path = path) :
    Indexed (s.claimPath id path) := by
  intro id' k' found' nonempty
  by_cases empty : path = ""
  · rw [Store.claimPath, if_pos empty] at found' ⊢
    refine others id' k' ?_ found' nonempty
    rintro rfl
    obtain rfl := Option.some_inj.1 (found.symm.trans found')
    rcases own with unnamed | own
    · exact nonempty unnamed
    · exact nonempty (own.trans empty)
  · rw [claims_claimPath empty, ne_eq, Option.or_eq_none_iff]
    rintro ⟨unclaimed, elsewhere⟩
    by_cases same : id' = id
    · -- the record of the id is at the path that is claimed now
      subst same
      rw [find?_claimPath empty found, Option.some_inj] at found'
      subst found'
      exact absurd elsewhere (by simp)
    · rw [find?_claimPath_of_ne same] at found'
      exact others id' k' same found' nonempty unclaimed

theorem remove (h : Indexed s) (found : s.find? id = some k)
    (spares : s.SparesClaims (.remove id)) : Indexed (s.remove id) := by
  intro id' k' found' nonempty
  rw [find?_remove found] at found'
  split at found'
  · exact absurd found' (by simp)
  · next other =>
    rw [claims_remove found, if_neg]
    · exact h id' k' found' nonempty
    · rintro ⟨-, claim⟩
      exact other (spares k'.path claim id' k' found' rfl)

/-- Changes that spare claims leave every path claimed. -/
theorem of_effect (h : Indexed s) (spares : s.SparesClaims c) (effect : Effect s c t) :
    Indexed t := by
  cases effect with
  | repacked same => exact h.of_samePlaces same
  | waited => exact h
  | arrived _ missing =>
    refine claimPath ?_ ((find?_insertNew missing).trans (if_pos rfl)) (Or.inr rfl)
    intro id' k' other found
    rw [find?_insertNew missing, if_neg other] at found
    exact h id' k' found
  | learned same found unnamed =>
    exact claimPath (fun id' k' _ => h.of_samePlaces same id' k') found (Or.inl unnamed)
  | removed found => exact h.remove found spares

end Indexed

/-- Orderly changes leave every path claimed. -/
theorem indexed_after (changes : List Change) (orderly : Orderly empty changes) :
    Indexed (after changes) := by
  unfold after
  generalize Store.empty = s, Indexed.empty = h at orderly
  induction changes generalizing s with
  | nil => exact h
  | cons c changes ih =>
    exact ih (s.change c) (h.of_effect orderly.1 (effect_change s c)) orderly.2

/-! ### Looking up -/

/-- What is found at a path is a record of the store. -/
theorem mem_records_of_findByPath? (found : s.findByPath? path = some k) : k ∈ s.records := by
  rw [findByPath?] at found
  split at found
  · next id _ => exact mem_records.2 (Or.inl ⟨id, found⟩)
  · exact mem_records.2 (Or.inr ⟨path, found⟩)

/-- Where every path is claimed, a path is found if a record has it. -/
theorem Indexed.exists_findByPath? (h : Indexed s) (coherent : Coherent s) (mem : k ∈ s.records)
    (nonempty : k.path ≠ "") : ∃ k', s.findByPath? k.path = some k' := by
  rw [findByPath?]
  cases claim : s.claims.get? k.path with
  | some id =>
    obtain ⟨-, k', found, -⟩ := coherent.claimed k.path id claim
    exact ⟨k', found⟩
  | none =>
    rcases mem_records.1 mem with ⟨id, found⟩ | ⟨path, found⟩
    · exact absurd claim (h id k found nonempty)
    · obtain ⟨-, place, -⟩ := coherent.waiting path k found
      exact ⟨k, place ▸ found⟩

/-- Changing packs alone leaves every record at its place. -/
theorem map_place_values_map {κ : Type} (t : Table κ Record) {f : κ → Record → Record}
    (keeps : ∀ key w, (f key w).place = w.place) :
    (t.map f).values.map Record.place = t.values.map Record.place := by
  simp [Table.values, Table.map, keeps]

/-- A record that has only a path falls together with the one that is found there. -/
theorem addPathOnly_of_findByPath? (found : s.findByPath? r.path = some k) :
    (s.addPathOnly r).2 = true ∧
      (s.addPathOnly r).1.records.map Record.place = s.records.map Record.place := by
  rw [findByPath?] at found
  unfold addPathOnly
  split at found
  · dsimp only
    refine ⟨rfl, ?_⟩
    simp only [records, List.map_append]
    rw [Table.adjust, map_place_values_map]
    intro key w
    split <;> rfl
  · have there : s.pathOnly.contains r.path = true := by rw [Table.contains, found]; rfl
    rw [if_pos there]
    refine ⟨rfl, ?_⟩
    simp only [records, List.map_append]
    rw [Table.adjust, map_place_values_map]
    intro key w
    split <;> rfl

/-- After any changes, what looking up a path finds is a record of the store that has the
path. After orderly ones it finds a record whenever one has the path, and a record that has
only this path then falls together with one that is there. -/
theorem findByPath?_after (changes : List Change) :
    (∀ path k, (after changes).findByPath? path = some k →
      k ∈ (after changes).records ∧ k.path = path) ∧
    (Orderly empty changes → ∀ path, path ≠ "" →
      ((∃ k, (after changes).findByPath? path = some k) ↔
        ∃ k ∈ (after changes).records, k.path = path) ∧
      ∀ r : Record, r.hasIdentity = false → r.path = path →
        (∃ k ∈ (after changes).records, k.path = path) →
          ∃ s, (after changes).add? r = some (s, true) ∧
            s.records.map Record.place = (after changes).records.map Record.place) := by
  have coherent := coherent_after changes
  have sound : ∀ path k, (after changes).findByPath? path = some k →
      k ∈ (after changes).records ∧ k.path = path :=
    fun path k found => ⟨mem_records_of_findByPath? found, coherent.path_of_findByPath? found⟩
  refine ⟨sound, fun orderly path nonempty => ⟨⟨?sound, ?complete⟩, ?folds⟩⟩
  case sound =>
    rintro ⟨k, found⟩
    exact ⟨k, sound path k found⟩
  case complete =>
    rintro ⟨k, mem, rfl⟩
    exact (indexed_after changes orderly).exists_findByPath? coherent mem nonempty
  case folds =>
    rintro r anonymous rfl ⟨k, mem, place⟩
    obtain ⟨k', found⟩ :=
      (indexed_after changes orderly).exists_findByPath? coherent mem (place ▸ nonempty)
    obtain ⟨taken, same⟩ := addPathOnly_of_findByPath? (place ▸ found)
    refine ⟨((after changes).addPathOnly r).1, ?_, same⟩
    rw [add?, anonymous, if_neg (by simp), if_neg nonempty, ← taken]

/-- Two ids come to share a path, a third record finds it, and the id without the claim goes. -/
def orderlyChanges : List Change :=
  [.addAsset ⟨⟨1, Guid.one_lt⟩, 0⟩ "a" 5, .addAsset ⟨⟨2, Guid.two_lt⟩, 0⟩ "a" 6,
    .add { path := "a", pack := 2 }, .remove ⟨⟨2, Guid.two_lt⟩, 0⟩]

/-- The path is still found, and takes in another record. -/
theorem findByPath?_after_orderlyChanges :
    Orderly empty orderlyChanges ∧
    (∃ k, (after orderlyChanges).findByPath? "a" = some k) ∧
    ∃ s, (after orderlyChanges).add? { path := "a" } = some (s, true) ∧
      s.records.map Record.place = [(⟨⟨1, by decide⟩, 0⟩, "a")] := by
  have orderly : Orderly empty orderlyChanges := by
    refine ⟨trivial, trivial, trivial, ?_, trivial⟩
    -- the one claim that there is belongs to the other id
    have unclaimed : (⟨⟨2, by decide⟩, 0⟩ : AssetId) ∉
        (after (orderlyChanges.take 3)).claims.values := by decide
    intro path claim
    exact absurd (Table.mem_values.2 ⟨path, claim⟩) unclaimed
  have places : (after orderlyChanges).records.map Record.place =
      [(⟨⟨1, by decide⟩, 0⟩, "a")] := by decide
  have there : ∃ k ∈ (after orderlyChanges).records, k.path = "a" := by decide
  obtain ⟨lookup, folds⟩ := (findByPath?_after orderlyChanges).2 orderly "a" (by decide)
  obtain ⟨s, taken, same⟩ := folds { path := "a" } (by decide) rfl there
  exact ⟨orderly, lookup.2 there, s, taken, same.trans places⟩

/-- Two ids share a path, and the one that claims it goes. -/
def sharedPathChanges : List Change :=
  [.addAsset ⟨⟨1, Guid.one_lt⟩, 0⟩ "a" 5, .addAsset ⟨⟨2, Guid.two_lt⟩, 0⟩ "a" 6,
    .remove ⟨⟨1, Guid.one_lt⟩, 0⟩]

/-- The record that is left at the path is not found there, and another record of the path
stays beside it. -/
theorem sharedPath_not_found :
    (∃ k ∈ (after sharedPathChanges).records, k.path = "a") ∧
    (after sharedPathChanges).findByPath? "a" = none ∧
    ((after sharedPathChanges).takeIn { path := "a" }).records.map Record.place =
      [(⟨⟨2, by decide⟩, 0⟩, "a"), (.none, "a")] := by
  decide

end PackPlan.Store
