import PackPlan.Store

/-!
# Changing packs alone

Setting packs by id changes the packs of records that have an id and nothing else in a
store: neither its keys nor their order, neither the paths nor what waits under them.
Every such change is one of a single form, `Store.repack`, which is closed under
composition.

## Main definitions

* `Store.repack` — the store with the packs of its identified records changed

## Main results

* `repack_repack`, `repack_ite_repack_ite` — two changes of packs are one
* `setPack_eq_repack`, `foldl_setPack` — setting the packs of one id, of several
* `find?_repack`, `keys_repack` — what is found and kept afterwards
-/

namespace PackPlan

variable {κ α β γ : Type}

/-- Changing the values of a table twice is changing them once. -/
theorem Table.map_map (f : κ → α → β) (g : κ → β → γ) (t : Table κ α) :
    (t.map f).map g = t.map fun k v => g k (f k v) := by
  simp [Table.map, Function.comp_def]

/-- A table whose values are kept stays as it is. -/
theorem Table.map_id (t : Table κ α) : (t.map fun _ v => v) = t := by
  simp [Table.map]

namespace Store

variable {s : Store} {f g : AssetId → Int → Int} {id : AssetId} {pack : Int}

/-- The store with the pack of every record that has an id changed by a function of id
and pack. -/
def repack (f : AssetId → Int → Int) (s : Store) : Store :=
  { s with identified := s.identified.map fun id r => { r with pack := f id r.pack } }

@[simp] theorem pathOnly_repack : (s.repack f).pathOnly = s.pathOnly := rfl

@[simp] theorem claims_repack : (s.repack f).claims = s.claims := rfl

@[simp] theorem keys_repack : (s.repack f).identified.keys = s.identified.keys :=
  Table.keys_map _

@[simp] theorem find?_repack :
    (s.repack f).find? id = (s.find? id).map fun r => { r with pack := f id r.pack } :=
  Table.get?_map _

@[simp] theorem contains_repack : (s.repack f).contains id = s.contains id := by
  change ((s.repack f).find? id).isSome = (s.find? id).isSome
  rw [find?_repack, Option.isSome_map]

theorem repack_repack : (s.repack f).repack g = s.repack fun id pack => g id (f id pack) := by
  simp [repack, Table.map_map]

/-- Giving one pack to some ids and then to others is giving it to all of them. -/
theorem repack_ite_repack_ite {p q : AssetId → Prop} [DecidablePred p] [DecidablePred q]
    [DecidablePred fun id => p id ∨ q id] :
    ((s.repack fun id old => if p id then pack else old).repack fun id old =>
      if q id then pack else old) =
    s.repack fun id old => if p id ∨ q id then pack else old := by
  rw [repack_repack]
  congr 1
  funext id old
  by_cases first : p id <;> by_cases second : q id <;> simp [first, second]

theorem repack_id : (s.repack fun _ pack => pack) = s := by
  simp [repack, Table.map_id]

theorem setPack_eq_repack :
    s.setPack id pack = s.repack fun id' old => if id' = id then pack else old := by
  simp only [setPack, repack, Table.adjust]
  congr 2
  funext id' r
  split <;> rfl

/-- Setting one pack for several ids, in whatever order and how often each. -/
theorem foldl_setPack (ids : List AssetId) :
    ids.foldl (·.setPack · pack) s = s.repack fun id old => if id ∈ ids then pack else old := by
  induction ids generalizing s with
  | nil => simp [repack_id]
  | cons a ids ih =>
    rw [List.foldl_cons, ih, setPack_eq_repack, repack_repack]
    congr 1
    funext id old
    by_cases here : id = a <;> by_cases later : id ∈ ids <;> simp [here, later]

end Store

end PackPlan
