/-!
# Tables

A table maps keys to values and remembers the order in which its keys came in. A key
that is written again keeps its place; a key that is erased and written again goes to
the end.

## Main definitions

* `PackPlan.Table` — keys with values, in order of arrival
* `Table.get?`, `Table.contains` — look-up
* `Table.insert`, `Table.insertNew`, `Table.erase`, `Table.adjust`, `Table.map`,
  `Table.filter` — changes
* `Table.push` — one more item for a key whose value is a list
* `Table.sortKeys` — the keys in a given order
* `Table.keys`, `Table.values`, `Table.size` — what it holds

## Main results

* `get?_eq_some` — looking up a key finds its entry
* `keys_insert`, `get?_insert` and their like — what each change does to the keys and to
  the value of each
-/

namespace PackPlan

/-- Keys with values, in order of arrival. -/
structure Table (κ α : Type) where
  /-- The keys and their values. -/
  entries : List (κ × α)
  /-- No key occurs twice. -/
  nodup : (entries.map Prod.fst).Nodup

namespace Table

variable {κ α β : Type}

/-- The table of nothing. -/
def empty : Table κ α := ⟨[], by simp⟩

instance : Inhabited (Table κ α) := ⟨empty⟩

/-- The keys, in order of arrival. -/
def keys (t : Table κ α) : List κ := t.entries.map Prod.fst

/-- The values, in the order of their keys. -/
def values (t : Table κ α) : List α := t.entries.map Prod.snd

/-- How many keys there are. -/
def size (t : Table κ α) : Nat := t.entries.length

/-- The table with every value changed by a function of key and value. -/
def map (f : κ → α → β) (t : Table κ α) : Table κ β :=
  ⟨t.entries.map fun e => (e.1, f e.1 e.2), by simpa [Function.comp_def] using t.nodup⟩

/-- The table with the entries that pass a test. -/
def filter (keep : κ → α → Bool) (t : Table κ α) : Table κ α :=
  ⟨t.entries.filter fun e => keep e.1 e.2, t.nodup.sublist (List.filter_sublist.map _)⟩

variable [DecidableEq κ]

/-- The value of a key. -/
def get? (t : Table κ α) (k : κ) : Option α := t.entries.lookup k

/-- Whether a key is there. -/
def contains (t : Table κ α) (k : κ) : Bool := (t.get? k).isSome

/-- The table with the value of a key changed, if the key is there. -/
def adjust (t : Table κ α) (k : κ) (f : α → α) : Table κ α :=
  t.map fun k' v => if k' = k then f v else v

/-- The table without a key. -/
def erase (t : Table κ α) (k : κ) : Table κ α := t.filter fun k' _ => k' ≠ k

/-- A key without a value is not there. -/
theorem get?_eq_none {t : Table κ α} {k : κ} : t.get? k = none ↔ k ∉ t.keys := by
  rw [get?, keys, List.lookup_eq_none_iff, List.mem_map]
  constructor
  · rintro h ⟨e, he, rfl⟩
    simpa using h e he
  · intro h e he
    have : k ≠ e.1 := fun hk => h ⟨e, he, hk.symm⟩
    simpa using this

/-- The table with a new key at the end; a key that is there keeps its value. -/
def insertNew (t : Table κ α) (k : κ) (v : α) : Table κ α :=
  if h : t.get? k = none then
    ⟨t.entries ++ [(k, v)], by
      have fresh : k ∉ t.entries.map Prod.fst := get?_eq_none.1 h
      simp only [List.map_append, List.map_cons, List.map_nil, List.nodup_append]
      exact ⟨t.nodup, by simp, by rintro a ha b hb rfl; simp_all⟩⟩
  else t

/-- The table with a value for a key, which keeps its place if it is there. -/
def insert (t : Table κ α) (k : κ) (v : α) : Table κ α :=
  if (t.get? k).isSome then t.adjust k fun _ => v else t.insertNew k v

/-- The table of a list of entries, the later of two with one key winning. It is for those who
have such a list; what is found one by one is inserted one by one. -/
def ofList (entries : List (κ × α)) : Table κ α :=
  entries.foldl (fun t e => t.insert e.1 e.2) empty

/-- The table with one more item in the list of a key. -/
def push (t : Table κ (List α)) (k : κ) (v : α) : Table κ (List α) :=
  t.insert k ((t.get? k).getD [] ++ [v])

omit [DecidableEq κ] in
/-- The table with its keys in a given order. -/
def sortKeys (le : κ → κ → Bool) (t : Table κ α) : Table κ α :=
  ⟨t.entries.mergeSort fun a b => le a.1 b.1,
    ((List.mergeSort_perm _ _).map Prod.fst).nodup_iff.2 t.nodup⟩

/-! ### Look-up

Every operation is known by what it does to the keys and to the value of each key. -/

variable {t : Table κ α} {k k' : κ} {v : α}

/-- An entry is what looking up its key finds. -/
theorem get?_eq_some : t.get? k = some v ↔ (k, v) ∈ t.entries := by
  constructor
  · intro found
    obtain ⟨before, after, split, _⟩ := List.lookup_eq_some_iff.1 found
    simp [split]
  · intro mem
    obtain ⟨before, after, split⟩ := List.append_of_mem mem
    refine List.lookup_eq_some_iff.2 ⟨before, after, split, fun e he => ?_⟩
    -- an earlier entry with the key would make the key occur twice
    have distinct := t.nodup
    rw [split, List.map_append, List.nodup_append] at distinct
    have ne := distinct.2.2 e.1 (List.mem_map_of_mem he) k (by simp)
    exact bne_iff_ne.2 (Ne.symm ne)

/-- Only what looking up a key finds stands under the key. -/
theorem filter_entries_eq (t : Table κ α) (k : κ) :
    (t.entries.filter fun e => e.1 = k) = ((t.get? k).map fun v => (k, v)).toList := by
  cases found : t.get? k with
  | none =>
    exact List.filter_eq_nil_iff.2 fun e mem same =>
      get?_eq_none.1 found (List.mem_map.2 ⟨e, mem, of_decide_eq_true same⟩)
  | some v =>
    obtain ⟨before, after, split, _⟩ := List.lookup_eq_some_iff.1 found
    have distinct := t.nodup
    rw [split, (List.perm_middle.map Prod.fst).nodup_iff, List.map_cons,
      List.nodup_cons] at distinct
    have others : ∀ e ∈ before ++ after, ¬ decide (e.1 = k) = true := fun e mem same =>
      distinct.1 (List.mem_map.2 ⟨e, mem, of_decide_eq_true same⟩)
    rw [List.forall_mem_append] at others
    rw [split, List.filter_append, List.filter_cons_of_pos (by simp),
      List.filter_eq_nil_iff.2 others.1, List.filter_eq_nil_iff.2 others.2, List.nil_append]
    rfl

/-- The values are what looking up keys finds. -/
theorem mem_values : v ∈ t.values ↔ ∃ k, t.get? k = some v := by
  simp [values, get?_eq_some]

/-- Where the values tell their keys, they tell them in order. -/
theorem map_values_eq_keys {f : α → κ} (tells : ∀ k v, t.get? k = some v → f v = k) :
    t.values.map f = t.keys := by
  rw [values, keys, List.map_map]
  exact List.map_congr_left fun e he => tells e.1 e.2 (get?_eq_some.2 he)

theorem contains_iff : t.contains k = true ↔ k ∈ t.keys := by
  rw [contains, Option.isSome_iff_ne_none, ne_eq, get?_eq_none, Decidable.not_not]

omit [DecidableEq κ] in
@[simp] theorem keys_empty : (empty : Table κ α).keys = [] := rfl

@[simp] theorem get?_empty : (empty : Table κ α).get? k = none := rfl

omit [DecidableEq κ] in
@[simp] theorem keys_map (f : κ → α → β) : (t.map f).keys = t.keys := by
  simp [keys, map, Function.comp_def]

@[simp] theorem get?_map (f : κ → α → β) : (t.map f).get? k = (t.get? k).map (f k) := by
  cases found : t.get? k with
  | none =>
    rw [get?_eq_none] at found
    rw [Option.map_none, get?_eq_none, keys_map]
    exact found
  | some v =>
    rw [get?_eq_some] at found
    rw [Option.map_some, get?_eq_some]
    exact List.mem_map.2 ⟨(k, v), found, rfl⟩

@[simp] theorem keys_adjust (f : α → α) : (t.adjust k f).keys = t.keys := keys_map _

/-- Only the value of the key changes. -/
theorem get?_adjust (f : α → α) :
    (t.adjust k f).get? k' = if k' = k then (t.get? k).map f else t.get? k' := by
  rw [adjust, get?_map]
  split
  · next same => rw [same]
  · exact Option.map_id'

/-- Exactly the key goes. -/
theorem get?_erase : (t.erase k).get? k' = if k' = k then none else t.get? k' := by
  ext v
  split
  · next same => simp [get?_eq_some, erase, filter, same]
  · next other => simp [get?_eq_some, erase, filter, other]

/-- A new key comes last. -/
theorem keys_insertNew :
    (t.insertNew k v).keys = if k ∈ t.keys then t.keys else t.keys ++ [k] := by
  rw [insertNew]
  split
  · next absent => rw [if_neg (get?_eq_none.1 absent)]; simp [keys]
  · next present => rw [if_pos (Decidable.not_not.1 (mt get?_eq_none.2 present))]

theorem get?_insertNew :
    (t.insertNew k v).get? k' = if k' = k then some ((t.get? k).getD v) else t.get? k' := by
  rw [insertNew]
  split
  · next absent =>
    rw [absent]
    split
    · next same => rw [get?_eq_some, same]; simp
    · next other =>
      ext w
      simp [get?_eq_some, other]
  · next present =>
    split
    · next same =>
      obtain ⟨w, found⟩ := Option.ne_none_iff_exists'.1 present
      rw [same, found, Option.getD_some]
    · rfl

/-- A key that is there keeps its place, and a new one comes last. -/
theorem keys_insert : (t.insert k v).keys = if k ∈ t.keys then t.keys else t.keys ++ [k] := by
  rw [insert]
  split
  · next found => rw [keys_adjust, if_pos (contains_iff.1 found)]
  · exact keys_insertNew

theorem get?_insert : (t.insert k v).get? k' = if k' = k then some v else t.get? k' := by
  rw [insert]
  split
  · next found =>
    rw [get?_adjust]
    obtain ⟨w, hw⟩ := Option.isSome_iff_exists.1 found
    rw [hw, Option.map_some]
  · next absent =>
    rw [get?_insertNew, Option.not_isSome_iff_eq_none.1 absent, Option.getD_none]

end Table

end PackPlan
