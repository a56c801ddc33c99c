import Mathlib.Order.Bounds.Basic
import PackPlan.Record

/-!
# What records come down to

Records of one asset come down to a single record: the asset's path is the one that any of
them names, and its pack is the least that is given to the asset or, by records without an
identity, to its path. Records whose path no asset claims come down to one record for each
path. Here this is said of lists of records alone, without regard to how it is computed.

## Main definitions

* `Record.identity?`, `Record.summary` — the identity of a record, and what counts of it
* `Occurs`, `Carries`, `IsPathOf`, `Waits` — the ids and paths that occur
* `packsOfId`, `packsAtPath` — the packs that are given to an id, to a path
* `PathConsistent`, `Unambiguous` — when ids and paths determine each other, and what of
  that a merge needs
* `IsMergedAt`, `IsWaitingAt` — the record that an id, a path comes down to
* `IsMerge` — what records come down to

## Main results

* `PathConsistent.unambiguous` — path-consistent records can be merged
* `IsMerge.congr` — what records come down to depends on them alone, not on their order
* `IsMerge.mem_summary_iff` — two merges of the same records have the same summaries
-/

namespace PackPlan

/-- The identity of a record, if it has one. The nil guid identifies nothing, whatever the
sub id. -/
def Record.identity? (r : Record) : Option AssetId := if r.hasIdentity then some r.id else none

/-- What counts of a record: its identity, its path and its pack. -/
def Record.summary (r : Record) : Option AssetId × String × Int := (r.identity?, r.path, r.pack)

theorem Record.identity?_eq_some {r : Record} {id : AssetId} :
    r.identity? = some id ↔ r.hasIdentity = true ∧ r.id = id := by
  unfold identity?
  split <;> simp_all

theorem Record.identity?_eq_none {r : Record} : r.identity? = none ↔ r.hasIdentity = false := by
  unfold identity?
  split <;> simp_all

variable {rs rs' merged merged' : List Record} {r k w : Record} {id id' : AssetId}
  {path path' : String}

/-! ### Ids, paths and packs -/

/-- An id occurs among records. -/
def Occurs (rs : List Record) (id : AssetId) : Prop := ∃ r ∈ rs, r.identity? = some id

/-- A path occurs with an id among records. -/
def Carries (rs : List Record) (id : AssetId) (path : String) : Prop :=
  path ≠ "" ∧ ∃ r ∈ rs, r.identity? = some id ∧ r.path = path

/-- The path of an id is one that occurs with it, or empty if none does. -/
def IsPathOf (rs : List Record) (id : AssetId) (path : String) : Prop :=
  Carries rs id path ∨ path = "" ∧ ∀ p, ¬ Carries rs id p

/-- A path waits if it occurs without an id and with no id. -/
def Waits (rs : List Record) (path : String) : Prop :=
  (∃ r ∈ rs, r.identity? = none ∧ r.path = path) ∧ ∀ id, ¬ Carries rs id path

/-- The packs that are given to an id. -/
def packsOfId (rs : List Record) (id : AssetId) : Set Int :=
  {pack | ∃ r ∈ rs, r.identity? = some id ∧ r.pack = pack}

/-- The packs that are given to a path by records without an identity. -/
def packsAtPath (rs : List Record) (path : String) : Set Int :=
  {pack | ∃ r ∈ rs, r.identity? = none ∧ r.path = path ∧ r.pack = pack}

/-- Ids and paths determine each other: no id occurs with two paths, and no path with two
ids. -/
def PathConsistent (rs : List Record) : Prop :=
  (∀ r ∈ rs, ∀ r' ∈ rs, r.hasIdentity = true → r'.hasIdentity = true → r.id = r'.id →
    r.path ≠ "" → r'.path ≠ "" → r.path = r'.path) ∧
  ∀ r ∈ rs, ∀ r' ∈ rs, r.hasIdentity = true → r'.hasIdentity = true → r.path ≠ "" →
    r.path = r'.path → r.id = r'.id

instance : DecidablePred PathConsistent := fun rs =>
  inferInstanceAs (Decidable (
    (∀ r ∈ rs, ∀ r' ∈ rs, r.hasIdentity = true → r'.hasIdentity = true → r.id = r'.id →
      r.path ≠ "" → r'.path ≠ "" → r.path = r'.path) ∧
    ∀ r ∈ rs, ∀ r' ∈ rs, r.hasIdentity = true → r'.hasIdentity = true → r.path ≠ "" →
      r.path = r'.path → r.id = r'.id))

/-- What a merge needs of its records: each has an id or a path, no id occurs with two
paths, and a path that occurs without an id belongs to one id at most. -/
structure Unambiguous (rs : List Record) : Prop where
  /-- A record without an identity has a path. -/
  named : ∀ r ∈ rs, r.identity? = none → r.path ≠ ""
  /-- No id occurs with two paths. -/
  path_unique : ∀ {id path path'}, Carries rs id path → Carries rs id path' → path = path'
  /-- A path that occurs without an id occurs with one id at most. -/
  id_unique : ∀ {id id'}, ∀ r ∈ rs, r.identity? = none → Carries rs id r.path →
    Carries rs id' r.path → id = id'

/-- Where ids and paths determine each other, a merge has all it needs. -/
theorem PathConsistent.unambiguous (consistent : PathConsistent rs)
    (named : ∀ r ∈ rs, r.hasIdentity = true ∨ r.path ≠ "") : Unambiguous rs where
  named r mem anonymous := by
    rw [Record.identity?_eq_none] at anonymous
    exact (named r mem).resolve_left (by simp [anonymous])
  path_unique := by
    rintro id _ _ ⟨nonempty, r, mem, same, rfl⟩ ⟨nonempty', r', mem', same', rfl⟩
    rw [Record.identity?_eq_some] at same same'
    exact consistent.1 r mem r' mem' same.1 same'.1 (same.2.trans same'.2.symm) nonempty nonempty'
  id_unique := by
    rintro id id' w - - ⟨nonempty, r, mem, same, at'⟩ ⟨-, r', mem', same', at''⟩
    rw [Record.identity?_eq_some] at same same'
    rw [← same.2, ← same'.2]
    exact consistent.2 r mem r' mem' same.1 same'.1 (at' ▸ nonempty) (at'.trans at''.symm)

/-- Fewer records are no more ambiguous. -/
theorem Unambiguous.mono (h : Unambiguous rs') (sub : ∀ r ∈ rs, r ∈ rs') : Unambiguous rs := by
  have carries : ∀ {id path}, Carries rs id path → Carries rs' id path := by
    rintro id path ⟨nonempty, r, mem, rest⟩
    exact ⟨nonempty, r, sub r mem, rest⟩
  exact {
    named := fun r mem => h.named r (sub r mem)
    path_unique := fun first second => h.path_unique (carries first) (carries second)
    id_unique := fun r mem anonymous first second =>
      h.id_unique r (sub r mem) anonymous (carries first) (carries second) }

/-- An id has one path only. -/
theorem Unambiguous.isPathOf_unique (h : Unambiguous rs) (first : IsPathOf rs id path)
    (second : IsPathOf rs id path') : path = path' := by
  rcases first with carried | ⟨rfl, none⟩ <;> rcases second with carried' | ⟨rfl, none'⟩
  · exact h.path_unique carried carried'
  · exact absurd carried (none' _)
  · exact absurd carried' (none _)
  · rfl

/-- No pack is given to the empty path. -/
theorem Unambiguous.packsAtPath_empty (h : Unambiguous rs) : packsAtPath rs "" = ∅ := by
  refine Set.eq_empty_of_forall_notMem ?_
  rintro pack ⟨r, mem, anonymous, empty, -⟩
  exact h.named r mem anonymous empty

/-! ### What ids and paths come down to -/

/-- The record that an id comes down to. -/
structure IsMergedAt (rs : List Record) (id : AssetId) (k : Record) : Prop where
  /-- It is the record of the id. -/
  identity : k.identity? = some id
  /-- The id occurs. -/
  occurs : Occurs rs id
  /-- Its path is the one that occurs with the id. -/
  path : IsPathOf rs id k.path
  /-- Its pack is the least that is given to the id or to its path. -/
  pack : IsLeast (packsOfId rs id ∪ packsAtPath rs k.path) k.pack

/-- The record that a path comes down to. -/
structure IsWaitingAt (rs : List Record) (path : String) (w : Record) : Prop where
  /-- It has no identity. -/
  anonymous : w.identity? = none
  /-- It is the record of the path. -/
  place : w.path = path
  /-- No id claims the path. -/
  waits : Waits rs path
  /-- Its pack is the least that is given to the path. -/
  pack : IsLeast (packsAtPath rs path) w.pack

/-- What records come down to: one record for each id that occurs, one for each path that
waits, and nothing else. -/
structure IsMerge (rs merged : List Record) : Prop where
  /-- No record is there twice. -/
  nodup : merged.Nodup
  /-- Every id that occurs has one record. -/
  one_of_id : ∀ id, Occurs rs id → ∃! k, k ∈ merged ∧ k.identity? = some id
  /-- Every path that waits has one record. -/
  one_of_path : ∀ path, Waits rs path →
    ∃! w, w ∈ merged ∧ w.identity? = none ∧ w.path = path
  /-- A record with an identity is what its id comes down to. -/
  mergedAt : ∀ k ∈ merged, ∀ id, k.identity? = some id → IsMergedAt rs id k
  /-- A record without one is what its path comes down to. -/
  waitingAt : ∀ w ∈ merged, w.identity? = none → IsWaitingAt rs w.path w

/-- What an id comes down to is decided but for where its container holds it. -/
theorem IsMergedAt.summary_eq (h : Unambiguous rs) (first : IsMergedAt rs id k)
    (second : IsMergedAt rs id w) : k.summary = w.summary := by
  have path := h.isPathOf_unique first.path second.path
  have pack : k.pack = w.pack := first.pack.unique (path ▸ second.pack)
  simp only [Record.summary, first.identity, second.identity, path, pack]

/-- What a path comes down to is decided but for where its container holds it. -/
theorem IsWaitingAt.summary_eq (first : IsWaitingAt rs path k)
    (second : IsWaitingAt rs path w) : k.summary = w.summary := by
  have pack : k.pack = w.pack := first.pack.unique second.pack
  simp only [Record.summary, first.anonymous, second.anonymous, first.place, second.place, pack]

/-- What records come down to depends on its members alone. -/
theorem IsMergedAt.congr (h : IsMergedAt rs id k) (same : ∀ r, r ∈ rs ↔ r ∈ rs') :
    IsMergedAt rs' id k where
  identity := h.identity
  occurs := by simpa only [Occurs, same] using h.occurs
  path := by simpa only [IsPathOf, Carries, same] using h.path
  pack := by simpa only [packsOfId, packsAtPath, same] using h.pack

theorem IsWaitingAt.congr (h : IsWaitingAt rs path w) (same : ∀ r, r ∈ rs ↔ r ∈ rs') :
    IsWaitingAt rs' path w where
  anonymous := h.anonymous
  place := h.place
  waits := by simpa only [Waits, Carries, same] using h.waits
  pack := by simpa only [packsAtPath, same] using h.pack

theorem IsMerge.congr (h : IsMerge rs merged) (same : ∀ r, r ∈ rs ↔ r ∈ rs') :
    IsMerge rs' merged where
  nodup := h.nodup
  one_of_id id occurs := h.one_of_id id (by simpa only [Occurs, same] using occurs)
  one_of_path path waits := h.one_of_path path (by simpa only [Waits, Carries, same] using waits)
  mergedAt k mem id identity := (h.mergedAt k mem id identity).congr same
  waitingAt w mem anonymous := (h.waitingAt w mem anonymous).congr same

/-- Summaries of a merge are summaries of every other merge of the same records. -/
theorem IsMerge.summary_mem (h : Unambiguous rs) (first : IsMerge rs merged)
    (second : IsMerge rs merged') {t : Option AssetId × String × Int}
    (listed : t ∈ merged.map Record.summary) : t ∈ merged'.map Record.summary := by
  obtain ⟨k, mem, rfl⟩ := List.mem_map.1 listed
  refine List.mem_map.2 ?_
  cases identity : k.identity? with
  | some id =>
    have here := first.mergedAt k mem id identity
    obtain ⟨k', ⟨mem', identity'⟩, -⟩ := second.one_of_id id here.occurs
    exact ⟨k', mem', (second.mergedAt k' mem' id identity').summary_eq h here⟩
  | none =>
    have here := first.waitingAt k mem identity
    obtain ⟨w, ⟨mem', anonymous, same⟩, -⟩ := second.one_of_path k.path here.waits
    exact ⟨w, mem', (same ▸ second.waitingAt w mem' anonymous).summary_eq here⟩

/-- Two merges of the same records have the same summaries. -/
theorem IsMerge.mem_summary_iff (h : Unambiguous rs) (first : IsMerge rs merged)
    (second : IsMerge rs merged') (t : Option AssetId × String × Int) :
    t ∈ merged.map Record.summary ↔ t ∈ merged'.map Record.summary :=
  ⟨first.summary_mem h second, second.summary_mem h first⟩

end PackPlan
