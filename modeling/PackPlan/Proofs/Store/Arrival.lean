import Mathlib.Data.List.Basic
import Mathlib.Data.List.Induction
import PackPlan.Proofs.Store.Changes
import PackPlan.Proofs.Store.Merge

/-!
# Records in order of arrival

A store takes any records, also some that give an id two paths or a path to two ids. Then
the order of arrival decides: an id takes the first path that comes with it, a path goes to
the first id that takes it, and what comes in under a path without an identity goes to the
id that the path goes to, whether it comes before or after. This is what the tables of a
store hold after any records, one by one.

## Main definitions

* `packsWhere` — the packs that are given by the records of some kind
* `firstPath?` — the path that an id takes
* `claimant?` — the id that a path goes to
* `absorbed` — the packs that come to an id through a path
* `IsTakenAs` — what the records make of an id
* `Tracking` — a store holds what the records so far make of ids and paths

## Main results

* `firstPath?_concat`, `claimant?_concat` — one more record decides what was open
* `Tracking.add` — one more record, whichever way it comes in
* `exists_tracking_combine?` — the store of any sources
* `Tracking.exists_mem_records_iff` — the store of records with an identity
-/

namespace PackPlan

variable {rs : List Record} {r k w : Record} {id id' : AssetId} {path : String} {s : Store}

/-! ### One more record -/

theorem occurs_concat : Occurs (rs ++ [r]) id ↔ Occurs rs id ∨ r.identity? = some id := by
  simp [Occurs, or_and_right, exists_or]

/-- The packs that are given by the records of some kind. -/
def packsWhere (kind : Record → Prop) (rs : List Record) : Set Int :=
  {pack | ∃ r ∈ rs, kind r ∧ r.pack = pack}

section PacksWhere

variable {kind : Record → Prop}

theorem packsWhere_concat_of_pos (here : kind r) :
    packsWhere kind (rs ++ [r]) = insert r.pack (packsWhere kind rs) := by
  ext pack
  simp only [packsWhere, List.mem_append, List.mem_singleton, Set.mem_ofPred_eq,
    Set.mem_insert_iff]
  constructor
  · rintro ⟨r', mem | rfl, same, rfl⟩
    · exact Or.inr ⟨r', mem, same, rfl⟩
    · exact Or.inl rfl
  · rintro (rfl | ⟨r', mem, same, rfl⟩)
    · exact ⟨r, Or.inr rfl, here, rfl⟩
    · exact ⟨r', Or.inl mem, same, rfl⟩

theorem packsWhere_concat_of_neg (other : ¬ kind r) :
    packsWhere kind (rs ++ [r]) = packsWhere kind rs := by
  ext pack
  simp only [packsWhere, List.mem_append, List.mem_singleton, Set.mem_ofPred_eq]
  constructor
  · rintro ⟨r', mem | rfl, same, rfl⟩
    · exact ⟨r', mem, same, rfl⟩
    · exact absurd same other
  · rintro ⟨r', mem, same, rfl⟩
    exact ⟨r', Or.inl mem, same, rfl⟩

end PacksWhere

theorem packsAtPath_eq_packsWhere (rs : List Record) (path : String) :
    packsAtPath rs path = packsWhere (fun r => r.identity? = none ∧ r.path = path) rs := by
  simp only [packsAtPath, packsWhere, and_assoc]

theorem packsOfId_concat_of_eq (same : r.identity? = some id) :
    packsOfId (rs ++ [r]) id = insert r.pack (packsOfId rs id) :=
  packsWhere_concat_of_pos same

theorem packsOfId_concat_of_ne (other : r.identity? ≠ some id) :
    packsOfId (rs ++ [r]) id = packsOfId rs id :=
  packsWhere_concat_of_neg other

theorem packsAtPath_concat_of_eq (anonymous : r.identity? = none) :
    packsAtPath (rs ++ [r]) r.path = insert r.pack (packsAtPath rs r.path) := by
  rw [packsAtPath_eq_packsWhere, packsAtPath_eq_packsWhere,
    packsWhere_concat_of_pos ⟨anonymous, rfl⟩]

theorem packsAtPath_concat_of_ne (elsewhere : r.identity? = none → r.path ≠ path) :
    packsAtPath (rs ++ [r]) path = packsAtPath rs path := by
  rw [packsAtPath_eq_packsWhere, packsAtPath_eq_packsWhere,
    packsWhere_concat_of_neg fun here => elsewhere here.1 here.2]

theorem packsOfId_append {added : List Record} :
    packsOfId (rs ++ added) id = packsOfId rs id ∪ packsOfId added id := by
  ext p
  simp only [packsOfId, Set.mem_ofPred_eq, Set.mem_union, List.mem_append, or_and_right, exists_or]

theorem packsOfId_eq_empty (missing : ¬ Occurs rs id) : packsOfId rs id = ∅ := by
  refine Set.eq_empty_of_forall_notMem ?_
  rintro pack ⟨r, mem, identity, -⟩
  exact missing ⟨r, mem, identity⟩

/-! ### The path of an id -/

/-- The path that an id takes: the first that comes with it. -/
def firstPath? (rs : List Record) (id : AssetId) : Option String :=
  (rs.find? fun r => r.identity? = some id ∧ r.path ≠ "").map Record.path

theorem firstPath?_concat : firstPath? (rs ++ [r]) id =
    (firstPath? rs id).or (if r.identity? = some id ∧ r.path ≠ "" then some r.path else none) := by
  rw [firstPath?, firstPath?, List.find?_append, Option.map_or]
  by_cases names : r.identity? = some id ∧ r.path ≠ "" <;> simp [names]

/-- More records leave an id at the path that it has taken. -/
theorem firstPath?_append_of_some {added : List Record} (first : firstPath? rs id = some path) :
    firstPath? (rs ++ added) id = some path := by
  rw [firstPath?] at first ⊢
  rw [List.find?_append, Option.map_or, first, Option.some_or]

/-- An id takes a path that occurs with it. -/
theorem carries_of_firstPath? (first : firstPath? rs id = some path) : Carries rs id path := by
  obtain ⟨r, found, rfl⟩ := Option.map_eq_some_iff.1 first
  have names := List.find?_some found
  rw [decide_eq_true_iff] at names
  exact ⟨names.2, r, List.mem_of_find?_eq_some found, names.1, rfl⟩

/-- An id that occurs with a path takes one. -/
theorem firstPath?_ne_none (carried : Carries rs id path) : firstPath? rs id ≠ none := by
  obtain ⟨nonempty, r, mem, identity, rfl⟩ := carried
  rw [firstPath?, ne_eq, Option.map_eq_none_iff, List.find?_eq_none]
  intro none
  exact none r mem (by simp [identity, nonempty])

/-! ### The id of a path -/

/-- The id of a record, if the record is at a given path and its id takes that path. -/
def taker? (rs : List Record) (path : String) (r : Record) : Option AssetId :=
  r.identity?.filter fun id => r.path = path ∧ firstPath? rs id = some path

theorem taker?_eq_some : taker? rs path r = some id ↔
    r.identity? = some id ∧ r.path = path ∧ firstPath? rs id = some path := by
  simp [taker?, Option.filter_eq_some_iff]

/-- The id that a path goes to: the first to take it. -/
def claimant? (rs : List Record) (path : String) : Option AssetId :=
  rs.findSome? (taker? rs path)

/-- A path goes to an id that takes it. -/
theorem firstPath?_of_claimant? (claim : claimant? rs path = some id) :
    firstPath? rs id = some path := by
  obtain ⟨r, -, taken⟩ := List.exists_of_findSome?_eq_some claim
  exact (taker?_eq_some.1 taken).2.2

/-- A path that an id takes goes to an id. -/
theorem claimant?_ne_none (first : firstPath? rs id = some path) : claimant? rs path ≠ none := by
  obtain ⟨-, r, mem, identity, place⟩ := carries_of_firstPath? first
  intro none
  have taken := List.findSome?_eq_none_iff.1 none r mem
  rw [taker?_eq_some.2 ⟨identity, place, first⟩] at taken
  exact absurd taken (by simp)

/-- What a record does for a path is decided by the records up to it. -/
theorem taker?_concat (mem : w ∈ rs) : taker? (rs ++ [r]) path w = taker? rs path w := by
  ext id
  rw [taker?_eq_some, taker?_eq_some]
  refine and_congr_right fun identity => and_congr_right fun place => ?_
  -- the record gives its id a path, so the first one is decided by then
  by_cases empty : path = ""
  · have never : ∀ rs, firstPath? rs id ≠ some path := fun rs first =>
      (carries_of_firstPath? first).1 empty
    exact iff_of_false (never _) (never _)
  · obtain ⟨first, decided⟩ := Option.ne_none_iff_exists'.1
      (firstPath?_ne_none ⟨empty, w, mem, identity, place⟩)
    rw [firstPath?_append_of_some decided, decided]

theorem claimant?_concat :
    claimant? (rs ++ [r]) path = (claimant? rs path).or (taker? (rs ++ [r]) path r) := by
  have before : rs.findSome? (taker? (rs ++ [r]) path) = claimant? rs path := by
    rw [claimant?, ← List.head?_filterMap, ← List.head?_filterMap,
      List.filterMap_congr fun w mem => taker?_concat mem]
  rw [claimant?, List.findSome?_append, before, List.findSome?_singleton]

/-- A record that brings its id no first path changes nothing about paths. -/
theorem claimant?_concat_of_known
    (known : ∀ id, r.identity? = some id → r.path ≠ "" → firstPath? rs id ≠ none) :
    claimant? (rs ++ [r]) path = claimant? rs path := by
  rw [claimant?_concat]
  cases taken : taker? (rs ++ [r]) path r with
  | none => exact Option.or_none
  | some id =>
    obtain ⟨identity, rfl, first⟩ := taker?_eq_some.1 taken
    obtain ⟨decided, before⟩ := Option.ne_none_iff_exists'.1
      (known id identity (carries_of_firstPath? first).1)
    rw [firstPath?_append_of_some before] at first
    -- the id has taken the path before, so the path has gone to an id
    obtain ⟨id', claim⟩ := Option.ne_none_iff_exists'.1 (claimant?_ne_none (before.trans first))
    rw [claim, Option.some_or]

/-- A record that has only a path leaves every path to the id it goes to. -/
theorem claimant?_concat_of_anonymous (anonymous : r.identity? = none) :
    claimant? (rs ++ [r]) path = claimant? rs path :=
  claimant?_concat_of_known (by simp [anonymous])

/-- A record that brings its id a first path takes that path, if nobody has. -/
theorem claimant?_concat_of_first (identity : r.identity? = some id) (nonempty : r.path ≠ "")
    (fresh : firstPath? rs id = none) :
    claimant? (rs ++ [r]) path =
      (claimant? rs path).or (if path = r.path then some id else none) := by
  have first : firstPath? (rs ++ [r]) id = some r.path := by
    rw [firstPath?_concat, fresh, Option.none_or, if_pos ⟨identity, nonempty⟩]
  rw [claimant?_concat]
  congr 1
  split
  · next here => exact taker?_eq_some.2 ⟨identity, here.symm, here ▸ first⟩
  · next elsewhere =>
    refine Option.eq_none_iff_forall_ne_some.2 fun id' taken => ?_
    exact elsewhere (taker?_eq_some.1 taken).2.1.symm

/-- A path is not taken by an id of which no more is told. -/
theorem claimant?_concat_eq_some_iff (other : r.identity? ≠ some id) :
    claimant? (rs ++ [r]) path = some id ↔ claimant? rs path = some id := by
  rw [claimant?_concat]
  cases claimant? rs path with
  | some id' => rw [Option.some_or]
  | none =>
    rw [Option.none_or]
    exact iff_of_false (fun taken => other (taker?_eq_some.1 taken).1) (by simp)

/-! ### What becomes of an id -/

/-- The packs that come to an id through a path that goes to it. -/
def absorbed (rs : List Record) (id : AssetId) : Set Int :=
  {pack | ∃ path, claimant? rs path = some id ∧ pack ∈ packsAtPath rs path}

/-- No more than one path goes to an id. -/
theorem absorbed_eq (claim : claimant? rs path = some id) :
    absorbed rs id = packsAtPath rs path := by
  ext pack
  constructor
  · rintro ⟨path', claim', given⟩
    have same := (firstPath?_of_claimant? claim).symm.trans (firstPath?_of_claimant? claim')
    rwa [Option.some_inj.1 same]
  · intro given
    exact ⟨path, claim, given⟩

theorem absorbed_eq_empty (unclaimed : ∀ path, claimant? rs path ≠ some id) :
    absorbed rs id = ∅ := by
  refine Set.eq_empty_of_forall_notMem ?_
  rintro pack ⟨path, claim, -⟩
  exact unclaimed path claim

theorem absorbed_eq_empty_of_firstPath? (fresh : firstPath? rs id = none) :
    absorbed rs id = ∅ := by
  refine absorbed_eq_empty fun path claim => ?_
  exact absurd (fresh.symm.trans (firstPath?_of_claimant? claim)) (by simp)

/-- To an id that had no path comes what has come in under its first one, unless that has
gone to another id. -/
theorem absorbed_concat_of_first (identity : r.identity? = some id) (nonempty : r.path ≠ "")
    (fresh : firstPath? rs id = none) :
    absorbed (rs ++ [r]) id = if claimant? rs r.path = none then packsAtPath rs r.path else ∅ := by
  split
  · next free =>
    have claim : claimant? (rs ++ [r]) r.path = some id := by
      rw [claimant?_concat_of_first identity nonempty fresh, free, Option.none_or, if_pos rfl]
    rw [absorbed_eq claim, packsAtPath_concat_of_ne (by simp [identity])]
  · next taken =>
    obtain ⟨id', claim⟩ := Option.ne_none_iff_exists'.1 taken
    refine absorbed_eq_empty fun path claim' => ?_
    rw [claimant?_concat_of_first identity nonempty fresh] at claim'
    by_cases here : path = r.path
    · rw [here, claim, Option.some_or, Option.some_inj] at claim'
      exact absurd (fresh.symm.trans (firstPath?_of_claimant? (claim' ▸ claim))) (by simp)
    · rw [if_neg here, Option.or_none] at claim'
      exact absurd (fresh.symm.trans (firstPath?_of_claimant? claim')) (by simp)

/-- The record that an id is given by records in the order of their arrival. -/
structure IsTakenAs (rs : List Record) (id : AssetId) (k : Record) : Prop where
  /-- It is the record of the id. -/
  identity : k.identity? = some id
  /-- The id occurs. -/
  occurs : Occurs rs id
  /-- Its path is the one that the id takes, if it takes one. -/
  path : k.path = (firstPath? rs id).getD ""
  /-- Its pack is the least that is given to the id or to a path that goes to it. -/
  pack : IsLeast (packsOfId rs id ∪ absorbed rs id) k.pack

/-- The record of an id has no path only if the id takes none. -/
theorem IsTakenAs.path_eq_empty_iff (h : IsTakenAs rs id k) :
    k.path = "" ↔ firstPath? rs id = none := by
  rw [h.path]
  cases first : firstPath? rs id with
  | none => exact iff_of_true rfl rfl
  | some path => exact iff_of_false (carries_of_firstPath? first).1 (by simp)

/-- A record of another id leaves an id as it is, and so does one without an identity, unless
its path goes to the id. -/
theorem IsTakenAs.concat (h : IsTakenAs rs id k) (other : r.identity? ≠ some id)
    (elsewhere : r.identity? = none → claimant? rs r.path ≠ some id) :
    IsTakenAs (rs ++ [r]) id k where
  identity := h.identity
  occurs := occurs_concat.2 (Or.inl h.occurs)
  path := by rw [firstPath?_concat, if_neg fun names => other names.1, Option.or_none, h.path]
  pack := by
    -- what goes to the id is as before, and nothing more comes in under it
    have same : absorbed (rs ++ [r]) id = absorbed rs id := by
      ext pack
      refine exists_congr fun path => ?_
      rw [claimant?_concat_eq_some_iff other]
      refine and_congr_right fun claim => ?_
      rw [packsAtPath_concat_of_ne]
      rintro anonymous rfl
      exact elsewhere anonymous claim
    rw [packsOfId_concat_of_ne other, same]
    exact h.pack

/-- A record that brings an id no first path lowers the pack of the id. -/
theorem IsTakenAs.lower_of (h : IsTakenAs rs id k) (same : r.identity? = some id)
    (known : r.path ≠ "" → firstPath? rs id ≠ none) :
    IsTakenAs (rs ++ [r]) id (k.lowerPack r.pack) where
  identity := h.identity
  occurs := occurs_concat.2 (Or.inl h.occurs)
  path := by
    have first : firstPath? (rs ++ [r]) id = firstPath? rs id := by
      cases before : firstPath? rs id with
      | some path => exact firstPath?_append_of_some before
      | none =>
        rw [firstPath?_concat, before, Option.none_or,
          if_neg fun names => known names.2 before]
    rw [first]
    exact h.path
  pack := by
    have claimant : ∀ path, claimant? (rs ++ [r]) path = claimant? rs path := by
      intro path
      refine claimant?_concat_of_known fun id' identity => ?_
      rwa [← Option.some_inj.1 (same.symm.trans identity)]
    have share : absorbed (rs ++ [r]) id = absorbed rs id := by
      ext pack
      refine exists_congr fun path => ?_
      rw [claimant, packsAtPath_concat_of_ne (by simp [same])]
    rw [packsOfId_concat_of_eq same, share, Set.insert_union]
    change IsLeast _ (min k.pack r.pack)
    rw [min_comm]
    exact h.pack.insert r.pack

/-- A record that has only a path lowers the pack of the id that the path goes to. -/
theorem IsTakenAs.absorb (h : IsTakenAs rs id k) (anonymous : r.identity? = none)
    (claim : claimant? rs r.path = some id) :
    IsTakenAs (rs ++ [r]) id (k.lowerPack r.pack) where
  identity := h.identity
  occurs := occurs_concat.2 (Or.inl h.occurs)
  path := by
    rw [firstPath?_concat, if_neg (by simp [anonymous]), Option.or_none]
    exact h.path
  pack := by
    have claim' := (claimant?_concat_of_anonymous anonymous).trans claim
    have least := h.pack.insert r.pack
    rw [absorbed_eq claim] at least
    rw [packsOfId_concat_of_ne (by simp [anonymous]), absorbed_eq claim',
      packsAtPath_concat_of_eq anonymous, Set.union_insert]
    change IsLeast _ (min k.pack r.pack)
    rwa [min_comm]

/-- A record that brings an id its first path gives it that path, and with it what has come in
under the path, unless the path has gone to another id. -/
theorem IsTakenAs.of_first (same : r.identity? = some id) (nonempty : r.path ≠ "")
    (fresh : firstPath? rs id = none) (identity : k.identity? = some id) (place : k.path = r.path)
    (least : IsLeast (packsOfId (rs ++ [r]) id ∪
      if claimant? rs r.path = none then packsAtPath rs r.path else ∅) k.pack) :
    IsTakenAs (rs ++ [r]) id k where
  identity := identity
  occurs := occurs_concat.2 (Or.inr same)
  path := by
    rw [firstPath?_concat, fresh, Option.none_or, if_pos ⟨same, nonempty⟩]
    exact place
  pack := by rwa [absorbed_concat_of_first same nonempty fresh]

/-! ### What becomes of a store -/

/-- A store holds what the records so far make of ids and paths. -/
structure Tracking (rs : List Record) (s : Store) : Prop where
  /-- An id without a record does not occur. -/
  absent : ∀ id, s.find? id = none → ¬ Occurs rs id
  /-- The record of an id is what the records make of it. -/
  present : ∀ id k, s.find? id = some k → IsTakenAs rs id k
  /-- A path is claimed by the id that it goes to. -/
  claims : ∀ path, s.claims.get? path = claimant? rs path
  /-- Where nothing waits and nobody claims the path nothing has come in under it. -/
  idle : ∀ path, s.pathOnly.get? path = none → claimant? rs path = none →
    packsAtPath rs path = ∅
  /-- What waits at a path that nobody claims has no identity and the least pack. -/
  waiting : ∀ path w, s.pathOnly.get? path = some w → claimant? rs path = none ∧
    w.identity? = none ∧ w.path = path ∧ IsLeast (packsAtPath rs path) w.pack

namespace Tracking

theorem empty : Tracking [] Store.empty where
  absent id _ := by simp [Occurs]
  present id k found := by simp [Store.find?, Store.empty] at found
  claims path := rfl
  idle path _ _ := by simp [packsAtPath]
  waiting path w found := by simp [Store.empty] at found

/-- A record that has only a path lowers the pack of the id that the path goes to. -/
theorem lower (h : Tracking rs s) (anonymous : r.identity? = none)
    (claim : claimant? rs r.path = some id) :
    Tracking (rs ++ [r]) { s with identified := s.identified.adjust id (·.lowerPack r.pack) } := by
  refine ⟨?absent, ?present, ?claims, ?idle, ?waiting⟩
  case absent =>
    intro id' missing
    rw [Store.find?, Table.get?_adjust] at missing
    rw [occurs_concat, anonymous, or_iff_left (by simp)]
    split at missing
    · next same =>
      rw [same]
      exact h.absent id (Option.map_eq_none_iff.1 missing)
    · exact h.absent id' missing
  case present =>
    intro id' k' found
    rw [Store.find?, Table.get?_adjust] at found
    split at found
    · next same =>
      subst same
      obtain ⟨k, there, rfl⟩ := Option.map_eq_some_iff.1 found
      exact (h.present id' k there).absorb anonymous claim
    · next other =>
      refine (h.present id' k' found).concat (by simp [anonymous]) fun _ claim' => ?_
      exact other (Option.some_inj.1 (claim'.symm.trans claim))
  case claims =>
    intro path
    rw [claimant?_concat_of_anonymous anonymous]
    exact h.claims path
  case idle =>
    intro path none free
    rw [claimant?_concat_of_anonymous anonymous] at free
    rw [packsAtPath_concat_of_ne]
    · exact h.idle path none free
    · rintro - rfl
      exact absurd (claim.symm.trans free) (by simp)
  case waiting =>
    intro path w found
    obtain ⟨free, rest⟩ := h.waiting path w found
    rw [claimant?_concat_of_anonymous anonymous, packsAtPath_concat_of_ne]
    · exact ⟨free, rest⟩
    · rintro - rfl
      exact absurd (claim.symm.trans free) (by simp)

/-- A record that has only a path waits there, where nobody claims the path. -/
theorem wait (h : Tracking rs s) (anonymous : r.identity? = none)
    (free : claimant? rs r.path = none) {waiting : Table String Record}
    (get? : ∀ path, waiting.get? path = if path = r.path then
      some ((s.pathOnly.get? r.path).elim r (·.lowerPack r.pack)) else s.pathOnly.get? path) :
    Tracking (rs ++ [r]) { s with pathOnly := waiting } := by
  refine ⟨?absent, ?present, ?claims, ?idle, ?waiting⟩
  case absent =>
    intro id missing
    rw [occurs_concat, anonymous, or_iff_left (by simp)]
    exact h.absent id missing
  case present =>
    intro id k found
    refine (h.present id k found).concat (by simp [anonymous]) fun _ claim => ?_
    exact absurd (free.symm.trans claim) (by simp)
  case claims =>
    intro path
    rw [claimant?_concat_of_anonymous anonymous]
    exact h.claims path
  case idle =>
    intro path none free'
    rw [get?] at none
    split at none
    · exact absurd none (by simp)
    · next other =>
      rw [claimant?_concat_of_anonymous anonymous] at free'
      rw [packsAtPath_concat_of_ne fun _ => Ne.symm other]
      exact h.idle path none free'
  case waiting =>
    intro path w found
    rw [get?] at found
    rw [claimant?_concat_of_anonymous anonymous]
    split at found
    · next same =>
      subst same
      obtain rfl := Option.some_inj.1 found
      rw [packsAtPath_concat_of_eq anonymous]
      cases old : s.pathOnly.get? r.path with
      | none =>
        refine ⟨free, anonymous, rfl, ?_⟩
        rw [h.idle r.path old free]
        simp
      | some w =>
        obtain ⟨-, nameless, place, least⟩ := h.waiting r.path w old
        refine ⟨free, nameless, place, ?_⟩
        change IsLeast _ (min w.pack r.pack)
        rw [min_comm]
        exact least.insert r.pack
    · next other =>
      rw [packsAtPath_concat_of_ne fun _ => Ne.symm other]
      exact h.waiting path w found

/-- One more record that has only a path. -/
theorem addPathOnly (h : Tracking rs s) (anonymous : r.identity? = none) :
    Tracking (rs ++ [r]) (s.addPathOnly r).1 := by
  unfold Store.addPathOnly
  cases claim : s.claims.get? r.path with
  | some id => exact h.lower anonymous ((h.claims r.path).symm.trans claim)
  | none =>
    have free := (h.claims r.path).symm.trans claim
    dsimp only
    split
    · next taken =>
      refine h.wait anonymous free fun path => ?_
      obtain ⟨w, old⟩ := Option.isSome_iff_exists.1 taken
      rw [Table.get?_adjust, old, Option.map_some, Option.elim_some]
    · next empty =>
      refine h.wait anonymous free fun path => ?_
      have old : s.pathOnly.get? r.path = none := by
        rwa [Table.contains, Bool.not_eq_true, Option.isSome_eq_false_iff,
          Option.isNone_iff_eq_none] at empty
      rw [Table.get?_insertNew, old, Option.getD_none, Option.elim_none]

/-- A record of an id that brings the id no first path. -/
theorem keep (h : Tracking rs s) (same : r.identity? = some id)
    (known : r.path ≠ "" → firstPath? rs id ≠ none) {identified : Table AssetId Record}
    (get? : ∀ id', identified.get? id' = if id' = id then some k else s.identified.get? id')
    (here : IsTakenAs (rs ++ [r]) id k) :
    Tracking (rs ++ [r]) { s with identified := identified } := by
  have claimant : ∀ path, claimant? (rs ++ [r]) path = claimant? rs path := by
    intro path
    refine claimant?_concat_of_known fun id' identity => ?_
    rwa [← Option.some_inj.1 (same.symm.trans identity)]
  have packs : ∀ path, packsAtPath (rs ++ [r]) path = packsAtPath rs path :=
    fun path => packsAtPath_concat_of_ne (by simp [same])
  refine ⟨?absent, ?present, ?claims, ?idle, ?waiting⟩
  case absent =>
    intro id' missing
    rw [Store.find?, get?] at missing
    split at missing
    · exact absurd missing (by simp)
    · next other =>
      rw [occurs_concat, same, or_iff_left (by simpa using Ne.symm other)]
      exact h.absent id' missing
  case present =>
    intro id' k' found
    rw [Store.find?, get?] at found
    split at found
    · next at_id =>
      subst at_id
      obtain rfl := Option.some_inj.1 found
      exact here
    · next other =>
      exact (h.present id' k' found).concat (by simpa [same] using Ne.symm other) (by simp [same])
  case claims =>
    intro path
    rw [claimant]
    exact h.claims path
  case idle =>
    intro path none
    rw [claimant, packs]
    exact h.idle path none
  case waiting =>
    intro path w found
    rw [claimant, packs]
    exact h.waiting path w found

/-- What waits at a path is the least of what comes to an id that takes the path. -/
theorem isLeast_union_waiting (h : Tracking rs s) {packs : Set Int} {pack : Int}
    (least : IsLeast packs pack) :
    IsLeast (packs ∪ if claimant? rs path = none then packsAtPath rs path else ∅)
      ((s.pathOnly.get? path).elim pack fun w => min pack w.pack) := by
  cases waits : s.pathOnly.get? path with
  | some w =>
    obtain ⟨free, -, -, waited⟩ := h.waiting path w waits
    rw [if_pos free]
    exact least.union waited
  | none =>
    -- nothing has come in under the path, or it has gone to another id
    have nothing : (if claimant? rs path = none then packsAtPath rs path else ∅) = ∅ := by
      split
      · next free => exact h.idle path waits free
      · rfl
    rwa [nothing, Set.union_empty]

/-- A record of an id that brings the id its first path. -/
theorem learn (h : Tracking rs s) (same : r.identity? = some id) (nonempty : r.path ≠ "")
    (fresh : firstPath? rs id = none) {identified : Table AssetId Record}
    (get? : ∀ id', identified.get? id' = if id' = id then some k else s.identified.get? id')
    (identity : k.identity? = some id) (least : IsLeast (packsOfId (rs ++ [r]) id) k.pack) :
    Tracking (rs ++ [r]) (Store.claimPath { s with identified := identified } id r.path) := by
  have claimant : ∀ path, claimant? (rs ++ [r]) path =
      (claimant? rs path).or (if path = r.path then some id else none) :=
    fun path => claimant?_concat_of_first same nonempty fresh
  have here := Store.find?_claimPath (s := { s with identified := identified }) nonempty
    ((get? id).trans (if_pos rfl))
  have there : ∀ id', id' ≠ id → (Store.claimPath { s with identified := identified } id
      r.path).find? id' = s.find? id' := by
    intro id' other
    rw [Store.find?_claimPath_of_ne other]
    exact (get? id').trans (if_neg other)
  refine ⟨?absent, ?present, ?claims, ?idle, ?waiting⟩
  case absent =>
    intro id' missing
    by_cases at_id : id' = id
    · rw [at_id, here] at missing
      exact absurd missing (by simp)
    · rw [there id' at_id] at missing
      rw [occurs_concat, same, or_iff_left (by simpa using Ne.symm at_id)]
      exact h.absent id' missing
  case present =>
    intro id' k' found
    by_cases at_id : id' = id
    · subst at_id
      rw [here, Option.some_inj] at found
      subst found
      exact .of_first same nonempty fresh identity rfl (h.isLeast_union_waiting least)
    · rw [there id' at_id] at found
      exact (h.present id' k' found).concat (by simpa [same] using Ne.symm at_id) (by simp [same])
  case claims =>
    intro path
    rw [Store.claims_claimPath nonempty, claimant, ← h.claims]
  case idle =>
    intro path none free
    rw [Store.pathOnly_claimPath nonempty] at none
    rw [claimant] at free
    split at none
    · next own =>
      rw [if_pos own, Option.or_eq_none_iff] at free
      exact absurd free.2 (by simp)
    · next elsewhere =>
      rw [if_neg elsewhere, Option.or_none] at free
      rw [packsAtPath_concat_of_ne (by simp [same])]
      exact h.idle path none free
  case waiting =>
    intro path w found
    rw [Store.pathOnly_claimPath nonempty] at found
    split at found
    · exact absurd found (by simp)
    · next elsewhere =>
      rw [claimant, if_neg elsewhere, Option.or_none,
        packsAtPath_concat_of_ne (by simp [same])]
      exact h.waiting path w found

/-- One more record of an id that has a record. -/
theorem addKnown (h : Tracking rs s) (same : r.identity? = some r.id)
    (found : s.find? r.id = some k) : Tracking (rs ++ [r]) (s.addIdentified r).1 := by
  have here := h.present r.id k found
  rw [Store.find?] at found
  have get? : ∀ id', (s.identified.adjust r.id (·.lowerPack r.pack)).get? id' =
      if id' = r.id then some (k.lowerPack r.pack) else s.identified.get? id' := by
    intro id'
    rw [Table.get?_adjust, found, Option.map_some]
  have unnamed := here.path_eq_empty_iff
  simp only [Store.addIdentified, found]
  -- the record is absorbed in one way if the id learns its path from it, in another if not
  by_cases brings : k.path = "" ∧ r.path ≠ ""
  · have fresh := unnamed.1 brings.1
    have least := here.pack
    rw [absorbed_eq_empty_of_firstPath? fresh, Set.union_empty] at least
    rw [if_pos brings.1]
    refine h.learn same brings.2 fresh get? here.identity ?_
    change IsLeast _ (min k.pack r.pack)
    rw [packsOfId_concat_of_eq same, min_comm]
    exact least.insert r.pack
  · have known : r.path ≠ "" → firstPath? rs r.id ≠ none := fun nonempty fresh =>
      brings ⟨unnamed.2 fresh, nonempty⟩
    have kept := h.keep same known get? (here.lower_of same known)
    by_cases nothing : k.path = ""
    · have empty : r.path = "" := by
        rwa [not_and, ne_eq, Decidable.not_not, imp_iff_right nothing] at brings
      rw [if_pos nothing, Store.claimPath, if_pos empty]
      exact kept
    · rw [if_neg nothing]
      exact kept

/-- The first record of an id. -/
theorem addFirst (h : Tracking rs s) (same : r.identity? = some r.id)
    (missing : s.find? r.id = none) : Tracking (rs ++ [r]) (s.addIdentified r).1 := by
  have new := h.absent r.id missing
  have fresh : firstPath? rs r.id = none := by
    refine Option.eq_none_iff_forall_ne_some.2 fun path first => ?_
    obtain ⟨-, r', mem, identity, -⟩ := carries_of_firstPath? first
    exact new ⟨r', mem, identity⟩
  have least : IsLeast (packsOfId (rs ++ [r]) r.id) r.pack := by
    rw [packsOfId_concat_of_eq same, packsOfId_eq_empty new]
    simp
  have get? : ∀ id', (s.identified.insertNew r.id r).get? id' =
      if id' = r.id then some r else s.identified.get? id' :=
    fun _ => Store.find?_insertNew missing
  rw [Store.find?] at missing
  simp only [Store.addIdentified, missing]
  by_cases nothing : r.path = ""
  · rw [Store.claimPath, if_pos nothing]
    have still : firstPath? (rs ++ [r]) r.id = none := by
      rw [firstPath?_concat, fresh, Option.none_or, if_neg fun names => names.2 nothing]
    refine h.keep same (absurd nothing) get? ⟨same, occurs_concat.2 (Or.inr same), ?_, ?_⟩
    · rw [still, nothing, Option.getD_none]
    · rwa [absorbed_eq_empty_of_firstPath? still, Set.union_empty]
  · exact h.learn same nothing fresh get? same least

/-- One more record with an identity. -/
theorem addIdentified (h : Tracking rs s) (same : r.identity? = some r.id) :
    Tracking (rs ++ [r]) (s.addIdentified r).1 := by
  cases found : s.find? r.id with
  | some k => exact h.addKnown same found
  | none => exact h.addFirst same found

/-- One more record, whichever way it comes in. -/
theorem add (h : Tracking rs s) (named : r.identity? = none → r.path ≠ "") :
    ∃ s' known, s.add? r = some (s', known) ∧ Tracking (rs ++ [r]) s' := by
  unfold Store.add?
  cases identity : r.identity? with
  | some id =>
    obtain ⟨valid, rfl⟩ := Record.identity?_eq_some.1 identity
    rw [if_pos valid]
    exact ⟨_, _, rfl, h.addIdentified identity⟩
  | none =>
    rw [if_neg (by simp [Record.identity?_eq_none.1 identity]), if_neg (named identity)]
    exact ⟨_, _, rfl, h.addPathOnly identity⟩

end Tracking

/-- Sources in which every record has an identity or a path are combined, and the store
holds what they make of ids and paths. -/
theorem exists_tracking_combine? (sources : List (List Record))
    (named : ∀ r ∈ sources.flatten, r.identity? = none → r.path ≠ "") :
    ∃ s, Store.combine? sources = some s ∧ Tracking sources.flatten s := by
  unfold Store.combine?
  generalize sources.flatten = rs at named ⊢
  -- the last record comes into a store that holds what the others come to
  induction rs using List.reverseRecOn with
  | nil => exact ⟨Store.empty, rfl, Tracking.empty⟩
  | append_singleton rs r ih =>
    obtain ⟨s, combined, tracking⟩ := ih fun r' mem => named r' (List.mem_append_left _ mem)
    obtain ⟨s', known, added, tracking'⟩ := tracking.add (named r (by simp))
    refine ⟨s', ?_, tracking'⟩
    rw [List.foldlM_append, combined]
    simp [added]

/-! ### Records with an identity -/

section Identified

variable {pack : Int} (identified : ∀ r ∈ rs, r.identity? = some r.id)
include identified

theorem packsAtPath_of_identified : packsAtPath rs path = ∅ := by
  refine Set.eq_empty_of_forall_notMem ?_
  rintro pack ⟨r, mem, anonymous, -⟩
  rw [identified r mem] at anonymous
  cases anonymous

/-- Taken one by one, they leave a store of what they make of their ids. -/
theorem tracking_foldl_addIdentified :
    Tracking rs (rs.foldl (fun s r => (s.addIdentified r).1) .empty) := by
  induction rs using List.reverseRecOn with
  | nil => exact Tracking.empty
  | append_singleton rs r ih =>
    rw [List.foldl_append, List.foldl_cons, List.foldl_nil]
    have before := ih fun r' mem => identified r' (List.mem_append_left _ mem)
    exact before.addIdentified (identified r (by simp))

/-- The pack of a record is the least that is given to its id. -/
theorem IsTakenAs.isLeast (h : IsTakenAs rs id k) : IsLeast (packsOfId rs id) k.pack := by
  have nothing : absorbed rs id = ∅ := by
    refine Set.eq_empty_of_forall_notMem ?_
    rintro pack ⟨path, -, given⟩
    rwa [packsAtPath_of_identified identified] at given
  have least := h.pack
  rwa [nothing, Set.union_empty] at least

/-- The records of such a store are those of the ids that occur. -/
theorem Tracking.mem_records_iff (h : Tracking rs s) :
    k ∈ s.records ↔ s.find? k.id = some k := by
  rw [Store.mem_records]
  constructor
  · rintro (⟨id, found⟩ | ⟨path, found⟩)
    · rwa [(Record.identity?_eq_some.1 (h.present id k found).identity).2]
    · obtain ⟨-, -, -, least⟩ := h.waiting path k found
      rw [packsAtPath_of_identified identified] at least
      exact absurd least.1 (Set.notMem_empty _)
  · intro found
    exact Or.inl ⟨k.id, found⟩

/-- An id has a record with the least of the packs that are given to it. -/
theorem Tracking.exists_mem_records_iff (h : Tracking rs s) :
    (∃ k ∈ s.records, k.id = id ∧ k.pack = pack) ↔ IsLeast (packsOfId rs id) pack := by
  constructor
  · rintro ⟨k, mem, rfl, rfl⟩
    exact (h.present k.id k ((h.mem_records_iff identified).1 mem)).isLeast identified
  · intro least
    obtain ⟨r, mem, identity, -⟩ := least.1
    cases found : s.find? id with
    | none => exact absurd ⟨r, mem, identity⟩ (h.absent id found)
    | some k =>
      have taken := h.present id k found
      obtain ⟨-, rfl⟩ := Record.identity?_eq_some.1 taken.identity
      exact ⟨k, (h.mem_records_iff identified).2 found, rfl,
        (taken.isLeast identified).unique least⟩

end Identified

end PackPlan
