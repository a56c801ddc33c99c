import PackPlan.Proofs.Store.Repack

/-!
# Changes of a store

A store grows and shrinks by single changes: a record comes in, the record of an id goes,
packs are set. Few of them touch anything but packs. What each can do to the three tables
of a store is said here once, and from it that after any changes the tables agree with each
other: every record stands under its own key, a path that an id claims is the path of that
id's record, and nothing waits at a claimed path.

## Main definitions

* `Store.Change`, `Store.change`, `Store.after` — one change, and the store after several
* `Record.place`, `Store.SamePlaces` — stores that differ in packs alone
* `Store.Effect` — what a change can do
* `Store.Coherent` — the tables agree with each other

## Main results

* `Store.find?_claimPath`, `Store.claims_remove` and their like — what a table holds after an
  id takes a path or loses its record
* `Store.effect_change` — every change has one of five effects
* `Store.coherent_after` — the tables agree after any changes
* `Store.tables_agree_after` — so looking up a path finds what its claim names, at that path
-/

namespace PackPlan

/-- Where a record belongs. -/
def Record.place (r : Record) : AssetId × String := (r.id, r.path)

namespace Store

/-- One change of a store. -/
inductive Change
  | add (r : Record)
  | addAsset (id : AssetId) (path : String) (pack : Int)
  | remove (id : AssetId)
  | setPack (id : AssetId) (pack : Int)
  | overridePacks (pack : Int) (ids : Option (List AssetId))

/-- The store with one more record, unless the record is refused. -/
def takeIn (s : Store) (r : Record) : Store := ((s.add? r).map Prod.fst).getD s

/-- The store after a change. -/
def change (s : Store) : Change → Store
  | .add r => s.takeIn r
  | .addAsset id path pack => s.takeIn { id, path, pack }
  | .remove id => s.remove id
  | .setPack id pack => s.setPack id pack
  | .overridePacks pack ids => (s.overridePacks pack ids).1

/-- The store after changes of the empty one. -/
def after (changes : List Change) : Store := changes.foldl change empty

variable {s t u : Store} {c : Change} {r k : Record} {id id' : AssetId} {path path' : String}
  {pack : Int}

/-! ### The tables after a change -/

/-- An id that has no record gets one. -/
theorem find?_insertNew (missing : s.find? r.id = none) :
    find? { s with identified := s.identified.insertNew r.id r } id =
      if id = r.id then some r else s.find? id := by
  rw [find?] at missing
  rw [find?, Table.get?_insertNew, missing, Option.getD_none]
  rfl

/-- An id that takes a path gets the pack of what waits there, if that is less. -/
theorem find?_claimPath (nonempty : path ≠ "") (found : s.find? id = some k) :
    (s.claimPath id path).find? id = some { k with
      path := path
      pack := (s.pathOnly.get? path).elim k.pack fun w => min k.pack w.pack } := by
  rw [find?] at found
  rw [claimPath, if_neg nonempty, find?, Table.get?_adjust, if_pos rfl, found, Option.map_some]
  cases s.pathOnly.get? path <;> rfl

theorem find?_claimPath_of_ne (other : id' ≠ id) :
    (s.claimPath id path).find? id' = s.find? id' := by
  rw [claimPath]
  split
  · rfl
  · rw [find?, Table.get?_adjust, if_neg other]
    rfl

/-- A path is claimed once. -/
theorem claims_claimPath (nonempty : path ≠ "") :
    (s.claimPath id path).claims.get? path' =
      (s.claims.get? path').or (if path' = path then some id else none) := by
  rw [claimPath, if_neg nonempty, Table.get?_insertNew]
  split
  · next same =>
    rw [same]
    cases s.claims.get? path <;> rfl
  · exact Option.or_none.symm

/-- Nothing waits at a path that is taken. -/
theorem pathOnly_claimPath (nonempty : path ≠ "") :
    (s.claimPath id path).pathOnly.get? path' =
      if path' = path then none else s.pathOnly.get? path' := by
  rw [claimPath, if_neg nonempty, Table.get?_erase]

theorem find?_remove (found : s.find? id = some k) :
    (s.remove id).find? id' = if id' = id then none else s.find? id' := by
  rw [find?] at found
  rw [remove, found]
  exact Table.get?_erase

/-- With its record an id loses its claim to the path of the record. -/
theorem claims_remove (found : s.find? id = some k) : (s.remove id).claims.get? path =
    if path = k.path ∧ s.claims.get? path = some id then none else s.claims.get? path := by
  rw [find?] at found
  rw [remove, found]
  dsimp only
  split
  · next claim =>
    rw [Table.get?_erase]
    by_cases here : path = k.path
    · rw [if_pos here, if_pos ⟨here, here ▸ claim⟩]
    · rw [if_neg here, if_neg (mt And.left here)]
  · next unclaimed =>
    rw [if_neg]
    rintro ⟨rfl, claim⟩
    exact unclaimed claim

theorem pathOnly_remove (found : s.find? id = some k) :
    (s.remove id).pathOnly = s.pathOnly := by
  rw [find?] at found
  rw [remove, found]

/-! ### What changes do -/

/-- The same records are at the same places; only packs may differ. -/
structure SamePlaces (s t : Store) : Prop where
  identified : ∀ id, (t.find? id).map Record.place = (s.find? id).map Record.place
  pathOnly : ∀ path, (t.pathOnly.get? path).map Record.place =
    (s.pathOnly.get? path).map Record.place
  claims : t.claims = s.claims

namespace SamePlaces

theorem refl : SamePlaces s s := ⟨fun _ => rfl, fun _ => rfl, rfl⟩

theorem symm (h : SamePlaces s t) : SamePlaces t s :=
  ⟨fun id => (h.identified id).symm, fun path => (h.pathOnly path).symm, h.claims.symm⟩

theorem trans (h : SamePlaces s t) (h' : SamePlaces t u) : SamePlaces s u :=
  ⟨fun id => (h'.identified id).trans (h.identified id),
    fun path => (h'.pathOnly path).trans (h.pathOnly path), h'.claims.trans h.claims⟩

theorem map_identified {f : AssetId → Record → Record} (keeps : ∀ id r, (f id r).place = r.place) :
    SamePlaces s { s with identified := s.identified.map f } where
  identified id := by
    rw [find?, Table.get?_map, Option.map_map]
    congr 1
    funext r
    exact keeps id r
  pathOnly _ := rfl
  claims := rfl

theorem map_pathOnly {f : String → Record → Record}
    (keeps : ∀ path r, (f path r).place = r.place) :
    SamePlaces s { s with pathOnly := s.pathOnly.map f } where
  identified _ := rfl
  pathOnly path := by
    rw [Table.get?_map, Option.map_map]
    congr 1
    funext r
    exact keeps path r
  claims := rfl

/-- What is found in one store is found in the other at the same place. -/
theorem find? (h : SamePlaces s t) (found : t.find? id = some k) :
    ∃ k', s.find? id = some k' ∧ k'.id = k.id ∧ k'.path = k.path := by
  have same := h.identified id
  rw [found, Option.map_some] at same
  obtain ⟨k', found', place⟩ := Option.map_eq_some_iff.1 same.symm
  exact ⟨k', found', congrArg Prod.fst place, congrArg Prod.snd place⟩

theorem waiting (h : SamePlaces s t) (found : t.pathOnly.get? path = some k) :
    ∃ k', s.pathOnly.get? path = some k' ∧ k'.id = k.id ∧ k'.path = k.path := by
  have same := h.pathOnly path
  rw [found, Option.map_some] at same
  obtain ⟨k', found', place⟩ := Option.map_eq_some_iff.1 same.symm
  exact ⟨k', found', congrArg Prod.fst place, congrArg Prod.snd place⟩

end SamePlaces

/-- What a change can do to a store. -/
inductive Effect (s : Store) : Change → Store → Prop
  /-- Only packs change. -/
  | repacked {c : Change} {t : Store} (same : SamePlaces s t) : Effect s c t
  /-- A record waits at a path where nothing has been. -/
  | waited {c : Change} {r : Record} (anonymous : r.hasIdentity = false) (nonempty : r.path ≠ "")
      (free : s.claims.get? r.path = none) :
      Effect s c { s with pathOnly := s.pathOnly.insertNew r.path r }
  /-- An id gets its record, and takes the path of it. -/
  | arrived {c : Change} {r : Record} (identified : r.hasIdentity = true)
    (missing : s.find? r.id = none) :
      Effect s c ({ s with identified := s.identified.insertNew r.id r }.claimPath r.id r.path)
  /-- An id that had no path takes one. -/
  | learned {c : Change} {t : Store} {id : AssetId} {k : Record} {path : String}
      (same : SamePlaces s t) (found : t.find? id = some k) (unnamed : k.path = "") :
      Effect s c (t.claimPath id path)
  /-- The record of an id goes. -/
  | removed {id : AssetId} {k : Record} (found : s.find? id = some k) :
    Effect s (.remove id) (s.remove id)

theorem effect_addPathOnly (anonymous : r.hasIdentity = false) (nonempty : r.path ≠ "") :
    Effect s c (s.addPathOnly r).1 := by
  unfold addPathOnly
  cases claim : s.claims.get? r.path with
  | some id =>
    refine .repacked (SamePlaces.map_identified fun id' k => ?_)
    split <;> rfl
  | none =>
    dsimp only
    split
    · refine .repacked (SamePlaces.map_pathOnly fun path k => ?_)
      split <;> rfl
    · exact .waited anonymous nonempty claim

theorem effect_addIdentified (identified : r.hasIdentity = true) :
    Effect s c (s.addIdentified r).1 := by
  unfold addIdentified
  cases found : s.identified.get? r.id with
  | none => exact .arrived identified found
  | some known =>
    dsimp only
    have same : SamePlaces s
        { s with identified := s.identified.adjust r.id (·.lowerPack r.pack) } := by
      refine SamePlaces.map_identified fun id k => ?_
      split <;> rfl
    split
    · next unnamed =>
      have there : Store.find?
          { s with identified := s.identified.adjust r.id (·.lowerPack r.pack) } r.id =
            some (known.lowerPack r.pack) := by
        rw [Store.find?, Table.get?_adjust, if_pos rfl, found, Option.map_some]
      exact .learned same there unnamed
    · exact .repacked same

theorem effect_takeIn : Effect s c (s.takeIn r) := by
  unfold takeIn add?
  split
  · next identified => exact effect_addIdentified identified
  · next anonymous =>
    split
    · exact .repacked .refl
    · next nonempty => exact effect_addPathOnly (Bool.eq_false_iff.2 anonymous) nonempty

theorem effect_overridePacks {ids : Option (List AssetId)} :
    Effect s c (s.overridePacks pack ids).1 := by
  unfold overridePacks
  split
  · exact .repacked .refl
  · cases ids with
    | none =>
      have packs : SamePlaces s
          { s with identified := s.identified.map fun _ r => { r with pack := pack } } :=
        SamePlaces.map_identified fun _ _ => rfl
      exact .repacked (packs.trans (SamePlaces.map_pathOnly
        (f := fun _ r => { r with pack := pack })
        fun _ _ => rfl))
    | some ids =>
      dsimp only
      rw [foldl_setPack]
      exact .repacked (SamePlaces.map_identified fun _ _ => rfl)

/-- Every change has one of these effects. -/
theorem effect_change (s : Store) (c : Change) : Effect s c (s.change c) := by
  cases c with
  | add r => exact effect_takeIn
  | addAsset id path pack => exact effect_takeIn
  | remove id =>
    change Effect s _ (s.remove id)
    cases found : s.find? id with
    | some k => exact .removed found
    | none =>
      rw [find?] at found
      rw [remove, found]
      exact .repacked .refl
  | setPack id pack =>
    change Effect s _ (s.setPack id pack)
    rw [setPack_eq_repack]
    exact .repacked (SamePlaces.map_identified fun _ _ => rfl)
  | overridePacks pack ids => exact effect_overridePacks

/-! ### Agreement of the tables -/

/-- The tables of a store agree with each other. -/
structure Coherent (s : Store) : Prop where
  /-- A record with an id stands under it. -/
  identified : ∀ id k, s.find? id = some k → id.isValid = true ∧ k.id = id
  /-- A record that waits has no identity and stands under its path. -/
  waiting : ∀ path w, s.pathOnly.get? path = some w →
    path ≠ "" ∧ w.path = path ∧ w.hasIdentity = false
  /-- A claim is that of an id whose record has the path. -/
  claimed : ∀ path id, s.claims.get? path = some id →
    path ≠ "" ∧ ∃ k, s.find? id = some k ∧ k.path = path
  /-- Nothing waits at a claimed path. -/
  apart : ∀ path id, s.claims.get? path = some id → s.pathOnly.get? path = none

namespace Coherent

theorem empty : Coherent Store.empty := by
  constructor <;> intro _ _ found <;> simp [Store.find?, Store.empty] at found

theorem of_samePlaces (h : Coherent s) (same : SamePlaces s t) : Coherent t where
  identified id k found := by
    obtain ⟨k', found', sameId, -⟩ := same.find? found
    have here := h.identified id k' found'
    exact ⟨here.1, sameId ▸ here.2⟩
  waiting path w found := by
    obtain ⟨w', found', sameId, samePath⟩ := same.waiting found
    obtain ⟨nonempty, place, anonymous⟩ := h.waiting path w' found'
    rw [Record.hasIdentity, sameId] at anonymous
    exact ⟨nonempty, samePath ▸ place, anonymous⟩
  claimed path id claim := by
    rw [same.claims] at claim
    obtain ⟨nonempty, k, found, place⟩ := h.claimed path id claim
    obtain ⟨k', found', -, samePath⟩ := same.symm.find? found
    exact ⟨nonempty, k', found', samePath.trans place⟩
  apart path id claim := by
    rw [same.claims] at claim
    have idle := same.pathOnly path
    rw [h.apart path id claim, Option.map_none, Option.map_eq_none_iff] at idle
    exact idle

theorem wait (h : Coherent s) (anonymous : r.hasIdentity = false) (nonempty : r.path ≠ "")
    (free : s.claims.get? r.path = none) :
    Coherent { s with pathOnly := s.pathOnly.insertNew r.path r } where
  identified := h.identified
  waiting path w found := by
    rw [Table.get?_insertNew] at found
    split at found
    · next here =>
      subst here
      cases old : s.pathOnly.get? r.path with
      | none =>
        rw [old, Option.getD_none, Option.some_inj] at found
        subst found
        exact ⟨nonempty, rfl, anonymous⟩
      | some w' =>
        rw [old, Option.getD_some, Option.some_inj] at found
        exact h.waiting _ w (found ▸ old)
    · exact h.waiting path w found
  claimed := h.claimed
  apart path id claim := by
    -- the record waits because nobody claims its path
    have other : path ≠ r.path := by
      rintro rfl
      exact absurd (free.symm.trans claim) (by simp)
    rw [Table.get?_insertNew, if_neg other]
    exact h.apart path id claim

theorem arrive (h : Coherent s) (identified : r.hasIdentity = true)
    (missing : s.find? r.id = none) :
    Coherent { s with identified := s.identified.insertNew r.id r } where
  identified id k found := by
    rw [find?_insertNew missing] at found
    split at found
    · next here =>
      obtain rfl := Option.some_inj.1 found
      exact ⟨here ▸ identified, here.symm⟩
    · exact h.identified id k found
  waiting := h.waiting
  claimed path id claim := by
    obtain ⟨nonempty, k, found, place⟩ := h.claimed path id claim
    have other : id ≠ r.id := by
      rintro rfl
      exact absurd (missing.symm.trans found) (by simp)
    refine ⟨nonempty, k, ?_, place⟩
    rwa [find?_insertNew missing, if_neg other]
  apart := h.apart

/-- An id may take a path if it has no other. -/
theorem claimPath (h : Coherent s) (found : s.find? id = some k)
    (own : k.path = "" ∨ k.path = path) : Coherent (s.claimPath id path) := by
  by_cases empty : path = ""
  · rwa [Store.claimPath, if_pos empty]
  have here := find?_claimPath empty found
  refine ⟨?identified, ?waiting, ?claimed, ?apart⟩
  case identified =>
    intro id' k' found'
    by_cases same : id' = id
    · subst same
      obtain rfl := Option.some_inj.1 (here.symm.trans found')
      exact h.identified id' k found
    · rw [find?_claimPath_of_ne same] at found'
      exact h.identified id' k' found'
  case waiting =>
    intro path' w waits
    rw [pathOnly_claimPath empty] at waits
    split at waits
    · exact absurd waits (by simp)
    · exact h.waiting path' w waits
  case claimed =>
    intro path' id' claim
    rw [claims_claimPath empty, Option.or_eq_some_iff] at claim
    rcases claim with old | ⟨-, new⟩
    · obtain ⟨nonempty, k', found', place⟩ := h.claimed path' id' old
      refine ⟨nonempty, ?_⟩
      by_cases same : id' = id
      · -- the id has been at no other path
        subst same
        obtain rfl := Option.some_inj.1 (found.symm.trans found')
        rcases own with unnamed | own
        · exact absurd (place.symm.trans unnamed) nonempty
        · exact ⟨_, here, own.symm.trans place⟩
      · exact ⟨k', (find?_claimPath_of_ne same).trans found', place⟩
    · obtain ⟨rfl, named⟩ := Option.ite_none_right_eq_some.1 new
      obtain rfl := Option.some_inj.1 named
      exact ⟨empty, _, here, rfl⟩
  case apart =>
    intro path' id' claim
    rw [claims_claimPath empty] at claim
    rw [pathOnly_claimPath empty]
    split
    · rfl
    · next elsewhere =>
      rw [if_neg elsewhere, Option.or_none] at claim
      exact h.apart path' id' claim

/-- A claim that remains when the record of an id goes is one of before, and of another id. -/
theorem claims_of_remove (h : Coherent s) (found : s.find? id = some k)
    (claim : (s.remove id).claims.get? path = some id') :
    s.claims.get? path = some id' ∧ id' ≠ id := by
  rw [claims_remove found] at claim
  split at claim
  · exact absurd claim (by simp)
  · next remains =>
    refine ⟨claim, ?_⟩
    rintro rfl
    -- a claim of the id would be to the path of its record, and has gone
    obtain ⟨-, k', found', place⟩ := h.claimed path id' claim
    obtain rfl := Option.some_inj.1 (found.symm.trans found')
    exact remains ⟨place.symm, claim⟩

theorem remove (h : Coherent s) (found : s.find? id = some k) : Coherent (s.remove id) where
  identified id' k' found' := by
    rw [find?_remove found] at found'
    split at found'
    · exact absurd found' (by simp)
    · exact h.identified id' k' found'
  waiting := by
    rw [pathOnly_remove found]
    exact h.waiting
  claimed path id' claim := by
    obtain ⟨claim', other⟩ := h.claims_of_remove found claim
    obtain ⟨nonempty, k', found', place⟩ := h.claimed path id' claim'
    exact ⟨nonempty, k', by rwa [find?_remove found, if_neg other], place⟩
  apart path id' claim := by
    rw [pathOnly_remove found]
    exact h.apart path id' (h.claims_of_remove found claim).1

/-- Whatever a change does, the tables keep agreeing. -/
theorem of_effect (h : Coherent s) (effect : Effect s c t) : Coherent t := by
  cases effect with
  | repacked same => exact h.of_samePlaces same
  | waited anonymous nonempty free => exact h.wait anonymous nonempty free
  | arrived identified missing =>
    refine (h.arrive identified missing).claimPath ?_ (Or.inr rfl)
    rw [find?_insertNew missing, if_pos rfl]
  | learned same found unnamed => exact (h.of_samePlaces same).claimPath found (Or.inl unnamed)
  | removed found => exact h.remove found

/-- Looking up a path finds a record of that path. -/
theorem path_of_findByPath? (h : Coherent s) (found : s.findByPath? path = some k) :
    k.path = path := by
  rw [findByPath?] at found
  split at found
  · next id claim =>
    obtain ⟨-, k', found', place⟩ := h.claimed path id claim
    rw [Store.find?, found, Option.some_inj] at found'
    rw [found', place]
  · exact (h.waiting path k found).2.1

end Coherent

/-- The tables agree after any changes. -/
theorem coherent_after (changes : List Change) : Coherent (after changes) := by
  unfold after
  -- any store whose tables agree may be changed
  generalize Store.empty = s, Coherent.empty = h
  induction changes generalizing s with
  | nil => exact h
  | cons c changes ih => exact ih (s.change c) (h.of_effect (effect_change s c))

/-- After any changes the tables agree. So the id that claims a path has a record, which
looking up the path finds, and nothing that is found at a path belongs to another. -/
theorem tables_agree_after (changes : List Change) :
    Coherent (after changes) ∧
      (∀ path id, (after changes).claims.get? path = some id →
        ∃ k, (after changes).find? id = some k ∧ (after changes).findByPath? path = some k) ∧
      ∀ path k, (after changes).findByPath? path = some k → k.path = path := by
  have coherent := coherent_after changes
  refine ⟨coherent, ?_, fun path k found => coherent.path_of_findByPath? found⟩
  intro path id claim
  obtain ⟨-, k, found, -⟩ := coherent.claimed path id claim
  refine ⟨k, found, ?_⟩
  rw [findByPath?, claim]
  exact found

end Store

end PackPlan
