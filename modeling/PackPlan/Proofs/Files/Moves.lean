import PackPlan.Proofs.Files.Changes

/-!
# Moving what is in a file tree

Whatever is moved, a directory with all that is in it or a file, it is found where it was moved
to, nothing is left where it was, and everything else stays. A proper tree stays proper.

## Main results

* `FileTree.node?_relocate_all` — what stands where after everything at and below a place was moved
* `FileTree.IsProper.relocate_all`, `FileTree.IsProper.move` — proper trees stay proper
-/

namespace PackPlan

namespace Table

variable {ι κ α : Type} [DecidableEq κ] {f : ι → κ}

/-- Entries that come under other keys leave a key what it is. -/
theorem get?_foldl_insert_of_ne {entries : List (ι × α)} {k : κ} (others : ∀ e ∈ entries, f e.1 ≠ k)
    (t : Table κ α) : (entries.foldl (fun t e => t.insert (f e.1) e.2) t).get? k = t.get? k := by
  induction entries generalizing t with
  | nil => rfl
  | cons e entries ih =>
    rw [List.forall_mem_cons] at others
    rw [List.foldl_cons, ih others.2, get?_insert, if_neg (Ne.symm others.1)]

/-- Entries that come under new keys are found there, if the new keys tell them apart. -/
theorem get?_foldl_insert [DecidableEq ι] {entries : List (ι × α)} {i : ι}
    (only : ∀ e ∈ entries, f e.1 = f i → e.1 = i) (distinct : (entries.map Prod.fst).Nodup)
    (t : Table κ α) : (entries.foldl (fun t e => t.insert (f e.1) e.2) t).get? (f i) =
      (entries.lookup i).or (t.get? (f i)) := by
  induction entries generalizing t with
  | nil => rfl
  | cons e entries ih =>
    rw [List.forall_mem_cons] at only
    rw [List.map_cons, List.nodup_cons] at distinct
    rw [List.foldl_cons, ih only.2 distinct.2, get?_insert, List.lookup_cons]
    by_cases here : e.1 = i
    · -- the key comes once, so that nothing follows
      have absent : entries.lookup i = none := by
        rw [List.lookup_eq_none_iff]
        intro e' mem
        refine bne_iff_ne.2 fun same => distinct.1 ?_
        rw [here, same]
        exact List.mem_map_of_mem mem
      rw [absent, here, if_pos rfl]
      simp
    · have other : f i ≠ f e.1 := fun same => here (only.1 same.symm)
      rw [if_neg other, beq_false_of_ne (Ne.symm here)]

end Table

namespace FileTree

variable {t t' : FileTree} {source target other : Location} {p q : FilePath} {paths : List FilePath}

/-- What stands where after everything at and below a place has been moved. -/
theorem node?_relocate_all (from_inside : source ≠ []) (inside : target ≠ []) (other : Location) :
    (t.relocate source target).node? other =
      (if target.isPrefixOf other then t.node? (source ++ other.drop target.length)
        else none).or (if source.isPrefixOf other then none else t.node? other) := by
  by_cases top : other = []
  · have apart : ∀ place : Location, place ≠ [] → ¬place.isPrefixOf [] := by
      intro place inside starts
      exact inside (List.prefix_nil.1 (List.isPrefixOf_iff_prefix.1 starts))
    rw [top, if_neg (apart target inside), if_neg (apart source from_inside)]
    rfl
  have outside : (t.nodes.filter fun k _ => !source.isPrefixOf k).get? other =
      if source.isPrefixOf other then none else t.node? other := by
    rw [Table.get?_filter, node?_of_ne_nil t top]
    cases source.isPrefixOf other <;> cases t.nodes.get? other <;> rfl
  rw [node?_of_ne_nil _ top, relocate, ← outside]
  by_cases starts : target.isPrefixOf other
  · obtain ⟨names, rfl⟩ := List.isPrefixOf_iff_prefix.1 starts
    have place : source ++ names ≠ [] := by simp [from_inside]
    have moved : (t.nodes.filter fun k _ => source.isPrefixOf k).get? (source ++ names) =
        t.node? (source ++ names) := by
      rw [Table.get?_filter, node?_of_ne_nil t place]
      rw [List.isPrefixOf_iff_prefix.2 (List.prefix_append source names)]
      cases t.nodes.get? (source ++ names) <;> rfl
    have found := Table.get?_foldl_insert (f := fun k : Location => target ++ k.drop source.length)
      (i := source ++ names) (fun e mem same => ?_)
      (t.nodes.filter fun k _ => source.isPrefixOf k).nodup
      (t.nodes.filter fun k _ => !source.isPrefixOf k)
    · rw [List.drop_left] at found
      rw [if_pos starts, List.drop_left, ← moved]
      exact found
    · -- the places below a place are told apart by what follows it
      obtain ⟨names', whole⟩ := List.isPrefixOf_iff_prefix.1 (List.mem_filter.1 mem).2
      rw [List.drop_left, ← whole, List.drop_left] at same
      rw [← whole, List.append_cancel_left same]
  · rw [if_neg starts, Option.none_or]
    refine Table.get?_foldl_insert_of_ne (f := fun k : Location => target ++ k.drop source.length)
      (fun e _ same => starts ?_) _
    rw [← same]
    exact List.isPrefixOf_iff_prefix.2 (List.prefix_append _ _)

/-- A place to which something can be moved: it is in a directory, apart from where that stands,
and nothing is below it. -/
structure Accepts (t : FileTree) (source target : Location) : Prop where
  plain : ∀ n ∈ target, '/' ∉ n.toList
  parent : t.node? target.dropLast = some .dir
  apart : ¬source.isPrefixOf target
  outside : ¬target.isPrefixOf source
  vacant : ∀ names, names ≠ [] → t.node? (target ++ names) = none

theorem IsProper.relocate_all (proper : t.IsProper) (there : t.node? source ≠ none)
    (h : t.Accepts source target) : (t.relocate source target).IsProper := by
  have from_inside : source ≠ [] := by
    rintro rfl
    exact h.apart (List.isPrefixOf_iff_prefix.2 List.nil_prefix)
  have inside : target ≠ [] := by
    rintro rfl
    exact h.outside (List.isPrefixOf_iff_prefix.2 List.nil_prefix)
  have node := node?_relocate_all (t := t) from_inside inside
  -- what was neither moved nor replaced is where it was
  have stays : ∀ other, ¬target.isPrefixOf other → ¬source.isPrefixOf other →
      (t.relocate source target).node? other = t.node? other := by
    intro other above apart
    rw [node, if_neg above, Option.none_or, if_neg apart]
  have shorter : ∀ {place other : Location}, ¬place.isPrefixOf other →
      ¬place.isPrefixOf other.dropLast := by
    intro place other apart starts
    exact apart (List.isPrefixOf_iff_prefix.2
      ((List.isPrefixOf_iff_prefix.1 starts).trans (List.dropLast_prefix other)))
  refine .of_node? fun other _ present => ?_
  by_cases starts : target.isPrefixOf other
  · obtain ⟨names, rfl⟩ := List.isPrefixOf_iff_prefix.1 starts
    by_cases last : names = []
    · subst last
      rw [List.append_nil]
      refine ⟨h.plain, ?_⟩
      rw [stays _ (fun starts => ?_) (shorter h.apart)]
      · exact h.parent
      · have long := (List.isPrefixOf_iff_prefix.1 starts).length_le
        have some := List.length_pos_iff.2 inside
        rw [List.length_dropLast] at long
        omega
    · have moved : t.node? (source ++ names) ≠ none := by
        rw [node, if_pos starts, List.drop_left, h.vacant names last, ite_self,
          Option.or_none] at present
        exact present
      have plain := proper.plain moved
      have parent := proper.node?_dropLast moved
      rw [List.forall_mem_append] at plain ⊢
      rw [List.dropLast_append_of_ne_nil last] at parent ⊢
      refine ⟨⟨h.plain, plain.2⟩, ?_⟩
      rw [node, if_pos (List.isPrefixOf_iff_prefix.2 (List.prefix_append _ _)), List.drop_left,
        parent]
      rfl
  · rw [node, if_neg starts, Option.none_or] at present
    split at present
    · exact absurd rfl present
    · next apart =>
      rw [stays _ (shorter starts) (shorter apart)]
      exact ⟨proper.plain present, proper.node?_dropLast present⟩

theorem IsProper.vacant_of_names (proper : t.IsProper) (empty : t.names target = [])
    {names : List String} (some : names ≠ []) : t.node? (target ++ names) = none := by
  obtain ⟨name, rest, rfl⟩ := List.exists_cons_of_ne_nil some
  have here : t.node? (target ++ [name]) = none := by
    by_contra there
    have mem := mem_names_iff.2 there
    rw [empty] at mem
    exact List.not_mem_nil mem
  by_cases last : rest = []
  · rw [last, here]
  · rw [List.append_cons]
    exact proper.node?_below (by rw [here]; exact nofun) last

/-- Where there is no obstacle, there is something to be moved, and it can be. -/
theorem IsProper.accepts (proper : t.IsProper) (led : t.locate p paths = .ok target)
    (apart : source ≠ target) (free : t.moveObstacle? source target = none) :
    t.node? source ≠ none ∧ t.Accepts source target := by
  obtain ⟨plain, parent⟩ := proper.place_of_locate led
  rw [moveObstacle?] at free
  cases there : t.node? source with
  | none =>
    rw [there] at free
    cases free
  | some node =>
    rw [there] at free
    dsimp only at free
    rw [if_neg apart] at free
    split at free
    · cases free
    next below =>
    split at free
    · cases free
    next above =>
    refine ⟨Option.some_ne_none _, plain, parent, below, above, fun names some => ?_⟩
    by_cases dir : t.node? target = .some .dir
    · -- only an empty directory gives way
      rw [dir] at free
      cases node with
      | file content => cases free
      | dir =>
        dsimp only at free
        split at free
        · next empty => exact proper.vacant_of_names empty some
        · cases free
    · exact proper.node?_below dir some

/-- A proper tree stays proper when something is moved. -/
theorem IsProper.move (proper : t.IsProper) (h : t.move p q = .ok t') : t'.IsProper := by
  obtain ⟨old, first, h⟩ := exists_of_bind_ok h
  obtain ⟨new, second, h⟩ := exists_of_bind_ok h
  dsimp only at h
  split at h
  · cases h
  next free =>
  obtain rfl := Except.ok.inj h
  split at free
  · split
    · exact proper
    · next apart =>
      obtain ⟨there, accepts⟩ := proper.accepts second apart free
      exact proper.relocate_all there accepts
  · cases free

end FileTree

end PackPlan
