import Mathlib.Data.List.Nodup
import PackPlan.Archive.Containers
import PackPlan.Proofs.Files.Search

/-!
# The containers of a directory

Containers stand side by side in one directory, each under a name of its own. Only a pattern
that is none, or a path that is too long, keeps them from being found.

## Main results

* `Containers.exists_stems_of_find` — what is found, by the stems of its names
* `Containers.nodup_map_text_find` — no container is found twice
* `Containers.fault_of_find` — why containers cannot be found
* `Containers.exists_legacy` — every container has a legacy name
-/

namespace PackPlan

theorem nodup_eraseDups {α : Type} [DecidableEq α] : ∀ xs : List α, xs.eraseDups.Nodup
  | [] => by simp
  | x :: xs => by
    rw [List.eraseDups_cons, List.nodup_cons, List.mem_eraseDups, List.mem_filter]
    exact ⟨by simp, nodup_eraseDups _⟩
termination_by xs => xs.length
decreasing_by
  exact Nat.lt_succ_of_le (List.length_filter_le _ _)

namespace FilePath

variable {p q : FilePath}

theorem toList_stem_subset (p : FilePath) : p.stem.toList ⊆ p.name.toList := by
  rw [stem, String.toList_ofList, cutName]
  split
  · exact List.Subset.refl _
  · exact List.take_subset _ _

/-- The name of a path below another is one of the names that lead to it. -/
theorem IsBelow.exists_names (below : p.IsBelow q) (other : q ≠ p) :
    ∃ names, q.parts = p.parts ++ names ∧ q.name ∈ names ∧ ∀ n ∈ names, '/' ∉ n.toList := by
  obtain ⟨root, names, parts, plain⟩ := below
  have nonempty : names ≠ [] := by
    rintro rfl
    rw [List.append_nil] at parts
    exact other (by cases p; cases q; cases root; cases parts; rfl)
  refine ⟨names, parts, ?_, plain⟩
  rw [name, parts, List.getLastD_eq_getLast?, List.getLast?_append_of_ne_nil _ nonempty,
    List.getLast?_eq_some_getLast nonempty]
  exact List.getLast_mem nonempty

end FilePath

namespace Containers

variable {t : FileTree} {directory c : FilePath} {pattern ext stem name : String} {fault : Fault}
  {found : List FilePath} {all : List String}

/-- The name of a container is longer than its extension. -/
theorem length_le_of_append_extension (same : stem ++ extension = name) :
    extension.toList.length ≤ name.toList.length := by
  rw [← same, String.toList_append, List.length_append]
  exact Nat.le_add_left _ _

/-- A container with a stem, in a directory. -/
def container (directory : FilePath) (stem : String) : FilePath :=
  Search.below directory (stem ++ extension)

theorem join_eq_container (plain : '/' ∉ stem.toList) :
    directory.join (stem ++ extension) = container directory stem := by
  refine FilePath.join_eq_below directory ?_ ?_ ?_
  · rw [String.toList_append, List.mem_append, not_or]
    exact ⟨plain, by decide⟩
  · intro empty
    exact absurd (length_le_of_append_extension empty) (by decide)
  · intro dot
    exact absurd (length_le_of_append_extension dot) (by decide)

/-- A stem is that of a file below the directory, which is not the directory itself. -/
theorem exists_of_mem_stems (named : t.IsWellNamed) (h : stems t directory pattern ext = .ok all)
    (mem : stem ∈ all) : ∃ q : FilePath, q.stem = stem ∧ directory.IsBelow q ∧ q ≠ directory ∧
      t.isFile? q = .ok true := by
  obtain ⟨paths, searched, h⟩ := exists_of_bind_ok h
  obtain ⟨files, kept, h⟩ := exists_of_bind_ok h
  cases h
  obtain ⟨q, member, rfl⟩ := List.mem_map.1 mem
  obtain ⟨there, file⟩ := (mem_filterM kept).1 member
  have file := eq_ok_of_mapError file
  obtain ⟨levels, denoted, searched⟩ := exists_of_bind_ok searched
  obtain ⟨isDir, dir, searched⟩ := exists_of_bind_ok searched
  split at searched
  · next yes =>
    have dir := eq_ok_of_mapError dir
    refine ⟨q, rfl, ?_, ?_, file⟩
    · exact Search.isBelow_of_mem_select named
        (fun level => Search.isPlain_of_mem_levels (eq_ok_of_mapError denoted))
        (eq_ok_of_mapError searched) there
    · -- the search begins in a directory, and a file is none
      rintro rfl
      rw [FileTree.isDir?_of_isFile? file, yes] at dir
      cases dir
  · cases searched
    exact absurd there List.not_mem_nil

/-- Where a file can be found below a directory, there can be a container with its stem. -/
theorem hasNul_container {q : FilePath} (below : directory.IsBelow q) (other : q ≠ directory)
    (nul : FileTree.hasNul q = false) : FileTree.hasNul (container directory q.stem) = false := by
  obtain ⟨names, parts, last, -⟩ := below.exists_names other
  have last : q.name ∈ q.parts := by
    rw [parts]
    exact List.mem_append_right _ last
  rw [Bool.eq_false_iff] at nul ⊢
  rw [ne_eq, FilePath.hasNul_iff (List.ne_nil_of_mem last)] at nul
  rw [ne_eq, FilePath.hasNul_iff (by simp [container, Search.below])]
  -- a character of the container is one of the file, or of the extension
  rintro (root | ⟨n, there, mem⟩)
  · exact nul (.inl (below.1 ▸ root))
  · rcases List.mem_append.1 there with there | there
    · exact nul (.inr ⟨n, parts ▸ List.mem_append_left _ there, mem⟩)
    · rw [List.mem_singleton.1 there, String.toList_append, List.mem_append] at mem
      rcases mem with mem | mem
      · exact nul (.inr ⟨q.name, last, FilePath.toList_stem_subset q mem⟩)
      · exact absurd mem (by decide)

/-- Containers are found by their stems, each once, and each where a file can be. -/
theorem exists_stems_of_find (named : t.IsWellNamed)
    (h : find t directory pattern = .ok found) : ∃ all : List String, all.Nodup ∧
      found = all.map (container directory) ∧
      ∀ stem ∈ all, FileTree.hasNul (container directory stem) = false := by
  obtain ⟨legacy, first, h⟩ := exists_of_bind_ok h
  obtain ⟨canonical, second, h⟩ := exists_of_bind_ok h
  cases h
  have origin : ∀ stem ∈ (legacy ++ canonical).eraseDups.mergeSort fun a b => !(b < a),
      ∃ q : FilePath, q.stem = stem ∧ directory.IsBelow q ∧ q ≠ directory ∧
        t.isFile? q = .ok true := by
    intro stem mem
    rw [List.mem_mergeSort, List.mem_eraseDups, List.mem_append] at mem
    exact mem.elim (exists_of_mem_stems named first) (exists_of_mem_stems named second)
  refine ⟨(legacy ++ canonical).eraseDups.mergeSort fun a b => !(b < a), ?_, ?_, ?_⟩
  · exact (List.mergeSort_perm _ _).nodup_iff.2 (nodup_eraseDups _)
  · refine List.map_congr_left fun stem mem => join_eq_container ?_
    obtain ⟨q, rfl, below, other, -⟩ := origin stem mem
    obtain ⟨names, -, last, plain⟩ := below.exists_names other
    exact fun slash => plain _ last (FilePath.toList_stem_subset q slash)
  · intro stem mem
    obtain ⟨q, rfl, below, other, file⟩ := origin stem mem
    exact hasNul_container below other (FileTree.hasNul_of_isFile? file)

/-- No two containers of a directory have the same text. -/
theorem nodup_map_text_find (named : t.IsWellNamed)
    (h : find t directory pattern = .ok found) : (found.map FilePath.text).Nodup := by
  obtain ⟨all, distinct, rfl, -⟩ := exists_stems_of_find named h
  rw [List.map_map]
  refine List.Nodup.map (fun s s' same => ?_) distinct
  -- the texts of two containers differ only in the stems
  obtain ⟨front, text⟩ := FilePath.exists_text_below directory
  have same := congrArg String.toList same
  rw [Function.comp_apply, Function.comp_apply, container, container, text, text,
    List.append_cancel_left_eq, String.toList_append, String.toList_append,
    List.append_cancel_right_eq] at same
  exact String.toList_injective same

/-- Every container has a legacy name. -/
theorem exists_legacy (directory : FilePath) (stem : String) :
    ∃ legacy, (container directory stem).withSuffix legacyExtension = .ok legacy := by
  have named : (container directory stem).name ≠ "" := by
    rw [FilePath.name, container, Search.below, List.getLastD_concat]
    intro empty
    exact absurd (length_le_of_append_extension empty) (by decide)
  rw [FilePath.withSuffix, if_neg (by decide), if_neg named]
  exact ⟨_, rfl⟩

theorem fault_of_stems (h : stems t directory pattern ext = .error fault) :
    (∃ cause, fault = .search cause) ∨
      ∃ p : FilePath, fault = .files (.system .nameTooLong [p.text]) := by
  rcases exists_of_bind_error h with searched | ⟨paths, -, h⟩
  · rcases exists_of_bind_error searched with denoted | ⟨levels, -, searched⟩
    · obtain ⟨cause, -, rfl⟩ := exists_of_mapError denoted
      exact .inl ⟨cause, rfl⟩
    · rcases exists_of_bind_error searched with dir | ⟨isDir, -, searched⟩
      · obtain ⟨cause, long, rfl⟩ := exists_of_mapError dir
        cases FileTree.eq_tooLong_of_map_find? long
        exact .inr ⟨directory, rfl⟩
      · split at searched
        · obtain ⟨cause, selected, rfl⟩ := exists_of_mapError searched
          obtain ⟨q, rfl⟩ := Search.exists_eq_tooLong_of_select selected
          exact .inr ⟨q, rfl⟩
        · cases searched
  · rcases exists_of_bind_error h with looking | ⟨files, -, h⟩
    · obtain ⟨q, -, looking⟩ := exists_of_filterM_error looking
      obtain ⟨cause, long, rfl⟩ := exists_of_mapError looking
      cases FileTree.eq_tooLong_of_map_find? long
      exact .inr ⟨q, rfl⟩
    · cases h

/-- Only a pattern that is none, or a path that is too long, keeps containers from being
found. -/
theorem fault_of_find (h : find t directory pattern = .error fault) :
    (∃ cause, fault = .search cause) ∨
      ∃ p : FilePath, fault = .files (.system .nameTooLong [p.text]) := by
  rcases exists_of_bind_error h with first | ⟨legacy, -, h⟩
  · exact fault_of_stems first
  · rcases exists_of_bind_error h with second | ⟨canonical, -, h⟩
    · exact fault_of_stems second
    · cases h

end Containers

end PackPlan
