import PackPlan.Proofs.Archive.Keeping

/-!
# Indexing a directory again

A directory whose containers have been indexed has the same containers afterwards, each where it
was left. So indexing it again gives the same index and changes no file, with leave to overwrite
and without.

## Main results

* `Containers.find_after` — the containers that are found afterwards
* `Containers.index_again` — indexing again
-/

namespace PackPlan

namespace FileTree

variable {t t' : FileTree} {d : FilePath} {base : Location} {name : String}

theorem IsAt.isFile?_congr (h : t.IsAt d base) (h' : t'.IsAt d base)
    (isName : FilePath.IsName name)
    (same : t'.node? (base ++ [name]) = t.node? (base ++ [name])) :
    t'.isFile? (Search.below d name) = t.isFile? (Search.below d name) := by
  rw [isFile?, isFile?]
  by_cases nul : '\x00' ∈ name.toList
  · rw [find?, find?, h.hasNul_below, decide_eq_true nul, if_pos rfl, if_pos rfl]
  · rw [h.find?_below isName nul, h'.find?_below isName nul, same]

end FileTree

namespace Containers

variable {reader : Reader} {overwrite : Bool} {d : FilePath} {base : Location}
  {t t' : FileTree} {start stem : String} {stems : List String} {paths : List FilePath}
  {w w' : Workspace} {i : Index} {moved : String → Prop}

theorem Starts.isName_legacy (h : Starts start stem) (isStart : IsStart start) :
    FilePath.IsName (stem ++ legacyExtension) :=
  isExtension_legacyExtension.isName (h.ne_empty isStart) h.plain

theorem Starts.isName (h : Starts start stem) (isStart : IsStart start) :
    FilePath.IsName (stem ++ extension) :=
  isExtension_extension.isName (h.ne_empty isStart) h.plain

/-- What is found of a container that has not been moved is what was found before. -/
theorem Moved.isFile?_of_not (h : Moved t base moved t') (isAt : t.IsAt d base)
    (isStart : IsStart start) (starts : Starts start stem) (fresh : ¬moved stem) :
    t'.isFile? (legacyPath d stem) = t.isFile? (legacyPath d stem) ∧
      t'.isFile? (container d stem) = t.isFile? (container d stem) := by
  obtain ⟨old, new⟩ := h.node?_of_not fresh
  have isAt' := h.dirs.keepsDirs.isAt isAt
  exact ⟨isAt.isFile?_congr isAt' (starts.isName_legacy isStart) old,
    isAt.isFile?_congr isAt' (starts.isName isStart) new⟩

/-- A container that has been moved is found under its own name. -/
theorem Moved.isFile?_of_moves (h : Moved t base moved t') (c : IsContainer t d base stem)
    (done : moved stem) (moves : Moves overwrite d t base stem) :
    d.isShort (stem ++ extension) = true ∧ t'.isFile? (container d stem) = .ok true := by
  obtain ⟨short, ⟨absent, -⟩ | ⟨-, content, there⟩⟩ := cases_of_refusal?_none moves.2 c.file
  · exact absurd absent moves.1
  · refine ⟨short, FileTree.isFile?_eq_true.2 ⟨content, ?_⟩⟩
    exact (h.isStem c.toIsStem).readBytes_container.2 ⟨short, (h.content stem done).trans there⟩

/-- After containers have been moved, the same stems are found. -/
theorem Moved.isFound_iff (h : Moved t base moved t') (isStart : IsStart start)
    (isAt : t.IsAt d base)
    (origin : ∀ stem, moved stem → IsFound t d start stem ∧ Moves overwrite d t base stem)
    (stem : String) : IsFound t' d start stem ↔ IsFound t d start stem := by
  by_cases done : moved stem
  · obtain ⟨found, moves⟩ := origin stem done
    refine iff_of_true ⟨found.starts, .inr ?_⟩ found
    exact (h.isFile?_of_moves (found.isContainer isStart isAt) done moves).2
  · constructor
    · rintro ⟨starts, file⟩
      obtain ⟨legacy, own⟩ := h.isFile?_of_not isAt isStart starts done
      exact ⟨starts, by rwa [legacy, own] at file⟩
    · rintro ⟨starts, file⟩
      obtain ⟨legacy, own⟩ := h.isFile?_of_not isAt isStart starts done
      exact ⟨starts, by rwa [legacy, own]⟩

/-- After containers have been moved, the same containers are found. -/
theorem find_after (isStart : IsStart start) (proper : t.IsProper) (isAt : t.IsAt d base)
    (searched : find t d (startPattern start) = .ok paths) (h : Moved t base moved t')
    (origin : ∀ stem, moved stem → IsFound t d start stem ∧ Moves overwrite d t base stem) :
    find t' d (startPattern start) = .ok paths := by
  have isAt' := h.dirs.keepsDirs.isAt isAt
  have again : ∃ paths', find t' d (startPattern start) = .ok paths' := by
    rw [exists_find_iff h.proper.named isStart isAt']
    intro stem starts
    have looks := (exists_find_iff proper.named isStart isAt).1 ⟨paths, searched⟩ stem starts
    by_cases done : moved stem
    · obtain ⟨found, moves⟩ := origin stem done
      refine ⟨fun there => absurd (h.gone stem done) there, fun _ => ?_⟩
      exact ⟨true, (h.isFile?_of_moves (found.isContainer isStart isAt) done moves).2⟩
    · obtain ⟨old, new⟩ := h.node?_of_not done
      obtain ⟨legacy, own⟩ := h.isFile?_of_not isAt isStart starts done
      rw [legacy, own]
      exact ⟨fun there => looks.1 (old ▸ there), fun there => looks.2 (new ▸ there)⟩
  obtain ⟨paths', searched'⟩ := again
  obtain ⟨stems, rfl, ascending, mem⟩ := exists_of_find_eq_ok proper.named isStart isAt searched
  obtain ⟨stems', rfl, ascending', mem'⟩ :=
    exists_of_find_eq_ok h.proper.named isStart isAt' searched'
  rw [searched', ascending.eq_of_mem_iff ascending' fun stem => ?_]
  rw [mem, mem', h.isFound_iff isStart isAt origin]

/-- After all containers of a directory have been opened, a job finds and answers the same. -/
theorem run_index_after (reads : ReadsContent reader) (isStart : IsStart start)
    (proper : t.IsProper) (isAt : t.IsAt d base)
    (searched : find t d (startPattern start) = .ok (stems.map (container d)))
    (ascending : stems.Pairwise (· < ·)) (mem : ∀ stem, stem ∈ stems ↔ IsFound t d start stem)
    {answers : Report} (opening : openAll reader overwrite d base t stems = (answers, t'))
    (goes : ∀ a ∈ answers, Continues a) (told : List Notice) :
    ∃ told', (index reader d (startPattern start) overwrite).run ⟨t', told⟩ =
      (.ok (Index.ofReport answers), ⟨t', told'⟩) := by
  have each : ∀ stem ∈ stems, IsContainer t d base stem := fun stem member =>
    ((mem stem).1 member).isContainer isStart isAt
  have distinct : stems.Nodup := ascending.imp ne_of_lt
  have after : Moved t base (fun other => other ∈ stems ∧ Moves overwrite d t base other) t' := by
    have all := moved_openAll reader overwrite proper each distinct
    rwa [opening] at all
  have origin : ∀ stem, stem ∈ stems ∧ Moves overwrite d t base stem →
      IsFound t d start stem ∧ Moves overwrite d t base stem := fun stem done =>
    ⟨(mem stem).1 done.1, done.2⟩
  -- every container is still one, by what is found of it
  have isAt' := after.dirs.keepsDirs.isAt isAt
  have each' : ∀ stem ∈ stems, IsContainer t' d base stem := fun stem member =>
    ((after.isFound_iff isStart isAt origin stem).2 ((mem stem).1 member)).isContainer
      isStart isAt'
  have again : openAll reader overwrite d base t' stems = (answers, t') := by
    have all : openAll reader overwrite d base t' stems =
        ((openAll reader overwrite d base t stems).1, t') :=
      openAll_again reads proper each distinct fun stem member =>
        ⟨(each' stem member).toIsStem, by rw [opening], by rw [opening]⟩
    rwa [opening] at all
  have goes' : ∀ a ∈ (openAll reader overwrite d base t' stems).1, Continues a := by rwa [again]
  obtain ⟨told', run⟩ :=
    run_foldlM_of_continues (w := ⟨t', told⟩) after.proper each' distinct goes' (i := {})
  refine ⟨told', ?_⟩
  rw [run_index_of_ok (find_after isStart proper isAt searched after origin), run, again]
  rfl

/-- Indexing again gives the same index and changes no file. This is said of
the files in a tree, which has no links and out of which no path leads: one with a root is not
found, and a step up from the working directory stays there. -/
theorem index_again (reads : ReadsContent reader) (isStart : IsStart start)
    (proper : w.files.IsProper)
    (ran : (index reader d (startPattern start) overwrite).run w = (.ok i, w'))
    (told : List Notice) : ∃ told', (index reader d (startPattern start) overwrite).run
      { w' with notices := told } = (.ok i, { w' with notices := told' }) := by
  cases searched : find w.files d (startPattern start) with
  | error fault =>
    rw [run_index_of_error searched] at ran
    cases ran
  | ok paths =>
    rw [run_index_of_ok searched] at ran
    rcases isAt_or_eq_nil_of_find searched with ⟨base, isAt⟩ | rfl
    · obtain ⟨stems, rfl, ascending, mem⟩ :=
        exists_of_find_eq_ok proper.named isStart isAt searched
      have each : ∀ stem ∈ stems, IsContainer w.files d base stem := fun stem member =>
        ((mem stem).1 member).isContainer isStart isAt
      have distinct : stems.Nodup := ascending.imp ne_of_lt
      by_cases goes : ∀ a ∈ (openAll reader overwrite d base w.files stems).1, Continues a
      · obtain ⟨told₁, first⟩ := run_foldlM_of_continues proper each distinct goes (i := {})
        rw [first] at ran
        cases ran
        exact run_index_after reads isStart proper isAt searched ascending mem rfl goes told
      · obtain ⟨front, stem, back, fault, told₁, -, stopped, -, -⟩ :=
          run_foldlM_of_stops proper each distinct goes (i := {})
        rw [stopped] at ran
        cases ran
    · -- nothing is found, so nothing is done
      cases ran
      refine ⟨told, ?_⟩
      rw [run_index_of_ok (w := { w with notices := told }) searched]
      rfl

theorem readsContent_sizeReader : ReadsContent sizeReader := by
  intro t t' p content here there
  rw [sizeReader, sizeReader, here, there]

/-- With leave to overwrite, a container under both names is replaced; a directory is not. -/
theorem exists_run_assorted : ∃ i w', (index sizeReader ⟨"", []⟩ (startPattern "x") true).run
    ⟨assorted, []⟩ = (.ok i, w') ∧
      i.containers.map (·.text) = ["x.1.bpak", "x2.bpak", "x4.bpak"] ∧
      i.failures = ["x3.bpak", "x5.bpak"] ∧
      w'.files.readBytes (container ⟨"", []⟩ "x2") = .ok [2] := by
  rw [run_index_of_ok (w := ⟨assorted, []⟩) find_assorted]
  have outcome : (match ((["x.1", "x2", "x3", "x4", "x5"].map (container ⟨"", []⟩)).foldlM
      (addContainer sizeReader true) {}).run ⟨assorted, []⟩ with
    | (.ok i, w') => decide (i.containers.map (·.text) = ["x.1.bpak", "x2.bpak", "x4.bpak"] ∧
        i.failures = ["x3.bpak", "x5.bpak"] ∧
        w'.files.readBytes (container ⟨"", []⟩ "x2") = .ok [2])
    | (.error _, _) => false) = true := by decide +kernel
  split at outcome
  · next i w' ran => exact ⟨i, w', ran, of_decide_eq_true outcome⟩
  · cases outcome

theorem index_again_assorted : ReadsContent sizeReader ∧ IsStart "x" ∧ assorted.IsProper ∧
    ∃ i w', (index sizeReader ⟨"", []⟩ (startPattern "x") true).run ⟨assorted, []⟩ =
      (.ok i, w') ∧ i.containers.map (·.text) = ["x.1.bpak", "x2.bpak", "x4.bpak"] ∧
        i.failures = ["x3.bpak", "x5.bpak"] ∧
        ∃ told, (index sizeReader ⟨"", []⟩ (startPattern "x") true).run
          { w' with notices := [] } = (.ok i, { w' with notices := told }) := by
  obtain ⟨i, w', ran, read, failed, -⟩ := exists_run_assorted
  exact ⟨readsContent_sizeReader, by decide, by decide, i, w', ran, read, failed,
    index_again readsContent_sizeReader (by decide) (by decide) ran []⟩

end Containers

end PackPlan
