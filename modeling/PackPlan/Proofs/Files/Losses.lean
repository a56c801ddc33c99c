import PackPlan.Proofs.Effects
import PackPlan.Proofs.Files.Rewriting

/-!
# What writing can destroy

A file that is written where nothing stands goes through a draft beside its place. That can cost
two files and no other: one that stands where the draft is put, and one to which the path leads
only after a directory has been made, because the path steps up out of that directory.

## Main definitions

* `FileTree.Grows` — what stands somewhere stays there
* `FileTree.IsExposed` — a file that writing at a path can cost
* `FileTree.LeadsTo` — a change that costs exposed files only

## Main results

* `FileTree.Grows.makeDirs` — making directories costs nothing
* `FileTree.IsProper.locate_of_plain` — a path without a step up leads to a file at once or not
  at all
* `FileTree.LeadsTo.trans` — changes one after the other
* `Job.changesBy_writeFile` — what writing a file costs
-/

namespace PackPlan

open FilePath (namesOf)

namespace FileTree

variable {t t' t'' : FileTree} {p source target : FilePath} {place other start old new : Location}
  {names : List String} {node : Node} {content : Bytes}

/-! ### Making directories -/

/-- What stands somewhere stays there. -/
def Grows (t t' : FileTree) : Prop := ∀ place node, t.node? place = some node →
  t'.node? place = some node

theorem Grows.refl (t : FileTree) : t.Grows t := fun _ _ there => there

theorem Grows.trans (first : t.Grows t') (second : t'.Grows t'') : t.Grows t'' :=
  fun place node there => second place node (first place node there)

theorem Grows.keepsDirs (h : t.Grows t') : t.KeepsDirs t' := fun place => h place .dir

theorem Grows.makeDir (proper : t.IsProper) (h : t.makeDir p = .ok t') : t.Grows t' := by
  obtain ⟨place, led, vacant, rfl⟩ := exists_of_makeDir h
  have free := proper.isFilePlace led (by simp [vacant])
  -- the new directory takes a place at which nothing stood
  intro other node there
  rw [node?_put free.ne_nil, if_neg, there]
  rintro rfl
  rw [vacant] at there
  cases there

/-- Making directories moves nothing and takes nothing away. -/
theorem Grows.makeDirs (proper : t.IsProper) (h : t.makeDirs p = .ok t') : t.Grows t' := by
  have step : ∀ {t₁ p t₂}, t₁.IsProper ∧ t.Grows t₁ → t₁.makeDir p = .ok t₂ →
      t₂.IsProper ∧ t.Grows t₂ :=
    fun held made => ⟨held.1.makeDir made, held.2.trans (.makeDir held.1 made)⟩
  exact (kept_of_makeDirs step ⟨proper, .refl t⟩ h).2

/-! ### Paths without a step up -/

/-- Without steps up, names lead straight down. -/
theorem place_of_follow_down (down : ".." ∉ names) (h : t.follow start names = .ok place) :
    place = start ++ names := by
  induction names generalizing start with
  | nil =>
    cases h
    rw [List.append_nil]
  | cons name names ih =>
    obtain ⟨-, ⟨rfl, -⟩ | ⟨-, -, further⟩⟩ := follow_cons_ok h
    · exact absurd List.mem_cons_self down
    · rw [ih (fun mem => down (List.mem_cons_of_mem _ mem)) further, List.append_assoc,
        List.singleton_append]

/-- Names without a step up lead to what stands somewhere in every tree in which it stands. -/
theorem IsProper.follow_of_plain (proper : t.IsProper) (there : t.node? place ≠ none)
    (down : ".." ∉ names) (h : t'.follow start names = .ok place) :
    t.follow start names = .ok place := by
  induction names generalizing start with
  | nil => exact h
  | cons name names ih =>
    have straight := place_of_follow_down down h
    have dir : t.node? start = some .dir := by
      -- nothing could stand at the end if no directory stood here
      by_contra leaf
      apply there
      rw [straight]
      exact proper.node?_below leaf (List.cons_ne_nil _ _)
    obtain ⟨-, ⟨rfl, -⟩ | ⟨other, short, further⟩⟩ := follow_cons_ok h
    · exact absurd List.mem_cons_self down
    · rw [follow_down dir other, if_pos short]
      exact ih (fun mem => down (List.mem_cons_of_mem _ mem)) further

/-- A path without a step up that leads to a file in a later tree led to it before. -/
theorem IsProper.locate_of_plain (proper : t.IsProper) (there : t.node? place ≠ none)
    (down : ".." ∉ namesOf p.text.toList) (h : t'.locate p = .ok place) :
    t.locate p = .ok place := by
  rw [locate_eq_ok] at h ⊢
  exact ⟨h.1, h.2.1, h.2.2.1, proper.follow_of_plain there down h.2.2.2⟩

/-! ### Files that writing can cost -/

/-- A file that writing at a path can cost, given the trees before and after it. -/
inductive IsExposed (t after : FileTree) (p : FilePath) (place : Location) : Prop
  /-- The file stands where the draft is put. -/
  | draft (beside : FilePath) (named : Job.draftPath p = .ok beside)
      (led : after.locate beside = .ok place) : IsExposed t after p place
  /-- The path steps up out of a directory that was not there, and leads to the file now. -/
  | detour (up : ".." ∈ namesOf p.text.toList) (before : t.locate p ≠ .ok place)
      (led : after.locate p = .ok place) : IsExposed t after p place

theorem IsExposed.mono {after : FileTree} (h : t'.IsExposed t'' p place) (earlier : t.KeepsDirs t')
    (later : t''.KeepsDirs after) : t.IsExposed after p place := by
  cases h with
  | draft beside named led => exact .draft beside named (later.locate led)
  | detour up before led =>
    exact .detour up (fun led' => before (earlier.locate led')) (later.locate led)

/-- A change of a tree that costs no files but those that writing at certain paths can cost. -/
structure LeadsTo (written : FilePath → Prop) (t t' : FileTree) : Prop where
  proper : t'.IsProper
  dirs : t.KeepsDirs t'
  spares : ∀ place content, t.node? place = some (.file content) →
    t'.node? place = some (.file content) ∨ ∃ p, written p ∧ t.IsExposed t' p place

variable {written : FilePath → Prop}

theorem LeadsTo.of_grows (proper : t'.IsProper) (grows : t.Grows t') : LeadsTo written t t' :=
  ⟨proper, grows.keepsDirs, fun place _ there => .inl (grows place _ there)⟩

theorem LeadsTo.refl (proper : t.IsProper) : LeadsTo written t t := .of_grows proper (.refl t)

theorem LeadsTo.trans (first : LeadsTo written t t') (second : LeadsTo written t' t'') :
    LeadsTo written t t'' := by
  refine ⟨second.proper, first.dirs.trans second.dirs, fun place content there => ?_⟩
  -- what a file is exposed to in one change it is exposed to in both, as directories stay
  rcases first.spares place content there with kept | ⟨p, output, exposed⟩
  · rcases second.spares place content kept with kept' | ⟨p, output, exposed⟩
    · exact .inl kept'
    · exact .inr ⟨p, output, exposed.mono first.dirs (.refl _)⟩
  · exact .inr ⟨p, output, exposed.mono (.refl _) second.dirs⟩

/-! ### Moving a draft -/

/-- Moving a file changes nothing but what stands at the two places. -/
theorem node?_of_move (proper : t.IsProper) (led : t.locate source = .ok old)
    (there : t.node? old = some (.file content)) (h : t.move source target = .ok t') :
    ∃ new, t.locate target = .ok new ∧
      ∀ other, other ≠ old → other ≠ new → t'.node? other = t.node? other := by
  obtain ⟨old', first, h⟩ := exists_of_bind_ok h
  obtain ⟨new, second, h⟩ := exists_of_bind_ok h
  obtain rfl := Except.ok.inj ((locate_congr led).symm.trans first)
  refine ⟨new, locate_congr second, fun other apart apart' => ?_⟩
  dsimp only at h
  split at h
  · cases h
  · next free =>
    split at free
    · rcases leaf_of_moveObstacle? there free with same | ⟨distinct, leaf⟩
      · rw [if_pos same] at h
        cases h
        rfl
      · rw [if_neg distinct] at h
        cases h
        rw [node?_relocate proper there (proper.isFilePlace second leaf).ne_nil, if_neg apart',
          if_neg apart]
    · cases free

/-- A path at which nothing is found does not lead to a file. -/
theorem locate_ne_of_exists? (free : t.exists? p = .ok false)
    (there : t.node? place = some node) : t.locate p ≠ .ok place := by
  intro led
  rw [exists?, find?_of_locate led, there] at free
  cases free

end FileTree

/-! ### Writing a file -/

namespace Job

open FileTree

variable {p : FilePath} {written : FilePath → Prop} {t above after : FileTree}

/-- A draft that has been put beside a free path costs what stands at its place. -/
theorem leadsTo_writeBytes {draft : FilePath} {text : Bytes} (output : written p)
    (proper : t.IsProper) (named : draftPath p = .ok draft)
    (drafted : t.writeBytes draft text = .ok after) : LeadsTo written t after := by
  obtain ⟨old, led, leaf, rfl⟩ := exists_of_writeBytes drafted
  have free := proper.isFilePlace led leaf
  have same := SameElsewhere.put free text
  refine ⟨proper.put free _, same.dirs.keepsDirs, fun place content there => ?_⟩
  by_cases here : place = old
  · rw [here]
    exact .inr ⟨p, output, .draft draft named (same.dirs.keepsDirs.locate led)⟩
  · rw [same.node place here]
    exact .inl there

/-- A draft that is moved to a path at which nothing was found costs what the path leads to now,
which it can do only by a detour. -/
theorem leadsTo_move {beside : FileTree} {draft : FilePath} {old : Location} {text : Bytes}
    (output : written p) (proper : t.IsProper) (free : t.exists? p = .ok false)
    (earlier : LeadsTo written t beside) (named : draftPath p = .ok draft)
    (led : beside.locate draft = .ok old) (drafted : beside.node? old = some (.file text))
    (moved : beside.move draft p = .ok after) : LeadsTo written t after := by
  obtain ⟨proper', same⟩ := sameDirs_of_move earlier.proper led drafted moved
  obtain ⟨new, target, elsewhere⟩ := node?_of_move earlier.proper led drafted moved
  have dirs := same.keepsDirs
  refine ⟨proper', earlier.dirs.trans dirs, fun place content there => ?_⟩
  rcases earlier.spares place content there with kept | ⟨q, output', exposed⟩
  · by_cases source : place = old
    · rw [source]
      exact .inr ⟨p, output, .draft draft named (dirs.locate led)⟩
    · by_cases taken : place = new
      · have before : t.locate p ≠ .ok place := locate_ne_of_exists? free there
        have now : after.locate p = .ok place := by
          rw [taken]
          exact dirs.locate target
        refine .inr ⟨p, output, .detour ?_ before now⟩
        -- a path without a step up would have led to the file before
        by_contra down
        exact before (proper.locate_of_plain (by simp [there]) down now)
      · rw [elsewhere place source taken]
        exact .inl kept
  · exact .inr ⟨q, output', exposed.mono (.refl _) dirs⟩

/-- Writing a file where nothing was found costs exposed files only, whether or not it succeeds. -/
theorem changesBy_writeFile (output : written p) (content : Except Fault String) :
    (writeFile p content).ChangesBy fun t t' =>
      t.exists? p = .ok false → t.IsProper → LeadsTo written t t' := by
  intro w free proper
  rw [writeFile, run_bind, run_change]
  cases dirs : w.files.makeDirs p.parent with
  | error cause => exact .refl proper
  | ok above =>
    -- from here on each step can stop the job, and has cost exposed files only until then
    have grown : LeadsTo written w.files above :=
      .of_grows (proper.makeDirs dirs) (.makeDirs proper dirs)
    dsimp only
    rw [run_bind, path, run_ofExcept]
    cases named : draftPath p with
    | error cause => exact grown
    | ok draft =>
      dsimp only [Except.mapError]
      rw [run_bind, run_ofExcept]
      cases content with
      | error cause => exact grown
      | ok text =>
        dsimp only
        rw [run_bind, run_change]
        dsimp only
        cases drafted : above.writeBytes draft (Utf8.ofString text) with
        | error cause => exact grown
        | ok beside =>
          have written' := grown.trans (leadsTo_writeBytes output grown.proper named drafted)
          obtain ⟨old, led, there⟩ :=
            readBytes_eq_ok.1 (readBytes_of_writeBytes grown.proper drafted)
          dsimp only
          rw [run_change]
          dsimp only
          cases moved : beside.move draft p with
          | error cause => exact written'
          | ok after => exact leadsTo_move output proper free written' named led there moved

end Job

end PackPlan
