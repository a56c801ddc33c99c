import PackPlan.Command.Plans
import PackPlan.Proofs.Hints.Reading
import PackPlan.Proofs.Hints.Writing
import PackPlan.Proofs.Steady

/-!
# Making plans is steady

What was told before makes no difference to reading seeds and level roots, to making the plan of a
platform, and to printing and writing it.

## Main results

* `Seed.isSteady_read` — reading a seed
* `Planning.isSteady_readSeeds`, `Planning.isSteady_readLevels` — reading hint files
* `Plan.isSteady_build`, `Plan.isSteady_print` — a plan, and what is told of it
* `Planning.isSteady_make` — the task of a platform
-/

namespace PackPlan

/-! ### Reading -/

namespace Seed

theorem isSteady_readMark (seed : String) (mark : List Char) : (readMark seed mark).IsSteady := by
  cases mark with
  | nil => exact Attempt.isSteady_pure _
  | cons bracket inside =>
    rw [readMark]
    split
    · exact (Attempt.isSteady_tell _).bind fun _ => Attempt.isSteady_ofExcept _
    · exact Attempt.isSteady_ofExcept _

theorem isSteady_read (text : String) : (Seed.read text).IsSteady := by
  refine (isSteady_readMark _ _).bind fun pack => ?_
  dsimp only
  split
  · exact Attempt.isSteady_throw _
  · exact Attempt.isSteady_pure _

end Seed

theorem HintFiles.isSteady_read (resolver : Hints.Resolver) (p : FilePath) (t : FileTree) :
    (HintFiles.read resolver p t).IsSteady :=
  (Attempt.isSteady_ofExcept _).bind fun _ => Hints.isSteady_readBytes _ _ _

namespace Planning

variable (catalogs : CatalogSet) (platforms : List String)

theorem isSteady_readSeeds (lists : List FilePath) (more : List Seed) (t : FileTree) :
    (readSeeds catalogs platforms lists more t).IsSteady := by
  have each : ∀ list, (readSeedList catalogs platforms t list).IsSteady := by
    intro list
    refine (Attempt.isSteady_ofExcept _).bind fun file => ?_
    refine (Attempt.isSteady_ofExcept _).bind fun there => ?_
    split
    · exact HintFiles.isSteady_read _ _ _
    · exact Attempt.isSteady_throw _
  exact (Attempt.isStepwise_isSteady.mapM fun list _ => each list).bind fun _ =>
    Attempt.isSteady_pure _

theorem isSteady_readLevels (files : List FilePath) (t : FileTree) :
    (readLevels catalogs platforms files t).IsSteady := by
  have each : ∀ file, (readLevel catalogs platforms t file).IsSteady := by
    intro file
    refine (Attempt.isSteady_ofExcept _).bind fun there => ?_
    split
    · exact (HintFiles.isSteady_read _ _ _).bind fun _ => Attempt.isSteady_pure _
    · exact (Attempt.isSteady_tell _).bind fun _ => Attempt.isSteady_pure _
  exact (Attempt.isStepwise_isSteady.mapM fun file _ => each file).bind fun _ =>
    Attempt.isSteady_pure _

end Planning

/-! ### Plans -/

namespace Plan

variable (platform : String)

theorem isSteady_packStores (scope : Scope) (input : PlanInput)
    (groups : List (Int × List Record)) : (packStores platform scope input groups).IsSteady := by
  induction groups with
  | nil => exact Attempt.isSteady_pure _
  | cons group groups ih =>
    rw [packStores]
    refine (Attempt.isSteady_forM_tell _).bind fun _ => ?_
    refine (Attempt.isSteady_ofExcept _).bind fun _ => ?_
    refine (Attempt.isSteady_tell _).bind fun _ => ?_
    exact ih.bind fun _ => Attempt.isSteady_pure _

theorem isSteady_build (c : Catalog) (input : PlanInput) : (build platform c input).IsSteady := by
  refine (isSteady_packStores platform _ _ _).bind fun stores => ?_
  split
  · exact Attempt.isSteady_pure _
  · exact Attempt.isSteady_throw _

theorem isSteady_print (s : Store) : (print platform s).IsSteady := by
  have each : ∀ pack records, (printGroup pack records).IsSteady := fun pack records =>
    (Attempt.isSteady_ofExcept _).bind fun _ => (Attempt.isSteady_tell _).bind fun _ =>
      Attempt.isStepwise_isSteady.forM fun _ _ => Attempt.isSteady_tell _
  exact (Attempt.isSteady_tell _).bind fun _ =>
    Attempt.isStepwise_isSteady.forM fun group _ => each group.1 group.2

end Plan

/-! ### The task of a platform -/

theorem HintFiles.isSteady_write (records : List Record) (p : FilePath) :
    (HintFiles.write records p).IsSteady :=
  (Job.isSteady_ofAttempt (Hints.isSteady_document records)).bind fun _ =>
    Job.isSteady_writeFile _ _

namespace Planning

theorem isSteady_write (s : Store) (list : FilePath) (overwrite : Bool) (platform : String) :
    (write s list overwrite platform).IsSteady :=
  (Job.isSteady_ofExcept _).bind fun _ => (Job.isSteady_guardOverwrite _ _).bind fun _ =>
    (Job.isSteady_tell _).bind fun _ => (HintFiles.isSteady_write _ _).bind fun _ =>
      Job.isSteady_tell _

theorem isSteady_make (catalogs : CatalogSet) (input : PlanInput) (output : Output)
    (platform : String) : (make catalogs input output platform).IsSteady := by
  refine (Job.isSteady_ofExcept _).bind fun c => ?_
  refine (Job.isSteady_ofAttempt (Plan.isSteady_build _ _ _)).bind fun s => ?_
  have printed := Job.isSteady_ofAttempt (Plan.isSteady_print platform s)
  cases listed : output.list with
  | none =>
    have nothing : Job.IsSteady (pure ()) := Job.isSteady_pure _
    dsimp only
    split
    · exact printed.bind fun _ => nothing
    · exact nothing
  | some list =>
    have written := isSteady_write s list output.overwrite platform
    dsimp only
    split
    · exact printed.bind fun _ => written
    · exact written

end Planning

end PackPlan
