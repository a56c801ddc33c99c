import PackPlan.AssetPath
import PackPlan.Notice
import PackPlan.Pattern

/-!
# Seeds

A seed is an asset from which a plan starts, written as a path with the pack in
brackets behind it. Seeds that are levels have hint files of their own.

## Main definitions

* `PackPlan.Seed` — a path and its pack
* `Seed.read` — the seed that a text denotes
* `Seed.levelHints?` — the hint file of a level
-/

namespace PackPlan

/-- An asset from which a plan starts. -/
structure Seed where
  /-- The path of the asset. -/
  path : String
  /-- The pack to which it is assigned. -/
  pack : Int := 0
  deriving DecidableEq, Repr

namespace Seed

/-- The pack that the text between brackets denotes. -/
def readPack (seed : String) (inside : List Char) : Except InputFault Int :=
  let digits := String.ofList (Text.trim inside)
  match Numeral.read .decimal digits with
  | .error _ => .error (.seedPack digits seed)
  | .ok n => if n < 0 then .error (.seedPackSign seed) else .ok n

/-- The pack that the text from the opening bracket on denotes; without a bracket it is
pack zero. What follows the closing bracket does not count, and a closing bracket that
is missing gives rise to a warning. -/
def readMark (seed : String) : List Char → Attempt Int
  | [] => return 0
  | _ :: inside => do
    if ']' ∉ inside then
      Attempt.tell (.warning s!"expected a second marker ( ] ) in seed ( {seed} )")
    Attempt.ofExcept ((readPack seed (inside.takeWhile (· ≠ ']'))).mapError .input)

/-- The seed that a text denotes. -/
def read (text : String) : Attempt Seed := do
  let (hint, mark) := text.toList.span (· ≠ '[')
  let pack ← readMark text mark
  let path := AssetPath.normalize (String.ofList hint)
  if path = "" then throw (.input (.seedPath text)) else return { path, pack }

/-- The form of the path of a level. -/
def levelPattern : String := "*levels/*/*.*"

/-- The extension of hint files. -/
def hintExtension : String := ".assethints"

/-- The hint file of a level below the root of a project, if the path is that of a
level. -/
def levelHints? (root : FilePath) (path : String) : Except FilePath.Fault (Option FilePath) :=
  if Pattern.holds levelPattern.toList path.toList then
    ((root.join path).withExtension hintExtension).map some
  else .ok none

end Seed

end PackPlan
