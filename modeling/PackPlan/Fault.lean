import PackPlan.Archive.Entry
import PackPlan.AssetId
import PackPlan.Files.Search
import PackPlan.Json.Reader

/-!
# Faults

Everything that can stop a job, by cause. Faults fall into families: faults of values,
faults of files and archives, and others; a job that works through a list goes on after
faults of the first two families only.

## Main definitions

* `PackPlan.EntryFault` — why an entry of a hint file cannot be taken
* `PackPlan.HintFault` — why a hint file cannot be taken
* `PackPlan.InputFault` — why what the user asks for cannot be done
* `PackPlan.Fault` — why a job stops
* `Fault.message` — what is said about it
* `Fault.family`, `Fault.isRecoverable` — the families
-/

namespace PackPlan

/-! ### Hint files -/

/-- Why an entry of a hint file cannot be taken. -/
inductive EntryFault
  /-- It has neither an id nor a path. -/
  | incomplete
  /-- Its sub id is no number that a sub id can be. -/
  | subId (shown : String)
  /-- Its guid or sub id is misspelled. -/
  | assetId (cause : AssetId.ReadFault)
  /-- A number in it is too long to be written. -/
  | longNumber
  deriving DecidableEq, Repr

/-- What is said about a number too long to be written. -/
def longNumberMessage : String :=
  s!"Exceeds the limit ({Numeral.maxDigits} digits) for integer string conversion; " ++
    "use sys.set_int_max_str_digits() to increase the limit"

/-- What is said about an entry that cannot be taken. -/
def EntryFault.message : EntryFault → String
  | .incomplete => "entry needs either guid and subId or assetHint"
  | .subId shown => s!"invalid subId: {shown}"
  | .assetId cause => cause.message
  | .longNumber => longNumberMessage

/-- What is wrong with a hint file. -/
inductive HintCause
  /-- It is not JSON. -/
  | malformed (cause : Json.Cause)
  /-- It does not hold an object. -/
  | noObject
  /-- A key is no decimal number. -/
  | packNumber (key : String)
  /-- A key is a negative number. -/
  | packSign (key : String)
  /-- The value of a key is no array. -/
  | noArray (key : String)
  /-- An item of a pack is no object. -/
  | noEntry (key : String)
  /-- An entry of a pack cannot be taken. -/
  | entry (key : String) (cause : EntryFault)
  deriving DecidableEq, Repr

/-- The words for what is wrong with a hint file. -/
def HintCause.message : HintCause → String
  | .malformed cause => s!"JSON parse error: {cause.message}"
  | .noObject => "expecting a JSON object keyed by pack id"
  | .packNumber key => s!"pack id ( {key} ) is not a decimal number"
  | .packSign key => s!"pack id ( {key} ) must be unsigned"
  | .noArray key => s!"expecting an array for pack id ( {key} ) but found another type"
  | .noEntry key => s!"expecting an object in pack id ( {key} )"
  | .entry key cause => s!"pack id ( {key} ): {cause.message}"

/-- Why a hint file cannot be taken. -/
structure HintFault where
  /-- The file. -/
  path : String
  /-- The line, if the file is not JSON. -/
  line : Option Nat := none
  /-- What is wrong with it. -/
  cause : HintCause
  deriving DecidableEq, Repr

/-- What is said about a hint file that cannot be taken. -/
def HintFault.message (f : HintFault) : String :=
  match f.line with
  | some line => s!"{f.path}:{line}: {f.cause.message}"
  | none => s!"{f.path}: {f.cause.message}"

/-! ### Requests -/

/-- Why what the user asks for cannot be done. -/
inductive InputFault
  /-- There is no such platform. -/
  | platform (name : String)
  /-- A file belongs to another platform. -/
  | foreignFile (path platform : String)
  /-- The pack of a seed is no number. -/
  | seedPack (text seed : String)
  /-- The pack of a seed is negative. -/
  | seedPackSign (seed : String)
  /-- A seed names no asset. -/
  | seedPath (seed : String)
  /-- A seed list is not there. -/
  | noSeedList (path : String)
  /-- Nothing is to be printed and nothing to be written. -/
  | noOutput
  /-- There are no hint files to merge. -/
  | noHintFiles
  /-- The pack to force on records is negative. -/
  | packSign
  /-- No platform is named and none is found. -/
  | noPlatforms (root : String)
  deriving DecidableEq, Repr

/-- What is said about a request that cannot be met. -/
def InputFault.message : InputFault → String
  | .platform name =>
    s!"unknown platform ( {name} ), expected one of: " ++
      "pc, linux, mac, android, ios, provo, salem, jasper, server"
  | .foreignFile file owner => s!"( {file} ) does not belong to platform ( {owner} )"
  | .seedPack text seed => s!"invalid pack id ( {text} ) in seed ( {seed} )"
  | .seedPackSign seed => s!"pack id must be unsigned in seed ( {seed} )"
  | .seedPath seed => s!"seed ( {seed} ) has no asset path"
  | .noSeedList path => s!"cannot load seed list file ( {path} ): file does not exist"
  | .noOutput => "either --print or --asset-list-file must be supplied"
  | .noHintFiles => "at least one asset hints file is required"
  | .packSign => "--pack-id must be unsigned"
  | .noPlatforms root => s!"no --platform given and no platform catalogs found under {root}"

/-! ### All faults -/

/-- The families of faults. -/
inductive Fault.Family
  /-- A value is not what it should be. -/
  | value
  /-- A file or archive is not what it should be. -/
  | system
  /-- Something else. -/
  | other
  deriving DecidableEq, Repr

/-- Why a job stops. -/
inductive Fault
  /-- A record has neither an id nor a path. -/
  | namelessRecord
  /-- A number is too long to be written. -/
  | longNumber
  /-- A number cannot be read. -/
  | number (cause : Numeral.ReadFault)
  /-- A text denotes no id. -/
  | assetId (cause : AssetId.ReadFault)
  /-- A value is no sub id. -/
  | entry (cause : EntryFault)
  /-- A hint file cannot be taken. -/
  | hints (cause : HintFault)
  /-- A request cannot be met. -/
  | input (cause : InputFault)
  /-- A file is no text. -/
  | text (cause : Utf8.Fault)
  /-- A catalog lacks columns. -/
  | columns (path : String) (missing : List String)
  /-- A field of a catalog is too long. -/
  | longField
  /-- A catalog is not there. -/
  | noCatalog (path : String)
  /-- There is no catalog for a platform. -/
  | noPlatform (name : String)
  /-- A file would be overwritten. -/
  | overwrite (path : String)
  /-- There is nothing to write into a log. -/
  | emptyLog
  /-- A path cannot be changed as wanted. -/
  | path (cause : FilePath.Fault)
  /-- A pattern for files is no pattern. -/
  | search (cause : Search.Fault)
  /-- A file operation cannot be done. -/
  | files (cause : FileTree.Fault)
  /-- An archive cannot be listed. -/
  | archive (cause : Archive.Fault)
  /-- A fault of a collaborator, which says of itself what it is. -/
  | foreign (family : Fault.Family) (kind message : String)
  deriving DecidableEq, Repr

namespace Fault

/-- The most characters of a field of a catalog. -/
def maxField : Nat := 131072

/-- What is said about a fault. -/
def message : Fault → String
  | .namelessRecord => "asset record needs an asset id or a relative path"
  | .longNumber => longNumberMessage
  | .number cause => cause.message
  | .assetId cause => cause.message
  | .entry cause => cause.message
  | .hints cause => cause.message
  | .input cause => cause.message
  | .text cause => cause.message
  | .columns file missing =>
    s!"{file}: catalog missing required columns: [" ++
      ", ".intercalate (missing.map Text.quote) ++ "]"
  | .longField => s!"field larger than field limit ({maxField})"
  | .noCatalog file => s!"failed to open asset catalog file ( {file} )"
  | .noPlatform name => Text.quote name
  | .overwrite file =>
    s!"{file} already exists, running this command would perform a destructive overwrite; " ++
      "run it again with --allow-overwrites to save over the existing file"
  | .emptyLog => "cannot write a profiling log from an empty pack grouping or archive index"
  | .path cause => cause.message
  | .search cause => cause.message
  | .files cause => cause.message
  | .archive cause => cause.message
  | .foreign _ _ message => message

/-- The family of a fault. -/
def family : Fault → Family
  | .longField | .noPlatform _ | .search .rooted => .other
  | .archive (.version _) | .archive .nameless => .other
  | .noCatalog _ | .overwrite _ | .files (.system _ _) => .system
  | .archive (.damaged _ _) | .archive (.shortHeader _ _) | .archive (.noHeader _ _) => .system
  | .archive .offset => .system
  | .foreign family _ _ => family
  | _ => .value

/-- Whether a job that works through a list goes on after the fault. -/
def isRecoverable (f : Fault) : Bool := f.family ≠ .other

end Fault

end PackPlan
