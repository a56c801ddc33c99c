import PackPlan.Fault

/-!
# Notices

What a job tells its user as it goes on. Progress is shown on one channel, details of
it only on request; warnings and errors are shown on another and counted.

## Main definitions

* `PackPlan.Notice` — something told to the user
* `Notice.outLine?`, `Notice.errLine?` — its line on either channel
* `PackPlan.Attempt` — a computation that tells notices and may stop with a fault
* `Attempt.tell` — one more notice
-/

namespace PackPlan

/-- Something told to the user. -/
inductive Notice
  /-- Progress. -/
  | info (text : String)
  /-- A detail of the progress. -/
  | detail (text : String)
  /-- Something that may be wrong. -/
  | warning (text : String)
  /-- Something that is wrong. -/
  | error (text : String)
  deriving DecidableEq, Repr

namespace Notice

/-- The line of progress, details being shown on request. -/
def outLine? (verbose : Bool) : Notice → Option String
  | .info text => some text
  | .detail text => if verbose then some text else none
  | _ => none

/-- The line of a warning or an error. -/
def errLine? : Notice → Option String
  | .warning text => some ("warning: " ++ text)
  | .error text => some ("error: " ++ text)
  | _ => none

/-- Whether a notice is a warning. -/
def isWarning : Notice → Bool
  | .warning _ => true
  | _ => false

/-- Whether a notice is an error. -/
def isError : Notice → Bool
  | .error _ => true
  | _ => false

/-- Lines as text, each with its end. -/
def asText (lines : List String) : String := String.join (lines.map (· ++ "\n"))

/-- Everything shown on the channel of progress. -/
def out (verbose : Bool) (notices : List Notice) : String :=
  asText (notices.filterMap (outLine? verbose))

/-- Everything shown on the channel of warnings and errors. -/
def err (notices : List Notice) : String := asText (notices.filterMap errLine?)

end Notice

/-- A computation that tells notices and cannot stop. -/
abbrev Telling (α : Type) := StateM (List Notice) α

/-- A computation that tells notices and may stop with a fault; what it has told by
then stays told. -/
abbrev Attempt (α : Type) := ExceptT Fault (StateM (List Notice)) α

namespace Attempt

/-- One more notice. -/
def tell (n : Notice) : Attempt Unit := modify (· ++ [n])

/-- A result that may be a fault. -/
def ofExcept {α : Type} (r : Except Fault α) : Attempt α := ExceptT.mk (pure r)

/-- What a computation that cannot stop yields. -/
def ofTelling {α : Type} (m : Telling α) : Attempt α := ExceptT.lift m

/-- What the computation yields and what it tells. -/
def run {α : Type} (m : Attempt α) : Except Fault α × List Notice :=
  StateT.run (ExceptT.run m) []

end Attempt

/-- One more notice. -/
def Telling.tell (n : Notice) : Telling Unit := modify (· ++ [n])

end PackPlan
