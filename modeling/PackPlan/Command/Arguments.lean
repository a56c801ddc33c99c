import PackPlan.Numeral.Reader

/-!
# Command-line arguments

Arguments are switches, with their values, and plain arguments. A long switch may be
shortened as long as it stays unambiguous, and its value may follow an equals sign.
An argument that looks like a negative number is a value.

## Main definitions

* `Arguments.Switch`, `Arguments.Kind` — the switches that a command knows
* `Arguments.Mark`, `Arguments.mark` — what an argument is taken for
* `Arguments.Given` — the switches given, with their values
* `Arguments.read` — the switches among arguments
-/

namespace PackPlan.Arguments

/-- Whether a switch has a value, and of which kind. -/
inductive Kind
  /-- It has none. -/
  | flag
  /-- Any text. -/
  | text
  /-- A decimal number. -/
  | number
  /-- It has none, and asks for help. -/
  | help
  deriving DecidableEq, Repr

/-- A switch that a command knows. -/
structure Switch where
  /-- Its name, with the dashes. -/
  name : String
  /-- What it has for a value. -/
  kind : Kind
  deriving DecidableEq, Repr

/-- The switches that ask for help. -/
def helpSwitches : List Switch := [⟨"-h", .help⟩, ⟨"--help", .help⟩]

/-! ### What arguments are taken for -/

/-- What an argument is taken for. -/
inductive Mark
  /-- A plain argument, or the value of the switch before it. -/
  | plain
  /-- The two dashes after which no switches come. -/
  | dashes
  /-- A switch, with the value that was given with it, if one was. -/
  | switch (s : Switch) (value : Option String)
  /-- A switch of one letter with more letters behind it. -/
  | letters (s : Switch) (rest : List Char)
  /-- A switch that the command does not know. -/
  | unknown
  /-- A switch shortened so far that several are meant. -/
  | ambiguous
  deriving DecidableEq, Repr

/-- The text before the first equals sign, and the text after it if there is one. -/
def cutValue (s : List Char) : List Char × Option String :=
  match s.span (· ≠ '=') with
  | (name, []) => (name, none)
  | (name, _ :: value) => (name, some (String.ofList value))

/-- Whether an argument looks like a negative number. -/
def isNegative (s : List Char) : Bool :=
  let isDigit := fun c => (Text.digitValue? c).isSome
  match s with
  | '-' :: rest =>
    let rest := if rest.getLast? = some '\n' then rest.dropLast else rest
    match rest.span isDigit with
    | (digits, []) => !digits.isEmpty
    | (_, '.' :: decimals) => !decimals.isEmpty && decimals.all isDigit
    | _ => false
  | _ => false

/-- What switches an argument may stand for that is the name of none. -/
def candidates (switches : List Switch) (arg : List Char) : List Mark :=
  match arg with
  | '-' :: '-' :: _ =>
    let (name, value) := cutValue arg
    (switches.filter fun s => name.isPrefixOf s.name.toList).map (.switch · value)
  | _ =>
    switches.filterMap fun s =>
      if s.name.toList = arg.take 2 then some (.letters s (arg.drop 2))
      else if arg.isPrefixOf s.name.toList then some (.switch s none)
      else none

/-- What an argument is taken for, the two dashes aside. -/
def mark (switches : List Switch) (arg : String) : Mark :=
  let s := arg.toList
  let (name, value) := cutValue s
  let named := fun n => switches.find? fun w => w.name.toList = n
  if s.head? ≠ some '-' then .plain
  else match named s, named name, candidates switches s with
    -- the whole argument is the name of a switch
    | some w, _, _ => .switch w none
    | none, found, cs =>
      if s.length = 1 then .plain
      else match found, cs with
        -- what stands before the equals sign is the name of a switch
        | some w, _ => .switch w value
        -- it may still be the name of one, cut short
        | none, _ :: _ :: _ => .ambiguous
        | none, [m] => m
        | none, [] => if isNegative s ∨ ' ' ∈ s then .plain else .unknown

/-- Arguments with what they are taken for. After two dashes all are plain. -/
def marks (switches : List Switch) : List String → List (String × Mark)
  | [] => []
  | arg :: args =>
    if arg = "--" then (arg, .dashes) :: args.map (·, .plain)
    else (arg, mark switches arg) :: marks switches args

/-! ### Values -/

/-- Why arguments are not taken. -/
inductive Refusal
  /-- Help is asked for. -/
  | help
  /-- The arguments are misused. -/
  | misuse
  deriving DecidableEq, Repr

/-- The switches given, with their values, in order. -/
abbrev Given := List (String × String)

/-- Whether a text can be the value of a switch. -/
def Kind.accepts (k : Kind) (value : String) : Bool :=
  match k with
  | .text => true
  | .number => (Numeral.read .decimal value).toBool
  | .flag | .help => false

/-- Whether a switch with text put right behind it asks for help: one of a single letter
does when that letter alone is repeated. -/
def Switch.asks (s : Switch) (attached : List Char) : Bool :=
  match s.kind, s.name.toList, attached with
  | .help, ['-', letter], _ :: _ => attached.all (· = letter)
  | _, _, _ => false

/-- Why a switch with text put right behind it is not taken. -/
def Switch.refusal (s : Switch) (attached : List Char) : Refusal :=
  if s.asks attached then .help else .misuse

/-- The switches among marked arguments, and whether there are arguments that belong to
no switch. -/
def collect : List (String × Mark) → Except Refusal (Given × Bool)
  | [] => .ok ([], false)
  | (_, .switch s (some value)) :: args => do
    if s.kind.accepts value then
      let (given, stray) ← collect args
      return ((s.name, value) :: given, stray)
    else throw (s.refusal value.toList)
  | (_, .switch s none) :: args =>
    match s.kind, args with
    | .help, _ => .error .help
    | .flag, args => do
      let (given, stray) ← collect args
      return ((s.name, "") :: given, stray)
    | kind, (value, .plain) :: args => do
      if kind.accepts value then
        let (given, stray) ← collect args
        return ((s.name, value) :: given, stray)
      else throw .misuse
    | _, _ => .error .misuse
  | (_, .letters s rest) :: _ => .error (s.refusal rest)
  | (_, _) :: args => do return ((← collect args).1, true)

/-- The switches among arguments. There must be no others, and the required ones must
be there. -/
def read (switches : List Switch) (required : List String) (args : List String) :
    Except Refusal Given := do
  let marked := marks (helpSwitches ++ switches) args
  -- what is ambiguous counts before anything is done with what comes earlier
  if marked.any (·.2 = .ambiguous) then throw .misuse
  let (given, stray) ← collect marked
  if stray || required.any fun name => given.all (·.1 ≠ name) then throw .misuse
  return given

/-! ### What was given -/

/-- All values of a switch, in order. -/
def Given.all (g : Given) (name : String) : List String :=
  g.filterMap fun e => if e.1 = name then some e.2 else none

/-- The last value of a switch. -/
def Given.last? (g : Given) (name : String) : Option String := (Given.all g name).getLast?

/-- Whether a switch was given. -/
def Given.has (g : Given) (name : String) : Bool := g.any (·.1 = name)

/-- The last value of a switch that has a number. -/
def Given.number? (g : Given) (name : String) : Option Int := do
  (Numeral.read .decimal (← Given.last? g name)).toOption

/-! ### Commands -/

/-- The command among arguments, the arguments after it, and whether there are switches
before it that are not known. -/
def splitCommand : List String → Except Refusal (String × List String × Bool)
  | [] => .error .misuse
  | arg :: args =>
    if arg = "--" then .error .misuse
    else match mark helpSwitches arg with
      | .plain => .ok (arg, args, false)
      | .switch _ none => .error .help
      | .switch s (some value) => .error (s.refusal value.toList)
      | .letters s rest => .error (s.refusal rest)
      | .unknown => do
        let (command, args, _) ← splitCommand args
        return (command, args, true)
      | _ => .error .misuse

end PackPlan.Arguments
