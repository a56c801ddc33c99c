import PackPlan.Json.Value
import PackPlan.Numeral.Reader

/-!
# Reading JSON

A reader for JSON text that says on which line it stopped. Beyond the standard it
takes `NaN` and the infinities for numbers; control characters inside strings are
refused.

## Main definitions

* `Json.Cause` — what the reader expected or refused
* `Json.ReadFault` — why a text is no JSON document
* `Json.readValue` — the value at the front of a text
* `Json.read` — the value that a text denotes
-/

namespace PackPlan.Json

/-- What the reader expected or refused. -/
inductive Cause
  | value
  | name
  | colon
  | comma
  | control
  | escape
  | unicodeEscape
  | unterminated
  | extra
  | mark
  deriving DecidableEq, Repr

/-- The words for a cause. -/
def Cause.message : Cause → String
  | .value => "Expecting value"
  | .name => "Expecting property name enclosed in double quotes"
  | .colon => "Expecting ':' delimiter"
  | .comma => "Expecting ',' delimiter"
  | .control => "Invalid control character at"
  | .escape => "Invalid \\escape"
  | .unicodeEscape => "Invalid \\uXXXX escape"
  | .unterminated => "Unterminated string starting at"
  | .extra => "Extra data"
  | .mark => "Unexpected UTF-8 BOM (decode using utf-8-sig)"

/-- Why the reader stopped. -/
inductive Stop
  /-- The text is malformed where `rest` begins. -/
  | malformed (cause : Cause) (rest : List Char)
  /-- A number cannot be read. -/
  | number (cause : Numeral.ReadFault)

/-- Why a text is no JSON document. -/
inductive ReadFault
  /-- The text is malformed, on the given line. -/
  | malformed (cause : Cause) (line : Nat)
  /-- A number cannot be read. -/
  | number (cause : Numeral.ReadFault)
  deriving DecidableEq, Repr

/-- The blanks of JSON. -/
def isBlank (c : Char) : Bool := c = ' ' || c = '\t' || c = '\n' || c = '\r'

/-- The text without the blanks in front. -/
def skipBlanks (s : List Char) : List Char := s.dropWhile isBlank

/-! ### Strings -/

/-- The value of a hexadecimal digit. -/
def hexValue? (c : Char) : Option Nat :=
  if Numeral.Radix.isDigit .hexadecimal c then Numeral.glyphValue? c else none

/-- The number that four hexadecimal digits denote, and the text after them. -/
def readHex4? : List Char → Option (Nat × List Char)
  | a :: b :: c :: d :: rest => do
    return (((← hexValue? a) * 16 + (← hexValue? b)) * 256 +
      ((← hexValue? c) * 16 + (← hexValue? d)), rest)
  | _ => none

/-- The character that a letter denotes after a backslash. -/
def escaped? (c : Char) : Option Char :=
  if c = '"' ∨ c = '\\' ∨ c = '/' then some c
  else if c = 'b' then some '\x08'
  else if c = 'f' then some '\x0c'
  else if c = 'n' then some '\n'
  else if c = 'r' then some '\r'
  else if c = 't' then some '\t'
  else none

/-- Whether a number is the first half of a surrogate pair. -/
def isHighHalf (n : Nat) : Bool := 0xd800 ≤ n && n < 0xdc00

/-- Whether a number is the second half of a surrogate pair. -/
def isLowHalf (n : Nat) : Bool := 0xdc00 ≤ n && n < 0xe000

/-- The character of a code unit. Half of a pair is no character, so half of a pair by itself is
replaced. -/
def unitChar (n : Nat) : Char :=
  if isHighHalf n ∨ isLowHalf n then '\ufffd' else Char.ofNat n

/-- How many characters the digits of a numbered escape are. -/
def unitWidth : Nat := 4

/-- How many characters a second numbered escape is, with its backslash and letter. -/
def escapeWidth : Nat := 2 + unitWidth

/-- Whether a text goes on after so many characters. -/
def isLongerThan (n : Nat) (s : List Char) : Bool := !(s.drop n).isEmpty

/-- The character of a numbered escape, whose digits are at the front of a text, and how
many characters of the text it takes. A first half takes the second half with it, if
that follows and is not the end of the text. -/
def readUnicodeEscape (s : List Char) : Except Stop (Char × Nat) :=
  if !isLongerThan unitWidth s then .error (.malformed .unicodeEscape s)
  else match readHex4? s with
    | none => .error (.malformed .unicodeEscape s)
    | some (high, rest) =>
      match isHighHalf high && isLongerThan escapeWidth rest, rest with
      | true, '\\' :: 'u' :: rest =>
        match readHex4? rest with
        | none => .error (.malformed .unicodeEscape rest)
        | some (low, _) =>
          if isLowHalf low then
            let n := 0x10000 + (high - 0xd800) * 0x400 + (low - 0xdc00)
            .ok (Char.ofNat n, unitWidth + escapeWidth)
          else .ok (unitChar high, unitWidth)
      | _, _ => .ok (unitChar high, unitWidth)

/-- The characters of a string up to its closing quote, `start` being the text from
the opening quote on, `skip` the number of characters that belong to an escape already
read, and `done` the characters so far in reverse. -/
def readStringFrom (start : List Char) : (skip : Nat) → (done : List Char) → List Char →
    Except Stop (String × List Char)
  | _, _, [] => .error (.malformed .unterminated start)
  | skip + 1, done, _ :: s => readStringFrom start skip done s
  | 0, done, c :: s =>
    if c = '"' then .ok (String.ofList done.reverse, s)
    else if c = '\\' then
      match s with
      | [] => .error (.malformed .unterminated start)
      | 'u' :: digits => do
        let (c, width) ← readUnicodeEscape digits
        readStringFrom start (1 + width) (c :: done) s
      | e :: _ =>
        match escaped? e with
        | some c => readStringFrom start 1 (c :: done) s
        | none => .error (.malformed .escape start)
    else if c.toNat < 0x20 then .error (.malformed .control (c :: s))
    else readStringFrom start 0 (c :: done) s

/-- The string whose opening quote is at the front of `start` and whose characters
begin `s`. -/
def readString (start s : List Char) : Except Stop (String × List Char) :=
  readStringFrom start 0 [] s

/-! ### Numbers -/

/-- Whether a character is an ASCII digit. -/
def isDigit (c : Char) : Bool := '0' ≤ c && c ≤ '9'

/-- The number that ASCII digits denote. -/
def digitsValue (s : List Char) : Nat := Nat.ofDigitChars 10 s 0

/-- The digits of a whole number at the front of a text: a zero, or digits that begin
with none. -/
def takeWhole : List Char → List Char × List Char
  | '0' :: s => (['0'], s)
  | s => s.span isDigit

/-- The digits after a point at the front of a text; a point without any is not part
of the number. -/
def takeFraction : List Char → Option (List Char) × List Char
  | '.' :: s =>
    let (digits, rest) := s.span isDigit
    if digits = [] then (none, '.' :: s) else (some digits, rest)
  | s => (none, s)

/-- The exponent at the front of a text; a letter without digits is not part of the
number. -/
def takeExponent (s : List Char) : Option Int × List Char :=
  match s with
  | e :: rest =>
    if e = 'e' ∨ e = 'E' then
      let (negative, afterSign) := Numeral.takeSign rest
      let (digits, after) := afterSign.span isDigit
      if digits = [] then (none, s)
      else (some (if negative then -(digitsValue digits : Int) else digitsValue digits), after)
    else (none, s)
  | [] => (none, s)

/-- The number at the front of a text, given its sign. A number with a fraction or an
exponent is no whole number. -/
def readUnsigned (start : List Char) (negative : Bool) (s : List Char) :
    Except Stop (Value × List Char) :=
  match takeWhole s with
  | ([], _) => .error (.malformed .value start)
  | (whole, rest) =>
    -- a point or a letter without digits behind it is left for what comes next
    let (fraction, rest) := takeFraction rest
    let (exponent, rest) := takeExponent rest
    if fraction.isNone ∧ exponent.isNone then
      match Numeral.read .decimal (String.ofList whole) with
      | .ok n => .ok (.int (if negative then -n else n), rest)
      | .error cause => .error (.number cause)
    else
      let decimals := fraction.getD []
      let x := Binary64.ofDecimal negative (digitsValue (whole ++ decimals))
        (exponent.getD 0 - decimals.length)
      .ok (.real x, rest)

/-- The number at the front of a text. -/
def readNumber : List Char → Except Stop (Value × List Char)
  | '-' :: s => readUnsigned ('-' :: s) true s
  | s => readUnsigned s false s

/-! ### Values -/

/-- The words that denote values. -/
def words : List (List Char × Value) :=
  [("null".toList, .null), ("true".toList, .bool true), ("false".toList, .bool false),
    ("NaN".toList, .real .nan), ("Infinity".toList, .real (.infinite false)),
    ("-Infinity".toList, .real (.infinite true))]

/-- The word at the front of a text, or else the number. -/
def readWordOrNumber (s : List Char) : Except Stop (Value × List Char) :=
  match words.find? fun w => w.1.isPrefixOf s with
  | some (word, v) => .ok (v, s.drop word.length)
  | none => readNumber s

mutual

/-- The value at the front of a text, which has no blanks in front. -/
def readValue : (fuel : Nat) → List Char → Except Stop (Value × List Char)
  | 0, s => .error (.malformed .value s)
  | fuel + 1, s =>
    match s with
    | '"' :: rest => do
      let (t, rest) ← readString s rest
      return (.str t, rest)
    | '\x7b' :: rest =>
      match skipBlanks rest with
      | '\x7d' :: rest => .ok (.obj [], rest)
      | rest => readMembers fuel [] rest
    | '[' :: rest =>
      match skipBlanks rest with
      | ']' :: rest => .ok (.arr [], rest)
      | rest => readItems fuel [] rest
    | s => readWordOrNumber s

/-- The members of an object from the front of a text to its closing brace, after
those read already. -/
def readMembers : (fuel : Nat) → List (String × Value) → List Char →
    Except Stop (Value × List Char)
  | 0, _, s => .error (.malformed .name s)
  | fuel + 1, members, s =>
    match s with
    | '"' :: rest => do
      let (name, rest) ← readString s rest
      match skipBlanks rest with
      | ':' :: rest =>
        let (v, rest) ← readValue fuel (skipBlanks rest)
        let members := putMember members name v
        match skipBlanks rest with
        | '\x7d' :: rest => return (.obj members, rest)
        | ',' :: rest => readMembers fuel members (skipBlanks rest)
        | rest => .error (.malformed .comma rest)
      | rest => .error (.malformed .colon rest)
    | s => .error (.malformed .name s)

/-- The items of an array from the front of a text to its closing bracket, after those
read already, which are in reverse. -/
def readItems : (fuel : Nat) → List Value → List Char → Except Stop (Value × List Char)
  | 0, _, s => .error (.malformed .value s)
  | fuel + 1, items, s => do
    let (v, rest) ← readValue fuel s
    match skipBlanks rest with
    | ']' :: rest => return (.arr (v :: items).reverse, rest)
    | ',' :: rest => readItems fuel (v :: items) (skipBlanks rest)
    | rest => .error (.malformed .comma rest)

end

/-- The value of a whole text. -/
def readDocument (s : List Char) : Except Stop Value :=
  match s with
  -- a byte order mark is no blank
  | '\ufeff' :: _ => .error (.malformed .mark s)
  | s => do
    let (v, rest) ← readValue (2 * s.length + 2) (skipBlanks s)
    match skipBlanks rest with
    | [] => return v
    | rest => .error (.malformed .extra rest)

/-- The line, counted from one, on which the end `rest` of a text begins. -/
def lineOf (s rest : List Char) : Nat := (s.take (s.length - rest.length)).count '\n' + 1

/-- The value that a text denotes. -/
def read (text : String) : Except ReadFault Value :=
  match readDocument text.toList with
  | .ok v => .ok v
  | .error (.malformed cause rest) => .error (.malformed cause (lineOf text.toList rest))
  | .error (.number cause) => .error (.number cause)

end PackPlan.Json
