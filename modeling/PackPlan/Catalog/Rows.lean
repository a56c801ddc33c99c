import PackPlan.Fault
import PackPlan.Text.Lines

/-!
# Rows of a table in text

A table in text has a row on each line and tabs between its fields. A field in
quotation marks may hold tabs, line ends, and quotation marks written twice. Files are
read in blocks; what is wrong in one block leaves the rows that earlier blocks
completed.

## Main definitions

* `Rows.Draft` — a row that is being read
* `Rows.ofLines` — the rows of lines
* `Rows.ofBytes` — the rows of a file
-/

namespace PackPlan.Rows

/-- The fields of a row. -/
abbrev Row := List String

/-- Where in a row the reader is. -/
inductive Mode
  /-- Before the first field. -/
  | rowStart
  /-- Before a field. -/
  | fieldStart
  /-- In a field without quotation marks. -/
  | plain
  /-- Between quotation marks. -/
  | quoted
  /-- After a quotation mark that may be the last or the first of two. -/
  | quoteSeen
  /-- After the line end. -/
  | ended
  deriving DecidableEq, Repr

/-- A row that is being read. -/
structure Draft where
  /-- Where the reader is. -/
  mode : Mode := .rowStart
  /-- The fields that are complete, the latest first. -/
  fields : List String := []
  /-- The characters of the field that is not, the latest first. -/
  field : List Char := []
  /-- How many these are. -/
  length : Nat := 0

/-- The draft with its field completed. -/
def Draft.save (d : Draft) (mode : Mode) : Draft :=
  { mode, fields := String.ofList d.field.reverse :: d.fields }

/-- The draft with one more character in its field, unless the field is full. -/
def Draft.push (d : Draft) (mode : Mode) (c : Char) : Option Draft :=
  if Fault.maxField ≤ d.length then none
  else some { d with mode, field := c :: d.field, length := d.length + 1 }

/-- Whether a character ends a line. -/
def isLineEnd (c : Char) : Bool := c = '\n' || c = '\r'

/-- The draft after a character that begins a field. -/
def Draft.beginField (d : Draft) (c : Char) : Option Draft :=
  if isLineEnd c then some (d.save .ended)
  else if c = '"' then some { d with mode := .quoted }
  else if c = '\t' then some (d.save .fieldStart)
  else d.push .plain c

/-- The draft after one more character, unless a field is full. -/
def Draft.feed (d : Draft) (c : Char) : Option Draft :=
  match d.mode with
  | .rowStart => if isLineEnd c then some { d with mode := .ended } else d.beginField c
  | .fieldStart => d.beginField c
  | .plain =>
    if isLineEnd c then some (d.save .ended)
    else if c = '\t' then some (d.save .fieldStart)
    else d.push .plain c
  | .quoted => if c = '"' then some { d with mode := .quoteSeen } else d.push .quoted c
  | .quoteSeen =>
    if c = '"' then d.push .quoted c
    else if c = '\t' then some (d.save .fieldStart)
    else if isLineEnd c then some (d.save .ended)
    else d.push .plain c
  | .ended => some d

/-- The fields of the draft, in order. -/
def Draft.row (d : Draft) : Row := d.fields.reverse

/-- The row that the end of a line completes, if it completes one. -/
def Draft.complete? (d : Draft) : Option Row :=
  match d.mode with
  | .quoted => none
  | .fieldStart | .plain | .quoteSeen => some (d.save .ended).row
  | .rowStart | .ended => some d.row

/-- The rows of lines, from a draft on, and whether a field was too long. Lines may end
between quotation marks; if they are all there are, that completes the row. -/
def ofLinesFrom (all : Bool) : Draft → List (List Char) → List Row × Bool
  | d, [] => (if all ∧ d.mode = .quoted then [(d.save .ended).row] else [], false)
  | d, line :: lines =>
    match line.foldlM Draft.feed d with
    | none => ([], true)
    | some d =>
      match d.complete? with
      | none => ofLinesFrom all d lines
      | some row =>
        let (rows, long) := ofLinesFrom all {} lines
        (row :: rows, long)

/-- The rows of lines up to the first field that is too long, and whether there is one.
`all` tells that no more lines follow. -/
def ofLines (all : Bool) (lines : List (List Char)) : List Row × Bool := ofLinesFrom all {} lines

/-! ### Files -/

/-- The bytes that are read at a time. -/
def blockLength : Nat := 8192

/-- Bytes cut into blocks. -/
def blocks (bytes : Bytes) : List Bytes :=
  if bytes = [] then []
  else bytes.take blockLength :: blocks (bytes.drop blockLength)
termination_by bytes.length
decreasing_by
  have := List.length_pos_iff.2 ‹¬bytes = []›
  simp only [List.length_drop, blockLength]
  omega

/-- The text of blocks, up to a block that is no text. What a block leaves unfinished
goes to the front of the next. -/
def textOfBlocks : (unfinished : Bytes) → List Bytes → List Char × Option Utf8.Fault
  | unfinished, [] => ([], Utf8.endingFault? unfinished.length unfinished)
  | unfinished, block :: rest =>
    let reading := Utf8.read (unfinished ++ block)
    match reading.fault with
    | some fault => ([], some fault)
    | none =>
      let (text, fault) := textOfBlocks reading.unfinished rest
      (reading.text ++ text, fault)

/-- The rows of a file and what stops the reader before its end. -/
def ofBytes (bytes : Bytes) : List Row × Option Fault :=
  let (text, fault) := textOfBlocks [] (blocks bytes)
  -- a last line without an end counts only if nothing was wrong before the end
  let (lines, rest) := Text.linesOf text
  match fault with
  | none =>
    let (rows, long) := ofLines true (if rest = [] then lines else lines ++ [rest])
    (rows, if long then some .longField else none)
  | some fault =>
    let (rows, long) := ofLines false lines
    (rows, some (if long then .longField else .text fault))

end PackPlan.Rows
