import PackPlan.Log
import PackPlan.Proofs.Attempt
import PackPlan.Proofs.Grouping

/-!
# Blocks of a log

Groups of records make a log of blocks, one for each pack, in ascending order. A block has a line
for each record of its group that has a place.

## Main definitions

* `Log.lineOf`, `Log.payloadLine` — the line of a range of bytes, and of a record's payload
* `Log.frame` — blocks with separators between them
* `Log.Places` — what a way of placing records finds and tells
* `Log.blocksOf` — the blocks of groups

## Main results

* `Log.Places.renderGroups` — a log consists of the blocks of its groups
* `Log.count_frame`, `Log.record_mem_frame_iff` — the records of a log are the lines of its blocks
* `Log.places_placeIn`, `Log.places_sampling` — the two ways of placing records
-/

namespace PackPlan

namespace Log

variable {place : Record → Attempt (Option Record)} {find : Record → Option Record}
  {tells : Record → List Notice} {groups : Groups} {group : List Record} {items : List Item}
  {blocks : List (Int × List String)} {bundle text : String} {offset size pack : Int}
  {told told' : List Notice}

/-! ### Lines -/

/-- A number as text. -/
def digits (n : Int) : String := String.ofList (Numeral.decimalText n)

theorem eq_digits {n : Int} (h : Numeral.decimal? n = some text) : text = digits n := by
  rw [Numeral.decimal?] at h
  split at h
  · cases h
  · exact (Option.some.inj h).symm

/-- The line of a bundle and a range of its bytes. -/
def lineOf (bundle : String) (offset size : Int) : String :=
  s!"{bundle}\t{digits offset}\t{digits size}\ti-read \t000000000000000000"

theorem eq_lineOf (h : line bundle offset size = .ok text) : text = lineOf bundle offset size := by
  unfold line at h
  split at h
  · next first second readFirst readSecond =>
    rw [lineOf, ← eq_digits readFirst, ← eq_digits readSecond]
    exact (Except.ok.inj h).symm
  · cases h

/-- The line of a record: its container, and where its payload is there. -/
def payloadLine (r : Record) : String := lineOf r.bundle r.payloadOffset r.payloadSize

/-! ### Blocks -/

/-- The items of blocks of lines: a separator between neighbours, and after it the marker if it
closes pack zero. -/
def frame : List (Int × List String) → List Item
  | [] => []
  | [(_, lines)] => lines.map .record
  | (pack, lines) :: blocks =>
    lines.map .record ++ .separator :: (if pack = 0 then .marker :: frame blocks else frame blocks)

theorem count_append (items items' : List Item) :
    count (items ++ items') = count items + count items' := List.countP_append

theorem count_map_record (lines : List String) : count (lines.map .record) = lines.length := by
  rw [count, List.countP_map]
  exact List.countP_eq_length.2 fun _ _ => rfl

/-- The records of a log are the lines of its blocks. -/
theorem count_frame (blocks : List (Int × List String)) :
    count (frame blocks) = (blocks.flatMap Prod.snd).length := by
  induction blocks using frame.induct with
  | case1 => rfl
  | case2 pack lines => rw [frame, count_map_record, List.flatMap_singleton]
  | case3 pack lines blocks some ih =>
    rw [frame.eq_3 _ _ _ some, count_append, count_map_record, List.flatMap_cons,
      List.length_append, ← ih]
    split <;> rfl

theorem record_mem_frame_iff :
    .record text ∈ frame blocks ↔ ∃ b ∈ blocks, text ∈ b.2 := by
  induction blocks using frame.induct with
  | case1 => simp [frame]
  | case2 pack lines => simp [frame]
  | case3 pack lines blocks some ih =>
    rw [frame.eq_3 _ _ _ some, List.mem_append, List.exists_mem_cons_iff, ← ih]
    split <;> simp

/-! ### Placing records -/

/-- What a way of placing records finds for each, and what it then tells. -/
def Places (place : Record → Attempt (Option Record)) (find : Record → Option Record)
    (tells : Record → List Notice) : Prop :=
  ∀ r {told : List Notice} {placed : Option Record} {told' : List Notice},
    (place r).runFrom told = (.ok placed, told') →
    placed = find r ∧ told' = told ++ tells r

/-- The lines of a group: those of the places that its records have. -/
def blockOf (find : Record → Option Record) (group : List Record) : List String :=
  group.filterMap fun r => (find r).map payloadLine

/-- The blocks of groups, the packs in ascending order. -/
def blocksOf (find : Record → Option Record) (groups : Groups) : List (Int × List String) :=
  groups.ascending.entries.map fun e => (e.1, blockOf find e.2)

namespace Places

theorem renderGroup (h : Places place find tells)
    (ran : (renderGroup place group).runFrom told = (.ok items, told')) :
    items = (blockOf find group).map .record ∧ told' = told ++ group.flatMap tells := by
  induction group generalizing told items with
  | nil =>
    cases ran
    exact ⟨rfl, (List.append_nil _).symm⟩
  | cons r group ih =>
    rw [Log.renderGroup] at ran
    obtain ⟨placed, mid, placing, ran⟩ := Attempt.exists_of_runFrom_bind ran
    obtain ⟨rfl, rfl⟩ := h r placing
    rw [blockOf, List.filterMap_cons, List.flatMap_cons, ← List.append_assoc]
    cases found : find r with
    | none =>
      rw [found] at ran
      exact ih ran
    | some placed =>
      rw [found] at ran
      obtain ⟨text, mid, written, ran⟩ := Attempt.exists_of_runFrom_bind ran
      rw [Attempt.runFrom_ofExcept] at written
      obtain ⟨same, rfl⟩ := Prod.mk.inj written
      obtain ⟨rest, last, later, ran⟩ := Attempt.exists_of_runFrom_bind ran
      cases ran
      obtain ⟨rfl, rfl⟩ := ih later
      rw [eq_lineOf same]
      exact ⟨rfl, rfl⟩

theorem renderEntries (h : Places place find tells) {entries : List (Int × List Record)}
    (ran : (renderEntries place entries).runFrom told = (.ok items, told')) :
    items = frame (entries.map fun e => (e.1, blockOf find e.2)) ∧
      told' = told ++ (entries.flatMap Prod.snd).flatMap tells := by
  induction entries using Log.renderEntries.induct generalizing told items with
  | case1 =>
    cases ran
    exact ⟨rfl, (List.append_nil _).symm⟩
  | case2 pack group =>
    rw [List.flatMap_singleton]
    exact h.renderGroup ran
  | case3 pack group entries some ih =>
    rw [Log.renderEntries.eq_3 _ _ _ _ some] at ran
    obtain ⟨first, mid, here, ran⟩ := Attempt.exists_of_runFrom_bind ran
    obtain ⟨rest, last, later, ran⟩ := Attempt.exists_of_runFrom_bind ran
    cases ran
    obtain ⟨rfl, rfl⟩ := h.renderGroup here
    obtain ⟨rfl, rfl⟩ := ih later
    have more : (entries.map fun e => (e.1, blockOf find e.2)) = [] → False :=
      fun none => some (List.map_eq_nil_iff.1 none)
    rw [List.map_cons, frame.eq_3 _ _ _ more, List.flatMap_cons, List.flatMap_append,
      List.append_assoc]
    exact ⟨rfl, rfl⟩

/-- A log consists of the blocks of its groups, and each record is placed once. -/
theorem renderGroups (h : Places place find tells)
    (ran : (renderGroups place groups).runFrom told = (.ok items, told')) :
    items = frame (blocksOf find groups) ∧
      told' = told ++ (groups.ascending.entries.flatMap Prod.snd).flatMap tells :=
  h.renderEntries ran

end Places

/-! ### The blocks of groups -/

theorem keys_blocksOf (find : Record → Option Record) (groups : Groups) :
    (blocksOf find groups).map Prod.fst = groups.ascending.keys := by
  rw [blocksOf, List.map_map]
  rfl

theorem mem_blocksOf {lines : List String} : (pack, lines) ∈ blocksOf find groups ↔
    ∃ group, groups.get? pack = some group ∧ lines = blockOf find group := by
  rw [blocksOf, List.mem_map]
  constructor
  · rintro ⟨⟨key, group⟩, mem, same⟩
    cases same
    exact ⟨group, by rw [← Groups.get?_ascending]; exact Table.get?_eq_some.2 mem, rfl⟩
  · rintro ⟨group, found, rfl⟩
    rw [← Groups.get?_ascending] at found
    exact ⟨(pack, group), Table.get?_eq_some.1 found, rfl⟩

/-! ### The two ways of placing records -/

/-- What a warning calls a record: its path, or its id. -/
def label (r : Record) : String := if r.path = "" then r.id.text else r.path

/-- The warning for a record that has no place. -/
def missing (r : Record) : Notice := .warning s!"can't find {label r} in any indexed container"

/-- What is told of a record that is looked up in an index. -/
def placing (index : PathTable) (r : Record) : List Notice :=
  match index.get? r.path with
  | none => [missing r]
  | some placed =>
    [.detail s!"{placed.bundle} {digits placed.payloadOffset} {digits placed.payloadSize}"]

theorem places_placeIn (index : PathTable) :
    Places (placeIn index) (fun r => index.get? r.path) (placing index) := by
  intro r told placed told' ran
  rw [placeIn] at ran
  dsimp only
  rw [placing]
  cases found : index.get? r.path with
  | none =>
    rw [found] at ran
    cases ran
    exact ⟨rfl, rfl⟩
  | some there =>
    rw [found] at ran
    dsimp only at ran ⊢
    split at ran
    · next offset size first second =>
      rw [← eq_digits first, ← eq_digits second]
      cases ran
      exact ⟨rfl, rfl⟩
    · cases ran

/-- A warning is told of a record exactly if it has no place. -/
theorem filter_isWarning_placing (index : PathTable) (r : Record) :
    (placing index r).filter (·.isWarning) =
      if index.contains r.path then [] else [missing r] := by
  rw [placing, Table.contains]
  cases index.get? r.path <;> rfl

/-- The record that stands for another in a sampling log. -/
def sampled (r : Record) : Record := { r with bundle := sampleName r }

theorem places_sampling :
    Places (fun r => return some (sampled r)) (fun r => some (sampled r)) fun _ => [] := by
  intro r told placed told' ran
  cases ran
  exact ⟨rfl, (List.append_nil _).symm⟩

end Log

end PackPlan
