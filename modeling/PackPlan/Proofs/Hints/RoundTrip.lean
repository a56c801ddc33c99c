import PackPlan.Proofs.Hints.Reading
import PackPlan.Proofs.Text.Ascii

/-!
# Hint files read back

What is written into a hint file is read back from it: of every record that has a pack and
says something of its asset the id, the path and the pack, pack by pack and in the order of
records. Nothing is asked of the catalogs, and nothing is told on the way back.

## Main definitions

* `Record.bare` — what a hint file says of a record

## Main results

* `Hints.runFrom_readDocument` — a document is read as what it says of the records it names
* `Hints.exists_text` — the text of a hint file, read with any resolver
* `Hints.readBytes_document` — hint files read back
-/

namespace PackPlan

variable {r : Record} {records : List Record} {told : List Notice}

/-- What a hint file says of a record: the id, the path and the pack. -/
def Record.bare (r : Record) : Record := { id := r.id, path := r.path, pack := r.pack }

namespace Hints

open Json (Value)
open Attempt

theorem reread_eq_bare (writable : r.Writable) : r.reread = r.bare := by
  rw [Record.reread, Record.bare, writable.normal]
  cases identified : r.hasIdentity with
  | false => rw [writable.anonymous identified]; rfl
  | true => rfl

/-- Numbers of up to ten digits can be written. -/
theorem writable_of_small (pack : 0 ≤ r.pack ∧ r.pack.natAbs < Nat.pow 10 10)
    (subId : 0 ≤ r.id.subId ∧ r.id.subId.natAbs < Nat.pow 10 10)
    (anonymous : r.hasIdentity = false → r.id = .none)
    (normal : AssetPath.normalize r.path = r.path) : r.Writable where
  pack_nonneg := pack.1
  pack_short := Numeral.isTooLong_eq_false 10 (by decide) pack.2
  subId_nonneg := subId.1
  subId_short := Numeral.isTooLong_eq_false 10 (by decide) subId.2
  anonymous := anonymous
  normal := normal

theorem idFits_of_writable (writable : r.Writable) : r.IdFits :=
  fun _ => ⟨writable.subId_nonneg, writable.subId_short⟩

/-- A document is read as what it says of the records it names, if they can be written exactly. -/
theorem runFrom_readDocument {path text : String} {groups : List (Int × List Record)}
    (read : Json.read text = .ok (.obj (members groups)))
    (writable : ∀ e ∈ groups, WritableGroup e) :
    (readDocument .none path text).runFrom told =
      (.ok (((groups.flatMap Prod.snd).filter Record.isNamed).map Record.bare), told) := by
  rw [runFrom_readDocument_members read
    (fun e mem => ⟨(writable e mem).natural, (writable e mem).short, (writable e mem).pack⟩)
    fun e mem r member => idFits_of_writable ((writable e mem).records r member)]
  refine congrArg (fun again => (Except.ok again, told)) (List.map_congr_left fun r mem => ?_)
  obtain ⟨e, there, member⟩ := List.mem_flatMap.1 (List.mem_filter.1 mem).1
  exact reread_eq_bare ((writable e there).records r member)

/-! ### Hint files -/

/-- A text without carriage returns is read from its bytes as it is. -/
theorem readBytes_of_layout {resolver : Resolver} {path text : String}
    (layout : ∀ c ∈ text.toList, Json.isLayout c = true) :
    readBytes resolver path (Utf8.ofString text) = readDocument resolver path text := by
  -- without carriage returns the lines need no unifying
  have feeds : '\r' ∉ text.toList := fun mem => absurd (layout '\r' mem) (by decide)
  rw [readBytes, Utf8.ofString, Utf8.decode_encode]
  change readDocument resolver path (String.ofList (Text.unifyLines text.toList)) = _
  rw [Text.unifyLines_eq_self feeds, String.ofList_toList]

theorem filter_fileOrder_perm (p : Record → Bool) (records : List Record) :
    ((fileOrder records).filter p).Perm
      (records.filter fun r => r.pack ≠ unassigned ∧ p r = true) := by
  have sorted := (Groups.perm_ofRecords records false).filter p
  rw [Groups.kept, List.filter_filter] at sorted
  refine sorted.trans (List.Perm.of_eq (List.filter_congr fun r _ => ?_))
  rw [Bool.false_or, Bool.and_comm, Bool.decide_and, Bool.decide_eq_true]

/-- What is written of records whose numbers fit is read back, whatever resolver is asked for what
is left out. -/
theorem exists_text (packs : ∀ r ∈ records, 0 ≤ r.pack ∧ Numeral.isTooLong r.pack = false)
    (fits : ∀ r ∈ records, r.pack ≠ unassigned → r.IdFits) :
    ∃ v warnings text, (∀ told, (document records).runFrom told = (.ok v, told ++ warnings)) ∧
      render v = .ok text ∧ (∀ c ∈ text.toList, Json.isLayout c = true) ∧
      ∀ resolver path told, (readDocument resolver path text).runFrom told =
        (.ok (((fileOrder records).filter Record.isNamed).map fun r => (readBack resolver r).1),
          told ++ ((fileOrder records).filter Record.isNamed).flatMap fun r =>
            (readBack resolver r).2) := by
  obtain ⟨text, pretty, value, layout⟩ := (isPlain_document_of_short
    fun r mem assigned identified => (fits r mem assigned identified).2).exists_pretty
  refine ⟨_, _, text ++ "\n", fun told => runFrom_document_of_packs packs, by rw [render, pretty],
    layout, fun resolver path told => ?_⟩
  have groups := packGroups_ofRecords fun r mem _ => packs r mem
  refine runFrom_readDocument_of_members value groups fun e there r member => ?_
  obtain ⟨mem, assigned, -⟩ := mem_of_mem_groups there member
  exact fits r mem assigned

/-- What is written of records into a hint file is read back from its text and from its bytes:
the id, the path and the pack of every record that has a pack and an id or a path, ordered by
pack, then by path, then by the text of the id. For each record that has a pack and nothing
else there is one warning. Paths are made of characters, so no half of a surrogate pair, which
would not be read back, is ever written by itself. -/
theorem readBytes_document (records : List Record) (path : String)
    (writable : ∀ r ∈ records, r.Writable) :
    ∃ v warnings text again, (document records).run = (.ok v, warnings) ∧ render v = .ok text ∧
      (readDocument .none path text).run = (.ok again, []) ∧
      (readBytes .none path (Utf8.ofString text)).run = (.ok again, []) ∧
      again.Perm ((records.filter fun r => r.pack ≠ unassigned ∧ r.isNamed = true).map
        Record.bare) ∧
      again.Pairwise Record.inFileOrder ∧
      warnings.Perm ((records.filter fun r => r.pack ≠ unassigned ∧ r.isNamed = false).map
        fun r => namelessWarning r.pack) := by
  obtain ⟨text, written, read, layout⟩ := (isPlain_document writable).exists_pretty
  have back : (readDocument .none path (text ++ "\n")).run =
      (.ok (((fileOrder records).filter Record.isNamed).map Record.bare), []) :=
    runFrom_readDocument read (writable_groups writable)
  refine ⟨_, _, text ++ "\n", _, runFrom_document writable, ?render, back, ?bytes, ?same, ?ordered,
    ?warned⟩
  case render =>
    rw [render, written]
  case bytes =>
    rw [readBytes_of_layout layout, back]
  case same =>
    exact (filter_fileOrder_perm Record.isNamed records).map _
  case ordered =>
    exact List.pairwise_map.2 ((Groups.pairwise_ofRecords records false).filter _)
  case warned =>
    rw [List.nil_append]
    refine ((filter_fileOrder_perm (!·.isNamed) records).trans (List.Perm.of_eq ?_)).map _
    simp only [Bool.not_eq_true']

/-- Records with an id, a path, both and neither, in packs of one and two digits, with paths
that hold quotes, a backspace and a character beyond sixteen bits. -/
def mixedRecords : List Record :=
  [{ id := ⟨⟨2, Guid.two_lt⟩, 31⟩, path := "b/\"q\".\x08é", pack := 10 },
    { path := "a/😀", pack := 9 }, { pack := 9 },
    { id := ⟨⟨1, Guid.one_lt⟩, 0⟩, pack := 10 }, { id := ⟨⟨1, Guid.one_lt⟩, 0⟩, path := "c" }]

/-- Three of them are read back, and one warning is told. -/
theorem readBytes_document_mixedRecords :
    (∀ r ∈ mixedRecords, r.Writable) ∧
    ∃ v warnings text again, (document mixedRecords).run = (.ok v, warnings) ∧
      render v = .ok text ∧ (readDocument .none "" text).run = (.ok again, []) ∧
      (readBytes .none "" (Utf8.ofString text)).run = (.ok again, []) ∧
      again.Perm [{ id := ⟨⟨2, by decide⟩, 31⟩, path := "b/\"q\".\x08é", pack := 10 },
        { path := "a/😀", pack := 9 }, { id := ⟨⟨1, by decide⟩, 0⟩, pack := 10 }] ∧
      again.Pairwise Record.inFileOrder ∧ warnings.Perm [namelessWarning 9] := by
  have writable : ∀ r ∈ mixedRecords, r.Writable := by
    intro r mem
    simp only [mixedRecords, List.mem_cons, List.not_mem_nil, or_false] at mem
    rcases mem with rfl | rfl | rfl | rfl | rfl <;>
      exact writable_of_small (by decide) (by decide) (by decide) (by decide)
  exact ⟨writable, readBytes_document mixedRecords "" writable⟩

end Hints

end PackPlan
