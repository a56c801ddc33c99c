import PackPlan.Proofs.Hints.RoundTrip
import PackPlan.Proofs.Store.Merge

/-!
# Hint files written again

The records that are read from any hint file can be written into another, and this one is read
in its turn if and only if the number of every id in it is at least zero and not too long. A
number that is given as text may be neither, since it may have a sign and any number of
hexadecimal digits. What is read then are the records of before, each with the normal form of
its path, which need not be the path: a path that is normal but begins or ends in a blank is
trimmed when it is read again.

## Main definitions

* `Hints.Rereads` — records that are read once records have been written

## Main results

* `Hints.idFits_of_rereads` — what is read again has ids whose numbers fit
* `Hints.exists_rereads` — records with such ids are read again
* `Hints.rereads_readDocument` — hint files read, written and read again
-/

namespace PackPlan.Hints

open Json (Value)
open Attempt

variable {records again : List Record} {r : Record} {told : List Notice} {path text : String}

/-- Records that are read from a hint file into which records have been written. -/
def Rereads (path : String) (records again : List Record) : Prop :=
  ∃ v warnings text told, (document records).run = (.ok v, warnings) ∧ render v = .ok text ∧
    (readDocument .none path text).run = (.ok again, told)

/-- The records of a hint file that has been written and read: those that have a pack and an id
or a path. -/
def stored (records : List Record) : List Record :=
  records.filter fun r => r.pack ≠ unassigned ∧ r.isNamed = true

/-- A document that has been written holds no number that is too long. -/
theorem subId_short_of_pretty {groups : List (Int × List Record)}
    (written : (Value.obj (members groups)).pretty = some text) {e : Int × List Record}
    (mem : e ∈ groups) (member : r ∈ e.2) (identified : r.hasIdentity = true) :
    Numeral.isTooLong r.id.subId = false := by
  obtain ⟨pack, item⟩ := mem_members mem member (isNamed_of_hasIdentity identified)
  have field : (subIdKey, Value.int r.id.subId) ∈ writeEntry r := by
    rw [writeEntry, if_pos identified]
    simp
  -- the number stands in an entry of a pack of the document
  simp only [Value.pretty, Value.write, Option.bind_eq_bind, Option.map_eq_some_iff,
    Option.bind_eq_some_iff] at written
  obtain ⟨_, ⟨_, packs, _⟩, _⟩ := written
  obtain ⟨_, items⟩ := Json.exists_write_of_mem_members packs pack
  simp only [Value.write, Option.bind_eq_bind, Option.bind_eq_some_iff] at items
  obtain ⟨_, items, _⟩ := items
  obtain ⟨_, fields⟩ := Json.exists_write_of_mem_items items item
  simp only [entry, Value.write, Option.bind_eq_bind, Option.bind_eq_some_iff] at fields
  obtain ⟨_, fields, _⟩ := fields
  obtain ⟨_, number⟩ := Json.exists_write_of_mem_members fields field
  simp only [Value.write, Option.map_eq_some_iff, Numeral.decimal?] at number
  obtain ⟨_, number, _⟩ := number
  split at number
  · cases number
  · next short => exact Bool.not_eq_true _ ▸ short

/-- What records are written as: their document, and its text as far as it can be written. -/
theorem pretty_of_rereads
    (packs : ∀ r ∈ records, 0 ≤ r.pack ∧ Numeral.isTooLong r.pack = false)
    (rereads : Rereads path records again) :
    ∃ text told, (Value.obj (members (Groups.ofRecords records).entries)).pretty = some text ∧
      (readDocument .none path (text ++ "\n")).runFrom [] = (.ok again, told) := by
  obtain ⟨v, warnings, text, told, written, rendered, read⟩ := rereads
  rw [run_eq_runFrom, runFrom_document_of_packs packs] at written
  obtain rfl := Except.ok.inj (Prod.mk.inj written).1
  rw [render] at rendered
  split at rendered
  · next text pretty =>
    obtain rfl := Except.ok.inj rendered
    exact ⟨text, told, pretty, read⟩
  · cases rendered

/-- A record with a pack is in one of the groups that are written. -/
theorem exists_group (mem : r ∈ records) (assigned : r.pack ≠ unassigned) :
    ∃ e ∈ (Groups.ofRecords records).entries, r ∈ e.2 := by
  have kept : r ∈ Groups.kept false records :=
    List.mem_filter.2 ⟨mem, by rw [Bool.false_or, decide_eq_true_eq]; exact assigned⟩
  exact List.mem_flatMap.1 ((Groups.perm_ofRecords records false).mem_iff.2 kept)

/-- The ids of records that are read again have numbers that fit. -/
theorem idFits_of_rereads
    (packs : ∀ r ∈ records, 0 ≤ r.pack ∧ Numeral.isTooLong r.pack = false)
    (rereads : Rereads path records again) :
    ∀ r ∈ records, r.pack ≠ unassigned → r.IdFits := by
  obtain ⟨text, told, pretty, read⟩ := pretty_of_rereads packs rereads
  have short : ∀ r ∈ records, r.pack ≠ unassigned → r.hasIdentity = true →
      Numeral.isTooLong r.id.subId = false := by
    intro r mem assigned identified
    obtain ⟨e, there, member⟩ := exists_group mem assigned
    exact subId_short_of_pretty pretty there member identified
  -- with no number too long the text is read as the document, which then has none below zero
  have value := (isPlain_document_of_short short).read_of_pretty pretty
  intro r mem assigned identified
  obtain ⟨e, there, member⟩ := exists_group mem assigned
  exact ⟨subId_nonneg_of_readDocument value read there member identified,
    short r mem assigned identified⟩

/-- Records whose ids have numbers that fit are read again. -/
theorem exists_rereads
    (packs : ∀ r ∈ records, 0 ≤ r.pack ∧ Numeral.isTooLong r.pack = false)
    (fits : ∀ r ∈ records, r.pack ≠ unassigned → r.IdFits) :
    Rereads path records (((fileOrder records).filter Record.isNamed).map Record.reread) := by
  obtain ⟨v, warnings, text, written, rendered, -, read⟩ := exists_text packs fits
  refine ⟨v, [] ++ warnings, text, [], written [], rendered, ?_⟩
  rw [run_eq_runFrom, read]
  simp only [readBack_none, List.flatMap_eq_nil_iff.2 fun _ _ => rfl, List.append_nil]

/-- Only one list of records is read again. -/
theorem rereads_unique {again' : List Record} (rereads : Rereads path records again)
    (rereads' : Rereads path records again') : again = again' := by
  obtain ⟨v, warnings, text, told, written, rendered, read⟩ := rereads
  obtain ⟨v', warnings', text', told', written', rendered', read'⟩ := rereads'
  obtain rfl := Except.ok.inj (Prod.mk.inj (written.symm.trans written')).1
  obtain rfl := Except.ok.inj (rendered.symm.trans rendered')
  exact Except.ok.inj (Prod.mk.inj (read.symm.trans read')).1

theorem summary_reread (r : Record) :
    r.reread.summary = (r.identity?, AssetPath.normalize r.path, r.pack) := by
  unfold Record.summary Record.identity? Record.reread Record.hasIdentity
  by_cases valid : r.id.isValid = true
  · simp only [if_pos valid]
  · rw [if_neg valid, if_neg valid]
    rfl

/-- The records that are read from a hint file can be written and read again if and only if the
numbers of their ids are at least zero and can be written. What is read then of every record
that has a pack and an id or a path is its id, the normal form of its path and its pack; so it
is read unchanged if its path is the normal form of itself. Records without a pack and records
with neither an id nor a path are not written. -/
theorem rereads_readDocument
    (accepted : (readDocument .none path text).run = (.ok records, told)) :
    ((∃ again, Rereads path records again) ↔
      ∀ r ∈ records, r.pack ≠ unassigned → r.hasIdentity = true →
        0 ≤ r.id.subId ∧ Numeral.isTooLong r.id.subId = false) ∧
    ∀ again, Rereads path records again →
      again.Perm ((stored records).map Record.reread) ∧
      ((∀ r ∈ stored records, AssetPath.normalize r.path = r.path) →
        (again.map Record.summary).Perm ((stored records).map Record.summary)) := by
  have packs := packs_of_readDocument accepted
  refine ⟨⟨?accepted, ?fits⟩, fun again rereads => ?same⟩
  case accepted =>
    rintro ⟨again, rereads⟩
    exact idFits_of_rereads packs rereads
  case fits =>
    intro fits
    exact ⟨_, exists_rereads packs fits⟩
  case same =>
    obtain rfl := rereads_unique rereads (exists_rereads packs (idFits_of_rereads packs rereads))
    have order := (filter_fileOrder_perm Record.isNamed records).map Record.reread
    refine ⟨order, fun normal => (order.map Record.summary).trans (List.Perm.of_eq ?_)⟩
    rw [List.map_map]
    refine List.map_congr_left fun r mem => ?_
    rw [Function.comp_apply, summary_reread, normal r mem, Record.summary]

/-! ### Two hint files -/

/-- The value of a hint file with one pack of one asset, given by guid, sub id and path. -/
def oneAsset (pack guid subId path : String) : Value :=
  .obj [(pack, .arr [.obj [(guidKey, .str guid), (subIdKey, .str subId), (pathKey, .str path)]])]

theorem isPlain_oneAsset (pack guid subId path : String) :
    (oneAsset pack guid subId path).IsPlain := by
  refine .obj (by simp) fun m mem => ?_
  obtain rfl := List.mem_singleton.1 mem
  refine .arr fun v mem => ?_
  obtain rfl := List.mem_singleton.1 mem
  refine .obj (by simp [guidKey, subIdKey, pathKey]) fun m mem => ?_
  simp only [List.mem_cons, List.not_mem_nil, or_false] at mem
  rcases mem with rfl | rfl | rfl <;> exact .str _

/-- A hint file in which the sub id has hexadecimal digits and the path capitals. -/
def spelledHints : String :=
  "\x7b
    \"12\": [
        \x7b
            \"guid\": \"00000000000000000000000000000001\",
            \"subId\": \"0x1F\",
            \"assetHint\": \"A\\\\b\"
        \x7d
    ]
\x7d"

/-- It is read, written with its sub id as a number, and read again unchanged. -/
theorem rereads_readDocument_spelledHints :
    ∃ records, (readDocument .none "" (spelledHints ++ "\n")).run = (.ok records, []) ∧
      ∃ again, Rereads "" records again ∧
        (again.map Record.summary).Perm (records.map Record.summary) := by
  have written : (oneAsset "12" "00000000000000000000000000000001" "0x1F" "A\\b").pretty =
      some spelledHints := by decide +kernel
  have accepted : (readDocument .none "" (spelledHints ++ "\n")).run =
      (.ok [{ id := ⟨⟨1, by decide⟩, 31⟩, path := "a/b", pack := 12 }], []) := by
    unfold readDocument
    rw [(isPlain_oneAsset _ _ _ _).read_of_pretty written]
    decide +kernel
  have short : Numeral.isTooLong 31 = false := Numeral.isTooLong_eq_false 10 (by decide) (by decide)
  obtain ⟨exact_iff, same⟩ := rereads_readDocument accepted
  obtain ⟨again, rereads⟩ := exact_iff.2 fun r mem _ _ => by
    obtain rfl := List.mem_singleton.1 mem
    exact ⟨by decide, short⟩
  exact ⟨_, accepted, again, rereads, (same again rereads).2 (by decide +kernel)⟩

/-- A hint file with a sub id below zero, given as text. -/
def negativeHints : String :=
  "\x7b
    \"0\": [
        \x7b
            \"guid\": \"\x7b00000000-0000-0000-0000-000000000001\x7d\",
            \"subId\": \"-1\",
            \"assetHint\": \"p\"
        \x7d
    ]
\x7d"

/-- It is read, but what is written of it is refused. -/
theorem not_rereads_negativeHints :
    ∃ records, (readDocument .none "" (negativeHints ++ "\n")).run = (.ok records, []) ∧
      ¬ ∃ again, Rereads "" records again := by
  have written : (oneAsset "0" "\x7b00000000-0000-0000-0000-000000000001\x7d" "-1" "p").pretty =
      some negativeHints := by decide +kernel
  have accepted : (readDocument .none "" (negativeHints ++ "\n")).run =
      (.ok [{ id := ⟨⟨1, by decide⟩, -1⟩, path := "p", pack := 0 }], []) := by
    unfold readDocument
    rw [(isPlain_oneAsset _ _ _ _).read_of_pretty written]
    decide +kernel
  refine ⟨_, accepted, ?_⟩
  rintro ⟨again, rereads⟩
  have fits := idFits_of_rereads (packs_of_readDocument accepted) rereads
    _ (List.mem_singleton_self _) (by decide) (by decide)
  exact absurd fits.1 (by decide)

/-- The blanks around a path are trimmed before its root is dropped, so that a normal form may
begin with a blank. -/
example : AssetPath.normalize "/ a" = " a" ∧ AssetPath.normalize " a" = "a" := by decide

end PackPlan.Hints
