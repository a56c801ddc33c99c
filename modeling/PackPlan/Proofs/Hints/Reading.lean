import PackPlan.Proofs.Hints.Writing

/-!
# What is read from a hint file

A hint file that has been written is read as what it says of the records it names: the id if
there is one, the normal form of the path, and the pack. It is refused if the number of an id
is negative. Whatever is read, the number of its pack can be written again.

## Main definitions

* `Record.reread` — what is read of a record that has been written
* `Record.IdFits` — the number of the record's id can be written and read
* `Hints.readBack` — what is read of it with a resolver

## Main results

* `Hints.readFields_writeEntry` — the entry of a record says what the record does
* `Hints.runFrom_readDocument_of_members`, `Hints.runFrom_readDocument_members` — a document is
  read as what it says, with and without a resolver
* `Hints.pack_nonneg_of_readDocument`, `Hints.subId_nonneg_of_readDocument` — a document that is
  read holds no negative number
* `Hints.packs_of_readDocument` — the packs that are read can be written
* `Hints.isSteady_readBytes` — what was told before makes no difference to what is read
-/

namespace PackPlan

variable {r s : Record} {records : List Record} {told told' : List Notice}
  {groups : List (Int × List Record)}

/-- What is read of a record that has been written: the id, if it has one, the normal form of
the path, and the pack. -/
def Record.reread (r : Record) : Record :=
  { id := if r.hasIdentity then r.id else .none
    path := AssetPath.normalize r.path
    pack := r.pack }

/-- The number of the record's id, if it has one, can be written and read. -/
def Record.IdFits (r : Record) : Prop :=
  r.hasIdentity = true → 0 ≤ r.id.subId ∧ Numeral.isTooLong r.id.subId = false

namespace Hints

open Json (Value)
open Attempt

/-! ### Entries -/

theorem isNamed_of_hasIdentity (identified : r.hasIdentity = true) : r.isNamed = true := by
  rw [Record.isNamed, identified, Bool.true_or]

/-- What is written of a named record stands among the items of its group. -/
theorem mem_members {e : Int × List Record} (mem : e ∈ groups) (member : r ∈ e.2)
    (named : r.isNamed = true) :
    (String.ofList (Numeral.decimalText e.1),
        Value.arr ((e.2.filter Record.isNamed).map entry)) ∈ members groups ∧
      entry r ∈ (e.2.filter Record.isNamed).map entry :=
  ⟨List.mem_map_of_mem (List.mem_filter.2 ⟨mem, List.any_eq_true.2 ⟨r, member, named⟩⟩),
    List.mem_map_of_mem (List.mem_filter.2 ⟨member, named⟩)⟩

theorem member?_writeEntry (r : Record) :
    Json.member? (writeEntry r) guidKey =
      (if r.hasIdentity then some (.str r.id.guid.text) else none) ∧
    Json.member? (writeEntry r) subIdKey =
      (if r.hasIdentity then some (.int r.id.subId) else none) ∧
    Json.member? (writeEntry r) pathKey = if r.path = "" then none else some (.str r.path) := by
  rw [writeEntry]
  by_cases identified : r.hasIdentity = true <;> by_cases unnamed : r.path = "" <;>
    simp [Json.member?, identified, unnamed, guidKey, subIdKey, pathKey, List.lookup_cons]

theorem readSubId_int {n : Int} (natural : 0 ≤ n) : readSubId (.int n) = .ok n := by
  rw [readSubId, if_neg (Int.not_lt.2 natural)]

theorem readSubId_negative {n : Int} (negative : n < 0) :
    readSubId (.int n) = .error (refuseSubId (.int n)) := by
  rw [readSubId, if_pos negative]

/-- The path of an entry, if it has one, is read in its normal form; none is read as the empty
one. What else there is to read follows. -/
theorem readFields_writeEntry_eq (named : r.isNamed = true) :
    readFields (writeEntry r) =
      if r.hasIdentity then do
        let subId ← readSubId (.int r.id.subId)
        let id ← (AssetId.make r.id.guid.text subId).mapError .assetId
        return (AssetPath.normalize r.path, some id)
      else .ok (AssetPath.normalize r.path, none) := by
  obtain ⟨guid, subId, path⟩ := member?_writeEntry r
  have text : ∀ s, asText (.str s) = .ok s := fun _ => rfl
  have empty : AssetPath.normalize "" = "" := rfl
  rw [Record.isNamed, Bool.or_eq_true, decide_eq_true_eq] at named
  unfold readFields
  rw [guid, subId, path]
  -- a record with an id may lack the path, one without an id may not
  cases identified : r.hasIdentity with
  | false =>
    have nonempty : r.path ≠ "" := named.resolve_left (by rw [identified]; simp)
    rw [if_neg Bool.false_ne_true, if_neg Bool.false_ne_true, if_neg nonempty, if_neg (by simp),
      if_neg Bool.false_ne_true]
    rfl
  | true =>
    rw [if_pos rfl, if_pos rfl, if_neg (by simp), if_pos rfl]
    by_cases unnamed : r.path = ""
    · rw [if_pos unnamed, unnamed, empty]
      simp only [text, bind, Except.bind, pure, Except.pure]
    · rw [if_neg unnamed]
      simp only [text, Except.map, bind, Except.bind, pure, Except.pure]

/-- The entry of a record says what the record does. -/
theorem readFields_writeEntry (fits : r.IdFits) (named : r.isNamed = true) :
    readFields (writeEntry r) =
      .ok (AssetPath.normalize r.path, if r.hasIdentity then some r.id else none) := by
  rw [readFields_writeEntry_eq named]
  split
  · next identified =>
    have id : AssetId.make r.id.guid.text r.id.subId = .ok r.id := AssetId.make_text r.id
    simp only [readSubId_int (fits identified).1, id, bind, Except.bind, Except.mapError, pure,
      Except.pure]
  · rfl

/-- An entry with a negative number in its id is refused. -/
theorem readFields_writeEntry_negative (identified : r.hasIdentity = true)
    (negative : r.id.subId < 0) :
    readFields (writeEntry r) = .error (refuseSubId (.int r.id.subId)) := by
  rw [readFields_writeEntry_eq (isNamed_of_hasIdentity identified),
    if_pos identified, readSubId_negative negative]
  rfl

/-- What is read of a record that has been written, what its entry leaves out being asked of a
resolver, and the notices that go with it. -/
def readBack (resolver : Resolver) (r : Record) : Record × List Notice :=
  complete resolver r.pack (AssetPath.normalize r.path) (if r.hasIdentity then some r.id else none)

/-- Without a resolver nothing is added to what an entry says. -/
theorem complete_none (pack : Int) (path : String) (id? : Option AssetId) :
    complete .none pack path id? = ({ id := id?.getD .none, path, pack }, []) := by
  unfold complete
  cases id? with
  | none =>
    dsimp only [Resolver.none]
    rw [if_neg (by rintro ⟨-, valid⟩; exact absurd valid (by decide))]
    rfl
  | some id =>
    dsimp only
    split
    · next unnamed => rw [unnamed.1]; rfl
    · rfl

theorem readBack_none (r : Record) : readBack .none r = (r.reread, []) := by
  rw [readBack, complete_none, Record.reread]
  cases r.hasIdentity <;> rfl

theorem pack_complete (resolver : Resolver) (pack : Int) (path : String) (id? : Option AssetId) :
    (complete resolver pack path id?).1.pack = pack := rfl

theorem id_complete_some (resolver : Resolver) (pack : Int) (path : String) (id : AssetId) :
    (complete resolver pack path (some id)).1.id = id := rfl

theorem pack_readBack (resolver : Resolver) (r : Record) :
    (readBack resolver r).1.pack = r.pack := by
  rw [readBack, pack_complete]

/-- An id that has been written is not asked for. -/
theorem id_readBack (resolver : Resolver) (identified : r.hasIdentity = true) :
    (readBack resolver r).1.id = r.id := by
  rw [readBack, if_pos identified, id_complete_some]

theorem runFrom_readItem {resolver : Resolver} {path key : String} (fits : r.IdFits)
    (named : r.isNamed = true) : (readItem resolver path key r.pack (entry r)).runFrom told =
      (.ok (readBack resolver r).1, told ++ (readBack resolver r).2) := by
  rw [entry, readItem, readFields_writeEntry fits named, readBack]
  dsimp only
  generalize complete resolver r.pack (AssetPath.normalize r.path)
    (if r.hasIdentity then some r.id else none) = answer
  rw [runFrom_bind_ok (runFrom_forM_tell _), runFrom_pure]

theorem subId_nonneg_of_readItem {resolver : Resolver} {path key : String} {pack : Int}
    (read : (readItem resolver path key pack (entry r)).runFrom told = (.ok s, told'))
    (identified : r.hasIdentity = true) : 0 ≤ r.id.subId := by
  by_contra negative
  rw [entry, readItem, readFields_writeEntry_negative identified (Int.not_le.1 negative)] at read
  cases read

/-! ### Packs -/

theorem readPack_decimalText {pack : Int} (natural : 0 ≤ pack)
    (short : Numeral.isTooLong pack = false) :
    readPack (String.ofList (Numeral.decimalText pack)) = .ok pack := by
  rw [readPack, Numeral.read_decimalText short]
  exact if_neg (Int.not_lt.2 natural)

/-- The pack that a key denotes can be written. -/
theorem pack_of_readPack {key : String} {pack : Int} (read : readPack key = .ok pack) :
    0 ≤ pack ∧ Numeral.isTooLong pack = false := by
  rw [readPack] at read
  split at read
  · cases read
  · next n number =>
    split at read
    · cases read
    · next natural =>
      obtain rfl := Except.ok.inj read
      exact ⟨Int.not_lt.1 natural, Numeral.isTooLong_of_read number⟩

theorem runFrom_readPackItems {resolver : Resolver} {path : String} {e : Int × List Record}
    (group : PackGroup e) (fits : ∀ r ∈ e.2, r.IdFits) :
    (readPackItems resolver path (String.ofList (Numeral.decimalText e.1),
      .arr ((e.2.filter Record.isNamed).map entry))).runFrom told =
        (.ok ((e.2.filter Record.isNamed).map fun r => (readBack resolver r).1),
          told ++ (e.2.filter Record.isNamed).flatMap fun r => (readBack resolver r).2) := by
  obtain ⟨pack, group'⟩ := e
  unfold readPackItems
  dsimp only
  rw [readPack_decimalText group.natural group.short]
  dsimp only
  have items : ∀ r ∈ group'.filter Record.isNamed, ∀ told,
      (readItem resolver path (String.ofList (Numeral.decimalText pack)) pack (entry r)).runFrom
        told = (.ok (readBack resolver r).1, told ++ (readBack resolver r).2) := by
    intro r mem told
    obtain ⟨here, named⟩ := List.mem_filter.1 mem
    obtain rfl := group.pack r here
    exact runFrom_readItem (fits r here) named
  rw [List.mapM_map]
  exact runFrom_mapM items

/-- The groups in which something is said hold all that say something. -/
theorem flatMap_filter_isNamed {β : Type} (f : List Record → List β) (nothing : f [] = [])
    (groups : List (Int × List Record)) :
    (groups.filter fun e => e.2.any Record.isNamed).flatMap
        (fun e => f (e.2.filter Record.isNamed)) =
      groups.flatMap fun e => f (e.2.filter Record.isNamed) := by
  induction groups with
  | nil => rfl
  | cons e groups ih =>
    rw [List.flatMap_cons, ← ih]
    cases said : e.2.any Record.isNamed with
    | false =>
      rw [List.filter_cons_of_neg (by rw [said]; simp), filter_isNamed_eq_nil said, nothing,
        List.nil_append]
    | true => rw [List.filter_cons_of_pos (by exact said), List.flatMap_cons]

/-! ### Documents -/

/-- A document is read as what is read back of the records it names. -/
theorem runFrom_readDocument_of_members {resolver : Resolver} {path text : String}
    (read : Json.read text = .ok (.obj (members groups)))
    (packs : ∀ e ∈ groups, PackGroup e) (fits : ∀ e ∈ groups, ∀ r ∈ e.2, r.IdFits) :
    (readDocument resolver path text).runFrom told =
      (.ok (((groups.flatMap Prod.snd).filter Record.isNamed).map fun r =>
          (readBack resolver r).1),
        told ++ ((groups.flatMap Prod.snd).filter Record.isNamed).flatMap fun r =>
          (readBack resolver r).2) := by
  have pages : ((members groups).mapM (readPackItems resolver path)).runFrom told =
      (.ok ((groups.filter fun e => e.2.any Record.isNamed).map fun e =>
          (e.2.filter Record.isNamed).map fun r => (readBack resolver r).1),
        told ++ (groups.filter fun e => e.2.any Record.isNamed).flatMap fun e =>
          (e.2.filter Record.isNamed).flatMap fun r => (readBack resolver r).2) := by
    rw [members, List.mapM_map]
    refine runFrom_mapM (g := fun e => (_, _)) fun e mem told => ?_
    have here := (List.mem_filter.1 mem).1
    exact runFrom_readPackItems (packs e here) (fits e here)
  unfold readDocument
  rw [read]
  dsimp only
  rw [runFrom_bind_ok pages, runFrom_pure, ← List.flatMap_def,
    flatMap_filter_isNamed (List.map fun r => (readBack resolver r).1) rfl,
    flatMap_filter_isNamed (List.flatMap fun r => (readBack resolver r).2) rfl,
    List.filter_flatMap, List.map_flatMap, List.flatMap_assoc]

/-- Without a resolver it is read as what it says of them. -/
theorem runFrom_readDocument_members {path text : String}
    (read : Json.read text = .ok (.obj (members groups)))
    (packs : ∀ e ∈ groups, PackGroup e) (fits : ∀ e ∈ groups, ∀ r ∈ e.2, r.IdFits) :
    (readDocument .none path text).runFrom told =
      (.ok (((groups.flatMap Prod.snd).filter Record.isNamed).map Record.reread), told) := by
  rw [runFrom_readDocument_of_members read packs fits]
  simp only [readBack_none, List.flatMap_eq_nil_iff.2 fun _ _ => rfl, List.append_nil]

/-- Where an object is read as records, its members are read one after the other. -/
theorem mapM_of_readDocument {resolver : Resolver} {path text : String}
    {ms : List (String × Value)} (read : Json.read text = .ok (.obj ms))
    (accepted : (readDocument resolver path text).runFrom told = (.ok records, told')) :
    ∃ parts after, records = parts.flatten ∧
      (ms.mapM (readPackItems resolver path)).runFrom told = (.ok parts, after) := by
  unfold readDocument at accepted
  rw [read] at accepted
  dsimp only at accepted
  obtain ⟨parts, mid, whole, last⟩ := exists_of_runFrom_bind accepted
  cases last
  exact ⟨parts, told', rfl, whole⟩

/-- The records of a pack take the number of the pack. -/
theorem pack_of_readPackItems {resolver : Resolver} {path : String} {m : String × Value}
    (read : (readPackItems resolver path m).runFrom told = (.ok records, told'))
    (mem : r ∈ records) : readPack m.1 = .ok r.pack := by
  unfold readPackItems at read
  dsimp only at read
  split at read
  · cases read
  · next pack key =>
    split at read
    · obtain ⟨v, -, before, after, item⟩ := exists_item_of_mapM read mem
      unfold readItem at item
      split at item
      · split at item
        · cases item
        · dsimp only at item
          rw [runFrom_bind_ok (runFrom_forM_tell _)] at item
          cases item
          exact key
      · cases item
    · cases read

/-- The packs that are read can be written. -/
theorem packs_of_readDocument {resolver : Resolver} {path text : String}
    (accepted : (readDocument resolver path text).runFrom told = (.ok records, told')) :
    ∀ r ∈ records, 0 ≤ r.pack ∧ Numeral.isTooLong r.pack = false := by
  intro r mem
  have whole := accepted
  unfold readDocument at accepted
  split at accepted
  · cases accepted
  · cases accepted
  · next ms read =>
    obtain ⟨parts, after, rfl, each⟩ := mapM_of_readDocument read whole
    obtain ⟨part, there, member⟩ := List.mem_flatten.1 mem
    obtain ⟨m, -, before, after, items⟩ := exists_item_of_mapM each there
    exact pack_of_readPack (pack_of_readPackItems items member)
  · cases accepted

/-- A document that is read holds no negative number of a pack. -/
theorem pack_nonneg_of_readDocument {resolver : Resolver} {path text : String}
    (read : Json.read text = .ok (.obj (members groups)))
    (accepted : (readDocument resolver path text).runFrom told = (.ok records, told'))
    {e : Int × List Record} (mem : e ∈ groups) (member : r ∈ e.2) (named : r.isNamed = true)
    (short : Numeral.isTooLong e.1 = false) : 0 ≤ e.1 := by
  obtain ⟨parts, after, -, each⟩ := mapM_of_readDocument read accepted
  obtain ⟨part, -, before, after, items⟩ :=
    exists_result_of_mapM each (mem_members mem member named).1
  by_contra negative
  unfold readPackItems readPack at items
  dsimp only at items
  rw [Numeral.read_decimalText short] at items
  dsimp only at items
  rw [if_pos (Int.not_le.1 negative)] at items
  cases items

/-- A document that is read holds no negative number of an id. -/
theorem subId_nonneg_of_readDocument {resolver : Resolver} {path text : String}
    (read : Json.read text = .ok (.obj (members groups)))
    (accepted : (readDocument resolver path text).runFrom told = (.ok records, told'))
    {e : Int × List Record} (mem : e ∈ groups) (member : r ∈ e.2)
    (identified : r.hasIdentity = true) : 0 ≤ r.id.subId := by
  obtain ⟨there, here⟩ := mem_members mem member (isNamed_of_hasIdentity identified)
  obtain ⟨parts, after, -, each⟩ := mapM_of_readDocument read accepted
  obtain ⟨part, -, before, after, items⟩ := exists_result_of_mapM each there
  unfold readPackItems at items
  dsimp only at items
  split at items
  · cases items
  · -- the entry of the record is among the items of its pack
    obtain ⟨s, -, before, after, item⟩ := exists_result_of_mapM items here
    exact subId_nonneg_of_readItem item identified

/-! ### What was told before -/

section Steady

variable (resolver : Resolver) (path : String)

theorem isSteady_readItem (key : String) (pack : Int) (v : Value) :
    (readItem resolver path key pack v).IsSteady := by
  unfold readItem
  split
  · split
    · exact isSteady_throw _
    · exact (isSteady_forM_tell _).bind fun _ => isSteady_pure _
  · exact isSteady_throw _

theorem isSteady_readPackItems (m : String × Value) :
    (readPackItems resolver path m).IsSteady := by
  unfold readPackItems
  dsimp only
  split
  · exact isSteady_throw _
  · split
    · exact isStepwise_isSteady.mapM fun v _ => isSteady_readItem resolver path _ _ v
    · exact isSteady_throw _

theorem isSteady_readDocument (text : String) : (readDocument resolver path text).IsSteady := by
  unfold readDocument
  split
  · exact isSteady_throw _
  · exact isSteady_throw _
  · exact (isStepwise_isSteady.mapM fun m _ => isSteady_readPackItems resolver path m).bind fun _ =>
      isSteady_pure _
  · exact isSteady_throw _

theorem isSteady_readBytes (bytes : Bytes) : (readBytes resolver path bytes).IsSteady :=
  (isSteady_ofExcept _).bind fun _ => isSteady_readDocument resolver path _

end Steady

end Hints

end PackPlan
