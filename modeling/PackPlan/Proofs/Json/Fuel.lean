import PackPlan.Proofs.Json.Stopping

/-!
# Enough fuel

Of the readers that call each other each one spends a unit of fuel, and before one of them is called
again for the same kind of part a character has been read. So two units for a character are enough:
with more of them nothing else is read. The readers with that fuel are given by how they call each
other alone.

## Main definitions

* `valueOf`, `membersOf`, `itemsOf` — the readers of a text with the fuel that it needs

## Main results

* `readValue_of_le`, `readMembers_of_le`, `readItems_of_le` — more fuel makes no difference
* `valueOf_object`, `valueOf_array`, `membersOf_name`, `itemsOf_item` — how the readers call each
  other
-/

namespace PackPlan.Json

variable {α β : Type} {fuel : Nat} {s : List Char} {closing : Char} {whole : Value}
  {parts parts' : List Char → Except Stop (Value × List Char)}

/-! ### Readers that agree on what is left -/

theorem bind_congr_of_staysIn {r : Except Stop (α × List Char)}
    {f g : α × List Char → Except Stop (β × List Char)} (within : StaysIn s r)
    (same : ∀ a t, t <:+ s → f (a, t) = g (a, t)) : r >>= f = r >>= g := by
  match r, within with
  | .ok (a, t), within => exact same a t within
  | .error _, _ => rfl

theorem inBlock_congr (same : ∀ t, t <:+ s → parts t = parts' t) :
    inBlock closing whole parts s = inBlock closing whole parts' s := by
  rw [inBlock, inBlock]
  cases front : skipBlanks s with
  | nil => exact same [] List.nil_suffix
  | cons c t =>
    dsimp only
    rw [same (c :: t) (front ▸ skipBlanks_suffix s)]

theorem length_lt_of_skipBlanks {c : Char} {t : List Char} (front : skipBlanks s = c :: t) :
    t.length < s.length := by
  have all := (skipBlanks_suffix s).length_le
  rwa [front, List.length_cons] at all

theorem afterPart_congr (same : ∀ t, t.length < s.length → parts t = parts' t) :
    afterPart closing whole parts s = afterPart closing whole parts' s := by
  rw [afterPart, afterPart]
  cases front : skipBlanks s with
  | nil => rfl
  | cons c t =>
    dsimp only
    rw [same _ ((skipBlanks_suffix t).length_le.trans_lt (length_lt_of_skipBlanks front))]

theorem readPart_congr {value value' : List Char → Except Stop (Value × List Char)}
    {whole : Value → Value} {parts parts' : Value → List Char → Except Stop (Value × List Char)}
    (stays : StaysIn s (value' s)) (first : value s = value' s)
    (later : ∀ v t, t.length < s.length → parts v t = parts' v t) :
    readPart value closing whole parts s = readPart value' closing whole parts' s := by
  rw [readPart, readPart, first]
  refine bind_congr_of_staysIn stays fun v rest inside => ?_
  exact afterPart_congr fun t shorter => later v t (shorter.trans_le inside.length_le)

theorem afterName_congr (same : ∀ t, t.length < s.length → parts t = parts' t) :
    afterName parts s = afterName parts' s := by
  rw [afterName, afterName]
  cases front : skipBlanks s with
  | nil => rfl
  | cons c t =>
    dsimp only
    rw [same _ ((skipBlanks_suffix t).length_le.trans_lt (length_lt_of_skipBlanks front))]

/-! ### One unit more -/

/-- If there is enough fuel, one unit more makes no difference. -/
theorem readers_succ (fuel : Nat) :
    (∀ s, 2 * s.length + 1 ≤ fuel → readValue (fuel + 1) s = readValue fuel s) ∧
      (∀ members s, 2 * s.length + 2 ≤ fuel →
        readMembers (fuel + 1) members s = readMembers fuel members s) ∧
      ∀ items s, 2 * s.length + 2 ≤ fuel →
        readItems (fuel + 1) items s = readItems fuel items s := by
  induction fuel with
  | zero =>
    refine ⟨fun s enough => ?_, fun _ s enough => ?_, fun _ s enough => ?_⟩ <;> cases enough
  | succ fuel ih =>
    obtain ⟨values, objects, arrays⟩ := ih
    refine ⟨fun s enough => ?_, fun members s enough => ?_, fun items s enough => ?_⟩
    · cases s with
      | nil => rfl
      | cons c s =>
        rw [List.length_cons] at enough
        by_cases object : c = '\x7b'
        · subst object
          rw [readValue_inObject, readValue_inObject]
          refine inBlock_congr fun t within => objects [] t ?_
          have shorter := within.length_le
          omega
        by_cases array : c = '['
        · subst array
          rw [readValue_inArray, readValue_inArray]
          refine inBlock_congr fun t within => arrays [] t ?_
          have shorter := within.length_le
          omega
        by_cases quote : c = '"'
        · subst quote
          rfl
        rw [readValue_scalar quote object array, readValue_scalar quote object array]
    · by_cases name : ∃ t, s = '"' :: t
      · obtain ⟨t, rfl⟩ := name
        rw [readMembers_name, readMembers_name]
        have string : StaysIn ('"' :: t) (readString ('"' :: t) t) :=
          staysIn_readStringFrom (List.suffix_cons '"' t) 0 []
        refine bind_congr_of_staysIn string fun name rest inside => ?_
        have length := inside.length_le
        refine afterName_congr fun t shorter => ?_
        refine readPart_congr (staysIn_readValue fuel t) (values t (by omega)) fun v q less => ?_
        exact objects _ q (by omega)
      · rw [readMembers.eq_3 _ _ _ fun t same => name ⟨t, same⟩,
          readMembers.eq_3 _ _ _ fun t same => name ⟨t, same⟩]
    · rw [readItems_item, readItems_item]
      refine readPart_congr (staysIn_readValue fuel s) (values s (by omega)) fun v t less => ?_
      exact arrays _ t (by omega)

/-! ### The readers without fuel -/

/-- The value at the front of a text. -/
def valueOf (s : List Char) : Except Stop (Value × List Char) := readValue (2 * s.length + 1) s

/-- The members of an object from the front of a text on. -/
def membersOf (members : List (String × Value)) (s : List Char) : Except Stop (Value × List Char) :=
  readMembers (2 * s.length + 2) members s

/-- The items of an array from the front of a text on. -/
def itemsOf (items : List Value) (s : List Char) : Except Stop (Value × List Char) :=
  readItems (2 * s.length + 2) items s

theorem staysIn_valueOf (s : List Char) : StaysIn s (valueOf s) := staysIn_readValue _ s

theorem staysIn_membersOf (members : List (String × Value)) (s : List Char) :
    StaysIn s (membersOf members s) :=
  staysIn_readMembers _ members s

theorem staysIn_itemsOf (items : List Value) (s : List Char) : StaysIn s (itemsOf items s) :=
  staysIn_readItems _ items s

theorem readValue_of_le (enough : 2 * s.length + 1 ≤ fuel) : readValue fuel s = valueOf s := by
  induction fuel, enough using Nat.le_induction with
  | base => rfl
  | succ fuel enough ih => exact ((readers_succ fuel).1 s enough).trans ih

theorem readMembers_of_le (members : List (String × Value)) (enough : 2 * s.length + 2 ≤ fuel) :
    readMembers fuel members s = membersOf members s := by
  induction fuel, enough using Nat.le_induction with
  | base => rfl
  | succ fuel enough ih => exact ((readers_succ fuel).2.1 members s enough).trans ih

theorem readItems_of_le (items : List Value) (enough : 2 * s.length + 2 ≤ fuel) :
    readItems fuel items s = itemsOf items s := by
  induction fuel, enough using Nat.le_induction with
  | base => rfl
  | succ fuel enough ih => exact ((readers_succ fuel).2.2 items s enough).trans ih

theorem valueOf_string (s : List Char) : valueOf ('"' :: s) =
    readString ('"' :: s) s >>= fun x => .ok (.str x.1, x.2) :=
  rfl

theorem valueOf_object (s : List Char) :
    valueOf ('\x7b' :: s) = inBlock '\x7d' (.obj []) (membersOf []) s := by
  rw [valueOf, readValue_inObject]
  refine inBlock_congr fun t within => readMembers_of_le [] ?_
  have shorter := within.length_le
  rw [List.length_cons]
  omega

theorem valueOf_array (s : List Char) :
    valueOf ('[' :: s) = inBlock ']' (.arr []) (itemsOf []) s := by
  rw [valueOf, readValue_inArray]
  refine inBlock_congr fun t within => readItems_of_le [] ?_
  have shorter := within.length_le
  rw [List.length_cons]
  omega

theorem valueOf_scalar {c : Char} (string : c ≠ '"') (object : c ≠ '\x7b') (array : c ≠ '[') :
    valueOf (c :: s) = readWordOrNumber (c :: s) :=
  readValue_scalar string object array

theorem membersOf_name (members : List (String × Value)) (s : List Char) :
    membersOf members ('"' :: s) =
      readString ('"' :: s) s >>= fun (name, rest) =>
        afterName (readPart valueOf '\x7d' (fun v => .obj (putMember members name v))
          fun v => membersOf (putMember members name v)) rest := by
  rw [membersOf, readMembers_name]
  have string : StaysIn ('"' :: s) (readString ('"' :: s) s) :=
    staysIn_readStringFrom (List.suffix_cons '"' s) 0 []
  refine bind_congr_of_staysIn string fun name rest inside => ?_
  have length := inside.length_le
  refine afterName_congr fun t shorter => ?_
  refine readPart_congr (staysIn_valueOf t) (readValue_of_le (by omega)) fun v q less => ?_
  exact readMembers_of_le _ (by omega)

theorem membersOf_named {name : String} {rest : List Char} (members : List (String × Value))
    (string : readString ('"' :: s) s = .ok (name, rest)) : membersOf members ('"' :: s) =
      afterName (readPart valueOf '\x7d' (fun v => .obj (putMember members name v))
        fun v => membersOf (putMember members name v)) rest := by
  rw [membersOf_name, string]
  rfl

theorem membersOf_other (members : List (String × Value)) (other : ∀ t, s ≠ '"' :: t) :
    membersOf members s = .error (.malformed .name s) :=
  readMembers.eq_3 _ _ _ other

theorem itemsOf_item (items : List Value) (s : List Char) :
    itemsOf items s = readPart valueOf ']' (fun v => .arr (v :: items).reverse)
      (fun v => itemsOf (v :: items)) s := by
  rw [itemsOf, readItems_item]
  refine readPart_congr (staysIn_valueOf s) (readValue_of_le (by omega)) fun v t less => ?_
  exact readItems_of_le _ (by omega)

theorem readDocument_eq (noMark : s.head? ≠ some '\ufeff') :
    readDocument s = valueOf (skipBlanks s) >>= fun (v, rest) => atEnd v rest := by
  have shorter := (skipBlanks_suffix s).length_le
  rw [readDocument_value noMark, readValue_of_le (by omega)]

end PackPlan.Json
