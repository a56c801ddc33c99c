import PackPlan.Guid

/-!
# Asset ids

An asset is identified by a guid and a sub id, which tells apart the products of one
source. The nil guid identifies nothing, whatever the sub id.

## Main definitions

* `PackPlan.AssetId` — the identity of an asset
* `AssetId.isValid` — whether it identifies an asset
* `AssetId.text` — its written form
* `AssetId.read`, `AssetId.make` — ids from text
* `AssetId.le` — the order by guid, then by sub id
-/

namespace PackPlan

/-- The identity of an asset. -/
structure AssetId where
  /-- The guid of the source. -/
  guid : Guid := .nil
  /-- The product of the source. -/
  subId : Int := 0
  deriving DecidableEq

namespace AssetId

/-- The id of no asset. -/
def none : AssetId := {}

instance : Inhabited AssetId := ⟨none⟩

/-- Whether an id identifies an asset. -/
def isValid (id : AssetId) : Bool := id.guid ≠ .nil

/-- The written form: the guid, a colon, and the sub id in hexadecimal. -/
def text (id : AssetId) : String :=
  String.ofList (id.guid.textChars ++ ':' :: Numeral.hexText id.subId)

/-- Ids are in order by guid, and by sub id under one guid. -/
def le (a b : AssetId) : Bool :=
  a.guid.value < b.guid.value || (a.guid.value = b.guid.value && a.subId ≤ b.subId)

/-- Ids in ascending order. -/
def sort (ids : List AssetId) : List AssetId := ids.mergeSort le

/-! ### Reading -/

/-- Why a text denotes no id. -/
inductive ReadFault
  /-- The guid is misspelled. -/
  | guid (spelling : String)
  /-- The sub id is no hexadecimal number. -/
  | subId (cause : Numeral.ReadFault)
  deriving DecidableEq, Repr

/-- What is said about a text that denotes no id. -/
def ReadFault.message : ReadFault → String
  | .guid spelling => s!"invalid asset guid: {Text.quote spelling}"
  | .subId cause => cause.message

/-- The id of a guid's spelling and a sub id. -/
def make (guid : String) (subId : Int) : Except ReadFault AssetId :=
  match Guid.read? guid with
  | some g => .ok ⟨g, subId⟩
  | .none => .error (.guid guid)

/-- The sub id that the text after the colon denotes; nothing denotes zero. -/
def readSubId (s : List Char) : Except ReadFault Int :=
  if s.isEmpty then .ok 0 else (Numeral.read .hexadecimal (String.ofList s)).mapError .subId

/-- The id that a text denotes: a guid, and a sub id after the first colon. -/
def read (text : String) : Except ReadFault AssetId := do
  let s := Text.trim text.toList
  let subId ← readSubId ((s.dropWhile (· ≠ ':')).drop 1)
  make (String.ofList (s.takeWhile (· ≠ ':'))) subId

end AssetId

end PackPlan
