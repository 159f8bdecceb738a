import RecordLog.Text
import RecordLog.Number.Double

/-!
# JSON values

The values that records, queries, options and settings are made of.  Integers
and doubles are kept apart, since they are written differently, and an object
keeps the order of its members.  A reader never produces an object in which a key
occurs twice; `Json.WellFormed` states that condition, which no operation on
members below breaks.
-/

namespace RecordLog

/-- A JSON value. -/
inductive Json where
  | null
  | bool (b : Bool)
  | int (n : Int)
  | float (x : Double)
  | str (t : Text)
  | arr (items : List Json)
  | obj (members : List (Text × Json))
deriving Inhabited

/-- The members of an object, in order. -/
abbrev Members := List (Text × Json)

namespace Members

/-- The keys of an object, in order. -/
def keys (m : Members) : List Text :=
  m.map (·.1)

/-- The value under a key. -/
def get? : Members → Text → Option Json
  | [], _ => none
  | (k, v) :: later, key => if k = key then some v else get? later key

/-- The value under a key; a missing one reads as null. -/
def getOrNull (m : Members) (key : Text) : Json :=
  (m.get? key).getD .null

/-- Whether an object has a key. -/
def hasKey (m : Members) (key : Text) : Bool :=
  (m.get? key).isSome

/-- Gives a key a value, in its place if the object has it, else at the end. -/
def set : Members → Text → Json → Members
  | [], key, value => [(key, value)]
  | (k, v) :: later, key, value =>
    if k = key then (k, value) :: later else (k, v) :: set later key value

/-- Sets all members of `upper`, in order. -/
def setAll (m upper : Members) : Members :=
  upper.foldl (fun m (k, v) => m.set k v) m

/-- The members that a list of members makes: a repeated key keeps its first
place and takes its last value. -/
def ofList (ms : Members) : Members :=
  setAll [] ms

/-! ### Laws -/

/-- A key that was just written reads back the value written. -/
theorem get?_set_self (m : Members) (key : Text) (v : Json) :
    (m.set key v).get? key = some v := by
  induction m with
  | nil => simp [set, get?]
  | cons kv m ih =>
    obtain ⟨k, w⟩ := kv
    by_cases h : k = key <;> simp [set, get?, h, ih]

/-- Writing one key leaves the value of every other key as it was. -/
theorem get?_set_other (m : Members) {key other : Text} (v : Json) (h : key ≠ other) :
    (m.set key v).get? other = m.get? other := by
  induction m with
  | nil => simp [set, get?, h]
  | cons kv m ih =>
    obtain ⟨k, w⟩ := kv
    by_cases hk : k = key
    · subst hk; simp [set, get?, h]
    · by_cases ho : k = other
      · subst ho; simp [set, get?, hk]
      · simp [set, get?, hk, ho, ih]

end Members

namespace Json

/-- The members of an object. -/
def members? : Json → Option Members
  | obj m => some m
  | _ => none

/-- The items of an array. -/
def items? : Json → Option (List Json)
  | arr items => some items
  | _ => none

/-- Whether a value is the null value. -/
def isNull : Json → Bool
  | null => true
  | _ => false

/-- Whether a value counts as yes: null, false, zero and everything empty count
as no. -/
def truthy : Json → Bool
  | null => false
  | bool b => b
  | int n => n != 0
  | float x => !x.isZero
  | str t => !t.isEmpty
  | arr items => !items.isEmpty
  | obj members => !members.isEmpty

/-- A natural number as a value. -/
def ofNat (n : Nat) : Json := int n

mutual

/-- No object inside the value has a key twice. -/
def WellFormed : Json → Prop
  | arr items => WellFormedItems items
  | obj members => (Members.keys members).Nodup ∧ WellFormedMembers members
  | _ => True

/-- Every item is well formed. -/
def WellFormedItems : List Json → Prop
  | [] => True
  | v :: later => WellFormed v ∧ WellFormedItems later

/-- The value of every member is well formed. -/
def WellFormedMembers : List (Text × Json) → Prop
  | [] => True
  | (_, v) :: later => WellFormed v ∧ WellFormedMembers later

end

end Json

end RecordLog
