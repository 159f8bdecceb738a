import RecordLog.Json

/-!
# Comparing values

Relations on JSON values.

* `Json.same` is equality inside arrays and objects, and of sort keys: numbers
  compare by value, a boolean counts as the number 0 or 1, NaN is the same as
  NaN, and the order of members does not matter.
* `Json.precedes?` is the strict order, where there is one: between numbers
  (booleans included), between texts, and between arrays, item by item, where
  the first two items that are not the same decide.  Everything else has no
  order, and NaN precedes nothing.
* `Json.follows?` asks for the same order from the other side.
* `Json.strictEq` is the equality of queries: the two values must be of one kind,
  integers and doubles being one kind, and NaN equals nothing.
-/

namespace RecordLog.Json

/-- The numeric value of a number or boolean. -/
def quantity? : Json → Option Quantity
  | bool b => some (.ofInt (if b then 1 else 0))
  | int n => some (.ofInt n)
  | float x => some (.ofDouble x)
  | _ => none

/-- Whether two values that are neither arrays nor objects are the same. -/
def sameLeaf (v w : Json) : Bool :=
  match v, w with
  | null, null => true
  | str s, str t => s = t
  | _, _ =>
    match v.quantity?, w.quantity? with
    | some p, some q => p = q
    | _, _ => false

mutual

/-- Equality as it is inside containers. -/
def same : Json → Json → Bool
  | arr vs, arr ws => sameItems vs ws
  | obj ms, obj ns => ms.length == ns.length && sameMembers ms ns
  | v, w => sameLeaf v w

/-- Whether two lists are the same item by item. -/
def sameItems : List Json → List Json → Bool
  | [], [] => true
  | v :: vs, w :: ws => same v w && sameItems vs ws
  | _, _ => false

/-- Whether every member on the left has the same value on the right. -/
def sameMembers : List (Text × Json) → List (Text × Json) → Bool
  | [], _ => true
  | (k, v) :: ms, ns =>
    (match Members.get? ns k with
      | some w => same v w
      | none => false) && sameMembers ms ns

end

/-- The order of two values that are neither arrays nor objects. -/
def leafPrecedes? (v w : Json) : Option Bool :=
  match v, w with
  | str s, str t => some (Text.precedes s t)
  | _, _ =>
    match v.quantity?, w.quantity? with
    | some p, some q => some (p.less q)
    | _, _ => none

mutual

/-- Whether the first value comes before the second, if the two have an order. -/
def precedes? : Json → Json → Option Bool
  | arr vs, arr ws => itemsPrecede? vs ws
  | v, w => leafPrecedes? v w

/-- The order of two lists, decided by the first items that are not the same, or
else by length. -/
def itemsPrecede? : List Json → List Json → Option Bool
  | _, [] => some false
  | [], _ :: _ => some true
  | v :: vs, w :: ws => if same v w then itemsPrecede? vs ws else precedes? v w

end

/-- Whether the first value comes before the second. -/
def precedes (v w : Json) : Bool :=
  (v.precedes? w).getD false

mutual

/-- Whether the first value comes after the second, if the two have an order. -/
def follows? : Json → Json → Option Bool
  | arr vs, arr ws => itemsFollow? vs ws
  | v, w => leafPrecedes? w v

/-- The order of two lists from the other side: the first items that are not the same
decide, or else the length. -/
def itemsFollow? : List Json → List Json → Option Bool
  | [], _ => some false
  | _ :: _, [] => some true
  | v :: vs, w :: ws => if same v w then itemsFollow? vs ws else follows? v w

end

/-- Whether the first value comes after the second. -/
def follows (v w : Json) : Bool :=
  (v.follows? w).getD false

/-- Equality without conversion at the top: booleans equal only booleans, numbers
compare by value, and other values must be of one kind. -/
def strictEq : Json → Json → Bool
  | bool b, bool c => b == c
  | bool _, _ => false
  | _, bool _ => false
  | int m, int n => m == n
  | int m, float y => (Quantity.ofInt m).equal (.ofDouble y)
  | float x, int n => (Quantity.ofDouble x).equal (.ofInt n)
  | float x, float y => (Quantity.ofDouble x).equal (.ofDouble y)
  | v, w => same v w

end RecordLog.Json
