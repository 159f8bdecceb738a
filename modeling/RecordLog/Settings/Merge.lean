import RecordLog.Settings.Section

/-!
# Merging settings

One layer of settings is laid over another one.  Where both have a section, the
sections are merged; elsewhere the upper value replaces the lower one.  An upper
null is no value and changes nothing, but a null inside a section that only one
layer has is kept.

What comes out has sections of its own.  So the lower layer is copied before anything
is put over it, and so are upper sections that nothing is below.  A copy is the same
value (`copy_eq`).
-/

namespace RecordLog.Section

/-! ### Copies -/

mutual

/-- A value of its own: sections are copied, and other values are as they are. -/
def copyValue : Json → Json
  | .obj members => .obj (copyMembers members)
  | v => v

/-- Members with values of their own. -/
def copyMembers : List (Text × Json) → List (Text × Json)
  | [] => []
  | (key, v) :: later => (key, copyValue v) :: copyMembers later

end

/-- A section of its own. -/
def copy (s : Section) : Section :=
  copyMembers s

/-- The settings as a value of their own. -/
def snapshot (s : Section) : Section :=
  copy s

/-! ### Merging -/

mutual

/-- An upper value over what stands in its place below. -/
def mergeValue (below : Option Json) : Json → Json
  | .obj upper =>
    match below with
    | some (.obj base) => .obj (mergeMembers (copyMembers base) upper)
    | _ => .obj (copyMembers upper)
  | value => value

/-- The members of an upper section over a section that may be changed. -/
def mergeMembers (base : List (Text × Json)) : List (Text × Json) → List (Text × Json)
  | [] => base
  | (_, .null) :: later => mergeMembers base later
  | (key, value) :: later =>
    mergeMembers (Members.set base key (mergeValue (Members.get? base key) value)) later

end

/-- A section over another one. -/
def merge (base upper : Section) : Section :=
  mergeMembers (copy base) upper

/-- The same for a value that should be a section: what counts as no is an empty
one, and anything else is none. -/
def mergeDocument (base : Section) (upper : Json) : Outcome Section :=
  if upper.truthy then
    match upper with
    | .obj members => .ok (merge base members)
    | _ => .error .memberless
  else .ok (copy base)

/-- The same for two values of which the lower must be a section. -/
def mergeDocuments (base upper : Json) : Outcome Section :=
  match base with
  | .obj members => mergeDocument members upper
  | _ => .error .memberless

/-! ### Laws -/

mutual

/-- A copied value is equal to the value copied, nested sections included. -/
theorem copyValue_eq : ∀ v : Json, copyValue v = v
  | .obj members => congrArg Json.obj (copyMembers_eq members)
  | .null | .bool _ | .int _ | .float _ | .str _ | .arr _ => rfl

theorem copyMembers_eq : ∀ members : List (Text × Json), copyMembers members = members
  | [] => rfl
  | (key, v) :: later => by rw [copyMembers, copyValue_eq v, copyMembers_eq later]

end

/-- **A copy is the same value.** -/
@[simp]
theorem copy_eq (s : Section) : copy s = s :=
  copyMembers_eq s

end RecordLog.Section
