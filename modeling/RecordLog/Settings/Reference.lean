import RecordLog.Settings.Environment

/-!
# References to variables

The texts in a file of settings may refer to variables: `$` and a name in braces,
with a bar and a fallback after the name if there is one.  A name is not empty and
holds neither a bar nor a closing brace; a fallback holds no closing brace.

A text is read once from left to right.  A reference gives way to the value of its
variable, even an empty one, or else to its fallback, and what was put in is not
read again.  Everything that is no complete reference stays as it is.
-/

namespace RecordLog

/-- A reference to a variable. -/
structure Reference where
  name : Text
  fallback : Text
deriving DecidableEq

namespace Reference

/-- Whether a code point can be part of a name. -/
def isNamePoint (c : CodePoint) : Bool :=
  c != CodePoint.ofChar '\x7D' && c != CodePoint.ofChar '|'

/-- The end of a reference after its name, and what follows: a closing brace, or a
bar, a fallback and a closing brace. -/
def readEnd? : Text → Option (Text × Text)
  | [] => none
  | c :: t =>
    if c = CodePoint.ofChar '\x7D' then some ([], t) else Text.cutAt? (CodePoint.ofChar '\x7D') t

/-- The reference at the front of a text after its opening brace, and what
follows it. -/
def readBody? (t : Text) : Option (Reference × Text) :=
  match t.takeWhile isNamePoint with
  | [] => none
  | c :: name =>
    (readEnd? (t.dropWhile isNamePoint)).map fun (fallback, rest) => (⟨c :: name, fallback⟩, rest)

/-- The opening of a reference. -/
def opening : Text := ['$', '\x7B']

/-- The reference at the front of a text, and what follows it. -/
def read? (t : Text) : Option (Reference × Text) :=
  (Text.dropStart? opening t).bind readBody?

/-- What a reference gives way to. -/
def value (env : Environment) (r : Reference) : Text :=
  (env.get? r.name).getD r.fallback

/-! ### What follows a reference is shorter -/

/-- What follows a separator is shorter than the text cut at it. -/
theorem length_cutAt? {sep : CodePoint} {t before after : Text}
    (h : Text.cutAt? sep t = some (before, after)) : after.length < t.length := by
  induction t generalizing before with
  | nil => simp [Text.cutAt?] at h
  | cons c t ih =>
    by_cases hc : c = sep
    · simp [Text.cutAt?, hc] at h
      simp [← h.2]
    · simp only [Text.cutAt?, hc, if_false, Option.map_eq_some_iff, Prod.exists,
        Prod.mk.injEq] at h
      obtain ⟨b, a, ha, _, rfl⟩ := h
      have := ih ha
      simp
      omega

/-- What follows the closing brace is shorter than the text that still held it. -/
theorem length_readEnd? {t fallback rest : Text} (h : readEnd? t = some (fallback, rest)) :
    rest.length < t.length := by
  cases t with
  | nil => simp [readEnd?] at h
  | cons c t =>
    by_cases hc : c = CodePoint.ofChar '\x7D'
    · simp [readEnd?, hc] at h
      simp [← h.2]
    · simp only [readEnd?, hc, if_false] at h
      have := length_cutAt? h
      simp
      omega

theorem length_dropWhile_le (p : CodePoint → Bool) (t : Text) :
    (t.dropWhile p).length ≤ t.length :=
  (List.dropWhile_sublist p).length_le

/-- A reference's name and end consume at least one code point. -/
theorem length_readBody? {t rest : Text} {r : Reference} (h : readBody? t = some (r, rest)) :
    rest.length < t.length := by
  unfold readBody? at h
  split at h
  · simp at h
  · simp only [Option.map_eq_some_iff, Prod.exists, Prod.mk.injEq] at h
    obtain ⟨f, s, hs, _, rfl⟩ := h
    have h₁ := length_readEnd? hs
    have h₂ := length_dropWhile_le isNamePoint t
    omega

theorem length_dropStart?_le {start t rest : Text} (h : Text.dropStart? start t = some rest) :
    rest.length ≤ t.length := by
  rw [← Text.dropStart?_eq_some_iff.mp h, List.length_append]
  omega

/-- A reference consumes at least one code point, so the scan that goes on behind it terminates. -/
theorem length_read? {t rest : Text} {r : Reference} (h : read? t = some (r, rest)) :
    rest.length < t.length := by
  simp only [read?, Option.bind_eq_some_iff] at h
  obtain ⟨body, hb, hr⟩ := h
  have h₁ := length_dropStart?_le hb
  have h₂ := length_readBody? hr
  omega

end Reference

/-- A text with its references replaced. -/
def Text.expanded (env : Environment) (t : Text) : Text :=
  match _h : Reference.read? t with
  | some (r, rest) => r.value env ++ expanded env rest
  | none =>
    match t with
    | [] => []
    | c :: later => c :: expanded env later
termination_by t.length
decreasing_by
  · exact Reference.length_read? _h
  · simp

mutual

/-- A value with the references in its texts replaced; keys stay as they are. -/
def Json.expanded (env : Environment) : Json → Json
  | .str t => .str (t.expanded env)
  | .arr items => .arr (Json.expandedItems env items)
  | .obj members => .obj (Json.expandedMembers env members)
  | v => v

/-- Items with their references replaced. -/
def Json.expandedItems (env : Environment) : List Json → List Json
  | [] => []
  | v :: later => Json.expanded env v :: Json.expandedItems env later

/-- Members with the references in their values replaced. -/
def Json.expandedMembers (env : Environment) : List (Text × Json) → List (Text × Json)
  | [] => []
  | (key, v) :: later => (key, Json.expanded env v) :: Json.expandedMembers env later

end

end RecordLog
