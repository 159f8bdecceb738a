import RecordLog.Proofs.Number.Quantities
import RecordLog.Proofs.Outcomes
import RecordLog.Proofs.Text.LetterCase
import RecordLog.Query.Options

/-!
# The shapes of options

Options are described by null, or by an object of which two members count.  The relations below
say which values describe a direction, a sort key, a list of sort keys, a projection and
options, without reading them in any order: a list of sort keys is described position by
position (`DescribesSort`).

Reading accepts exactly what describes something, and gives what is described.  Everything else
is refused as invalid options (`ofJson_accepts_shapes`).

A sort key in a list is meant to be an array of a field and a direction.  Anything else that
holds two things passes for one too (`HoldsTwo`).
-/

namespace RecordLog

/-! ### Directions -/

namespace Direction

/-- The words that name a direction. -/
def names : Direction → List Text
  | ascending => ["1", "asc", "ascending"]
  | descending => ["-1", "desc", "descending"]

/-- A value stands for a direction: by its number, which no boolean has here, or by a name of
the direction in letters of any case. -/
inductive Described : Json → Direction → Prop
  | number {v : Json} {d : Direction} (hbool : ∀ b, v ≠ .bool b)
      (hv : v.quantity? = some (.ofInt d.code)) : Described v d
  | word {t name : Text} {d : Direction} (hname : name ∈ d.names)
      (ht : Text.InAnyCase name t) : Described (.str t) d

/-- A number is a direction exactly if it is the code of one. -/
theorem ofQuantity?_eq_some_iff {q : Quantity} {d : Direction} :
    ofQuantity? q = some d ↔ q = .ofInt d.code := by
  have hne : Quantity.ofInt 1 ≠ .ofInt (-1) := Quantity.ofInt_injective.ne (by decide)
  unfold ofQuantity?
  cases d <;> grind [code]

/-- A word is a direction exactly if it is one of the direction's names. -/
theorem lookup_words_eq_some_iff {w : Text} {d : Direction} :
    words.lookup w = some d ↔ w ∈ d.names := by
  constructor
  · intro h
    obtain ⟨before, after, hwords, -⟩ := List.lookup_eq_some_iff.mp h
    have hentry : (w, d) ∈ words := hwords ▸ List.mem_append_right before List.mem_cons_self
    have hnames : ∀ entry ∈ words, entry.1 ∈ entry.2.names := by decide +kernel
    exact hnames (w, d) hentry
  · have hlookup : ∀ w ∈ d.names, words.lookup w = some d := by
      cases d <;> decide +kernel
    exact hlookup w

/-- The names of directions are plain. -/
theorem plain_of_mem_names {d : Direction} {name : Text} (h : name ∈ d.names) :
    ∀ c ∈ name, c.IsPlain := by
  have hplain : ∀ name ∈ d.names, ∀ c ∈ name, c.IsPlain := by
    cases d <;> decide +kernel
  exact hplain name h

/-- A text in any case is a name of a direction exactly if its lower case is. -/
theorem lowercase_mem_names_iff {t : Text} {d : Direction} :
    t.lowercase ∈ d.names ↔ ∃ name ∈ d.names, Text.InAnyCase name t := by
  constructor
  · intro h
    exact ⟨_, h, (Text.lowercase_eq_iff (plain_of_mem_names h) t).mp rfl⟩
  · rintro ⟨name, hname, ht⟩
    rw [(Text.lowercase_eq_iff (plain_of_mem_names hname) t).mpr ht]
    exact hname

/-- A value is read as a direction exactly if it describes that direction. -/
theorem ofJson?_eq_some_iff {v : Json} {d : Direction} : ofJson? v = some d ↔ Described v d := by
  constructor
  · intro h
    match v with
    | .str t =>
        obtain ⟨name, hname, ht⟩ := lowercase_mem_names_iff.mp (lookup_words_eq_some_iff.mp h)
        exact .word hname ht
    | .int n => exact .number nofun (congrArg some (ofQuantity?_eq_some_iff.mp h))
    | .float x => exact .number nofun (congrArg some (ofQuantity?_eq_some_iff.mp h))
  · rintro (⟨hbool, hv⟩ | ⟨hname, ht⟩)
    · match v with
      | .bool b => exact absurd rfl (hbool b)
      | .int n => exact ofQuantity?_eq_some_iff.mpr (Option.some.inj hv)
      | .float x => exact ofQuantity?_eq_some_iff.mpr (Option.some.inj hv)
    · exact lookup_words_eq_some_iff.mpr (lowercase_mem_names_iff.mpr ⟨_, hname, ht⟩)

end Direction

/-! ### Descriptions -/

/-- A field name, which may be any value, and a direction stand for a sort key. -/
structure SortKey.Described (name direction : Json) (key : SortKey) : Prop where
  field : key.field = name.plain
  direction : Direction.Described direction key.direction

namespace QueryOptions

/-- A value holds two things.  An array of two items is what a pair is meant to be; a text of
two letters holds two things as well, and so does an object of two members, of which the keys
count. -/
inductive HoldsTwo : Json → Json → Json → Prop
  | items (a b : Json) : HoldsTwo (.arr [a, b]) a b
  | letters (c d : CodePoint) : HoldsTwo (.str [c, d]) (.str [c]) (.str [d])
  | keys (a b : Text) (v w : Json) : HoldsTwo (.obj [(a, v), (b, w)]) (.str a) (.str b)

/-- A value describes sort keys: null none, an object one for each member, and an array one for
each item, in their order. -/
inductive DescribesSort : Json → List SortKey → Prop
  | null : DescribesSort .null []
  | members {members : Members} {keys : List SortKey}
      (h : List.Forall₂ (fun kv key => key.Described (.str kv.1) kv.2) members keys) :
      DescribesSort (.obj members) keys
  | items {items : List Json} {keys : List SortKey}
      (h : List.Forall₂ (fun item key =>
        ∃ name direction, HoldsTwo item name direction ∧ key.Described name direction) items keys) :
      DescribesSort (.arr items) keys

/-- A value describes a projection: null none, an object the keys whose values count as yes,
and an array its items, in their order. -/
inductive DescribesProjection : Json → Option (List Text) → Prop
  | null : DescribesProjection .null none
  | members (members : Members) : DescribesProjection (.obj members)
      (some ((members.filter fun kv => kv.2.truthy).map (·.1)))
  | items (items : List Json) : DescribesProjection (.arr items) (some (items.map Json.plain))

/-- A value describes options: null those that change nothing, and an object those that two of
its members describe, of which each may be missing. -/
inductive Describes : Json → QueryOptions → Prop
  | null : Describes .null asIs
  | members {members : Members} {sort : List SortKey} {projection : Option (List Text)}
      (hsort : DescribesSort (Members.getOrNull members "sort") sort)
      (hprojection : DescribesProjection (Members.getOrNull members "projection") projection) :
      Describes (.obj members) ⟨sort, projection⟩

/-! ### Accepted values -/

/-- A sort key is read exactly if its field and its direction describe it. -/
theorem readSortKey_eq_ok_iff {name direction : Json} {key : SortKey} :
    readSortKey name direction = .ok key ↔ key.Described name direction := by
  rw [readSortKey]
  constructor
  · intro h
    split at h
    · next d hd =>
        obtain rfl := Except.ok.inj h
        exact ⟨rfl, Direction.ofJson?_eq_some_iff.mp hd⟩
    · cases h
  · rintro ⟨hfield, hdirection⟩
    rw [Direction.ofJson?_eq_some_iff.mpr hdirection, ← hfield]

/-- A value is taken apart exactly if it holds two values, which a text of two letters does too. -/
theorem pair?_eq_some_iff {item name direction : Json} :
    pair? item = some (name, direction) ↔ HoldsTwo item name direction := by
  constructor
  · intro h
    unfold pair? at h
    split at h
    · obtain ⟨rfl, rfl⟩ := Prod.mk.inj (Option.some.inj h)
      exact .items _ _
    · obtain ⟨rfl, rfl⟩ := Prod.mk.inj (Option.some.inj h)
      exact .letters _ _
    · obtain ⟨rfl, rfl⟩ := Prod.mk.inj (Option.some.inj h)
      exact .keys _ _ _ _
    · cases h
  · rintro (_ | _ | _) <;> rfl

/-- The sort key of an item of a list. -/
def readPair (item : Json) : Except QueryError SortKey :=
  match pair? item with
  | none => .error (invalid "sort pairs must be [field, direction]")
  | some (name, direction) => readSortKey name direction

/-- A pair is read exactly if it holds the two parts of a sort key. -/
theorem readPair_eq_ok_iff {item : Json} {key : SortKey} :
    readPair item = .ok key ↔
      ∃ name direction, HoldsTwo item name direction ∧ key.Described name direction := by
  simp only [← pair?_eq_some_iff, ← readSortKey_eq_ok_iff]
  unfold readPair
  split
  · next hnone => exact ⟨nofun, fun ⟨_, _, hsome, _⟩ => nomatch hnone.symm.trans hsome⟩
  · next name direction hsome =>
      rw [hsome]
      constructor
      · intro h
        exact ⟨name, direction, rfl, h⟩
      · rintro ⟨_, _, heq, h⟩
        obtain ⟨rfl, rfl⟩ := Prod.mk.inj (Option.some.inj heq)
        exact h

theorem readSortPairs_cons (item : Json) (later : List Json) :
    readSortPairs (item :: later) =
      (readPair item).bind fun key => (readSortPairs later).map (key :: ·) := by
  rw [readSortPairs, readPair]
  cases pair? item with
  | none => rfl
  | some pair => cases hkey : readSortKey pair.1 pair.2 <;> simp only [hkey] <;> rfl

theorem readSortMembers_cons (field : Text) (direction : Json) (later : Members) :
    readSortMembers ((field, direction) :: later) =
      (readSortKey (.str field) direction).bind
        fun key => (readSortMembers later).map (key :: ·) := by
  rw [readSortMembers]
  cases readSortKey (.str field) direction <;> rfl

/-- The members of a sort are read exactly if each describes its key. -/
theorem readSortMembers_eq_ok_iff {members : Members} {keys : List SortKey} :
    readSortMembers members = .ok keys ↔
      List.Forall₂ (fun kv key => key.Described (.str kv.1) kv.2) members keys := by
  induction members generalizing keys with
  | nil =>
      rw [List.forall₂_nil_left_iff, readSortMembers, Except.ok.injEq]
      exact eq_comm
  | cons kv later ih =>
      rw [readSortMembers_cons, bind_cons_eq_ok_iff, List.forall₂_cons_left_iff]
      simp only [readSortKey_eq_ok_iff, ih]

/-- The pairs of a sort are read exactly if each holds the two parts of its key. -/
theorem readSortPairs_eq_ok_iff {items : List Json} {keys : List SortKey} :
    readSortPairs items = .ok keys ↔
      List.Forall₂ (fun item key =>
        ∃ name direction, HoldsTwo item name direction ∧ key.Described name direction)
        items keys := by
  induction items generalizing keys with
  | nil =>
      rw [List.forall₂_nil_left_iff, readSortPairs, Except.ok.injEq]
      exact eq_comm
  | cons item later ih =>
      rw [readSortPairs_cons, bind_cons_eq_ok_iff, List.forall₂_cons_left_iff]
      simp only [readPair_eq_ok_iff, ih]

/-- A sort is read exactly if the value describes its keys. -/
theorem readSort_eq_ok_iff {v : Json} {keys : List SortKey} :
    readSort v = .ok keys ↔ DescribesSort v keys := by
  constructor
  · intro h
    unfold readSort at h
    split at h
    · obtain rfl := Except.ok.inj h
      exact .null
    · exact .members (readSortMembers_eq_ok_iff.mp h)
    · exact .items (readSortPairs_eq_ok_iff.mp h)
    · cases h
  · rintro (_ | h | h)
    · rfl
    · exact readSortMembers_eq_ok_iff.mpr h
    · exact readSortPairs_eq_ok_iff.mpr h

/-- A projection is read exactly if the value describes its fields. -/
theorem readProjection_eq_ok_iff {v : Json} {fields : Option (List Text)} :
    readProjection v = .ok fields ↔ DescribesProjection v fields := by
  constructor
  · intro h
    unfold readProjection at h
    split at h
    · obtain rfl := Except.ok.inj h
      exact .null
    · obtain rfl := Except.ok.inj h
      exact .members _
    · obtain rfl := Except.ok.inj h
      exact .items _
    · cases h
  · rintro (_ | _ | _) <;> rfl

/-- The options of an object are its sort and then its projection; other members are ignored. -/
theorem ofJson_obj (members : Members) :
    ofJson (.obj members) =
      (readSort (Members.getOrNull members "sort")).bind fun sort =>
        (readProjection (Members.getOrNull members "projection")).map (⟨sort, ·⟩) := by
  rw [ofJson]
  cases readSort (Members.getOrNull members "sort") with
  | error e => rfl
  | ok sort => cases readProjection (Members.getOrNull members "projection") <;> rfl

/-- Options are read exactly if the value describes them. -/
theorem ofJson_eq_ok_iff {raw : Json} {options : QueryOptions} :
    ofJson raw = .ok options ↔ Describes raw options := by
  constructor
  · intro h
    cases raw with
    | null =>
        obtain rfl := Except.ok.inj h
        exact .null
    | obj members =>
        rw [ofJson_obj, bind_eq_ok_iff] at h
        obtain ⟨sort, hsort, hrest⟩ := h
        obtain ⟨projection, hprojection, rfl⟩ := map_eq_ok_iff.mp hrest
        exact .members (readSort_eq_ok_iff.mp hsort) (readProjection_eq_ok_iff.mp hprojection)
    | _ => cases h
  · rintro (_ | ⟨hsort, hprojection⟩)
    · rfl
    · rw [ofJson_obj, readSort_eq_ok_iff.mpr hsort]
      exact map_eq_ok_iff.mpr ⟨_, readProjection_eq_ok_iff.mpr hprojection, rfl⟩

/-! ### Refused values -/

/-- A reading that can only fail as invalid options. -/
def Refuses {α : Type} (x : Except QueryError α) : Prop :=
  ∀ e, x = .error e → e.kind = .invalidOptions

section Refuses

variable {α β : Type} {x : Except QueryError α}

/-- Two steps that fail with refusals only do so one after the other. -/
theorem Refuses.bind (hx : Refuses x) {f : α → Except QueryError β} (hf : ∀ a, Refuses (f a)) :
    Refuses (x.bind f) := by
  cases x with
  | error e =>
      intro e' he
      obtain rfl := Except.error.inj he
      exact hx e rfl
  | ok a => exact hf a

/-- A step that fails with refusals only still does so when its result is mapped. -/
theorem Refuses.map (hx : Refuses x) (f : α → β) : Refuses (x.map f) := by
  cases x with
  | error e =>
      intro e' he
      obtain rfl := Except.error.inj he
      exact hx e rfl
  | ok a => nofun

theorem refuses_readSortKey (name direction : Json) : Refuses (readSortKey name direction) := by
  intro e he
  rw [readSortKey] at he
  split at he
  · cases he
  · obtain rfl := Except.error.inj he
    rfl

theorem refuses_readPair (item : Json) : Refuses (readPair item) := by
  unfold readPair
  split
  · rintro e ⟨⟩
    rfl
  · exact refuses_readSortKey _ _

theorem refuses_readSortMembers (members : Members) : Refuses (readSortMembers members) := by
  induction members with
  | nil => nofun
  | cons kv later ih =>
      rw [readSortMembers_cons]
      exact (refuses_readSortKey _ _).bind fun key => ih.map (key :: ·)

theorem refuses_readSortPairs (items : List Json) : Refuses (readSortPairs items) := by
  induction items with
  | nil => nofun
  | cons item later ih =>
      rw [readSortPairs_cons]
      exact (refuses_readPair item).bind fun key => ih.map (key :: ·)

theorem refuses_readSort (v : Json) : Refuses (readSort v) := by
  unfold readSort
  split
  · nofun
  · exact refuses_readSortMembers _
  · exact refuses_readSortPairs _
  · rintro e ⟨⟩
    rfl

theorem refuses_readProjection (v : Json) : Refuses (readProjection v) := by
  unfold readProjection
  split
  · nofun
  · nofun
  · nofun
  · rintro e ⟨⟩
    rfl

/-- Options that are not read are refused. -/
theorem refuses_ofJson (raw : Json) : Refuses (ofJson raw) := by
  cases raw with
  | null => nofun
  | obj members =>
      rw [ofJson_obj]
      exact (refuses_readSort _).bind fun sort => (refuses_readProjection _).map _
  | _ =>
      rintro e ⟨⟩
      rfl

end Refuses

/-- **Options are accepted exactly in these shapes.**  Reading a value gives the options that it
describes, whatever they are, so it describes one at most.  A value that describes no options
is refused, and as invalid options. -/
theorem ofJson_accepts_shapes (raw : Json) :
    (∀ options, ofJson raw = .ok options ↔ Describes raw options) ∧
      ((∃ options, Describes raw options) ∨
        ∃ e, ofJson raw = .error e ∧ e.kind = .invalidOptions) := by
  refine ⟨fun options => ofJson_eq_ok_iff, ?_⟩
  cases hread : ofJson raw with
  | error e => exact .inr ⟨e, rfl, refuses_ofJson raw e hread⟩
  | ok options => exact .inl ⟨options, ofJson_eq_ok_iff.mp hread⟩

/-- A text of two letters is no pair of a field and a direction, but is taken for one. -/
theorem ofJson_accepts_two_letters :
    ofJson (.obj [("sort", .arr [.str "a1"])]) = .ok ⟨[⟨"a", .ascending⟩], none⟩ ∧
      ∀ items, Json.str "a1" ≠ .arr items :=
  ⟨by rfl, nofun⟩

end QueryOptions

end RecordLog
