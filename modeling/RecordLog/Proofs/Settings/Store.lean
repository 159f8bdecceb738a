import RecordLog.Proofs.Json.Members
import RecordLog.Proofs.Json.Paths
import RecordLog.Settings.Section

/-!
# Settings as a store

Settings are read and written by paths of keys.  Reading does not tell a null that is there
from nothing (`find_eq`), so the laws of writing speak of `Json.at?`, which does.

Every path begins with the path `p` that is written, or leads to it, or is apart from it.
There is a law for each of the three:

* `at?_put_append`: what stands at `p` and beyond is what the written value holds there;
* `at?_put_append_left`: sections lead to `p`, whatever stood on the way before;
* `at?_put_of_apart`: nothing changes at paths apart from `p`.

`read_write_framed` states them for dotted paths, with what reading with a default does.
-/

namespace RecordLog.Section

/-- What is read at a path is what stands there, or null. -/
theorem find_eq (s : Section) (path : List Text) :
    s.find path = ((Json.obj s).at? path).getD .null := by
  induction path generalizing s with
  | nil => rfl
  | cons key path ih =>
      rw [Json.at?_obj_cons]
      cases path with
      | nil =>
          rw [find, Members.getOrNull]
          cases Members.get? s key <;> rfl
      | cons next path =>
          rw [find]
          split
          · next t ht =>
              rw [ht, ih]
              rfl
          · next hother =>
              cases hv : Members.get? s key with
              | none => rfl
              | some v =>
                  cases v with
                  | obj t => exact absurd hv (hother t)
                  | _ => rfl

/-- All values but null are read just where they stand. -/
theorem find_eq_iff_of_ne_null {s : Section} {path : List Text} {v : Json} (hv : v ≠ .null) :
    s.find path = v ↔ (Json.obj s).at? path = some v := by
  rw [find_eq]
  cases (Json.obj s).at? path with
  | none => exact iff_of_false (Ne.symm hv) nofun
  | some w =>
      rw [Option.getD_some]
      exact Option.some_inj.symm

/-- A plain value is read just where it stands. -/
theorem find_eq_iff {s : Section} {path : List Text} {v : Json} (hv : v.isPlain = true) :
    s.find path = v ↔ (Json.obj s).at? path = some v := by
  refine find_eq_iff_of_ne_null ?_
  rintro rfl
  cases hv

/-! ### Sections on the way -/

section

variable {s t : Section} {key : Text} {path : List Text}

/-- What is found beyond a section is found in that section. -/
theorem find_cons_of_obj (h : Members.get? s key = some (.obj t)) (path : List Text) :
    s.find (key :: path) = t.find path := by
  rw [find_eq, find_eq, Json.at?_obj_cons, h, Option.bind_some]

/-- What is found under a key stands there. -/
theorem exists_get?_of_find_ne_null (h : s.find [key] ≠ .null) :
    ∃ v, Members.get? s key = some v ∧ v ≠ .null := by
  rw [find, Members.getOrNull] at h
  cases hkey : Members.get? s key with
  | none => exact absurd (by rw [hkey]; rfl) h
  | some v =>
      rw [hkey] at h
      exact ⟨v, rfl, h⟩

/-- At a path of settings there is a section. -/
def HasSection (s : Section) (path : List Text) : Prop :=
  ∃ t, (Json.obj s).at? path = some (.obj t)

theorem hasSection_nil (s : Section) : s.HasSection [] :=
  ⟨s, rfl⟩

/-- A section beyond a section is a section of that one. -/
theorem hasSection_cons_iff (h : Members.get? s key = some (.obj t)) :
    s.HasSection (key :: path) ↔ t.HasSection path := by
  rw [HasSection, Json.at?_obj_cons, h]
  rfl

/-- Sections lead to whatever stands at a path. -/
theorem hasSection_of_at? {v : Json} (h : (Json.obj s).at? path = some v) {p : List Text}
    (hp : p <+: path) (hne : p ≠ path) : s.HasSection p := by
  obtain ⟨rest, rfl⟩ := hp
  refine Json.exists_obj_of_at?_append ?_ h
  rintro rfl
  exact hne p.append_nil.symm

/-- Only sections stand on the way to a section. -/
theorem HasSection.of_prefix (h : s.HasSection path) {p : List Text} (hp : p <+: path) :
    s.HasSection p := by
  by_cases hne : p = path
  · exact hne ▸ h
  · obtain ⟨t, ht⟩ := h
    exact hasSection_of_at? ht hp hne

/-- Through a section everything beyond it is read. -/
theorem find_append_of_section (h : (Json.obj s).at? path = some (.obj t)) (q : List Text) :
    s.find (path ++ q) = t.find q := by
  rw [find_eq, find_eq, Json.at?_append, h, Option.bind_some]

/-- A section is not null. -/
theorem HasSection.find_ne_null (h : s.HasSection path) : s.find path ≠ .null := by
  obtain ⟨t, ht⟩ := h
  rw [find_eq, ht]
  exact Json.noConfusion

/-- What is found and is not plain is a section. -/
theorem hasSection_of_not_isPlain (hvalue : s.find path ≠ .null)
    (hplain : (s.find path).isPlain = false) : s.HasSection path := by
  rw [find_eq] at hvalue hplain
  cases hat : (Json.obj s).at? path with
  | none =>
      rw [hat] at hvalue
      exact absurd rfl hvalue
  | some v =>
      rw [hat] at hvalue hplain
      cases v with
      | null => exact absurd rfl hvalue
      | obj t => exact ⟨t, hat⟩
      | _ => cases hplain

end

/-! ### One key -/

/-- A longer path is followed into the section under its first key. -/
theorem put_cons (s : Section) (key : Text) {path : List Text} (h : path ≠ []) (v : Json) :
    s.put (key :: path) v = Members.set s key (.obj ((s.under key).put path v)) := by
  obtain ⟨next, path, rfl⟩ := List.exists_cons_of_ne_nil h
  rfl

/-- Below a key, a section holds what the section under that key holds. -/
theorem at?_under (s : Section) (key : Text) {path : List Text} (h : path ≠ []) :
    (Json.obj (s.under key)).at? path = (Json.obj s).at? (key :: path) := by
  obtain ⟨next, path, rfl⟩ := List.exists_cons_of_ne_nil h
  rw [Json.at?_obj_cons s, under]
  split
  · next t ht =>
      rw [ht]
      rfl
  · next hother =>
      cases hv : Members.get? s key with
      | none => rfl
      | some v =>
          cases v with
          | obj t => exact absurd hv (hother t)
          | _ => rfl

/-- A section that stands under a key is the one that is looked through there. -/
theorem get?_of_section {s : Section} {key : Text} (h : s.HasSection [key]) :
    Members.get? s key = some (.obj (s.under key)) := by
  obtain ⟨t, ht⟩ := h
  rw [Json.at?_obj_singleton] at ht
  rw [under, ht]

/-- Below a key that was set stands what stands in the value. -/
theorem at?_set_self (s : Section) (key : Text) (v : Json) (path : List Text) :
    (Json.obj (Members.set s key v)).at? (key :: path) = v.at? path := by
  rw [Json.at?_obj_cons, Members.get?_set_self, Option.bind_some]

/-- Setting a key changes nothing below the others. -/
theorem at?_set_other (s : Section) {key other : Text} (h : key ≠ other) (v : Json)
    (path : List Text) :
    (Json.obj (Members.set s key v)).at? (other :: path) = (Json.obj s).at? (other :: path) := by
  rw [Json.at?_obj_cons, Json.at?_obj_cons, Members.get?_set_other s v h]

/-! ### Laws of writing -/

/-- A value that was put stands at its path. -/
theorem at?_put_self (s : Section) {path : List Text} (h : path ≠ []) (v : Json) :
    (Json.obj (s.put path v)).at? path = some v := by
  induction path generalizing s with
  | nil => exact absurd rfl h
  | cons key path ih =>
      by_cases hpath : path = []
      · subst hpath
        exact at?_set_self s key v []
      · rw [put_cons s key hpath, at?_set_self]
        exact ih _ hpath

/-- Below a path stands what stands in the value that was put there. -/
theorem at?_put_append (s : Section) {p : List Text} (h : p ≠ []) (v : Json) (q : List Text) :
    (Json.obj (s.put p v)).at? (p ++ q) = v.at? q := by
  rw [Json.at?_append, at?_put_self s h, Option.bind_some]

/-- Writing makes a section of everything on the way. -/
theorem at?_put_append_left (s : Section) (p : List Text) {q : List Text} (h : q ≠ []) (v : Json) :
    ∃ t, (Json.obj (s.put (p ++ q) v)).at? p = some (.obj t) :=
  Json.exists_obj_of_at?_append h (at?_put_self s (List.append_ne_nil_of_right_ne_nil p h) v)

/-- Writing changes nothing at paths apart from its own. -/
theorem at?_put_of_apart (s : Section) {p q : List Text} (h : Apart p q) (v : Json) :
    (Json.obj (s.put p v)).at? q = (Json.obj s).at? q := by
  induction p generalizing s q with
  | nil => exact absurd rfl h.ne_nil_left
  | cons key p ih =>
      obtain ⟨other, q, rfl⟩ := List.exists_cons_of_ne_nil h.ne_nil_right
      by_cases hkey : key = other
      · subst hkey
        have hrest : Apart p q := h.of_cons.resolve_left fun hne => hne rfl
        calc (Json.obj (s.put (key :: p) v)).at? (key :: q)
            = (Json.obj ((s.under key).put p v)).at? q := by
              rw [put_cons s key hrest.ne_nil_left, at?_set_self]
          _ = (Json.obj (s.under key)).at? q := ih _ hrest
          _ = (Json.obj s).at? (key :: q) := at?_under s key hrest.ne_nil_right
      · by_cases hp : p = []
        · subst hp
          exact at?_set_other s hkey v q
        · rw [put_cons s key hp]
          exact at?_set_other s hkey _ q

/-- Writing what is there changes nothing. -/
theorem put_of_at? {s : Section} {path : List Text} (hpath : path ≠ []) {v : Json}
    (h : (Json.obj s).at? path = some v) : s.put path v = s := by
  induction path generalizing s with
  | nil => exact absurd rfl hpath
  | cons key path ih =>
      by_cases hrest : path = []
      · subst hrest
        rw [Json.at?_obj_singleton] at h
        exact Members.set_of_get? h
      · have hsection : s.HasSection [key] :=
          hasSection_of_at? h ((List.prefix_cons_inj key).mpr path.nil_prefix)
            fun heq => hrest (List.cons.inj heq).2.symm
        rw [put_cons s key hrest, ih hrest ((at?_under s key hrest).trans h)]
        exact Members.set_of_get? (get?_of_section hsection)

/-- Writing beyond a section writes the section, with the value written in it. -/
theorem put_append_of_section {s t : Section} {p q : List Text} (hp : p ≠ []) (hq : q ≠ [])
    (h : (Json.obj s).at? p = some (.obj t)) (v : Json) :
    s.put (p ++ q) v = s.put p (.obj (t.put q v)) := by
  induction p generalizing s with
  | nil => exact absurd rfl hp
  | cons key p ih =>
      by_cases hrest : p = []
      · subst hrest
        rw [Json.at?_obj_singleton] at h
        rw [List.singleton_append, put_cons s key hq, under, h]
        rfl
      · rw [List.cons_append, put_cons s key (List.append_ne_nil_of_left_ne_nil hrest q),
          put_cons s key hrest, ih hrest ((at?_under s key hrest).trans h)]

/-! ### Dotted paths -/

theorem dottedKeys_ne_nil (path : Text) : dottedKeys path ≠ [] :=
  splitOn_ne_nil _ path

/-- Without a default a look-up changes nothing. -/
theorem readOr_null (s : Section) (path : Text) : s.readOr path .null = (s.read path, s) := by
  simp only [readOr, Json.isNull, Bool.not_true, Bool.and_false, Bool.false_eq_true, if_false]

/-- A look-up that finds nothing gives the default and stores it. -/
theorem readOr_of_null {s : Section} {path : Text} (h : s.read path = .null) {v : Json}
    (hv : v ≠ .null) : s.readOr path v = (v, s.write path v) := by
  simp only [readOr, h, Json.isNull, Bool.not_false, Bool.and_true, if_true]

/-- A look-up that finds something gives it and stores nothing. -/
theorem readOr_of_read {s : Section} {path : Text} {v : Json} (h : s.read path = v)
    (hv : v ≠ .null) (usual : Json) : s.readOr path usual = (v, s) := by
  subst h
  simp only [readOr, Json.isNull, Bool.false_and, Bool.false_eq_true, if_false]

/-- **Settings are a store.**  A written value is read back, whole at its path and in part
beyond it; sections lead to it, even where a value stood in the way; and all paths apart from
it read as before, since settings are a tree and no section is at two paths.  Reading alone
changes nothing, and reading with a default changes nothing where a value is found and
otherwise writes the default. -/
theorem read_write_framed (s : Section) (p q : Text) (v : Json) :
    (s.write p v).read p = v ∧
      (∀ beyond, dottedKeys q = dottedKeys p ++ beyond →
        (s.write p v).read q = (v.at? beyond).getD .null) ∧
      (∀ beyond, beyond ≠ [] → dottedKeys p = dottedKeys q ++ beyond →
        ∃ t, (s.write p v).read q = .obj t) ∧
      (Apart (dottedKeys p) (dottedKeys q) → (s.write p v).read q = s.read q) ∧
      s.readOr p .null = (s.read p, s) ∧
      (v ≠ .null → s.read p ≠ .null → s.readOr p v = (s.read p, s)) ∧
      (v ≠ .null → s.read p = .null → s.readOr p v = (v, s.write p v)) := by
  have hp := dottedKeys_ne_nil p
  refine ⟨find_put_self s hp v, ?_, ?_, ?_, readOr_null s p,
    fun _ hstored => readOr_of_read rfl hstored v, fun hv hnull => readOr_of_null hnull hv⟩
  · intro beyond hq
    rw [read, write, find_eq, hq, at?_put_append s hp]
  · intro beyond hbeyond hkeys
    obtain ⟨t, ht⟩ := at?_put_append_left s (dottedKeys q) hbeyond v
    refine ⟨t, ?_⟩
    rw [read, write, find_eq, hkeys, ht, Option.getD_some]
  · intro hapart
    rw [read, write, read, find_eq, find_eq, at?_put_of_apart s hapart]

/-- A path is written through a value, and a section beside it stays. -/
theorem read_write_framed_through_value :
    let s : Section := [("server", .str "x"), ("log", .obj [("level", .str "INFO")])]
    let v : Json := .obj [("port", .int 1)]
    let t := s.write "server.main" v
    t.read "server.main" = v ∧ t.read "server.main.port" = .int 1 ∧
      (∃ u, t.read "server" = .obj u) ∧ t.read "log.level" = .str "INFO" ∧
      s.readOr "server.main" v = (v, t) := by
  intro s v t
  have hself := read_write_framed s "server.main" "server.main" v
  have hbeyond := read_write_framed s "server.main" "server.main.port" v
  have hleading := read_write_framed s "server.main" "server" v
  have hapart := read_write_framed s "server.main" "log.level" v
  refine ⟨hself.1, hbeyond.2.1 ["port"] (by decide), ?_, ?_, ?_⟩
  · exact hleading.2.2.1 ["main"] (by decide) (by decide)
  · exact hapart.2.2.2.1 (by decide)
  · exact hself.2.2.2.2.2.2 Json.noConfusion rfl

end RecordLog.Section
