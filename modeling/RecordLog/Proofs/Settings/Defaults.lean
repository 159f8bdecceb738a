import RecordLog.Proofs.Settings.Store

/-!
# Reading with defaults

Reading with a default writes the default where nothing was found, and sections on the way to
it.  So a plain value can be lost, but only one that stands on the way: a path passes another
one if it goes on from there (`Passes`), and beyond a plain value nothing is found
(`read_eq_null_of_passes`).  Everywhere else plain values stay (`read_readOr_of_isPlain`).

A second reading with the same default gives the same and adds nothing (`readOr_again`), and
paths apart from the one that is read are not touched (`read_readOr_of_apart`).
-/

namespace RecordLog.Section

variable {s : Section} {p q : Text}

/-- The path `p` goes on from the end of the path `q`. -/
def Passes (p q : Text) : Prop :=
  ∃ beyond, beyond ≠ [] ∧ dottedKeys p = dottedKeys q ++ beyond

/-- Beyond a plain value nothing is found. -/
theorem read_eq_null_of_passes (h : (s.read q).isPlain = true) (hpasses : Passes p q) :
    s.read p = .null := by
  obtain ⟨beyond, hbeyond, hkeys⟩ := hpasses
  have hat : (Json.obj s).at? (dottedKeys q) = some (s.read q) := (find_eq_iff h).mp rfl
  rw [read, find_eq, hkeys, Json.at?_append, hat, Option.bind_some]
  cases hrest : (s.read q).at? beyond with
  | none => rfl
  | some w => exact absurd (Json.at?_of_isPlain h hrest).1 hbeyond

/-- On the way to a plain value, and at its end, something is found. -/
theorem read_ne_null_of_leads (h : (s.read q).isPlain = true) {beyond : List Text}
    (hkeys : dottedKeys q = dottedKeys p ++ beyond) : s.read p ≠ .null := by
  have hat : (Json.obj s).at? (dottedKeys p ++ beyond) = some (s.read q) := by
    rw [← hkeys]
    exact (find_eq_iff h).mp rfl
  rw [read, find_eq]
  by_cases hbeyond : beyond = []
  · subst hbeyond
    rw [List.append_nil] at hat
    rw [hat, Option.getD_some]
    intro hnull
    rw [hnull] at h
    cases h
  · obtain ⟨t, ht⟩ := Json.exists_obj_of_at?_append hbeyond hat
    rw [ht, Option.getD_some]
    exact Json.noConfusion

/-- Reading with a default leaves the settings alone, or writes the default. -/
theorem readOr_snd_cases (s : Section) (p : Text) (usual : Json) :
    (s.readOr p usual).2 = s ∨
      s.read p = .null ∧ usual ≠ .null ∧ (s.readOr p usual).2 = s.write p usual := by
  by_cases husual : usual = .null
  · left
    rw [husual, readOr_null]
  · by_cases hnull : s.read p = .null
    · right
      rw [readOr_of_null hnull husual]
      exact ⟨hnull, husual, rfl⟩
    · left
      rw [readOr_of_read rfl hnull]

/-- Reading with a default changes nothing at paths apart from its own. -/
theorem read_readOr_of_apart (s : Section) (usual : Json)
    (h : Apart (dottedKeys p) (dottedKeys q)) : (s.readOr p usual).2.read q = s.read q := by
  rcases readOr_snd_cases s p usual with hsame | ⟨_, _, hwritten⟩
  · rw [hsame]
  · rw [hwritten, read, write, read, find_eq, find_eq, at?_put_of_apart s h]

/-- Reading with the same default again gives the same and adds nothing. -/
theorem readOr_again (s : Section) (p : Text) (usual : Json) :
    (s.readOr p usual).2.readOr p usual = s.readOr p usual := by
  rcases readOr_snd_cases s p usual with hsame | ⟨hnull, husual, hwritten⟩
  · rw [hsame]
  · have hread : (s.write p usual).read p = usual :=
      find_put_self s (dottedKeys_ne_nil p) usual
    rw [hwritten, readOr_of_read hread husual, readOr_of_null hnull husual]

/-- What is read with a default depends on what is read without one. -/
theorem readOr_fst_congr {s t : Section} {p : Text} (h : t.read p = s.read p) (usual : Json) :
    (t.readOr p usual).1 = (s.readOr p usual).1 := by
  simp only [readOr, h]
  split <;> rfl

/-- **What reading with a default does to a plain value.**  It keeps the value, unless the
path that is read passes it and the default is not null.  In that case a section stands in
the place of the value afterwards. -/
theorem read_readOr_of_isPlain (h : (s.read q).isPlain = true) (p : Text) (usual : Json) :
    (¬ Passes p q ∨ usual = .null → (s.readOr p usual).2.read q = s.read q) ∧
      (Passes p q → usual ≠ .null → ∃ t, (s.readOr p usual).2.read q = .obj t) := by
  constructor
  · intro hkept
    rcases readOr_snd_cases s p usual with hsame | ⟨hnull, husual, hwritten⟩
    · rw [hsame]
    · have hpasses : ¬ Passes p q := hkept.resolve_right husual
      rw [hwritten]
      rcases Apart.cases (dottedKeys p) (dottedKeys q) with
        ⟨beyond, hkeys⟩ | ⟨beyond, hbeyond, hkeys⟩ | hapart
      · exact absurd hnull (read_ne_null_of_leads h hkeys)
      · exact absurd ⟨beyond, hbeyond, hkeys⟩ hpasses
      · rw [← hwritten, read_readOr_of_apart s usual hapart]
  · intro hpasses husual
    rw [readOr_of_null (read_eq_null_of_passes h hpasses) husual]
    obtain ⟨beyond, hbeyond, hkeys⟩ := hpasses
    obtain ⟨t, ht⟩ := at?_put_append_left s (dottedKeys q) hbeyond usual
    refine ⟨t, ?_⟩
    rw [read, write, find_eq, hkeys, ht, Option.getD_some]

/-- A default is read below a value: the value beside it stays, and the one above it gives way
to a section. -/
theorem read_readOr_of_isPlain_below_value :
    let s : Section := [("server", .str "x"), ("log", .obj [("level", .str "INFO")])]
    let t := (s.readOr "server.port" (.int 8087)).2
    (s.read "log.level").isPlain = true ∧ ¬ Passes "server.port" "log.level" ∧
      t.read "log.level" = s.read "log.level" ∧
      (s.read "server").isPlain = true ∧ Passes "server.port" "server" ∧
      ∃ u, t.read "server" = .obj u := by
  intro s t
  have hbeside : (s.read "log.level").isPlain = true := rfl
  have hpast : ¬ Passes "server.port" "log.level" := by
    rintro ⟨beyond, _, hkeys⟩
    have hfirst : Text.ofString "server" = "log" := (List.cons.inj hkeys).1
    exact absurd hfirst (by decide)
  have habove : (s.read "server").isPlain = true := rfl
  have hpasses : Passes "server.port" "server" := ⟨["port"], by decide, by decide⟩
  exact ⟨hbeside, hpast,
    (read_readOr_of_isPlain hbeside "server.port" (.int 8087)).1 (Or.inl hpast), habove, hpasses,
    (read_readOr_of_isPlain habove "server.port" (.int 8087)).2 hpasses Json.noConfusion⟩

/-- A default is read below a value, and the value is lost. -/
theorem readOr_replaces_value :
    let s : Section := [("server", .str "x")]
    (s.read "server").isPlain = true ∧
      (s.readOr "server.port" (.int 8087)).2.read "server" = .obj [("port", .int 8087)] ∧
      (s.readOr "server.port" (.int 8087)).2.read "server" ≠ s.read "server" := by
  intro s
  have hafter : (s.readOr "server.port" (.int 8087)).2.read "server" =
      .obj [("port", .int 8087)] := rfl
  refine ⟨rfl, hafter, ?_⟩
  rw [hafter]
  exact Json.noConfusion

end RecordLog.Section
