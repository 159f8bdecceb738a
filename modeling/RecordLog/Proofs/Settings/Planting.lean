import Mathlib.Data.List.Induction
import RecordLog.Proofs.Json.Sameness
import RecordLog.Proofs.Outcomes
import RecordLog.Proofs.Settings.Spelling
import RecordLog.Proofs.Settings.Store

/-!
# Settings of an environment

Every variable of an environment plants one value.  It is put at its path, unless a value that
is no section stands on the way (`plant_of_admits`, `admits_of_plant`).

`Holds` says what a section holds after settings were planted in it.  From that it follows
what the environment comes to:

* `exists_plantEach_iff`: planting ends well if every text stands for a value and no setting
  comes after one that covers it, which is one whose path leads to it;
* `at?_eq_some_iff`: a plain value stands where a setting puts it that no other one covers;
* `ofEnvironment_order`: the order of the variables decides whether there are settings, and
  nothing else.
-/

namespace RecordLog

/-- A setting that a variable makes: a path, and the text of the variable. -/
structure Setting where
  path : List Text
  raw : Text
deriving DecidableEq

/-- One setting covers another one if its path leads to the other's. -/
def Setting.Covers (a b : Setting) : Prop :=
  a.path <+: b.path ∧ a.path ≠ b.path

instance (a b : Setting) : Decidable (a.Covers b) :=
  inferInstanceAs (Decidable (_ ∧ _))

/-- The settings that variables make, in order. -/
def Environment.settings (env : Environment) : List Setting :=
  env.filterMap fun v => (settingKeys? v.1).map fun path => ⟨path, v.2⟩

theorem underscoreParts_ne_nil (t : Text) : underscoreParts t ≠ [] := by
  fun_cases underscoreParts t with
  | case1 => exact List.cons_ne_nil _ _
  | case2 => exact List.cons_ne_nil _ _
  | case3 => exact List.cons_ne_nil _ _
  | case4 c d t =>
      cases underscoreParts (d :: t) <;> exact List.cons_ne_nil _ _

/-- No setting has the empty path. -/
theorem Environment.path_ne_nil {env : Environment} {a : Setting} (h : a ∈ env.settings) :
    a.path ≠ [] := by
  obtain ⟨⟨name, raw⟩, _, hname⟩ := List.mem_filterMap.mp h
  obtain ⟨path, hpath, rfl⟩ := Option.map_eq_some_iff.mp hname
  rw [settingKeys?] at hpath
  split at hpath
  · cases hpath
  · obtain ⟨rest, _, rfl⟩ := Option.map_eq_some_iff.mp hpath
    exact underscoreParts_ne_nil _

namespace Section

variable {s t : Section} {as : List Setting} {a : Setting} {path : List Text} {raw : Text}
  {v : Json}

/-! ### Planting one setting -/

/-- Nothing but sections stands on the way along a path. -/
def Admits (s : Section) (path : List Text) : Prop :=
  ∀ p q v, path = p ++ q → q ≠ [] → (Json.obj s).at? p = some v → ∃ t, v = .obj t

/-- The way along a path is free if the first key leads to a section that lets it go on, or to
nothing. -/
theorem admits_cons {key : Text} (hpath : path ≠ []) :
    s.Admits (key :: path) ↔
      ∀ v, Members.get? s key = some v → ∃ t, v = .obj t ∧ Admits t path := by
  constructor
  · intro h v hv
    have hkey : (Json.obj s).at? [key] = some v := by rw [Json.at?_obj_singleton, hv]
    obtain ⟨t, rfl⟩ := h [key] path v rfl hpath hkey
    refine ⟨t, rfl, ?_⟩
    intro p q w hsplit hq hw
    refine h (key :: p) q w (congrArg (key :: ·) hsplit) hq ?_
    rw [Json.at?_obj_cons, hv, Option.bind_some, hw]
  · intro h p q v hsplit hq hv
    cases p with
    | nil => exact ⟨s, (Option.some.inj hv).symm⟩
    | cons other p =>
        obtain ⟨rfl, rfl⟩ := List.cons.inj hsplit
        rw [Json.at?_obj_cons] at hv
        obtain ⟨w, hw, hv⟩ := Option.bind_eq_some_iff.mp hv
        obtain ⟨t, rfl, ht⟩ := h w hw
        exact ht p q v rfl hq hv

/-- Every way is free in an empty section. -/
theorem admits_nil (path : List Text) : Admits [] path := by
  intro p q v _ _ hv
  cases p with
  | nil => exact ⟨[], (Option.some.inj hv).symm⟩
  | cons key p => cases hv

/-- Where the way is free, planting puts the value of the text. -/
theorem plant_of_admits (hpath : path ≠ []) (h : s.Admits path) (raw : Text) :
    s.plant path raw = (scalarValue raw).map fun v => s.put path v := by
  induction path generalizing s with
  | nil => exact absurd rfl hpath
  | cons key path ih =>
      cases path with
      | nil =>
          rw [plant]
          cases scalarValue raw <;> rfl
      | cons next path =>
          have hrest := List.cons_ne_nil next path
          -- What is under the first key is a section, or nothing; then planting starts one.
          have hput : ∀ t, s.under key = t → Admits t (next :: path) →
              (plant t (next :: path) raw).map (fun u => Members.set s key (.obj u)) =
                (scalarValue raw).map fun v => s.put (key :: next :: path) v := by
            rintro _ rfl ht
            rw [ih hrest ht]
            cases scalarValue raw <;> rfl
          rw [admits_cons hrest] at h
          rw [plant]
          split
          · next hnone => exact hput [] (by rw [under, hnone]) (admits_nil _)
          · next t ht =>
              obtain ⟨_, hobj, hadmits⟩ := h _ ht
              obtain rfl := Json.obj.inj hobj
              exact hput t (by rw [under, ht]) hadmits
          · next v hother hv =>
              obtain ⟨t, rfl, _⟩ := h _ hv
              exact absurd rfl (hother t)

/-- If planting ends well, the way was free. -/
theorem admits_of_plant (h : s.plant path raw = .ok t) : s.Admits path := by
  induction path generalizing s t with
  | nil =>
      intro p q v hsplit hq
      exact absurd (List.append_eq_nil_iff.mp hsplit.symm).2 hq
  | cons key path ih =>
      cases path with
      | nil =>
          intro p q v hsplit hq hv
          have hp : p = [] := by
            cases p with
            | nil => rfl
            | cons other p =>
                have htail := (List.cons.inj hsplit).2
                exact absurd (List.append_eq_nil_iff.mp htail.symm).2 hq
          subst hp
          exact ⟨s, (Option.some.inj hv).symm⟩
      | cons next path =>
          rw [admits_cons (List.cons_ne_nil next path)]
          intro v hv
          rw [plant, hv] at h
          cases v with
          | obj u =>
              obtain ⟨t', ht', _⟩ := map_eq_ok_iff.mp h
              exact ⟨u, rfl, ih ht'⟩
          | _ =>
              simp only at h
              split at h
              · split at h <;> cases h
              · cases h

/-- Planting either ends well, in a free way, or not at all. -/
theorem plant_eq_ok_iff (hpath : path ≠ []) :
    s.plant path raw = .ok t ↔
      s.Admits path ∧ ∃ v, scalarValue raw = .ok v ∧ s.put path v = t := by
  constructor
  · intro h
    have hadmits := admits_of_plant h
    rw [plant_of_admits hpath hadmits] at h
    exact ⟨hadmits, map_eq_ok_iff.mp h⟩
  · rintro ⟨hadmits, hvalue⟩
    rw [plant_of_admits hpath hadmits]
    exact map_eq_ok_iff.mpr hvalue

/-! ### Planting several settings -/

/-- Plants settings, in order. -/
def plantEach (s : Section) (as : List Setting) : Outcome Section :=
  as.foldlM (fun s a => s.plant a.path a.raw) s

/-- Planting variables is planting the settings that they make, in order. -/
theorem plantAll_eq (s : Section) (env : Environment) :
    s.plantAll env = s.plantEach env.settings := by
  induction env generalizing s with
  | nil => rfl
  | cons kv env ih =>
      obtain ⟨name, raw⟩ := kv
      rw [plantAll, Environment.settings, List.filterMap_cons]
      cases hname : settingKeys? name with
      | none => exact ih s
      | some path =>
          simp only [Option.map_some, plantEach, List.foldlM_cons]
          cases s.plant path raw with
          | error e => rfl
          | ok t => exact ih t

/-- The last setting is planted after the others. -/
theorem plantEach_concat (s : Section) (as : List Setting) (a : Setting) :
    s.plantEach (as ++ [a]) = (s.plantEach as).bind fun t => t.plant a.path a.raw := by
  rw [plantEach, List.foldlM_append]
  refine congrArg _ (funext fun t => ?_)
  rw [List.foldlM_cons]
  exact bind_pure _

/-- What is under a key of well-formed settings is well formed. -/
theorem wellFormed_under (h : (Json.obj s).WellFormed) (key : Text) :
    (Json.obj (s.under key)).WellFormed := by
  rw [under]
  split
  · next t ht => exact h.get? ht
  · exact ⟨List.nodup_nil, trivial⟩

/-- Putting a well-formed value keeps settings well formed. -/
theorem wellFormed_put (h : (Json.obj s).WellFormed) (path : List Text) (hv : v.WellFormed) :
    (Json.obj (s.put path v)).WellFormed := by
  induction path generalizing s with
  | nil => exact h
  | cons key path ih =>
      by_cases hpath : path = []
      · subst hpath
        exact h.set key hv
      · rw [put_cons s key hpath]
        exact h.set key (ih (wellFormed_under h key))

/-- What a section holds after settings were planted in it. -/
structure Holds (s : Section) (as : List Setting) : Prop where
  /-- Whatever is no section was planted. -/
  planted : ∀ {path v}, (Json.obj s).at? path = some v → (∀ t, v ≠ .obj t) →
    ∃ a ∈ as, a.path = path ∧ scalarValue a.raw = .ok v
  /-- What was planted is there, or has given way to a value on the way to it. -/
  kept : ∀ a ∈ as, ∃ p v, p <+: a.path ∧ (Json.obj s).at? p = some v ∧ v.isPlain = true
  /-- Every section holds something planted. -/
  filled : ∀ {path v}, path ≠ [] → (Json.obj s).at? path = some v →
    ∃ rest w, (Json.obj s).at? (path ++ rest) = some w ∧ w.isPlain = true
  /-- No section has a key twice. -/
  wellFormed : (Json.obj s).WellFormed

/-- The way to what is found does not lead past a plain value. -/
theorem not_prefix_of_isPlain {p q : List Text} {w : Json} (hv : v.isPlain = true)
    (hp : (Json.obj s).at? p = some v) (hq : (Json.obj s).at? q = some w) (hne : p ≠ q) :
    ¬ p <+: q := by
  rintro ⟨r, rfl⟩
  have hr : r ≠ [] := by
    rintro rfl
    exact hne (List.append_nil p).symm
  obtain ⟨t, ht⟩ := Json.exists_obj_of_at?_append hr hq
  exact Json.ne_obj_of_isPlain hv t (Option.some.inj (hp.symm.trans ht))

/-- An empty section holds no setting. -/
theorem holds_nil : Holds [] [] where
  planted := by
    intro path v hat hv
    cases path with
    | nil => exact absurd (Option.some.inj hat).symm (hv [])
    | cons key path => cases hat
  kept := nofun
  filled := by
    intro path v hpath hat
    obtain ⟨key, path, rfl⟩ := List.exists_cons_of_ne_nil hpath
    cases hat
  wellFormed := ⟨List.nodup_nil, trivial⟩

/-- A setting is planted beside others. -/
theorem Holds.put (h : Holds s as) (ha : a.path ≠ []) (hadmits : s.Admits a.path)
    (hvalue : scalarValue a.raw = .ok v) : Holds (s.put a.path v) (as ++ [a]) where
  planted := by
    intro path w hat hw
    rcases Apart.cases a.path path with ⟨r, rfl⟩ | ⟨r, hr, heq⟩ | hapart
    · -- Beyond the path there is nothing, since the value of a text is plain.
      rw [at?_put_append s ha] at hat
      obtain ⟨rfl, rfl⟩ := Json.at?_of_isPlain (isPlain_of_scalarValue hvalue) hat
      exact ⟨a, List.mem_concat_self, (List.append_nil _).symm, hvalue⟩
    · obtain ⟨t, ht⟩ := at?_put_append_left s path hr v
      rw [← heq] at ht
      exact absurd (Option.some.inj (hat.symm.trans ht)) (hw t)
    · rw [at?_put_of_apart s hapart] at hat
      obtain ⟨b, hb, hpath⟩ := h.planted hat hw
      exact ⟨b, List.mem_append_left _ hb, hpath⟩
  kept := by
    have hself : (Json.obj (s.put a.path v)).at? a.path = some v := at?_put_self s ha v
    have hplain := isPlain_of_scalarValue hvalue
    intro b hb
    rcases List.mem_append.mp hb with hb | hb
    · obtain ⟨p, w, hp, hat, hw⟩ := h.kept b hb
      rcases Apart.cases a.path p with ⟨r, rfl⟩ | ⟨r, hr, heq⟩ | hapart
      · exact ⟨a.path, v, (List.prefix_append _ r).trans hp, hself, hplain⟩
      · obtain ⟨t, rfl⟩ := hadmits p r w heq hr hat
        cases hw
      · exact ⟨p, w, hp, (at?_put_of_apart s hapart v).trans hat, hw⟩
    · obtain rfl := List.mem_singleton.mp hb
      exact ⟨b.path, v, List.prefix_rfl, hself, hplain⟩
  filled := by
    have hself : (Json.obj (s.put a.path v)).at? a.path = some v := at?_put_self s ha v
    have hplain := isPlain_of_scalarValue hvalue
    intro path w hpath hat
    rcases Apart.cases a.path path with ⟨r, rfl⟩ | ⟨r, _, heq⟩ | hapart
    · rw [at?_put_append s ha] at hat
      obtain ⟨rfl, rfl⟩ := Json.at?_of_isPlain hplain hat
      exact ⟨[], w, by rw [List.append_nil, List.append_nil, hself], hplain⟩
    · exact ⟨r, v, heq ▸ hself, hplain⟩
    · rw [at?_put_of_apart s hapart] at hat
      obtain ⟨rest, u, hrest, hu⟩ := h.filled hpath hat
      exact ⟨rest, u, (at?_put_of_apart s (hapart.append_right rest) v).trans hrest, hu⟩
  wellFormed := wellFormed_put h.wellFormed a.path (wellFormed_of_scalarValue hvalue)

/-- The way is free for a setting that none of the planted ones covers. -/
theorem Holds.admits_iff (h : Holds s as) : s.Admits a.path ↔ ∀ b ∈ as, ¬ b.Covers a := by
  constructor
  · rintro hadmits b hb ⟨⟨r, hr⟩, hne⟩
    obtain ⟨p, v, ⟨q, hq⟩, hat, hv⟩ := h.kept b hb
    have hqr : q ++ r ≠ [] := by
      intro hnil
      obtain ⟨rfl, rfl⟩ := List.append_eq_nil_iff.mp hnil
      rw [List.append_nil] at hr
      exact hne hr
    have hsplit : a.path = p ++ (q ++ r) := by rw [← List.append_assoc, hq, hr]
    obtain ⟨t, rfl⟩ := hadmits p (q ++ r) v hsplit hqr hat
    cases hv
  · intro hfree p q v hsplit hq hat
    by_contra hobj
    obtain ⟨b, hb, hpath, _⟩ := h.planted hat fun t ht => hobj ⟨t, ht⟩
    refine hfree b hb ⟨⟨q, ?_⟩, ?_⟩
    · rw [hpath, hsplit]
    · rw [hpath, hsplit]
      intro hnil
      exact hq (List.self_eq_append_right.mp hnil)

/-- Settings that are planted one after the other are held. -/
theorem holds_of_plantEach (hpaths : ∀ a ∈ as, a.path ≠ []) (h : plantEach [] as = .ok s) :
    Holds s as := by
  -- The last setting is the one that is planted beside the others.
  induction as using List.reverseRecOn generalizing s with
  | nil =>
      obtain rfl := Except.ok.inj h
      exact holds_nil
  | append_singleton as a ih =>
      have ha := hpaths a List.mem_concat_self
      rw [plantEach_concat] at h
      obtain ⟨t, ht, hplant⟩ := bind_eq_ok_iff.mp h
      obtain ⟨hadmits, v, hv, rfl⟩ := (plant_eq_ok_iff ha).mp hplant
      exact (ih (fun b hb => hpaths b (List.mem_append_left _ hb)) ht).put ha hadmits hv

/-- Settings of which none comes after one that covers it can be planted, unless the text of
one stands for nothing. -/
theorem plantEach_cases (hpaths : ∀ a ∈ as, a.path ≠ [])
    (horder : as.Pairwise fun a b => ¬ a.Covers b) :
    (∃ s, plantEach [] as = .ok s) ∨
      ∃ a ∈ as, ∃ e, scalarValue a.raw = .error e ∧ plantEach [] as = .error e := by
  induction as using List.reverseRecOn with
  | nil => exact Or.inl ⟨[], rfl⟩
  | append_singleton as a ih =>
      have hpaths' : ∀ b ∈ as, b.path ≠ [] := fun b hb => hpaths b (List.mem_append_left _ hb)
      obtain ⟨horder', _, hlast⟩ := List.pairwise_append.mp horder
      rw [plantEach_concat]
      rcases ih hpaths' horder' with ⟨s, hs⟩ | ⟨b, hb, e, hvalue, he⟩
      · have hadmits : s.Admits a.path := (holds_of_plantEach hpaths' hs).admits_iff.mpr
          fun b hb => hlast b hb a List.mem_cons_self
        rw [hs, Except.bind, plant_of_admits (hpaths a List.mem_concat_self) hadmits]
        cases hvalue : scalarValue a.raw with
        | error e => exact Or.inr ⟨a, List.mem_concat_self, e, hvalue, rfl⟩
        | ok v => exact Or.inl ⟨_, rfl⟩
      · exact Or.inr ⟨b, List.mem_append_left _ hb, e, hvalue, by rw [he]; rfl⟩

/-- Planting ends well if every text stands for a value and no setting comes after one that
covers it. -/
theorem exists_plantEach_iff (hpaths : ∀ a ∈ as, a.path ≠ []) :
    (∃ s, plantEach [] as = .ok s) ↔
      (∀ a ∈ as, ∃ v, scalarValue a.raw = .ok v) ∧ as.Pairwise fun a b => ¬ a.Covers b := by
  constructor
  · rintro ⟨s, hs⟩
    induction as using List.reverseRecOn generalizing s with
    | nil => exact ⟨nofun, List.Pairwise.nil⟩
    | append_singleton as a ih =>
        have hpaths' : ∀ b ∈ as, b.path ≠ [] := fun b hb => hpaths b (List.mem_append_left _ hb)
        rw [plantEach_concat] at hs
        obtain ⟨t, ht, hplant⟩ := bind_eq_ok_iff.mp hs
        obtain ⟨hadmits, hvalue⟩ := (plant_eq_ok_iff (hpaths a List.mem_concat_self)).mp hplant
        obtain ⟨hvalues, horder⟩ := ih hpaths' t ht
        have hlast := (holds_of_plantEach hpaths' ht).admits_iff.mp hadmits
        constructor
        · intro b hb
          rcases List.mem_append.mp hb with hb | hb
          · exact hvalues b hb
          · obtain rfl := List.mem_singleton.mp hb
            exact hvalue.imp fun v hv => hv.1
        · refine List.pairwise_append.mpr ⟨horder, List.pairwise_singleton _ _, ?_⟩
          intro b hb c hc
          obtain rfl := List.mem_singleton.mp hc
          exact hlast b hb
  · rintro ⟨hvalues, horder⟩
    rcases plantEach_cases hpaths horder with hs | ⟨a, ha, e, he, _⟩
    · exact hs
    · obtain ⟨v, hv⟩ := hvalues a ha
      rw [hv] at he
      cases he

/-! ### What is planted -/

/-- A plain value stands where a setting puts it that no other one covers. -/
theorem Holds.at?_eq_some_iff (h : Holds s as) (hdistinct : (as.map Setting.path).Nodup)
    (hv : v.isPlain = true) :
    (Json.obj s).at? path = some v ↔
      ∃ a ∈ as, a.path = path ∧ scalarValue a.raw = .ok v ∧ ∀ b ∈ as, ¬ b.Covers a := by
  constructor
  · intro hat
    obtain ⟨a, ha, rfl, hvalue⟩ := h.planted hat (Json.ne_obj_of_isPlain hv)
    refine ⟨a, ha, rfl, hvalue, ?_⟩
    rintro b hb ⟨hbegins, hne⟩
    obtain ⟨p, w, hp, hw, hplain⟩ := h.kept b hb
    refine not_prefix_of_isPlain hplain hw hat ?_ (hp.trans hbegins)
    rintro rfl
    exact hne (hbegins.eq_of_length_le hp.length_le)
  · rintro ⟨a, ha, rfl, hvalue, hfree⟩
    -- Only a setting that covers this one can have taken its place.
    obtain ⟨p, w, hp, hw, hplain⟩ := h.kept a ha
    obtain ⟨b, hb, rfl, hvalue'⟩ := h.planted hw (Json.ne_obj_of_isPlain hplain)
    have hpath : b.path = a.path := by
      by_contra hne
      exact hfree b hb ⟨hp, hne⟩
    obtain rfl := List.inj_on_of_nodup_map hdistinct hb ha hpath
    rw [hw, Except.ok.inj (hvalue'.symm.trans hvalue)]

/-- There are no nulls among planted values. -/
theorem Holds.isPlain_or_obj (h : Holds s as) (hat : (Json.obj s).at? path = some v) :
    v.isPlain = true ∨ ∃ t, v = .obj t := by
  by_cases hobj : ∃ t, v = .obj t
  · exact Or.inr hobj
  · obtain ⟨a, _, _, hvalue⟩ := h.planted hat fun t ht => hobj ⟨t, ht⟩
    exact Or.inl (isPlain_of_scalarValue hvalue)

/-- Plain values fix where there are sections. -/
theorem Holds.exists_section (h : Holds s as)
    (hplain : ∀ {path v}, v.isPlain = true → (Json.obj s).at? path = some v →
      (Json.obj t).at? path = some v)
    {u : Section} (hu : (Json.obj s).at? path = some (.obj u)) :
    ∃ w, (Json.obj t).at? path = some (.obj w) := by
  by_cases hpath : path = []
  · subst hpath
    exact ⟨t, rfl⟩
  · obtain ⟨rest, v, hat, hv⟩ := h.filled hpath hu
    have hrest : rest ≠ [] := by
      rintro rfl
      rw [List.append_nil] at hat
      exact Json.ne_obj_of_isPlain hv u (Option.some.inj (hat.symm.trans hu))
    exact Json.exists_obj_of_at?_append hrest (hplain hv hat)

/-- Sections that hold the same settings match, in whatever order these were planted. -/
theorem Holds.matches {bs : List Setting} (hs : Holds s as) (ht : Holds t bs) (hperm : as.Perm bs)
    (hdistinct : (as.map Setting.path).Nodup) : (Json.obj s).Matches (.obj t) := by
  have hplain : ∀ {path v}, v.isPlain = true →
      ((Json.obj s).at? path = some v ↔ (Json.obj t).at? path = some v) := by
    intro path v hv
    rw [hs.at?_eq_some_iff hdistinct hv,
      ht.at?_eq_some_iff ((hperm.map Setting.path).nodup_iff.mp hdistinct) hv]
    simp only [hperm.mem_iff]
  intro path
  cases hat : (Json.obj s).at? path with
  | some v =>
      rcases hs.isPlain_or_obj hat with hv | ⟨u, rfl⟩
      · exact Or.inl ((hplain hv).mp hat).symm
      · obtain ⟨w, hw⟩ := hs.exists_section (fun hv => (hplain hv).mp) hat
        exact Or.inr ⟨u, w, rfl, hw⟩
  | none =>
      left
      cases hat' : (Json.obj t).at? path with
      | none => rfl
      | some v =>
          rcases ht.isPlain_or_obj hat' with hv | ⟨w, rfl⟩
          · cases hat.symm.trans ((hplain hv).mpr hat')
          · obtain ⟨u, hu⟩ := ht.exists_section (fun hv => (hplain hv).mpr) hat'
            cases hat.symm.trans hu

/-! ### Whole environments -/

/-- The settings from an environment hold what its variables make. -/
theorem holds_of_ofEnvironment {env : Environment} (h : ofEnvironment env = .ok s) :
    Holds s env.settings := by
  rw [ofEnvironment, plantAll_eq] at h
  exact holds_of_plantEach (fun _ => Environment.path_ne_nil) h

/-- **The order of variables decides only whether there are settings.**  For variables of
different paths whose texts have few digits and no separators, there are settings in just
those orders in which no setting comes after one that covers it; and they are the same in all
of these orders. -/
theorem ofEnvironment_order {env other : Environment}
    (hdistinct : (env.settings.map Setting.path).Nodup)
    (hvalues : ∀ a ∈ env.settings, a.raw.countP Text.isDecimalDigit ≤ Numeral.digitLimit ∧
      ∀ c ∈ a.raw, c.isSeparator = false)
    (hperm : env.Perm other) :
    ((∃ s, ofEnvironment other = .ok s) ↔
        other.settings.Pairwise fun a b => ¬ a.Covers b) ∧
      ∀ s t, ofEnvironment env = .ok s → ofEnvironment other = .ok t →
        (Json.obj s).Matches (.obj t) ∧ (Json.obj s).same (.obj t) = true := by
  have hsettings : env.settings.Perm other.settings := hperm.filterMap _
  constructor
  · rw [ofEnvironment, plantAll_eq, exists_plantEach_iff fun _ => Environment.path_ne_nil]
    refine and_iff_right ?_
    intro a ha
    obtain ⟨hdigits, hseparators⟩ := hvalues a (hsettings.mem_iff.mpr ha)
    exact exists_scalarValue hdigits hseparators
  · intro s t hs ht
    have hs' := holds_of_ofEnvironment hs
    have ht' := holds_of_ofEnvironment ht
    have hmatches := hs'.matches ht' hsettings hdistinct
    exact ⟨hmatches, Json.Matches.same_obj hs'.wellFormed ht'.wellFormed hmatches⟩

/-- Two variables for one section, in both orders. -/
theorem ofEnvironment_order_two_variables :
    let env : Environment :=
      [("LOGQUERY_SERVER__PORT", "9001"), ("LOGQUERY_SERVER__HOST", "0.0.0.0")]
    let s : Section := [("server", .obj [("port", .int 9001), ("host", .str "0.0.0.0")])]
    let t : Section := [("server", .obj [("host", .str "0.0.0.0"), ("port", .int 9001)])]
    (∃ t, ofEnvironment env.reverse = .ok t) ∧ ofEnvironment env = .ok s ∧
      ofEnvironment env.reverse = .ok t ∧ (Json.obj s).same (.obj t) = true := by
  intro env s t
  have hs : ofEnvironment env = .ok s := rfl
  have ht : ofEnvironment env.reverse = .ok t := rfl
  have hdistinct : (env.settings.map Setting.path).Nodup := by decide
  have hvalues : ∀ a ∈ env.settings,
      a.raw.countP Text.isDecimalDigit ≤ Numeral.digitLimit ∧
        ∀ c ∈ a.raw, c.isSeparator = false := by decide
  have horder := ofEnvironment_order hdistinct hvalues env.reverse_perm.symm
  exact ⟨horder.1.mpr (by decide), hs, ht, (horder.2 s t hs ht).2⟩

/-- A variable that names a section comes before one for a key inside it, and there are no
settings; in the other order there are. -/
theorem ofEnvironment_value_before_section :
    let env : Environment := [("LOGQUERY_SERVER", "x"), ("LOGQUERY_SERVER__PORT", "1")]
    (env.settings.map Setting.path).Nodup ∧
      (∀ a ∈ env.settings, a.raw.countP Text.isDecimalDigit ≤ Numeral.digitLimit) ∧
      ofEnvironment env = .error .unsuitable ∧
      ofEnvironment env.reverse = .ok [("server", .str "x")] := by
  refine ⟨by decide, by decide, rfl, rfl⟩

end Section

end RecordLog
