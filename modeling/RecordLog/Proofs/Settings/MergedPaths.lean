import RecordLog.Proofs.Settings.Merging

/-!
# Merging is exact

`merge_path_by_path` says what merged settings hold at every path, read off from the three cases
of `mergedAt`: plain values and sections of the upper layer, what the lower layer has elsewhere,
and nothing else.  A null is no value where two sections are merged, but it is kept in a section
that only one layer has.

Merging the same layer once more changes nothing.  That is an induction over values, whose
claim has to speak of any value below (`Settles`): a section of the upper layer lies over a
section, or over something else that it replaces, and the second time over itself.
-/

namespace RecordLog.Section

variable {base upper : Section} {key : Text} {path : List Text}

/-! ### What stands at a path -/

/-- A section of the upper layer is a section of the merged settings. -/
theorem HasSection.merge (h : Json.WellFormed (.obj upper)) (base : Section)
    (hsection : upper.HasSection path) : (merge base upper).HasSection path := by
  cases mergedAt h base path with
  | together _ _ hmerged => exact hmerged
  | upper _ _ _ hmerged => exact hsection.imp fun t ht => hmerged.trans ht
  | base hp hnull _ _ => exact absurd hnull (hsection.of_prefix hp).find_ne_null

/-- Nothing stands in merged layers where nothing stands in either. -/
theorem at?_merge_eq_none (h : Json.WellFormed (.obj upper))
    (hbase : (Json.obj base).at? path = none) (hupper : (Json.obj upper).at? path = none) :
    (Json.obj (merge base upper)).at? path = none := by
  cases mergedAt h base path with
  | together hsection _ _ =>
      obtain ⟨t, ht⟩ := hsection
      cases hbase.symm.trans ht
  | upper _ _ _ hmerged => exact hmerged.trans hupper
  | base _ _ _ hmerged => exact hmerged.trans hbase

/-- A null that only the upper layer has stays in a section that only this layer has. -/
theorem at?_merge_eq_null_iff (h : Json.WellFormed (.obj upper))
    (hupper : (Json.obj upper).at? (path ++ [key]) = some .null)
    (hbase : (Json.obj base).at? (path ++ [key]) = none) :
    (Json.obj (merge base upper)).at? (path ++ [key]) = some .null ↔ ¬ base.HasSection path := by
  cases mergedAt h base (path ++ [key]) with
  | together hsection _ _ =>
      obtain ⟨t, ht⟩ := hsection
      cases hbase.symm.trans ht
  | @upper p hp hvalue hpart hmerged =>
      have hne : p ≠ path ++ [key] := by
        rintro rfl
        exact hvalue (by rw [find_eq, hupper, Option.getD_some])
      have hpath : p <+: path := (List.prefix_concat_iff.mp hp).resolve_left hne
      refine iff_of_true (hmerged.trans hupper) fun hsection => ?_
      exact hpart ⟨hsection.of_prefix hpath, hasSection_of_at? hupper hp hne⟩
  | @base p hp hnull hbefore hmerged =>
      have heq : p = path ++ [key] := by
        by_contra hne
        exact (hasSection_of_at? hupper hp hne).find_ne_null hnull
      have hsection : base.HasSection path := by
        refine hbefore path (heq ▸ List.prefix_append path [key]) ?_
        rw [heq]
        exact fun hself => List.cons_ne_nil key [] (List.self_eq_append_right.mp hself)
      refine iff_of_false ?_ (not_not_intro hsection)
      rw [hmerged, hbase]
      exact nofun

/-! ### Merging once more -/

/-- Merging changes nothing if under every key it gives what was there. -/
theorem merge_eq_self
    (h : ∀ kv ∈ upper, kv.2 = .null ∨
      ∃ v, Members.get? base kv.1 = some v ∧ mergeValue (some v) kv.2 = v) :
    merge base upper = base := by
  induction upper with
  | nil => exact copy_eq base
  | cons kv later ih =>
      obtain ⟨k, v⟩ := kv
      obtain ⟨hhead, hlater⟩ := List.forall_mem_cons.mp h
      by_cases hnull : v = .null
      · rw [hnull, merge_cons_null, ih hlater]
      · obtain ⟨w, hw, hsame⟩ := hhead.resolve_left hnull
        rw [merge_cons_of_ne_null base k hnull, hw, hsame, Members.set_of_get? hw, ih hlater]

/-- A value over what it was laid over gives the same once more. -/
def Settles (v : Json) : Prop :=
  ∀ below, mergeValue (some (mergeValue below v)) v = mergeValue below v

/-- A value that is laid over nothing stays what it is. -/
theorem mergeValue_none (v : Json) : mergeValue none v = v := by
  cases v with
  | obj upper => exact congrArg Json.obj (copy_eq upper)
  | _ => rfl

/-- A value that settles is itself over itself. -/
theorem Settles.over_self {v : Json} (h : Settles v) : mergeValue (some v) v = v := by
  have hnone := h none
  rwa [mergeValue_none] at hnone

/-- A layer over itself is itself, if its values settle. -/
theorem merge_self_of_settles (hkeys : (Members.keys upper).Nodup)
    (h : ∀ kv ∈ upper, Settles kv.2) : merge upper upper = upper :=
  merge_eq_self fun kv hkv => .inr ⟨kv.2, Members.get?_of_mem hkeys hkv, (h kv hkv).over_self⟩

/-- Merging a layer once more changes nothing, if its values settle. -/
theorem merge_merge_of_settles (hkeys : (Members.keys upper).Nodup)
    (h : ∀ kv ∈ upper, Settles kv.2) (base : Section) :
    merge (merge base upper) upper = merge base upper := by
  refine merge_eq_self fun kv hkv => ?_
  by_cases hnull : kv.2 = .null
  · exact .inl hnull
  · refine .inr ⟨mergeValue (Members.get? base kv.1) kv.2, ?_, h kv hkv _⟩
    rw [get?_merge hkeys, Members.get?_of_mem hkeys hkv, laid_of_ne_null _ hnull]

mutual

/-- Laying a well-formed value over anything once more changes nothing. -/
theorem settles_of_wellFormed : ∀ {v : Json}, v.WellFormed → Settles v
  | .null, _ => fun _ => rfl
  | .bool _, _ => fun _ => rfl
  | .int _, _ => fun _ => rfl
  | .float _, _ => fun _ => rfl
  | .str _, _ => fun _ => rfl
  | .arr _, _ => fun _ => rfl
  | .obj upper, h => by
      intro below
      have hmembers := settles_of_wellFormedMembers h.2
      rcases mergeValue_cases below (.obj upper) with ⟨base, _, rfl, hobj, hmerge⟩ | ⟨hmerge, _⟩
      · obtain rfl := Json.obj.inj hobj
        rw [hmerge]
        exact congrArg Json.obj (merge_merge_of_settles h.1 hmembers base)
      · rw [hmerge]
        exact congrArg Json.obj (merge_self_of_settles h.1 hmembers)

theorem settles_of_wellFormedMembers : ∀ {members : Members},
    Json.WellFormedMembers members → ∀ kv ∈ members, Settles kv.2
  | [], _ => nofun
  | _ :: _, h =>
      List.forall_mem_cons.mpr ⟨settles_of_wellFormed h.1, settles_of_wellFormedMembers h.2⟩

end

/-- **Merging is exact at every path.**  A plain value of the upper layer stands where it stood.
Where the upper layer has null or nothing, and nothing plain on the way, everything of the lower
layer stands where it stood.  Sections of the upper layer stay sections, and its nulls stay in
sections that only this layer has.  There is nothing else.  Merging with no layer, with the same
layer, or with the upper layer once more changes nothing. -/
theorem merge_path_by_path {base upper : Section} (hbase : Json.WellFormed (.obj base))
    (hupper : Json.WellFormed (.obj upper)) :
    (∀ path, (upper.find path).isPlain = true →
      (Json.obj (merge base upper)).at? path = some (upper.find path)) ∧
    (∀ path v, upper.find path = .null →
      (∀ p, p <+: path → p ≠ path → (upper.find p).isPlain = false) →
      (Json.obj base).at? path = some v →
        (Json.obj (merge base upper)).at? path = some v) ∧
    (∀ path, upper.HasSection path → (merge base upper).HasSection path) ∧
    (∀ path key, (Json.obj upper).at? (path ++ [key]) = some .null →
      (Json.obj base).at? (path ++ [key]) = none →
        ((Json.obj (merge base upper)).at? (path ++ [key]) = some .null ↔
          ¬ base.HasSection path)) ∧
    (∀ path, (Json.obj base).at? path = none → (Json.obj upper).at? path = none →
      (Json.obj (merge base upper)).at? path = none) ∧
    mergeDocument base .null = .ok base ∧ merge base base = base ∧
      merge (merge base upper) upper = merge base upper := by
  refine ⟨?_, fun path v => at?_merge_of_null hupper, fun path => HasSection.merge hupper base,
    fun path key => at?_merge_eq_null_iff hupper, fun path => at?_merge_eq_none hupper,
    congrArg Except.ok (copy_eq base), ?_, ?_⟩
  · intro path hplain
    exact at?_merge_of_isPlain hupper base hplain ((find_eq_iff hplain).mp rfl)
  · exact merge_self_of_settles hbase.1 (settles_of_wellFormedMembers hbase.2)
  · exact merge_merge_of_settles hupper.1 (settles_of_wellFormedMembers hupper.2) base

/-- Nulls of the upper layer: over a text, over a section, and in a section of its own. -/
theorem merge_path_by_path_nulls :
    let base : Section := [("server", .obj [("host", .str "h")]),
      ("log", .obj [("level", .str "INFO")])]
    let upper : Section := [("server", .obj [("host", .null), ("port", .int 1)]),
      ("log", .null), ("query", .obj [("strict_ids", .null)])]
    Json.WellFormed (.obj base) ∧ Json.WellFormed (.obj upper) ∧
      (Json.obj (merge base upper)).at? ["server", "port"] = some (.int 1) ∧
      (Json.obj (merge base upper)).at? ["server", "host"] = some (.str "h") ∧
      (Json.obj (merge base upper)).at? ["log", "level"] = some (.str "INFO") ∧
      (Json.obj (merge base upper)).at? ["query", "strict_ids"] = some .null ∧
      merge (merge base upper) upper = merge base upper := by
  intro base upper
  have hbase : Json.WellFormed (.obj base) :=
    ⟨by decide, ⟨by decide, trivial, trivial⟩, ⟨by decide, trivial, trivial⟩, trivial⟩
  have hupper : Json.WellFormed (.obj upper) :=
    ⟨by decide, ⟨by decide, trivial, trivial, trivial⟩, trivial, ⟨by decide, trivial, trivial⟩,
      trivial⟩
  obtain ⟨hplain, hnull, _, hinside, _, _, _, hagain⟩ := merge_path_by_path hbase hupper
  have hclear : ∀ path ∈ [[Text.ofString "server", Text.ofString "host"], ["log", "level"]],
      ∀ p ∈ path.inits, (upper.find p).isPlain = false := by decide
  refine ⟨hbase, hupper, hplain ["server", "port"] rfl, ?_, ?_, ?_, hagain⟩
  · exact hnull ["server", "host"] _ rfl
      (fun p hp _ => hclear _ (by decide) p ((List.mem_inits p _).mpr hp)) rfl
  · exact hnull ["log", "level"] _ rfl
      (fun p hp _ => hclear _ (by decide) p ((List.mem_inits p _).mpr hp)) rfl
  · refine (hinside ["query"] "strict_ids" rfl rfl).mpr ?_
    rintro ⟨t, ht⟩
    cases ht

end RecordLog.Section
