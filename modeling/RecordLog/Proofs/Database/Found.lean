import Mathlib.Data.List.Nodup
import RecordLog.Proofs.Database.Growth
import RecordLog.Proofs.Json.Readable
import RecordLog.Proofs.Query.Arrangement

/-!
# What finds find

A find makes no record up.  The log gives what its entries hold, a query selects from that,
sorting rearranges it, and a projection leaves members out.  So every record that is found
is an object that some document gives (`find_readable`).
-/

namespace RecordLog

/-! ### Selection -/

namespace Combination

/-- Combining a clause's result with what was kept adds no record of its own. -/
theorem mem_apply {how : Combination} {acc : Option (List Record)} {result : List Record}
    {r : Record} (h : r ∈ how.apply acc result) : r ∈ acc.getD [] ∨ r ∈ result := by
  cases how with
  | all =>
      cases acc with
      | none => exact Or.inr h
      | some rs => exact Or.inl (List.mem_of_mem_filter h)
  | any =>
      have hunion : r ∈ result.foldl Record.addNew (acc.getD []) := h
      rw [foldl_addNew] at hunion
      rcases List.mem_append.mp hunion with h | h
      · exact Or.inl h
      · exact Or.inr ((keepFirst_sublist _ _).subset (List.mem_of_mem_filter h))

/-- Folding the clauses over records keeps to those records. -/
theorem mem_accumulate {how : Combination} {rs : List Record} {acc : Option (List Record)}
    {cs : List Clause} (hacc : ∀ r ∈ acc.getD [], r ∈ rs) :
    ∀ r ∈ (how.accumulate rs acc cs).getD [], r ∈ rs := by
  induction cs generalizing acc with
  | nil => exact hacc
  | cons c cs ih =>
      apply ih
      intro r hr
      rcases mem_apply hr with h | h
      · exact hacc r h
      · exact List.mem_of_mem_filter h

/-- A selected record is one of the records selected from. -/
theorem mem_select {how : Combination} {rs found : List Record} {cs : List Clause}
    (h : how.select rs cs = .ok found) : ∀ r ∈ found, r ∈ rs := by
  rw [select_eq, Clause.outcome] at h
  split at h
  · rw [← Except.ok.inj h]
    exact mem_accumulate (List.forall_mem_nil _)
  · cases h

end Combination

/-- A query selects from the records that it is asked over. -/
theorem Query.mem_select {q : Query} {textFields : List Text} {rs found : List Record}
    (h : q.select textFields rs = .ok found) : ∀ r ∈ found, r ∈ rs := by
  cases q with
  | everything =>
      obtain rfl := Except.ok.inj h
      exact fun _ hr => hr
  | words phrase =>
      obtain rfl := Except.ok.inj h
      exact fun _ hr => List.mem_of_mem_filter hr
  | combined how clauses => exact Combination.mem_select h
  | fields clauses => exact Combination.mem_select h

/-! ### Sorting and projection -/

namespace Record

/-- Sorting by keys rearranges the records. -/
theorem sortByKeys_perm (keys : List SortKey) (rs : List Record) :
    (sortByKeys keys rs).Perm rs := by
  have hperm := (perm_passes keys rs.zipIdx).map Prod.fst
  rwa [map_passes, List.zipIdx_map_fst] at hperm

/-- Without its repetitions, a list of fields has none. -/
theorem nodup_eraseDups (fields : List Text) : fields.eraseDups.Nodup := by
  match fields with
  | [] => exact List.nodup_nil
  | f :: later =>
      rw [List.eraseDups_cons, List.nodup_cons, List.mem_eraseDups]
      refine ⟨?_, nodup_eraseDups _⟩
      intro hmem
      simpa using List.of_mem_filter hmem
termination_by fields.length
decreasing_by exact Nat.lt_succ_of_le (List.length_filter_le _ later)

/-- A projection of an object is one. -/
theorem readable_project {r : Record} (h : Json.Readable (.obj r)) (fields : List Text) :
    Json.Readable (.obj (project r fields)) := by
  obtain ⟨_, hvalues⟩ := h
  rw [Json.readableMembers_iff] at hvalues
  refine ⟨?_, Json.readableMembers_iff.mpr ?_⟩
  · have hkeys : Members.keys (project r fields) =
        fields.eraseDups.filterMap fun f => (Members.get? r f).map fun _ => f := by
      rw [Members.keys, project, List.map_filterMap]
      congr 1
      funext f
      rw [Option.map_map]
      rfl
    rw [hkeys]
    refine (nodup_eraseDups fields).filterMap ?_
    intro f g k hf hg
    obtain ⟨_, _, rfl⟩ := Option.map_eq_some_iff.mp hf
    obtain ⟨_, _, rfl⟩ := Option.map_eq_some_iff.mp hg
    rfl
  · intro kv hkv
    obtain ⟨f, _, hf⟩ := List.mem_filterMap.mp hkv
    obtain ⟨v, hv, rfl⟩ := Option.map_eq_some_iff.mp hf
    exact hvalues (f, v) (Members.mem_of_get? hv)

end Record

/-- Records stay readable when they are sorted and projected. -/
theorem QueryOptions.arrange_readable {options : QueryOptions} {rs found : List Record}
    (hrs : ∀ r ∈ rs, Json.Readable (.obj r)) (h : options.arrange rs = .ok found) :
    ∀ r ∈ found, Json.Readable (.obj r) := by
  rw [arrange_eq] at h
  obtain rfl := Except.ok.inj h
  have hsorted : ∀ r ∈ Record.sortByKeys options.sort rs, Json.Readable (.obj r) :=
    fun r hr => hrs r ((Record.sortByKeys_perm options.sort rs).mem_iff.mp hr)
  unfold projected
  split
  · exact hsorted
  · exact List.forall_mem_map.mpr fun r hr => Record.readable_project (hsorted r hr) _

/-! ### Logs -/

/-- Every record of a loaded log is a value that text can give. -/
theorem Log.load_readable {path : Path} {strictIds : Bool} {content : Octets}
    {records : List Record} (h : load path strictIds content = .ok records) :
    ∀ r ∈ records, Json.Readable (.obj r) := by
  intro r hr
  obtain ⟨_, _, _, hread, _⟩ := exists_holds_of_load h r hr
  exact Json.read_readable hread

namespace Database

/-- Every record that a database loads is a value that text can give. -/
theorem load_readable {db : Database} {reading : LogReading} {records : List Record}
    (h : db.load reading = .ok records) : ∀ r ∈ records, Json.Readable (.obj r) := by
  unfold load at h
  split at h
  · cases h
  · exact Log.load_readable h

/-- Evaluation, sort and projection keep to values that text can give. -/
theorem answer_readable {db : Database} {document : Json} {options : QueryOptions}
    {records found : List Record} (hrecords : ∀ r ∈ records, Json.Readable (.obj r))
    (h : db.answer document options records = .ok found) :
    ∀ r ∈ found, Json.Readable (.obj r) := by
  unfold answer at h
  split at h
  · rw [← Except.ok.inj h]
    exact List.forall_mem_nil _
  · split at h
    · cases h
    · split at h
      · cases h
      · next selected hselect =>
          have hselected := Query.mem_select hselect
          exact QueryOptions.arrange_readable (fun r hr => hrecords r (hselected r hr)) h

/-- **What is found is readable.** -/
theorem find_readable {db : Database} {document options : Json} {reading : LogReading}
    {found : List Record} (h : db.find document options reading = .ok found) :
    ∀ r ∈ found, Json.Readable (.obj r) := by
  unfold find at h
  split at h
  · cases h
  · unfold findWith at h
    split at h
    · cases h
    · next hload => exact answer_readable (load_readable hload) h

end Database

end RecordLog
