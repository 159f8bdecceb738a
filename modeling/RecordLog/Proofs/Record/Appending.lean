import Mathlib.Data.List.Forall2
import RecordLog.Proofs.Outcomes
import RecordLog.Proofs.Record.LogLines

/-!
# Logs that are appended to

Entries are read one by one, and nothing but the number of its line connects an entry
to those before it.  The number shows in errors only.  So a log whose lines stand before
others is read as if it stood alone, and what follows is read the same way.

* `readLines_eq_ok_iff` and `readContent_eq_ok_iff` say when a log is read as given
  records, without line numbers: as text, and as octets;
* `parse_append` and `readContent_append` draw the conclusion for two logs with a line
  feed between them.
-/

namespace RecordLog

/-- What is related to two lists, one after the other, is related to the two in turn. -/
theorem forall₂_append_left_iff {α β : Type} {R : α → β → Prop} {xs ys : List α} {zs : List β} :
    List.Forall₂ R (xs ++ ys) zs ↔
      ∃ us vs, List.Forall₂ R xs us ∧ List.Forall₂ R ys vs ∧ zs = us ++ vs := by
  constructor
  · intro h
    refine ⟨zs.take xs.length, zs.drop xs.length, ?_, ?_, (List.take_append_drop _ _).symm⟩
    · have hfront := List.forall₂_take xs.length h
      rwa [List.take_left] at hfront
    · have hback := List.forall₂_drop xs.length h
      rwa [List.drop_left] at hback
  · rintro ⟨us, vs, hxs, hys, rfl⟩
    exact List.rel_append hxs hys

namespace Log

/-! ### Logs as text -/

/-- The payloads of a text, in the order of its lines. -/
def payloads (lines : List Text) : List Text :=
  lines.filterMap payload?

/-- An entry is read as its payload is, whatever its number. -/
theorem readEntry_eq_ok_iff {number : Nat} {payload : Text} {r : Record} :
    readEntry number payload = .ok r ↔ readPayload payload = .ok r := by
  unfold readEntry
  constructor
  · intro h
    split at h
    · next hread =>
        obtain rfl := Except.ok.inj h
        exact hread
    · cases h
    · cases h
  · intro hread
    rw [hread]

/-- Lines are read as records, whatever their numbers, just if their payloads are. -/
theorem readLines_eq_ok_iff {number : Nat} {lines : List Text} {records : List Record} :
    readLines number lines = .ok records ↔
      List.Forall₂ (fun payload r => readPayload payload = .ok r) (payloads lines) records := by
  induction lines generalizing number records with
  | nil =>
      rw [readLines, payloads, List.filterMap_nil, List.forall₂_nil_left_iff, Except.ok.injEq]
      exact eq_comm
  | cons line lines ih =>
      rw [readLines, payloads]
      cases hpayload : payload? line with
      | none =>
          rw [List.filterMap_cons_none hpayload]
          exact ih
      | some payload =>
          rw [List.filterMap_cons_some hpayload, List.forall₂_cons_left_iff]
          simp only
          cases hentry : readEntry number payload with
          | error e =>
              constructor
              · intro h
                cases h
              · rintro ⟨r, _, hread, _⟩
                rw [readEntry_eq_ok_iff.mpr hread] at hentry
                cases hentry
          | ok r =>
              have hread := readEntry_eq_ok_iff.mp hentry
              constructor
              · intro h
                obtain ⟨later, hlater, rfl⟩ := map_eq_ok_iff.mp h
                exact ⟨r, later, hread, ih.mp hlater, rfl⟩
              · rintro ⟨other, later, hother, hlater, rfl⟩
                obtain rfl := Except.ok.inj (hread.symm.trans hother)
                exact map_eq_ok_iff.mpr ⟨later, ih.mpr hlater, rfl⟩

/-- A text that stands before another one keeps its records. -/
theorem parse_append {t u : Text} {rs rs' : List Record} (ht : parse t = .ok rs) :
    parse (t ++ lineFeed :: u) = .ok rs' ↔
      ∃ added, parse u = .ok added ∧ rs' = rs ++ added := by
  simp only [parse, splitOn_append_sep, readLines_eq_ok_iff, payloads, List.filterMap_append,
    forall₂_append_left_iff] at ht ⊢
  constructor
  · rintro ⟨front, added, hfront, hadded, rfl⟩
    have hsame : front = rs := by
      have hreads : readLines 1 _ = .ok front := readLines_eq_ok_iff.mpr hfront
      rw [readLines_eq_ok_iff.mpr ht] at hreads
      exact (Except.ok.inj hreads).symm
    exact ⟨added, hadded, by rw [hsame]⟩
  · rintro ⟨added, hadded, rfl⟩
    exact ⟨rs, added, ht, hadded, rfl⟩

/-! ### Logs as octets -/

/-- A log is read as records just if its entries hold them. -/
theorem readContent_eq_ok_iff {content : Octets} {records : List Record} :
    readContent content = .ok records ↔
      List.Forall₂ Holds (entries (rawLines content)) records := by
  refine ⟨fun hread => ?_, readContent_eq_ok⟩
  rcases readContent_cases content with ⟨others, hothers, hread'⟩ | ⟨line, n, hline⟩
  · obtain rfl := Except.ok.inj (hread'.symm.trans hread)
    exact hothers
  · rcases readContent_stopsAt hline with ⟨_, hstop⟩ | ⟨_, reason, hstop⟩
    · rw [hread] at hstop
      cases hstop
    · rw [hread] at hstop
      cases hstop

/-- A log that stands before another one keeps its records. -/
theorem readContent_append {c d : Octets} {rs rs' : List Record} (hc : readContent c = .ok rs) :
    readContent (c ++ lineFeedOctet :: d) = .ok rs' ↔
      ∃ added, readContent d = .ok added ∧ rs' = rs ++ added := by
  have hlines : rawLines (c ++ lineFeedOctet :: d) = rawLines c ++ rawLines d :=
    splitOn_append_sep lineFeedOctet c d
  simp only [readContent_eq_ok_iff, hlines, entries, List.filter_append,
    forall₂_append_left_iff] at hc ⊢
  constructor
  · rintro ⟨front, added, hfront, hadded, rfl⟩
    have hsame : front = rs := by
      have hreads := readContent_eq_ok_iff.mpr hfront
      rw [readContent_eq_ok_iff.mpr hc] at hreads
      exact (Except.ok.inj hreads).symm
    exact ⟨added, hadded, by rw [hsame]⟩
  · rintro ⟨added, hadded, rfl⟩
    exact ⟨rs, added, hc, hadded, rfl⟩

/-- Without the check for identities, a load gives records just if the log is read as
them. -/
theorem load_eq_ok_iff {path : Path} {content : Octets} {records : List Record} :
    load path false content = .ok records ↔ readContent content = .ok records := by
  rw [load]
  cases readContent content with
  | error failure => exact ⟨nofun, nofun⟩
  | ok others => exact Iff.rfl

/-- A line holds each record that is loaded. -/
theorem exists_holds_of_load {path : Path} {strictIds : Bool} {content : Octets}
    {records : List Record} (h : load path strictIds content = .ok records) :
    ∀ r ∈ records, ∃ line, Holds line r := by
  have hread : readContent content = .ok records := by
    unfold load at h
    split at h
    · cases h
    · next others hread =>
        rw [hread]
        split at h
        · split at h
          · exact h
          · cases h
        · exact h
  have hholds := readContent_eq_ok_iff.mp hread
  clear h hread
  generalize entries (rawLines content) = lines at hholds
  induction hholds with
  | nil => exact List.forall_mem_nil _
  | cons hline _ ih => exact List.forall_mem_cons.mpr ⟨⟨_, hline⟩, ih⟩

end Log

end RecordLog
