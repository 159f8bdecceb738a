import Mathlib.Data.List.Forall2
import RecordLog.Proofs.Json.Positions
import RecordLog.Proofs.Settings.References

/-!
# Expanded values

What one value is after the references in it were replaced (`Json.Expands`): the same arrays,
objects, keys and other leaves, with every text divided by one scan and the value of each part in
its place.  Since a text is divided in one way only, this is one value, and it is the value that
is computed (`expands_iff`).

The scan does not look at the environment, and what is put in is not part of the text that is
scanned.  So a value that looks like a reference stays as it is.
-/

namespace RecordLog

namespace Json

open Reference

/-- The second value is the first one with its references replaced. -/
inductive Expands (env : Environment) : Json → Json → Prop
  | text {t : Text} {ps : List Piece} (h : Scan t ps) :
      Expands env (str t) (str (ps.flatMap (Piece.output env)))
  | items {vs ws : List Json} (h : List.Forall₂ (Expands env) vs ws) :
      Expands env (arr vs) (arr ws)
  | members {ms ns : Members} (hkeys : ns.keys = ms.keys)
      (hvalues : List.Forall₂ (Expands env) (ms.map Prod.snd) (ns.map Prod.snd)) :
      Expands env (obj ms) (obj ns)
  | leaf {v : Json} (hleaf : v.isLeaf) (htext : ∀ t, v ≠ str t) : Expands env v v

variable {env : Environment} {v w : Json}

/-- Expansion leaves the keys as they are. -/
theorem keys_expandedMembers (env : Environment) (members : Members) :
    Members.keys (expandedMembers env members) = Members.keys members := by
  induction members with
  | nil => rfl
  | cons kv members ih => exact congrArg (kv.1 :: ·) ih

/-- The values of members are expanded as items are. -/
theorem values_expandedMembers (env : Environment) (members : Members) :
    (expandedMembers env members).map Prod.snd = expandedItems env (members.map Prod.snd) := by
  induction members with
  | nil => rfl
  | cons kv members ih => exact congrArg (kv.2.expanded env :: ·) ih

mutual

/-- A value expands to what the program makes of it. -/
theorem expands_expanded (env : Environment) : ∀ v : Json, Expands env v (v.expanded env)
  | null => .leaf rfl nofun
  | bool _ => .leaf rfl nofun
  | int _ => .leaf rfl nofun
  | float _ => .leaf rfl nofun
  | str t => by
      obtain ⟨ps, hscan⟩ := exists_scan t
      rw [expanded, hscan.expanded_eq env]
      exact .text hscan
  | arr vs => .items (forall₂_expandedItems env vs)
  | obj ms => .members (keys_expandedMembers env ms) (forall₂_expandedMembers env ms)

theorem forall₂_expandedItems (env : Environment) :
    ∀ vs : List Json, List.Forall₂ (Expands env) vs (expandedItems env vs)
  | [] => .nil
  | v :: vs => .cons (expands_expanded env v) (forall₂_expandedItems env vs)

theorem forall₂_expandedMembers (env : Environment) : ∀ ms : Members,
    List.Forall₂ (Expands env) (ms.map Prod.snd) ((expandedMembers env ms).map Prod.snd)
  | [] => .nil
  | (_, v) :: ms => .cons (expands_expanded env v) (forall₂_expandedMembers env ms)

end

/-- A leaf that is no text is left as it is. -/
theorem expanded_of_isLeaf (hleaf : v.isLeaf) (htext : ∀ t, v ≠ str t) : v.expanded env = v := by
  cases v with
  | null | bool | int | float => rfl
  | str t => exact absurd rfl (htext t)
  | arr | obj => cases hleaf

/-- Members are known by their keys and their expanded values. -/
theorem eq_expandedMembers {ms ns : Members} (hkeys : ns.keys = ms.keys)
    (hvalues : ns.map Prod.snd = expandedItems env (ms.map Prod.snd)) :
    ns = expandedMembers env ms := by
  rw [List.zip_of_prod hkeys hvalues, ← keys_expandedMembers env ms,
    ← values_expandedMembers env ms]
  exact (List.zip_of_prod rfl rfl).symm

/-- Values that expand to others expand to those that are computed.  The second motive is the
same for lists of values. -/
theorem Expands.eq_expanded (h : Expands env v w) : w = v.expanded env := by
  refine @Expands.rec env (fun v w _ => w = v.expanded env)
    (fun vs ws _ => ws = expandedItems env vs) ?text ?items ?members ?leaf ?nil ?cons v w h
  case text =>
    intro t ps hscan
    rw [expanded, hscan.expanded_eq env]
  case items =>
    intro vs ws _ ih
    rw [expanded, ih]
  case members =>
    intro ms ns hkeys _ ih
    rw [expanded, eq_expandedMembers hkeys ih]
  case leaf =>
    intro v hleaf htext
    exact (expanded_of_isLeaf hleaf htext).symm
  case nil => rfl
  case cons =>
    intro v w vs ws _ _ ih ihlater
    rw [expandedItems, ← ih, ← ihlater]

/-- A value expands to one value only, which is what the program makes of it. -/
theorem expands_iff : Expands env v w ↔ w = v.expanded env :=
  ⟨Expands.eq_expanded, fun h => h ▸ expands_expanded env v⟩

/-- **Replacing references is one scan from left to right.**

Expanding a value keeps its arrays, its objects with their keys, and its leaves that are no
texts.  A text is divided in one way into references and code points, and all of them make it up;
what comes out of it is the value of each part in turn.  Where no reference is spelled a text
stays as it is.  The references are the matches of a pattern, replaced from left to right. -/
theorem expanded_in_one_scan :
    (∀ (env : Environment) (v w : Json), Expands env v w ↔ w = v.expanded env) ∧
    (∀ t : Text, ∃ ps, Scan t ps ∧ (∀ qs, Scan t qs → qs = ps) ∧ ps.flatMap Piece.source = t ∧
      ∀ env : Environment, t.expanded env = ps.flatMap (Piece.output env)) ∧
    (∀ (env : Environment) (t : Text), (∀ r text, Spells r text → ¬ text <:+: t) →
      t.expanded env = t) ∧
    ∀ (env : Environment) (t : Text),
      t.expanded env = pattern.substitute pattern_advances (replacement env) t := by
  refine ⟨fun _ _ _ => expands_iff, fun t => ?_, fun env _ h => expanded_of_no_spelling env h,
    expanded_eq_substitute⟩
  obtain ⟨ps, hscan⟩ := exists_scan t
  exact ⟨ps, hscan, fun qs => hscan.unique, hscan.source_eq, hscan.expanded_eq⟩

/-- A value that looks like a reference stays as it is, and so does a reference without an
end. -/
theorem expanded_in_one_scan_once :
    let env : Environment := [("A", "$\x7bB\x7d"), ("B", "b")]
    Expands env (.arr [.str "$\x7bA\x7d$\x7bC|c\x7d", .int 1])
      (.arr [.str "$\x7bB\x7dc", .int 1]) ∧
    Text.expanded env "$\x7bB" = ("$\x7bB" : Text) := by
  intro env
  have hA : read? "$\x7bA\x7d$\x7bC|c\x7d" =
      some (Reference.mk "A" [], Text.ofString "$\x7bC|c\x7d") := by decide
  have hC : read? "$\x7bC|c\x7d" = some (Reference.mk "C" "c", []) := by decide
  constructor
  · refine (expanded_in_one_scan.1 env _ _).mpr ?_
    have htext : Text.expanded env "$\x7bA\x7d$\x7bC|c\x7d" = ("$\x7bB\x7dc" : Text) := by
      rw [Text.expanded_of_read? env hA, Text.expanded_of_read? env hC, Text.expanded_nil]
      decide
    rw [← htext]
    rfl
  · refine expanded_in_one_scan.2.2.1 env _ fun r text hspells hinside => ?_
    exact absurd (hinside.subset hspells.closing_mem) (by decide)

end Json

end RecordLog
