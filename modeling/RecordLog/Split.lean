/-!
# Splitting and joining

A list is split at every occurrence of one separator: log bytes at line feeds,
texts at spaces, settings paths at dots.  Splitting always leaves at least one
part, and an empty part stands wherever two separators meet or one comes first
or last.

No part of a split holds the separator (`notMem_of_mem_splitOn`), and parts that were joined are
found again, as long as none of them holds it (`splitOn_joined`).
-/

namespace RecordLog

variable {α : Type}

/-- Puts an element in front of the first part. -/
def consFirst (x : α) : List (List α) → List (List α)
  | [] => [[x]]
  | p :: ps => (x :: p) :: ps

/-- The parts of a list between the occurrences of a separator. -/
def splitOn [DecidableEq α] (sep : α) (xs : List α) : List (List α) :=
  xs.foldr (fun x parts => if x = sep then [] :: parts else consFirst x parts) [[]]

/-- The parts one after the other, with the separator between two of them. -/
def joined (sep : List α) : List (List α) → List α
  | [] => []
  | [p] => p
  | p :: q :: ps => p ++ sep ++ joined sep (q :: ps)

/-- Nothing to split is one empty part. -/
theorem splitOn_nil [DecidableEq α] (sep : α) : splitOn sep [] = [[]] := rfl

/-- A separator opens a new part; any other value goes to the front of the first one. -/
theorem splitOn_cons [DecidableEq α] (sep x : α) (xs : List α) :
    splitOn sep (x :: xs) =
      if x = sep then [] :: splitOn sep xs else consFirst x (splitOn sep xs) := rfl

/-- A split always has a first part. -/
theorem splitOn_ne_nil [DecidableEq α] (sep : α) (xs : List α) : splitOn sep xs ≠ [] := by
  cases xs with
  | nil => simp [splitOn_nil]
  | cons x xs =>
    rw [splitOn_cons]
    split
    · simp
    · cases splitOn sep xs <;> simp [consFirst]

/-- Only the first part grows, whatever parts follow it. -/
theorem consFirst_append (x : α) {ps : List (List α)} (h : ps ≠ []) (qs : List (List α)) :
    consFirst x (ps ++ qs) = consFirst x ps ++ qs := by
  match ps, h with
  | p :: ps, _ => rfl

/-- No part of a split holds the separator. -/
theorem notMem_of_mem_splitOn [DecidableEq α] {sep : α} {xs p : List α}
    (h : p ∈ splitOn sep xs) :
    sep ∉ p := by
  induction xs generalizing p with
  | nil => simp [splitOn_nil] at h; simp [h]
  | cons x xs ih =>
    rw [splitOn_cons] at h
    split at h
    · rcases List.mem_cons.1 h with rfl | h
      · simp
      · exact ih h
    · next hx =>
      cases hs : splitOn sep xs with
      | nil => exact absurd hs (splitOn_ne_nil sep xs)
      | cons q qs =>
        rw [hs] at h ih
        rcases List.mem_cons.1 h with rfl | h
        · have := ih (p := q) (by simp)
          simp [Ne.symm hx, this]
        · exact ih (List.mem_cons_of_mem _ h)

/-- Without a separator there is one part. -/
theorem splitOn_of_notMem [DecidableEq α] {sep : α} {p : List α} (h : sep ∉ p) :
    splitOn sep p = [p] := by
  induction p with
  | nil => rfl
  | cons x p ih =>
    obtain ⟨hx, hp⟩ := not_or.mp (mt List.mem_cons.mpr h)
    rw [splitOn_cons, if_neg (Ne.symm hx), ih hp, consFirst]

/-- A separator divides what is before it from what is after it. -/
theorem splitOn_append_sep [DecidableEq α] (sep : α) (xs ys : List α) :
    splitOn sep (xs ++ sep :: ys) = splitOn sep xs ++ splitOn sep ys := by
  induction xs with
  | nil => rw [List.nil_append, splitOn_cons, if_pos rfl, splitOn_nil, List.singleton_append]
  | cons x xs ih =>
    rw [List.cons_append, splitOn_cons, splitOn_cons, ih]
    split
    · rw [List.cons_append]
    · rw [consFirst_append x (splitOn_ne_nil sep xs)]

/-- Splitting what was joined gives the parts back, if none of them holds the
separator. -/
theorem splitOn_joined [DecidableEq α] {sep : α} {ps : List (List α)} (hne : ps ≠ [])
    (h : ∀ p ∈ ps, sep ∉ p) : splitOn sep (joined [sep] ps) = ps := by
  match ps, hne with
  | [p], _ => exact splitOn_of_notMem (h p List.mem_cons_self)
  | p :: q :: ps, _ =>
    have hp : sep ∉ p := h p List.mem_cons_self
    have ih := splitOn_joined (List.cons_ne_nil q ps) fun r hr => h r (List.mem_cons_of_mem p hr)
    rw [joined, List.append_assoc, List.singleton_append, splitOn_append_sep, ih,
      splitOn_of_notMem hp, List.singleton_append]

end RecordLog
