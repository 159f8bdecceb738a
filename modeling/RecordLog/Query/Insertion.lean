/-!
# Stable sorting

Sorting starts from the run at the front of the list that is in order already, or
strictly in the opposite order and then reversed, and puts the other elements into
it one by one.  The place of an element is found by halving, and lies after all
elements that it does not come before.

Comparisons are made in a monad, since a comparison may have no answer.  The plain
sort `sortBy` is the one in which every comparison has an answer; `sortWith_pure`
says that sorting in any monad gives the same if all comparisons are answered.

The result depends on the order of comparisons only if the relation is no order;
`sortBy_perm` says that nothing is lost or made up in any case.
-/

namespace RecordLog.Sorting

variable {m : Type → Type} [Monad m] {α : Type}

/-- The elements at the front, from `x` on, of which none comes before the one in
front of it, and the other elements. -/
def risingRun (before : α → α → m Bool) : α → List α → m (List α × List α)
  | x, [] => pure ([x], [])
  | x, y :: ys => do
    if ← before y x then pure ([x], y :: ys)
    else
      let (run, rest) ← risingRun before y ys
      pure (x :: run, rest)

/-- The elements at the front, from `x` on, of which each comes before the one in
front of it, in reverse on top of `acc`, and the other elements. -/
def fallingRun (before : α → α → m Bool) (acc : List α) : α → List α → m (List α × List α)
  | x, [] => pure (x :: acc, [])
  | x, y :: ys => do
    if ← before y x then fallingRun before (x :: acc) y ys else pure (x :: acc, y :: ys)

/-- The run at the front of a list, in order, and the other elements. -/
def firstRun (before : α → α → m Bool) : List α → m (List α × List α)
  | [] => pure ([], [])
  | [x] => pure ([x], [])
  | x :: y :: ys => do
    if ← before y x then fallingRun before [] x (y :: ys) else risingRun before x (y :: ys)

/-- Puts an element into a list, at the place found by halving.  The fuel is the
length of the list. -/
def place (before : α → α → m Bool) (x : α) : (fuel : Nat) → List α → m (List α)
  | 0, ys => pure (x :: ys)
  | fuel + 1, ys =>
    match ys.drop (ys.length / 2) with
    | [] => pure (x :: ys)
    | y :: later => do
      let front := ys.take (ys.length / 2)
      if ← before x y then return (← place before x fuel front) ++ y :: later
      else return front ++ y :: (← place before x fuel later)

/-- Sorts a list by comparisons in a monad. -/
def sortWith (before : α → α → m Bool) (xs : List α) : m (List α) := do
  let (run, rest) ← firstRun before xs
  rest.foldlM (fun sorted x => place before x sorted.length sorted) run

/-- Sorts a list. -/
def sortBy (before : α → α → Bool) (xs : List α) : List α :=
  Id.run (sortWith (m := Id) before xs)

/-! ### The plain sort, step by step -/

section Plain

variable (before : α → α → Bool)

/-- A rising run goes on while the next element does not come before the last one. -/
theorem risingRun_cons (x y : α) (ys : List α) :
    (risingRun (m := Id) before x (y :: ys)).run =
      if before y x then ([x], y :: ys)
      else (x :: (risingRun (m := Id) before y ys).run.1,
        (risingRun (m := Id) before y ys).run.2) :=
  rfl

/-- A falling run goes on while the next element comes before the last one, and is gathered in
reverse. -/
theorem fallingRun_cons (acc : List α) (x y : α) (ys : List α) :
    (fallingRun (m := Id) before acc x (y :: ys)).run =
      if before y x then (fallingRun (m := Id) before (x :: acc) y ys).run
      else (x :: acc, y :: ys) :=
  rfl

/-- The first two elements fix the direction of the first run. -/
theorem firstRun_cons (x y : α) (ys : List α) :
    (firstRun (m := Id) before (x :: y :: ys)).run =
      if before y x then (fallingRun (m := Id) before [] x (y :: ys)).run
      else (risingRun (m := Id) before x (y :: ys)).run :=
  rfl

/-- With an empty later half there is nothing to compare with. -/
theorem place_of_drop_nil (x : α) (fuel : Nat) {ys : List α}
    (h : ys.drop (ys.length / 2) = []) :
    (place (m := Id) before x (fuel + 1) ys).run = x :: ys := by
  rw [place, h]
  rfl

/-- One comparison with the element in the middle says which half takes the new one. -/
theorem place_of_drop_cons (x : α) (fuel : Nat) {ys later : List α} {y : α}
    (h : ys.drop (ys.length / 2) = y :: later) :
    (place (m := Id) before x (fuel + 1) ys).run =
      if before x y then
        (place (m := Id) before x fuel (ys.take (ys.length / 2))).run ++ y :: later
      else ys.take (ys.length / 2) ++ y :: (place (m := Id) before x fuel later).run := by
  rw [place, h]
  rfl

/-- A list is sorted by placing the elements after its first run one after the other. -/
theorem sortBy_eq (xs : List α) :
    sortBy before xs =
      (firstRun (m := Id) before xs).run.2.foldl
        (fun sorted x => (place (m := Id) before x sorted.length sorted).run)
        (firstRun (m := Id) before xs).run.1 := by
  have hfold : ∀ (rest run : List α),
      rest.foldlM (m := Id) (fun sorted x => place (m := Id) before x sorted.length sorted) run =
        rest.foldl (fun sorted x => (place (m := Id) before x sorted.length sorted).run) run := by
    intro rest
    induction rest with
    | nil => intro run; rfl
    | cons x rest ih => intro run; exact ih _
  exact hfold _ _

end Plain

/-! ### Comparisons that are all answered -/

section Answered

variable [LawfulMonad m] (before : α → α → Bool)

theorem risingRun_pure (x : α) (ys : List α) :
    risingRun (m := m) (fun x y => pure (before x y)) x ys =
      pure (risingRun (m := Id) before x ys).run := by
  induction ys generalizing x with
  | nil => rfl
  | cons y ys ih =>
    rw [risingRun_cons, risingRun, pure_bind, ih, pure_bind]
    split <;> rfl

theorem fallingRun_pure (acc : List α) (x : α) (ys : List α) :
    fallingRun (m := m) (fun x y => pure (before x y)) acc x ys =
      pure (fallingRun (m := Id) before acc x ys).run := by
  induction ys generalizing x acc with
  | nil => rfl
  | cons y ys ih =>
    rw [fallingRun_cons, fallingRun, pure_bind, ih]
    split <;> rfl

theorem firstRun_pure (xs : List α) :
    firstRun (m := m) (fun x y => pure (before x y)) xs =
      pure (firstRun (m := Id) before xs).run := by
  match xs with
  | [] => rfl
  | [x] => rfl
  | x :: y :: ys =>
    rw [firstRun_cons, firstRun, pure_bind, fallingRun_pure, risingRun_pure]
    split <;> rfl

/-- A place is found if every comparison is answered. -/
theorem place_pure (x : α) (fuel : Nat) (ys : List α) :
    place (m := m) (fun x y => pure (before x y)) x fuel ys =
      pure (place (m := Id) before x fuel ys).run := by
  induction fuel generalizing ys with
  | zero => rfl
  | succ fuel ih =>
    cases hd : ys.drop (ys.length / 2) with
    | nil => rw [place_of_drop_nil before x fuel hd, place, hd]
    | cons y later =>
      rw [place_of_drop_cons before x fuel hd, place, hd]
      simp only [pure_bind, ih]
      split <;> rfl

/-- Sorting completes if every comparison is answered. -/
theorem sortWith_pure (xs : List α) :
    sortWith (m := m) (fun x y => pure (before x y)) xs = pure (sortBy before xs) := by
  have hfold : ∀ (rest run : List α),
      rest.foldlM (m := m)
          (fun sorted x => place (fun x y => pure (before x y)) x sorted.length sorted) run =
        pure (rest.foldl
          (fun sorted x => (place (m := Id) before x sorted.length sorted).run) run) := by
    intro rest
    induction rest with
    | nil => intro run; rfl
    | cons x rest ih =>
      intro run
      rw [List.foldlM_cons, place_pure, pure_bind]
      exact ih _
  rw [sortBy_eq, sortWith, firstRun_pure, pure_bind]
  exact hfold _ _

end Answered

/-! ### Nothing is lost or made up -/

section Rearranged

variable (before : α → α → Bool)

/-- A rising run and the elements after it are the list itself. -/
theorem risingRun_append (x : α) (ys : List α) :
    (risingRun (m := Id) before x ys).run.1 ++ (risingRun (m := Id) before x ys).run.2 =
      x :: ys := by
  induction ys generalizing x with
  | nil => rfl
  | cons y ys ih =>
    rw [risingRun_cons]
    split
    · rfl
    · simpa using ih y

/-- A falling run and the elements after it are the list, rearranged. -/
theorem fallingRun_perm (acc : List α) (x : α) (ys : List α) :
    ((fallingRun (m := Id) before acc x ys).run.1 ++
      (fallingRun (m := Id) before acc x ys).run.2).Perm (acc ++ x :: ys) := by
  induction ys generalizing x acc with
  | nil =>
    simpa [fallingRun] using (List.perm_append_comm : ([x] ++ acc).Perm (acc ++ [x]))
  | cons y ys ih =>
    rw [fallingRun_cons]
    split
    · refine (ih (x :: acc) y).trans ?_
      simpa using (List.perm_middle : (acc ++ x :: y :: ys).Perm _).symm
    · simpa using (List.perm_middle : (acc ++ x :: y :: ys).Perm _).symm

/-- The first run and the elements after it are the list, rearranged. -/
theorem firstRun_perm (xs : List α) :
    ((firstRun (m := Id) before xs).run.1 ++ (firstRun (m := Id) before xs).run.2).Perm xs := by
  match xs with
  | [] => exact .refl _
  | [x] => exact .refl _
  | x :: y :: ys =>
    rw [firstRun_cons]
    split
    · simpa using fallingRun_perm before [] x (y :: ys)
    · rw [risingRun_append]

/-- Placing an element adds it to the list, and no other. -/
theorem place_perm (x : α) (fuel : Nat) (ys : List α) :
    (place (m := Id) before x fuel ys).run.Perm (x :: ys) := by
  induction fuel generalizing ys with
  | zero => exact .refl _
  | succ fuel ih =>
    cases hd : ys.drop (ys.length / 2) with
    | nil => rw [place_of_drop_nil before x fuel hd]
    | cons y later =>
      rw [place_of_drop_cons before x fuel hd]
      have hys : ys = ys.take (ys.length / 2) ++ y :: later := by
        rw [← hd, List.take_append_drop]
      generalize ys.take (ys.length / 2) = front at hys
      subst hys
      split
      · exact (ih front).append_right (y :: later)
      · refine (List.Perm.append_left front ((ih later).cons y)).trans ?_
        refine (List.Perm.append_left front (List.Perm.swap x y later)).trans ?_
        exact List.perm_middle

/-- Sorting only rearranges. -/
theorem sortBy_perm (xs : List α) : (sortBy before xs).Perm xs := by
  have key : ∀ (rest run : List α),
      (rest.foldl (fun sorted x => (place (m := Id) before x sorted.length sorted).run) run).Perm
        (run ++ rest) := by
    intro rest
    induction rest with
    | nil => intro run; simp
    | cons x rest ih =>
      intro run
      refine (ih _).trans ?_
      refine ((place_perm before x run.length run).append_right rest).trans ?_
      simpa using (List.perm_middle : (run ++ x :: rest).Perm _).symm
  rw [sortBy_eq]
  exact (key _ _).trans (firstRun_perm before xs)

end Rearranged

end RecordLog.Sorting
