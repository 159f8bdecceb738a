import Mathlib.Data.List.Pairwise
import RecordLog.Database
import RecordLog.Proofs.Query.Clause

/-!
# Disjunction

The results of clauses are put one after the other, and of the records with one
identity the first is kept.  A *hit* is a record together with the clause that it
satisfies; hits come clause by clause, and within a clause in the order of the
log.  So what a disjunction keeps for an identity is its first hit:

* `keepFirst` drops all elements whose key occurred before, and `mem_keepFirst`
  says that it keeps the first element of each key, whatever the order;
* `foldl_addNew` shows that adding records one by one computes `keepFirst`;
* `disjunction_select` says which records a disjunction finds, one for every
  identity that has a hit, and in which order.
-/

namespace RecordLog

/-! ### The first element of each key -/

section KeepFirst

variable {α β γ : Type} [DecidableEq β] (key : α → β)

/-- The elements whose key is not the key of an earlier element. -/
def keepFirst : List α → List α
  | [] => []
  | x :: xs => x :: (keepFirst xs).filter fun y => key y ≠ key x

/-- Keeping the first of each key leaves elements of the list, in their order. -/
theorem keepFirst_sublist (xs : List α) : (keepFirst key xs).Sublist xs := by
  induction xs with
  | nil => exact .slnil
  | cons x xs ih => exact (List.filter_sublist.trans ih).cons_cons x

/-- No key is lost. -/
theorem exists_mem_keepFirst {xs : List α} {x : α} (hx : x ∈ xs) :
    ∃ y ∈ keepFirst key xs, key y = key x := by
  induction xs with
  | nil => exact absurd hx List.not_mem_nil
  | cons z xs ih =>
      by_cases hz : key x = key z
      · exact ⟨z, List.mem_cons_self, hz.symm⟩
      · have hxs : x ∈ xs := (List.mem_cons.mp hx).resolve_left fun h => hz (h ▸ rfl)
        obtain ⟨y, hy, hk⟩ := ih hxs
        refine ⟨y, List.mem_cons_of_mem z (List.mem_filter.mpr ⟨hy, ?_⟩), hk⟩
        rw [hk]
        exact decide_eq_true hz

/-- No key is kept twice. -/
theorem nodup_map_keepFirst (xs : List α) : ((keepFirst key xs).map key).Nodup := by
  induction xs with
  | nil => exact .nil
  | cons x xs ih =>
      rw [keepFirst, List.map_cons, List.nodup_cons]
      constructor
      · intro hx
        obtain ⟨y, hy, hk⟩ := List.mem_map.mp hx
        exact absurd hk (of_decide_eq_true (List.mem_filter.mp hy).2)
      · exact ih.sublist (List.filter_sublist.map key)

/-- A kept element comes before all others with its key. -/
theorem keepFirst_before {R : α → α → Prop} {xs : List α} (hR : xs.Pairwise R) {x y : α}
    (hx : x ∈ keepFirst key xs) (hy : y ∈ xs) (hk : key y = key x) : y = x ∨ R x y := by
  induction hR with
  | nil => exact absurd hy List.not_mem_nil
  | @cons z xs hz _ ih =>
      rcases List.mem_cons.mp hx with rfl | hx
      · exact (List.mem_cons.mp hy).imp_right (hz y)
      · obtain ⟨hx, hne⟩ := List.mem_filter.mp hx
        rcases List.mem_cons.mp hy with rfl | hy
        · exact absurd hk.symm (of_decide_eq_true hne)
        · exact ih hx hy

/-- In a list that strictly ascends, exactly the least element of each key is
kept. -/
theorem mem_keepFirst {R : α → α → Prop} (hasymm : ∀ x y, R x y → ¬ R y x) {xs : List α}
    (hR : xs.Pairwise R) (x : α) :
    x ∈ keepFirst key xs ↔ x ∈ xs ∧ ∀ y ∈ xs, key y = key x → y = x ∨ R x y := by
  constructor
  · intro hx
    exact ⟨(keepFirst_sublist key xs).mem hx, fun y hy hk => keepFirst_before key hR hx hy hk⟩
  · rintro ⟨hx, hleast⟩
    obtain ⟨y, hy, hk⟩ := exists_mem_keepFirst key hx
    rcases hleast y ((keepFirst_sublist key xs).mem hy) hk with rfl | hxy
    · exact hy
    · rcases keepFirst_before key hR hy hx hk.symm with rfl | hyx
      · exact hy
      · exact absurd hyx (hasymm x y hxy)

/-- Keeping the first of each key commutes with a map. -/
theorem keepFirst_map (f : γ → α) (xs : List γ) :
    keepFirst key (xs.map f) = (keepFirst (key ∘ f) xs).map f := by
  induction xs with
  | nil => rfl
  | cons x xs ih =>
      rw [List.map_cons, keepFirst, keepFirst, List.map_cons, ih, List.filter_map]
      rfl

end KeepFirst

/-! ### Unions -/

/-- Adding records one by one adds the first record of each new identity. -/
theorem foldl_addNew (acc rs : List Record) :
    rs.foldl Record.addNew acc =
      acc ++ (keepFirst Record.identity rs).filter
        fun r => Record.identity r ∉ Record.identities acc := by
  induction rs generalizing acc with
  | nil => simp [keepFirst]
  | cons r rs ih =>
      rw [List.foldl_cons, ih, keepFirst, Record.addNew]
      by_cases hr : Record.identity r ∈ Record.identities acc
      · rw [if_pos hr, List.filter_cons_of_neg (by simpa using hr), List.filter_filter]
        congr 1
        apply List.filter_congr
        intro s _
        -- what shares its identity with `r` is in the accumulator already
        grind
      · rw [if_neg hr, List.filter_cons_of_pos (by simpa using hr), List.filter_filter,
          List.append_assoc, List.singleton_append]
        congr 2
        apply List.filter_congr
        intro s _
        simp [Record.identities]

/-- A union of clauses keeps the first of the records that they select, clause by
clause. -/
theorem accumulate_any (rs : List Record) (cs : List Clause) :
    (Combination.any.accumulate rs none cs).getD [] =
      keepFirst Record.identity (cs.flatMap fun c => rs.filter c.accepts) := by
  have hfold : ∀ acc, (Combination.any.accumulate rs acc cs).getD [] =
      (cs.flatMap fun c => rs.filter c.accepts).foldl Record.addNew (acc.getD []) := by
    induction cs with
    | nil => intro acc; rfl
    | cons c cs ih =>
        intro acc
        rw [List.flatMap_cons, List.foldl_append]
        exact ih _
  rw [hfold, foldl_addNew]
  simp [Record.identities]

/-! ### Hits -/

/-- A record that satisfies a clause: the index of the clause, the position of the
record in the log, and the record. -/
structure Hit where
  clause : Nat
  position : Nat
  record : Record

namespace Hit

/-- The order of hits: by clause, and within a clause by position. -/
def Before (h k : Hit) : Prop :=
  h.clause < k.clause ∨ (h.clause = k.clause ∧ h.position < k.position)

/-- The clause at the index is satisfied by the record, which is at the
position. -/
def Of (rs : List Record) (cs : List Clause) (h : Hit) : Prop :=
  ∃ c, cs[h.clause]? = some c ∧ rs[h.position]? = some h.record ∧ c.accepts h.record

/-- The hit belongs to the first clause that any record of its identity
satisfies, and is the first record in the log of this identity that satisfies
it. -/
structure IsFirst (rs : List Record) (cs : List Clause) (h : Hit) : Prop where
  hit : Of rs cs h
  first_clause : ∀ k, Of rs cs k → Record.identity k.record = Record.identity h.record →
    h.clause ≤ k.clause
  first_position : ∀ k, Of rs cs k → Record.identity k.record = Record.identity h.record →
    k.clause = h.clause → h.position ≤ k.position

theorem before_asymm (h k : Hit) : h.Before k → ¬ k.Before h := by
  simp only [Before]
  omega

/-- A clause and a position have one hit at most. -/
theorem Of.ext {rs : List Record} {cs : List Clause} {h k : Hit} (hh : Of rs cs h)
    (hk : Of rs cs k) (hclause : h.clause = k.clause) (hposition : h.position = k.position) :
    h = k := by
  obtain ⟨_, _, hr, _⟩ := hh
  obtain ⟨_, _, kr, _⟩ := hk
  rw [hposition, kr] at hr
  obtain ⟨i, p, r⟩ := h
  obtain ⟨j, q, s⟩ := k
  simp_all

/-- First hits are the least hits of their identity. -/
theorem isFirst_iff {rs : List Record} {cs : List Clause} {h : Hit} :
    IsFirst rs cs h ↔ Of rs cs h ∧ ∀ k, Of rs cs k →
      Record.identity k.record = Record.identity h.record → k = h ∨ h.Before k := by
  constructor
  · rintro ⟨hh, hclause, hposition⟩
    refine ⟨hh, ?_⟩
    intro k hk heq
    have h1 := hclause k hk heq
    have h2 := hposition k hk heq
    by_cases hsame : k.clause = h.clause ∧ k.position = h.position
    · exact Or.inl (hk.ext hh hsame.1 hsame.2)
    · simp only [Before]
      omega
  · rintro ⟨hh, hleast⟩
    refine ⟨hh, ?_, ?_⟩
    · intro k hk heq
      rcases hleast k hk heq with rfl | hbefore
      · exact Nat.le_refl _
      · simp only [Before] at hbefore
        omega
    · intro k hk heq hclause
      rcases hleast k hk heq with rfl | hbefore
      · exact Nat.le_refl _
      · simp only [Before] at hbefore
        omega

/-- The hits of one clause, in the order of the log. -/
def ofClause (rs : List Record) (c : Clause) (i : Nat) : List Hit :=
  (rs.zipIdx.filter fun x => c.accepts x.1).map fun x => ⟨i, x.2, x.1⟩

/-- All hits, clause by clause. -/
def all (rs : List Record) (cs : List Clause) : List Hit :=
  cs.zipIdx.flatMap fun x => ofClause rs x.1 x.2

/-- The hits of a clause are the records that it accepts. -/
theorem map_record_ofClause (rs : List Record) (c : Clause) (i : Nat) :
    (ofClause rs c i).map record = rs.filter c.accepts := by
  have hfst : rs.zipIdx.map Prod.fst = rs := List.zipIdx_map_fst 0 rs
  calc (ofClause rs c i).map record
      = (rs.zipIdx.filter (c.accepts ∘ Prod.fst)).map Prod.fst := List.map_map
    _ = (rs.zipIdx.map Prod.fst).filter c.accepts := List.filter_map.symm
    _ = rs.filter c.accepts := by rw [hfst]

/-- The hits of all clauses are the records that each of them accepts, clause by clause. -/
theorem map_record_all (rs : List Record) (cs : List Clause) :
    (all rs cs).map record = cs.flatMap fun c => rs.filter c.accepts := by
  have hfst : cs.zipIdx.map Prod.fst = cs := List.zipIdx_map_fst 0 cs
  calc (all rs cs).map record
      = cs.zipIdx.flatMap fun x => rs.filter x.1.accepts := by
        simp only [all, List.map_flatMap, map_record_ofClause]
    _ = (cs.zipIdx.map Prod.fst).flatMap fun c => rs.filter c.accepts := by
        rw [List.flatMap_map]
    _ = cs.flatMap fun c => rs.filter c.accepts := by rw [hfst]

/-- A hit of a clause is a record that the clause accepts, at its position. -/
theorem mem_ofClause {rs : List Record} {c : Clause} {i : Nat} {h : Hit} :
    h ∈ ofClause rs c i ↔
      h.clause = i ∧ rs[h.position]? = some h.record ∧ c.accepts h.record := by
  simp only [ofClause, List.mem_map, List.mem_filter, List.mem_zipIdx_iff_getElem?]
  constructor
  · rintro ⟨x, ⟨hx, ha⟩, rfl⟩
    exact ⟨rfl, hx, ha⟩
  · rintro ⟨rfl, hx, ha⟩
    exact ⟨(h.record, h.position), ⟨hx, ha⟩, rfl⟩

/-- The hits that are listed are all hits there are. -/
theorem mem_all {rs : List Record} {cs : List Clause} {h : Hit} :
    h ∈ all rs cs ↔ Of rs cs h := by
  simp only [all, List.mem_flatMap, List.mem_zipIdx_iff_getElem?, mem_ofClause, Of]
  constructor
  · rintro ⟨⟨c, i⟩, hc, rfl, hr, ha⟩
    exact ⟨c, hc, hr, ha⟩
  · rintro ⟨c, hc, hr, ha⟩
    exact ⟨(c, h.clause), hc, rfl, hr, ha⟩

/-- The elements of a list come in the order of their indices. -/
theorem pairwise_zipIdx {α : Type} (xs : List α) :
    xs.zipIdx.Pairwise fun x y => x.2 < y.2 := by
  rw [← List.pairwise_map (f := Prod.snd) (R := (· < ·)), List.zipIdx_map_snd]
  exact List.pairwise_lt_range'

/-- Hits are listed by clause, and then by position. -/
theorem pairwise_before_all (rs : List Record) (cs : List Clause) :
    (all rs cs).Pairwise Before := by
  rw [all, List.pairwise_flatMap]
  constructor
  · intro x _
    rw [ofClause, List.pairwise_map]
    exact ((pairwise_zipIdx rs).filter _).imp fun hlt => Or.inr ⟨rfl, hlt⟩
  · refine (pairwise_zipIdx cs).imp ?_
    intro x y hlt h hh k hk
    rw [mem_ofClause] at hh hk
    exact Or.inl (hh.1 ▸ hk.1 ▸ hlt)

/-- The first hit of every identity that has one, in the order of hits. -/
def firsts (rs : List Record) (cs : List Clause) : List Hit :=
  keepFirst (fun h => Record.identity h.record) (all rs cs)

/-- The hits that are kept are the first ones of their identities. -/
theorem mem_firsts {rs : List Record} {cs : List Clause} {h : Hit} :
    h ∈ firsts rs cs ↔ IsFirst rs cs h := by
  rw [firsts, mem_keepFirst _ before_asymm (pairwise_before_all rs cs), isFirst_iff]
  simp only [mem_all]

/-- The hits that are kept are in order. -/
theorem pairwise_before_firsts (rs : List Record) (cs : List Clause) :
    (firsts rs cs).Pairwise Before :=
  (pairwise_before_all rs cs).sublist (keepFirst_sublist _ _)

/-- Of each identity at most one hit is kept. -/
theorem nodup_identities_firsts (rs : List Record) (cs : List Clause) :
    (Record.identities ((firsts rs cs).map record)).Nodup := by
  rw [Record.identities, List.map_map]
  exact nodup_map_keepFirst _ (all rs cs)

/-- An identity has a first hit if a record of that identity satisfies some
clause. -/
theorem mem_identities_firsts {rs : List Record} {cs : List Clause} {k : Identity} :
    k ∈ Record.identities ((firsts rs cs).map record) ↔
      ∃ r ∈ rs, Record.identity r = k ∧ ∃ c ∈ cs, c.accepts r := by
  simp only [Record.identities, List.map_map, List.mem_map, Function.comp_apply]
  constructor
  · rintro ⟨h, hh, rfl⟩
    obtain ⟨c, hc, hr, ha⟩ := (mem_firsts.mp hh).hit
    exact ⟨h.record, List.mem_of_getElem? hr, rfl, c, List.mem_of_getElem? hc, ha⟩
  · rintro ⟨r, hr, rfl, c, hc, ha⟩
    obtain ⟨p, hp⟩ := List.getElem?_of_mem hr
    obtain ⟨i, hi⟩ := List.getElem?_of_mem hc
    have hhit : (⟨i, p, r⟩ : Hit) ∈ all rs cs := mem_all.mpr ⟨c, hi, hp, ha⟩
    exact exists_mem_keepFirst (fun h => Record.identity h.record) hhit

end Hit

/-- The fold of a disjunction keeps the first hit of each identity. -/
theorem select_any_eq (rs : List Record) (cs : List Clause) :
    Combination.any.select rs cs =
      Clause.outcome rs cs ((Hit.firsts rs cs).map Hit.record) := by
  rw [Combination.select_eq, accumulate_any, ← Hit.map_record_all, keepFirst_map]
  rfl

/-- **Disjunction.**  A disjunction of clauses fails only if one of them cannot be
evaluated.  Otherwise it finds one record for every identity of which some record
satisfies some clause, and none for other identities.  For an identity, that is its
first hit: the first record in the log that satisfies the first clause that any
record of the identity satisfies.  The records come in the order of these
clauses, and for one clause in the order of the log. -/
theorem disjunction_select (textFields : List Text) (rs : List Record) (cs : List Clause) :
    ∃ hits : List Hit,
      (Query.combined .any cs).select textFields rs =
        Clause.outcome rs cs (hits.map Hit.record) ∧
      (∀ h, h ∈ hits ↔ Hit.IsFirst rs cs h) ∧
      hits.Pairwise Hit.Before ∧
      (Record.identities (hits.map Hit.record)).Nodup ∧
      ∀ k, k ∈ Record.identities (hits.map Hit.record) ↔
        ∃ r ∈ rs, Record.identity r = k ∧ ∃ c ∈ cs, c.accepts r := by
  refine ⟨Hit.firsts rs cs, select_any_eq rs cs, ?_, ?_, ?_, ?_⟩
  · intro h
    exact Hit.mem_firsts
  · exact Hit.pairwise_before_firsts rs cs
  · exact Hit.nodup_identities_firsts rs cs
  · intro k
    exact Hit.mem_identities_firsts

end RecordLog
