/-!
# Classes of code points given by ranges

A property of code points is tabulated as a list of inclusive ranges in
ascending order.  Membership is a search through the list; the order of the
ranges lets the search stop early.
-/

namespace RecordLog.Text

/-- Inclusive ranges of numbers, in ascending order. -/
abbrev Ranges := List (Nat × Nat)

/-- Whether a number lies in one of the ranges. -/
def Ranges.covers : Ranges → Nat → Bool
  | [], _ => false
  | (first, last) :: later, n =>
    if n < first then false else n ≤ last || covers later n

end RecordLog.Text
