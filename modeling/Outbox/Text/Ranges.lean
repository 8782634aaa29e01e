namespace Outbox.Text

/-!
# Sets of code points

`Ranges` lists a set of code points as disjoint inclusive ranges in increasing order, the form in
which character properties are published. `Ranges.contains` looks a character up by bisection.
-/

/-- Inclusive ranges of code points, disjoint and increasing. -/
structure Ranges where
  toArray : Array (Nat × Nat)

namespace Ranges

/-- Bisects between two positions of the ranges, for as many rounds as it is given. -/
def search (r : Ranges) (n : Nat) : Nat → Nat → Nat → Bool
  | 0, _, _ => false
  | rounds + 1, lo, hi =>
    if lo < hi then
      let mid := (lo + hi) / 2
      match r.toArray[mid]? with
      | none => false
      | some (first, last) =>
        if n < first then r.search n rounds lo mid
        else if last < n then r.search n rounds (mid + 1) hi
        else true
    else false

/-- Whether the code point of a character lies in one of the ranges. -/
def contains (r : Ranges) (c : Char) : Bool :=
  r.search c.toNat (r.toArray.size + 1) 0 r.toArray.size

end Ranges

end Outbox.Text
