import Outbox.Text.CaseTable

namespace Outbox.Text

/-!
# Lower case

The full lower-case mapping of Unicode, as names are compared by it:

* `lowerChar` — one character. Only `İ` has a form of two characters.
* `lower` — a whole text, in which a capital sigma at the end of a word becomes `ς` and any
  other `σ`.
-/

/-- The run of the table that holds the code point, found by bisection. -/
def lowerRun (n : Nat) : Nat → Nat → Nat → Option CaseTable.Run
  | 0, _, _ => none
  | rounds + 1, lo, hi =>
    if lo < hi then
      let mid := (lo + hi) / 2
      match CaseTable.lower[mid]? with
      | none => none
      | some run =>
        if n < run.first then lowerRun n rounds lo mid
        else if run.last < n then lowerRun n rounds (mid + 1) hi
        else some run
    else none

/-- The lower-case form of one character taken by itself. -/
def lowerChar (c : Char) : List Char :=
  if c = '\u0130' then ['i', '\u0307']
  else
    let n := c.toNat
    match lowerRun n (CaseTable.lower.size + 1) 0 CaseTable.lower.size with
    | none => [c]
    | some run =>
      if (n - run.first) % run.step = 0 then [Char.ofNat (Int.toNat (n + run.shift))] else [c]

/-- Whether the characters, read away from a sigma, reach a letter with case before anything
    that is not ignored. -/
def reachesCased (cs : List Char) : Bool :=
  match cs.dropWhile CaseTable.ignorable.contains with
  | [] => false
  | c :: _ => CaseTable.cased.contains c

/-- The lower-case form of the text `cs` that follows the characters of `before`, which are
    given last first. -/
def lowerAfter (before : List Char) : List Char → List Char
  | [] => []
  | c :: cs =>
    let this :=
      if c = 'Σ' then
        if reachesCased before && !reachesCased cs then ['ς'] else ['σ']
      else lowerChar c
    this ++ lowerAfter (c :: before) cs

/-- The lower-case form of a text. -/
def lower (s : String) : String :=
  String.ofList (lowerAfter [] s.toList)

end Outbox.Text
