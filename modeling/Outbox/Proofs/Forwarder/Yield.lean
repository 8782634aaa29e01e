import Mathlib.Data.List.Perm.Subperm
import Outbox.Proofs.Forwarder.Reports
import Outbox.Proofs.Store.Counting

namespace Outbox

/-!
# What a pass achieves

A pass that takes its entries to be dealt with has made the store smaller, or it says that it has
not:

* `Table.Loses` — an entry is gone.
* `RemovalOp.Counted`, `WalkOp.Counted` — what an operation counts as removed is gone.
* `Incident.isShortfall`, `Hub.Admits` — something that was to be removed is reported to be left.
* `Pass.Yields` — a pass that has delivered has lost the store an entry, or has admitted that it
  has not.
* `Pass.Yields.step`, `Pass.Yields.answer` — while the flag is down, steps and answers keep this up.
-/

/-! ### Entries that are gone -/

/-- An entry is gone. -/
def Table.Loses (t t' : Table) : Prop := ∃ x ∈ t.toList, x ∉ t'.toList

/-- A table that has become smaller has lost an entry. -/
theorem Table.loses_of_size {t t' : Table} (h : t'.size < t.size) : t.Loses t' := by
  by_contra hnone
  have hsub : t.toList ⊆ t'.toList := by
    intro x hx
    by_contra hgone
    exact hnone ⟨x, hx, hgone⟩
  have hle : t.toList.length ≤ t'.toList.length := (List.subperm_of_subset t.nodup hsub).length_le
  exact Nat.not_lt_of_le hle h

variable {gone gone' told told' : Prop}

/-! ### Operations -/

namespace RemovalOp

/-- What a removal counts as removed is gone. -/
def Counted (gone : Prop) : RemovalOp → Prop
  | releasing n | tallying n | done (.ok n) => n = 0 ∨ gone
  | _ => True

variable {op op' : RemovalOp} {s s' : Store} {keys : List Bytes}

/-- A removal that is about to begin has not counted anything. -/
theorem counted_remove (faults : Faults) (keys : List Bytes) :
    (faults.remove keys).Counted gone := by
  unfold Faults.remove
  split
  · trivial
  · split
    · exact .inl rfl
    · trivial

/-- What a removal has counted stays right. -/
theorem Counted.mono (ho : op.Counted gone) (h : gone → gone') : op.Counted gone' := by
  cases op with
  | releasing n => exact ho.imp_right h
  | tallying n => exact ho.imp_right h
  | done r =>
    cases r with
    | error fault => trivial
    | ok n => exact ho.imp_right h
  | _ => trivial

/-- A removal counts entries as removed only when some have gone. -/
theorem Counted.step {failure : Option EngineFault} {j : Journal} (ho : op.Counted gone)
    (hf : op.Fits keys s.files) (h : op.step failure s = some (op', s', j)) :
    op'.Counted (gone ∨ s.table.Loses s'.table) := by
  cases step_cases h with
  | @commit removed works nonzero =>
    -- as many entries are gone as have been counted
    have hsize := StoreOp.size_of_removal hf
    exact .inr (.inr (Table.loses_of_size (by omega)))
  | pass => exact .inl rfl
  | commitNothing => exact .inl rfl
  | release => exact ho.imp_right .inl
  | tally => exact ho.imp_right .inl
  | _ => trivial

end RemovalOp

namespace WalkOp

/-- A walk has deleted all that it has visited, and that is gone once it has been committed. -/
def Counted (gone : Prop) : WalkOp → Prop
  | walking _ visited deleted | committing visited deleted => visited = deleted
  | releasing _ _ | tallying _ _ => gone
  | done (.ok summary) => summary.visited = 0 ∨ gone
  | _ => True

variable {op op' : WalkOp} {s s' : Store} {kept seen : List Entry}

/-- A walk that is about to begin has not counted anything. -/
theorem counted_walk (faults : Faults) : faults.walk.Counted gone := by
  unfold Faults.walk
  split <;> trivial

/-- What a walk has counted stays right. -/
theorem Counted.mono (ho : op.Counted gone) (h : gone → gone') : op.Counted gone' := by
  cases op with
  | releasing visited deleted => exact h ho
  | tallying visited deleted => exact h ho
  | done r =>
    cases r with
    | error fault => trivial
    | ok summary => exact ho.imp_right h
  | _ => exact ho

/-- A walk is committed with entries that it has visited only when some have gone. -/
theorem Counted.step {failure : Option EngineFault} (ho : op.Counted gone)
    (hf : op.Fits kept seen s.files) (h : op.step failure s = some (op', s')) :
    op'.Counted (gone ∨ s.table.Loses s'.table) := by
  cases step_cases h with
  | lock => exact rfl
  | finish => exact ho
  | commitNothing => exact .inl ho
  | @commit visited deleted works nonzero =>
    have hsize := StoreOp.size_of_walk hf
    exact .inr (Table.loses_of_size (by omega))
  | release => exact .inl ho
  | tally => exact .inr (.inl ho)
  | _ => trivial

/-- An entry that is visited and deleted is counted as both. -/
theorem Counted.delete (ho : op.Counted gone) : (op.answer .delete s).1.Counted gone := by
  cases he : op.offered? with
  | none =>
    rw [answer_of_not_offered he]
    exact ho
  | some x =>
    obtain ⟨rest, visited, deleted, rfl⟩ := offered?_eq_some_iff.1 he
    exact congrArg (· + 1) ho

end WalkOp

/-! ### Reports -/

/-- Whether an incident says that what was delivered has not been removed, or not all of it. -/
def Incident.isShortfall : Incident → Bool
  | notRemoved _ _ | partlyRemoved _ _ => true
  | _ => false

/-- What has been reported since says that something delivered has not been removed. -/
def Hub.Admits (h h' : Hub) : Prop :=
  ∃ i : Incident, i.isShortfall = true ∧ .incident i ∈ h'.journal.drop h.journal.length

/-- A shortfall that is reported is admitted. -/
theorem Hub.admits_of_incident {h : Hub} {i : Incident} {notes : Journal}
    (hi : i.isShortfall = true) : h.Admits ((h.incident i).report notes) := by
  refine ⟨i, hi, ?_⟩
  show Note.incident i ∈ ((h.journal ++ [Note.incident i]) ++ notes).drop h.journal.length
  rw [List.append_assoc, List.drop_left]
  exact List.mem_cons_self

/-! ### Passes -/

namespace Pass

/-- A pass that has delivered has removed something, or has said that it has not; before that, it
    has something to remove. -/
def Yields (gone told : Prop) : Pass → Prop
  | delivering _ _ _ keys | clearing _ _ keys => keys ≠ []
  | removing op expected _ _ => expected ≠ 0 ∧ op.Counted gone
  | walking op _ _ refused => refused = true ∧ (∃ r, op = .done r) ∨ op.Counted gone
  | offering op _ _ _ => op.Counted gone
  | ended (.ok (.delivered _ _)) => gone ∨ told
  | _ => True

variable {s : Forwarder.Settings} {a : Account} {h : Hub} {p : Pass} {y : Pass × Hub}

/-- What a pass yields stays right. -/
theorem Yields.mono (hp : p.Yields gone told) (hg : gone → gone') (ht : told → told') :
    p.Yields gone' told' := by
  cases p with
  | removing op expected delivered dropped => exact ⟨hp.1, hp.2.mono hg⟩
  | walking op delivered dropped refused => exact hp.imp_right fun ho => ho.mono hg
  | offering op event delivered dropped => exact WalkOp.Counted.mono hp hg
  | ended r =>
    cases r with
    | error e => trivial
    | ok o =>
      cases o with
      | delivered n m => exact hp.imp hg ht
      | _ => trivial
  | _ => exact hp

/-- What has been scanned is to be removed. -/
theorem yields_scanned (c : Cipher) (style : SinkStyle) (xs : List Entry) :
    (scanned c style xs).1.Yields gone told := by
  unfold scanned
  split
  · trivial
  · next hsome =>
    obtain ⟨x, xs, rfl⟩ := List.exists_cons_of_ne_nil (by simpa using hsome)
    -- every key is either opened or dropped, so that there is one to remove
    have hkeys : (sort c (x :: xs)).1.map Prod.fst ++ (sort c (x :: xs)).2.1 ≠ [] := by
      refine List.ne_nil_of_mem (a := x.key) (mem_keys_sort.2 ?_)
      exact List.mem_map_of_mem List.mem_cons_self
    dsimp only
    split
    · exact hkeys
    · exact hkeys

/-- A pass whose removal has ended says so when less has been removed than was to be. -/
theorem yields_removed {r : Except StoreFault Nat} {expected : Nat}
    (ho : (RemovalOp.done r).Counted gone) (hpos : expected ≠ 0) (delivered dropped : Nat)
    (h : Hub) :
    (removed expected delivered dropped h r).1.Yields gone
      (h.Admits (removed expected delivered dropped h r).2) := by
  cases r with
  | error fault => exact .inr (Hub.admits_of_incident rfl)
  | ok n =>
    rcases ho with hzero | hgone
    · right
      simp only [removed]
      rw [if_pos (by omega)]
      exact Hub.admits_of_incident rfl
    · exact .inl hgone

/-- A pass whose walk has ended has removed what the walk has visited, unless the sink refused. -/
theorem yields_walked {r : Except StoreFault WalkSummary} {refused : Bool}
    (ho : refused = true ∨ (WalkOp.done r).Counted gone) (delivered dropped : Nat) (h : Hub) :
    (walked delivered dropped refused h r).1.Yields gone told := by
  cases r with
  | error fault => trivial
  | ok summary =>
    unfold walked
    dsimp only
    split
    · trivial
    · next haccepted =>
      split
      · trivial
      · next hsome => exact .inl ((ho.resolve_left haccepted).resolve_left hsome)

/-- While the flag is down, an entry on offer is given to the sink or deleted. -/
theorem yields_look {op : WalkOp} {x : Entry} (ho : op.Counted gone) (down : h.flag = false)
    (c : Cipher) (delivered dropped : Nat) :
    (look c x op delivered dropped h).1.Yields gone told := by
  unfold look
  rw [if_neg (by simp [down])]
  split
  · exact ho
  · exact .inr ho.delete

/-- A step of a pass: what it removes is gone, and what it says is told. -/
theorem Yields.step (hp : p.Yields gone told) (hf : p.Fits s a h.store.files)
    (down : h.flag = false) (hs : p.step s h = some y) :
    y.1.Yields (gone ∨ h.store.table.Loses y.2.store.table)
      (told ∨ 1 < s.batchSize ∧ h.Admits y.2) := by
  cases turn_of_step hs with
  | scan => exact yields_scanned _ _ _
  | walk => exact .inr (WalkOp.counted_walk _)
  | clear =>
    exact ⟨fun hzero => hp (List.length_eq_zero_iff.1 hzero), RemovalOp.counted_remove _ _⟩
  | remove ho =>
    obtain ⟨-, -, keys, -, hfits⟩ := hf
    exact ⟨hp.1, hp.2.step hfits ho⟩
  | @removed r expected delivered dropped =>
    refine (yields_removed hp.2 hp.1 delivered dropped h).mono .inl ?_
    exact fun hadmits => .inr ⟨hf.1, hadmits⟩
  | @look op x delivered dropped refused hx =>
    -- a walk that has been aborted offers nothing
    have ho : op.Counted gone := by
      refine hp.resolve_left ?_
      rintro ⟨-, r, rfl⟩
      cases hx
    exact (yields_look ho down _ _ _).mono .inl .inl
  | walkOn hx ho =>
    rcases hp with ⟨-, r, rfl⟩ | hp
    · cases ho
    · exact .inr (hp.step hf.1 ho)
  | walked => exact (yields_walked (hp.imp_left And.left) _ _ _).mono .inl .inl
  | @recounted r => cases r <;> trivial
  | _ => trivial

/-- An answer of the sink removes nothing. -/
theorem Yields.answer (hp : p.Yields gone told) (hf : p.Fits s a h.store.files) (r : SinkAnswer) :
    (p.answer r h).1.Yields gone told := by
  cases p with
  | delivering calls delivered dropped keys =>
    cases r with
    | accepted =>
      simp only [Pass.answer]
      split
      · exact hp
      · exact hp
    | refused e => trivial
    | died => trivial
  | offering op event delivered dropped =>
    cases r with
    | accepted => exact .inr (WalkOp.Counted.delete hp)
    | refused e =>
      -- a refusal aborts the walk, which then counts for nothing
      obtain ⟨seen, x, hx, -⟩ := hf
      obtain ⟨rest, visited, deleted, rfl⟩ := WalkOp.offered?_eq_some_iff.1 hx
      exact .inl ⟨rfl, _, rfl⟩
    | died => trivial
  | _ => exact hp

end Pass

end Outbox
