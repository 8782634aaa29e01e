import Outbox.Proofs.Forwarder.Settle
import Outbox.Proofs.Journal
import Outbox.Proofs.Store.Counting

namespace Outbox

/-!
# What a pass reports of what it has removed

Where no removal fails, what a pass says that it has come to is what it has removed:

* `Outcome.handedOver`, `Outcome.discarded`, `Outcome.measures` — what an outcome tells, and how it
  is measured.
* `RemovalOp.gone`, `WalkOp.gone`, `Pass.gone` — how many entries have been removed and are still to
  be reported; `untallied` — how many of them the store does not count as deleted yet.
* `Table.Lists` — a list names some entries of a table, each once.
* `RemovalOp.Exact`, `WalkOp.Exact`, `Pass.Exact` — what is counted is what is removed.
* `Store.Settles` — a step moves the entries, the deletes and what is reported together.
* `Pass.Exact.step`, `Pass.Exact.answer` — steps and answers of the sink do so, whatever the sink
  answers, and the journal counts what is reported.
-/

/-! ### Outcomes -/

namespace Outcome

/-- How many entries have been handed over and removed. -/
def handedOver : Outcome → Nat
  | delivered n _ => n
  | empty | failed => 0

/-- How many entries have been removed as unreadable. -/
def discarded : Outcome → Nat
  | delivered _ n => n
  | empty | failed => 0

/-- How many entries have been removed. -/
def removed (o : Outcome) : Nat := o.handedOver + o.discarded

/-- Whether a pass has delivered. -/
def isDelivered : Outcome → Bool
  | delivered _ _ => true
  | empty | failed => false

/-- Whether a pass has failed. -/
def isFailed : Outcome → Bool
  | failed => true
  | empty | delivered _ _ => false

/-- How an outcome is measured. -/
def measures : Outcome → List Measure
  | delivered n m => [.passed n true, .dropped m]
  | failed => [.passed 0 false]
  | empty => []

/-- What is measured of an outcome adds up to what has been handed over. -/
theorem adds_handedOver (o : Outcome) :
    (o.measures.map (Measure.adds "spool.forward.events_delivered_total")).sum = o.handedOver := by
  cases o <;> simp [measures, handedOver, Measure.adds, Measure.changes, Change.apply, toString]

/-- What is measured of an outcome adds up to what has been dropped. -/
theorem adds_discarded (o : Outcome) :
    (o.measures.map (Measure.adds "spool.forward.events_dropped_total")).sum = o.discarded := by
  cases o <;> simp [measures, discarded, Measure.adds, Measure.changes, Change.apply, toString]

end Outcome

/-! ### The store -/

/-- Entries that have gone and are still to be reported, those of them that are still to be counted
    as deleted, and those that a step reports, move together with the store. -/
structure Store.Settles (s s' : Store) (gone gone' untallied untallied' reported : Nat) :
    Prop where
  puts : s'.puts = s.puts
  entries : s'.table.size + gone' + reported = s.table.size + gone
  deletes : s'.deletes + untallied' + gone = s.deletes + untallied + gone' + reported

/-- A step that does nothing of this. -/
theorem Store.Settles.of_eq {s s' : Store} {gone gone' untallied untallied' : Nat}
    (puts : s'.puts = s.puts) (table : s'.table = s.table) (deletes : s'.deletes = s.deletes)
    (hgone : gone' = gone) (huntallied : untallied' = untallied) :
    s.Settles s' gone gone' untallied untallied' 0 := by
  subst hgone huntallied
  exact ⟨puts, by rw [table]; rfl, by rw [deletes]; rfl⟩

/-- A list names so many entries of a table, each once, and none of them by the empty key. -/
structure Table.Lists (t : Table) (keys : List Bytes) (n : Nat) : Prop where
  length : keys.length = n
  nodup : keys.Nodup
  named : ∀ k ∈ keys, k ≠ []
  held : ∀ k ∈ keys, t.contains k = true

/-- A table that has all the keys still has those of a list. -/
theorem Table.Lists.mono {t t' : Table} {keys : List Bytes} {n : Nat} (h : t.Lists keys n)
    (hk : ∀ k, t.contains k = true → t'.contains k = true) : t'.Lists keys n :=
  ⟨h.length, h.nodup, h.named, fun k hin => hk k (h.held k hin)⟩

/-! ### Removals -/

namespace RemovalOp

/-- How many entries a removal has removed that are not counted as deleted yet. -/
def untallied : RemovalOp → Nat
  | releasing n | tallying n => n
  | _ => 0

/-- How many entries a removal has removed. -/
def gone : RemovalOp → Nat
  | releasing n | tallying n | done (.ok n) => n
  | _ => 0

/-- A removal of so many entries removes them all, and does not fail. -/
def Exact (n : Nat) (t : Table) : RemovalOp → Prop
  | entering keys | locking keys | erasing keys => t.Lists keys n
  | committing removed | releasing removed | tallying removed | done (.ok removed) => removed = n
  | done (.error _) => False

variable {n : Nat} {t t' : Table} {s s' : Store} {op op' : RemovalOp} {keys : List Bytes}

/-- What a removal knows of keys in the table stays right while they stay. -/
theorem Exact.mono (ho : op.Exact n t) (hk : ∀ k, t.contains k = true → t'.contains k = true) :
    op.Exact n t' := by
  cases op with
  | entering keys => exact Table.Lists.mono ho hk
  | locking keys => exact Table.Lists.mono ho hk
  | erasing keys => exact Table.Lists.mono ho hk
  | done r =>
    cases r with
    | ok removed => exact ho
    | error fault => exact ho
  | _ => exact ho

/-- What is named is erased and counted. -/
theorem count_eraseKeys (h : t.Lists keys n) : (eraseKeys keys t).2.1 = n := by
  induction keys generalizing t n with
  | nil => exact h.length
  | cons k keys ih =>
    obtain ⟨hnew, hnd⟩ := List.nodup_cons.1 h.nodup
    have hrest : (t.erase k).Lists keys keys.length := by
      refine ⟨rfl, hnd, fun k' hk => h.named k' (List.mem_cons_of_mem _ hk), fun k' hk => ?_⟩
      -- the key that is erased first is none of the others
      have hne : k ≠ k' := fun heq => hnew (heq ▸ hk)
      rw [Table.contains_eq_isSome, Table.get?_erase, if_neg hne, ← Table.contains_eq_isSome]
      exact h.held k' (List.mem_cons_of_mem _ hk)
    unfold eraseKeys
    rw [if_neg (h.named k List.mem_cons_self), if_pos (h.held k List.mem_cons_self)]
    show (eraseKeys keys (t.erase k)).2.1 + 1 = n
    rw [ih hrest, ← h.length, List.length_cons]

/-- A removal that nothing hinders removes what it is to remove, and nothing else. -/
theorem Exact.step {j : Journal} (ho : op.Exact n s.table) (hf : op.Fits keys s.files)
    (isOpen : s.closed = false) (h : op.step none s = some (op', s', j)) :
    op'.Exact n s'.table ∧
      s.Settles s' op.gone op'.gone op.untallied op'.untallied 0 := by
  cases step_cases h with
  | refuse closed =>
    rw [isOpen] at closed
    cases closed
  | pass => exact ⟨ho.length, .of_eq rfl rfl rfl rfl rfl⟩
  | enter | lock => exact ⟨ho, .of_eq rfl rfl rfl rfl rfl⟩
  | @erase ks =>
    refine ⟨?_, .of_eq rfl rfl rfl rfl rfl⟩
    show (eraseKeys ks s.working).2.1 = n
    rw [Store.working_eq hf.2]
    exact count_eraseKeys ho
  | fail fails => cases fails
  | commitNothing works =>
    have hsize := StoreOp.size_of_removal hf
    exact ⟨ho, rfl, hsize, rfl⟩
  | @commit removed works nonzero =>
    have hsize := StoreOp.size_of_removal hf
    exact ⟨ho, rfl, hsize, Nat.add_right_comm s.deletes removed 0⟩
  | release => exact ⟨ho, .of_eq rfl rfl rfl rfl rfl⟩
  | @tally removed =>
    refine ⟨ho, rfl, rfl, ?_⟩
    show s.deletes + removed + 0 + removed = s.deletes + removed + removed + 0
    omega

/-- A removal says nothing that is counted. -/
theorem counts_step {failure : Option EngineFault} {j : Journal}
    (h : op.step failure s = some (op', s', j)) : j.counts = [] := by
  have hnone : j.measures = [] := by
    refine List.filterMap_eq_nil_iff.2 fun x hx => ?_
    obtain ⟨key, rfl⟩ := exists_of_mem_step h hx
    rfl
  unfold Journal.counts
  rw [hnone]
  rfl

end RemovalOp

/-! ### Walks -/

namespace WalkOp

/-- How many entries a walk has removed that are not counted as deleted yet. -/
def untallied : WalkOp → Nat
  | releasing _ deleted | tallying _ deleted => deleted
  | _ => 0

/-- How many entries a walk has removed. -/
def gone : WalkOp → Nat
  | releasing _ deleted | tallying _ deleted | done (.ok ⟨_, deleted, true⟩) => deleted
  | _ => 0

/-- Whether a walk has been aborted. -/
def isAborted : WalkOp → Bool
  | done (.ok ⟨_, _, false⟩) => true
  | _ => false

/-- A walk has deleted so many entries, and visited them. -/
def Exact (n : Nat) : WalkOp → Prop
  | entering | locking => n = 0
  | walking _ visited deleted | committing visited deleted | releasing visited deleted
  | tallying visited deleted | done (.ok ⟨visited, deleted, true⟩) => deleted = n ∧ n ≤ visited
  | done _ => True

variable {n : Nat} {s s' : Store} {op op' : WalkOp} {kept seen : List Entry}

/-- A walk removes what it has deleted, if it is committed. -/
theorem Exact.step {failure : Option EngineFault} (ho : op.Exact n) (hf : op.Fits kept seen s.files)
    (h : op.step failure s = some (op', s')) :
    op'.Exact n ∧ op.isAborted = false ∧ op'.isAborted = false ∧
      s.Settles s' op.gone op'.gone op.untallied op'.untallied 0 := by
  cases step_cases h with
  | refuse | fail => exact ⟨trivial, rfl, rfl, .of_eq rfl rfl rfl rfl rfl⟩
  | enter => exact ⟨ho, rfl, rfl, .of_eq rfl rfl rfl rfl rfl⟩
  | lock =>
    obtain rfl : n = 0 := ho
    exact ⟨⟨rfl, Nat.le_refl _⟩, rfl, rfl, .of_eq rfl rfl rfl rfl rfl⟩
  | finish => exact ⟨ho, rfl, rfl, .of_eq rfl rfl rfl rfl rfl⟩
  | commitNothing works =>
    have hsize := StoreOp.size_of_walk hf
    exact ⟨ho, rfl, rfl, rfl, hsize, rfl⟩
  | @commit visited deleted works nonzero =>
    have hsize := StoreOp.size_of_walk hf
    exact ⟨ho, rfl, rfl, rfl, hsize, Nat.add_right_comm s.deletes deleted 0⟩
  | release => exact ⟨ho, rfl, rfl, .of_eq rfl rfl rfl rfl rfl⟩
  | @tally visited deleted =>
    refine ⟨ho, rfl, rfl, rfl, rfl, ?_⟩
    show s.deletes + deleted + 0 + deleted = s.deletes + deleted + deleted + 0
    omega

end WalkOp

/-! ### Passes -/

namespace Pass

/-- What a pass has come to. -/
def outcome? : Pass → Option Outcome
  | ended (.ok o) => some o
  | _ => none

/-- How many entries a pass has removed and not reported yet. -/
def gone : Pass → Nat
  | removing op _ _ _ => op.gone
  | walking op _ _ _ | offering op _ _ _ => op.gone
  | _ => 0

/-- How many of them are not counted as deleted yet. -/
def untallied : Pass → Nat
  | removing op _ _ _ => op.untallied
  | walking op _ _ _ | offering op _ _ _ => op.untallied
  | _ => 0

/-- How many entries a pass reports when it has come to something. -/
def reported (p : Pass) : Nat := p.outcome?.elim 0 Outcome.removed

/-- What is measured when a pass has come to something. -/
def measured (p : Pass) : List Measure := p.outcome?.toList.flatMap Outcome.measures

/-- What a pass counts as delivered and dropped is what it removes. -/
def Exact (t : Table) : Pass → Prop
  | delivering _ delivered dropped keys | clearing delivered dropped keys =>
    t.Lists keys (delivered + dropped)
  | removing op _ delivered dropped => op.Exact (delivered + dropped) t
  | walking op delivered dropped refused =>
    op.Exact (delivered + dropped) ∧ refused = op.isAborted
  | offering op _ delivered dropped => op.Exact (delivered + dropped)
  | _ => True

/-- What comes of a pass: it is exact, it moves the entries, the deletes and what it reports
    together, and the journal counts what it reports. -/
structure Reckons (h : Hub) (p : Pass) (y : Pass × Hub) : Prop where
  exact : y.1.Exact y.2.store.table
  settles : h.store.Settles y.2.store p.gone y.1.gone p.untallied y.1.untallied y.1.reported
  counts : y.2.journal.counts = h.journal.counts ++ y.1.measured

variable {s : Forwarder.Settings} {a : Account} {h : Hub} {p : Pass} {y : Pass × Hub}
  {t t' : Table} {op : WalkOp}

/-- What a pass knows of keys in the table stays right while they stay. -/
theorem Exact.mono (hp : p.Exact t) (hk : ∀ k, t.contains k = true → t'.contains k = true) :
    p.Exact t' := by
  cases p with
  | delivering calls delivered dropped keys => exact Table.Lists.mono hp hk
  | clearing delivered dropped keys => exact Table.Lists.mono hp hk
  | removing op expected delivered dropped => exact RemovalOp.Exact.mono hp hk
  | _ => exact hp

/-- A pass that is over has nothing left to remove or to count. -/
theorem exact_of_isOver (hp : p.isOver = true) : p.Exact t ∧ p.gone = 0 ∧ p.untallied = 0 := by
  cases p with
  | ended r => exact ⟨trivial, rfl, rfl⟩
  | died => exact ⟨trivial, rfl, rfl⟩
  | _ => cases hp

/-- A pass that leaves the store alone, and says nothing that is counted. -/
theorem Reckons.of_eq (exact : y.1.Exact y.2.store.table) (store : y.2.store = h.store)
    (hgone : y.1.gone = p.gone) (huntallied : y.1.untallied = p.untallied)
    (hnone : y.1.outcome? = none) (counts : y.2.journal.counts = h.journal.counts) :
    Reckons h p y := by
  refine ⟨exact, ?_, ?_⟩
  · unfold reported
    rw [hnone]
    exact .of_eq (by rw [store]) (by rw [store]) (by rw [store]) hgone huntallied
  · unfold measured
    rw [hnone, counts]
    exact (List.append_nil _).symm

/-- The keys of a scan are those of its entries, in another order. -/
theorem keys_sort_perm (c : Cipher) (xs : List Entry) :
    ((sort c xs).1.map Prod.fst ++ (sort c xs).2.1).Perm (xs.map Entry.key) := by
  induction xs with
  | nil => exact .nil
  | cons x xs ih =>
    cases ho : c.openEvent x.value with
    | ok event =>
      rw [(sort_of_open xs ho).1, (sort_of_open xs ho).2]
      exact ih.cons _
    | error fault =>
      rw [(sort_of_error xs ho).1, (sort_of_error xs ho).2]
      exact List.perm_middle.trans (ih.cons _)

/-- Sorting a scan counts nothing. -/
theorem counts_sort (c : Cipher) (xs : List Entry) : Journal.counts (sort c xs).2.2 = [] := by
  induction xs with
  | nil => rfl
  | cons x xs ih =>
    simp only [sort]
    split
    · exact ih
    · exact ih

/-- What has been scanned is named, each entry once. -/
theorem reckons_scanned {n : Nat} (hnamed : ∀ x ∈ h.store.table.toList, x.key ≠ [])
    (c : Cipher) (style : SinkStyle) :
    Reckons h starting ((scanned c style (h.store.table.toList.take n)).1,
      h.report (scanned c style (h.store.table.toList.take n)).2) := by
  generalize hxs : h.store.table.toList.take n = xs
  have hsub : xs.Sublist h.store.table.toList := hxs ▸ List.take_sublist n _
  have hperm := keys_sort_perm c xs
  have hlists : h.store.table.Lists ((sort c xs).1.map Prod.fst ++ (sort c xs).2.1)
      (((sort c xs).1.map Prod.snd).length + (sort c xs).2.1.length) := by
    refine ⟨by simp, hperm.nodup_iff.2 (h.store.table.nodup_keys.sublist (hsub.map _)),
      fun k hk => ?_, fun k hk => ?_⟩
    · obtain ⟨x, hx, rfl⟩ := List.mem_map.1 (hperm.mem_iff.1 hk)
      exact hnamed x (hsub.subset hx)
    · obtain ⟨x, hx, rfl⟩ := List.mem_map.1 (hperm.mem_iff.1 hk)
      exact Table.contains_iff.2 ⟨x, hsub.subset hx, rfl⟩
  have hcounts : (h.report (sort c xs).2.2).journal.counts = h.journal.counts := by
    rw [Hub.journal_report, Journal.counts_append, counts_sort, List.append_nil]
  unfold scanned
  split
  · refine .of_eq trivial rfl rfl rfl rfl ?_
    rw [Hub.journal_report, List.append_nil]
  · dsimp only
    split
    · next hnone =>
      rw [List.isEmpty_iff.1 hnone] at hlists
      exact .of_eq hlists rfl rfl rfl rfl hcounts
    · exact .of_eq hlists rfl rfl rfl rfl hcounts

/-- A pass that has come to something reports what it has removed. -/
theorem reckons_conclude {h' : Hub} {o : Outcome} (store : h'.store = h.store)
    (counts : h'.journal.counts = h.journal.counts) (hgone : p.gone = o.removed)
    (huntallied : p.untallied = 0) : Reckons h p (conclude o h') := by
  have hstore : (conclude o h').2.store = h.store := (store_conclude o h').trans store
  refine ⟨trivial, ⟨by rw [hstore], ?_, ?_⟩, ?_⟩
  · rw [hstore, hgone]
    exact congrArg (· + o.removed) (Nat.add_zero _)
  · rw [hstore, hgone, huntallied]
    rfl
  · rw [← counts]
    cases o with
    | empty => exact (List.append_nil _).symm
    | delivered n m => exact Journal.counts_append _ _
    | failed => exact Journal.counts_append _ _

/-- A removal that has ended is reckoned with what was to be removed. -/
theorem reckons_removed {r : Except StoreFault Nat} {expected delivered dropped : Nat}
    (ho : (RemovalOp.done r).Exact (delivered + dropped) h.store.table) :
    Reckons h (removing (.done r) expected delivered dropped)
      (removed expected delivered dropped h r) := by
  cases r with
  | error fault => exact ho.elim
  | ok n =>
    refine reckons_conclude ?_ ?_ ho rfl
    · split <;> rfl
    · split
      · rw [Hub.incident, Hub.journal_report, Journal.counts_append]
        exact List.append_nil _
      · rfl

/-- A walk that has ended is reckoned with what it has deleted. -/
theorem reckons_walked {r : Except StoreFault WalkSummary} {delivered dropped : Nat}
    {refused : Bool} (ho : (WalkOp.done r).Exact (delivered + dropped))
    (haborted : refused = (WalkOp.done r).isAborted) :
    Reckons h (walking (.done r) delivered dropped refused)
      (walked delivered dropped refused h r) := by
  cases r with
  | error fault => exact .of_eq trivial rfl rfl rfl rfl rfl
  | ok summary =>
    obtain ⟨visited, deleted, committed⟩ := summary
    subst haborted
    unfold walked
    cases committed with
    | false => exact reckons_conclude rfl rfl rfl rfl
    | true =>
      obtain ⟨hdeleted, hle⟩ := ho
      dsimp only
      rw [if_neg (show ¬ (WalkOp.done (.ok ⟨visited, deleted, true⟩)).isAborted = true by
        exact Bool.false_ne_true)]
      split
      · next hzero =>
        -- a walk that has visited nothing has deleted nothing
        have hnone : deleted = 0 := by omega
        exact .of_eq trivial rfl hnone.symm rfl rfl rfl
      · exact reckons_conclude rfl rfl hdeleted rfl

/-- An entry that is looked at is reckoned with what the walk has deleted. -/
theorem reckons_look {x : Entry} {delivered dropped : Nat} {refused : Bool}
    (hx : op.offered? = some x) (ho : op.Exact (delivered + dropped)) (c : Cipher) :
    Reckons h (walking op delivered dropped refused) (look c x op delivered dropped h) := by
  obtain ⟨rest, visited, deleted, rfl⟩ := WalkOp.offered?_eq_some_iff.1 hx
  obtain ⟨hdeleted, hle⟩ := ho
  unfold look
  split
  · exact ⟨⟨⟨hdeleted, Nat.le_succ_of_le hle⟩, rfl⟩, .of_eq rfl rfl rfl rfl rfl,
      (List.append_nil _).symm⟩
  · split
    · exact .of_eq ⟨hdeleted, hle⟩ rfl rfl rfl rfl rfl
    · refine ⟨⟨⟨congrArg (· + 1) hdeleted, Nat.succ_le_succ hle⟩, rfl⟩,
        .of_eq rfl rfl rfl rfl rfl, ?_⟩
      exact Journal.counts_append _ _

/-- A recount that has ended is reckoned with nothing. -/
theorem reckons_recounted {r : Except StoreFault Nat} :
    Reckons h (recounting (.done r)) (recounted h r) := by
  cases r with
  | error fault => exact .of_eq trivial rfl rfl rfl rfl rfl
  | ok actual =>
    refine reckons_conclude rfl ?_ rfl rfl
    rw [Hub.measure, Hub.journal_report, Journal.counts_append]
    exact List.append_nil _

/-- Where nothing keeps a removal from being committed, a step of a pass removes what it counts, and
    reports what it has removed. -/
theorem Exact.step (hp : p.Exact h.store.table) (hf : p.Fits s a h.store.files)
    (hspare : h.faults.SparesRemovals) (isOpen : h.store.closed = false)
    (hnamed : ∀ x ∈ h.store.table.toList, x.key ≠ []) (hs : p.step s h = some y) :
    Reckons h p y := by
  cases turn_of_step hs with
  | scanFails => exact .of_eq trivial rfl rfl rfl rfl rfl
  | scan batch hscan =>
    obtain rfl := Faults.eq_take_of_scan hscan
    exact reckons_scanned hnamed _ _
  | walk =>
    -- a walk begins with nothing that it has deleted, also if it is going to fail
    have hwalk : h.faults.walk.Exact 0 ∧ h.faults.walk.isAborted = false ∧
        h.faults.walk.gone = 0 ∧ h.faults.walk.untallied = 0 := by
      unfold Faults.walk
      split <;> exact ⟨by trivial, rfl, rfl, rfl⟩
    obtain ⟨hexact, haborted, hgone, huntallied⟩ := hwalk
    exact .of_eq ⟨hexact, haborted.symm⟩ rfl hgone huntallied rfl rfl
  | clear =>
    rw [hspare.remove_eq]
    exact .of_eq hp rfl rfl rfl rfl rfl
  | remove ho =>
    rw [hspare.committing] at ho
    obtain ⟨-, -, keys, -, hfits⟩ := hf
    obtain ⟨hexact, hsettles⟩ := RemovalOp.Exact.step hp hfits isOpen ho
    refine ⟨hexact, hsettles, ?_⟩
    rw [Hub.journal_report, Journal.counts_append, RemovalOp.counts_step ho]
    rfl
  | removed => exact reckons_removed hp
  | look hx => exact reckons_look hx hp.1 _
  | walkOn hx ho =>
    obtain ⟨hexact, haborted⟩ := hp
    obtain ⟨hexact, hbefore, hafter, hsettles⟩ := hexact.step hf.1 ho
    rw [hbefore] at haborted
    exact ⟨⟨hexact, haborted.trans hafter.symm⟩, hsettles, (List.append_nil _).symm⟩
  | walked => exact reckons_walked hp.1 hp.2
  | recount => exact .of_eq trivial rfl rfl rfl rfl rfl
  | recountOn ho =>
    refine ⟨trivial, ?_, (List.append_nil _).symm⟩
    cases RecountOp.step_cases ho <;> exact .of_eq rfl rfl rfl rfl rfl
  | recounted => exact reckons_recounted

/-- Whatever the sink answers, nothing is removed by it, and a refusal is reported. -/
theorem Exact.answer (hp : p.Exact h.store.table) (hf : p.Fits s a h.store.files) (r : SinkAnswer)
    {events : List Event} (hc : p.call? = some events) : Reckons h p (p.answer r h) := by
  cases p with
  | delivering calls delivered dropped keys =>
    cases r with
    | accepted =>
      simp only [Pass.answer]
      split <;> exact .of_eq hp rfl rfl rfl rfl rfl
    | refused e =>
      refine reckons_conclude rfl ?_ rfl rfl
      rw [Hub.incident, Hub.journal_report, Journal.counts_append]
      exact List.append_nil _
    | died => exact .of_eq trivial rfl rfl rfl rfl rfl
  | offering op event delivered dropped =>
    obtain ⟨seen, x, hx, -⟩ := hf
    obtain ⟨rest, visited, deleted, rfl⟩ := WalkOp.offered?_eq_some_iff.1 hx
    obtain ⟨hdeleted, hle⟩ := hp
    cases r with
    | accepted =>
      refine ⟨⟨⟨?_, ?_⟩, rfl⟩, .of_eq rfl rfl rfl rfl rfl, (List.append_nil _).symm⟩
      · show deleted + 1 = delivered + 1 + dropped
        omega
      · show delivered + 1 + dropped ≤ visited + 1
        omega
    | refused e =>
      exact ⟨⟨trivial, rfl⟩, .of_eq rfl rfl rfl rfl rfl, Journal.counts_append _ _⟩
    | died => exact ⟨trivial, .of_eq rfl rfl rfl rfl rfl, (List.append_nil _).symm⟩
  | _ => cases hc

end Pass

end Outbox
