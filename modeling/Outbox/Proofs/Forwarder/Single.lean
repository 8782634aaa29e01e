import Outbox.Proofs.Forwarder.Course

namespace Outbox

/-!
# Passes without a batch size

A pass that walks over all entries under the lock, before any sink:

* `Pass.Handled` — the entries that a pass gets to before the queue is told to stop.
* `Pass.leads_of_committing` — the end of a walk.
* `Pass.leads_of_rest` — the rest of a walk, whatever it has done so far.
* `Forwarder.single_exact` — all that a pass without a batch size does.
-/

/-! ### What entries open to -/

namespace Cipher

variable {c : Cipher}

/-- Every entry is readable or not. -/
theorem length_openAll_add_unreadable (c : Cipher) (xs : List Entry) :
    (c.openAll xs).length + c.unreadable xs = xs.length := by
  induction xs with
  | nil => rfl
  | cons x xs ih =>
    cases ho : c.openEvent x.value with
    | ok event =>
      rw [openAll_of_open ho, unreadable_of_open ho, List.length_cons, List.length_cons]
      omega
    | error fault =>
      rw [openAll_of_error ho, unreadable_of_error ho, List.length_cons]
      omega

/-- An event comes from an entry. -/
theorem exists_of_lt_openAll {xs : List Entry} {i : Nat} (hi : i < (c.openAll xs).length) :
    ∃ before x after, xs = before ++ x :: after ∧ (c.openAll before).length = i := by
  induction xs generalizing i with
  | nil => cases hi
  | cons x xs ih =>
    cases ho : c.openEvent x.value with
    | error fault =>
      rw [openAll_of_error ho] at hi
      obtain ⟨before, y, after, rfl, rfl⟩ := ih hi
      exact ⟨x :: before, y, after, rfl, by rw [openAll_of_error ho]⟩
    | ok event =>
      cases i with
      | zero => exact ⟨[], x, xs, rfl, rfl⟩
      | succ i =>
        rw [openAll_of_open ho, List.length_cons, Nat.add_lt_add_iff_right] at hi
        obtain ⟨before, y, after, rfl, rfl⟩ := ih hi
        exact ⟨x :: before, y, after, rfl, by rw [openAll_of_open ho, List.length_cons]⟩

end Cipher

namespace Pass

/-! ### The entries that are handled -/

/-- The entries that a pass gets to before the queue is told to stop, if every call is accepted, and
    the others: an entry is handled if the queue has not been told to stop before the pass nor in
    any call for the entries before it. -/
structure Handled (c : Cipher) (flag : Bool) (replies : Nat → SinkReply)
    (es handled left : List Entry) : Prop where
  split : es = handled ++ left
  iff : ∀ (before : List Entry) (x : Entry) (after : List Entry), es = before ++ x :: after →
    (before.length < handled.length ↔
      flag = false ∧ ∀ j < (c.openAll before).length, (replies j).raises = false)

namespace Handled

variable {c : Cipher} {replies : Nat → SinkReply} {x : Entry} {es handled left : List Entry}

theorem nil {flag : Bool} : Handled c flag replies [] [] [] := by
  refine ⟨rfl, fun _ _ _ h => ?_⟩
  simp at h

/-- After the queue has been told to stop nothing is handled. -/
theorem of_flag : Handled c true replies es [] es :=
  ⟨rfl, fun _ _ _ _ => by simp⟩

theorem of_error {fault : Error} (ho : c.openEvent x.value = .error fault)
    (h : Handled c false replies es handled left) :
    Handled c false replies (x :: es) (x :: handled) left := by
  refine ⟨congrArg (x :: ·) h.split, fun before y after heq => ?_⟩
  cases before with
  | nil => simp [Cipher.openAll]
  | cons z before =>
    obtain ⟨rfl, hrest⟩ := List.cons.inj heq
    rw [Cipher.openAll_of_error ho, ← h.iff _ _ _ hrest]
    simp

/-- The call for an entry may tell the queue to stop. -/
theorem of_open {event : Event} (ho : c.openEvent x.value = .ok event)
    (h : Handled c (replies 0).raises (fun n => replies (n + 1)) es handled left) :
    Handled c false replies (x :: es) (x :: handled) left := by
  refine ⟨congrArg (x :: ·) h.split, fun before y after heq => ?_⟩
  cases before with
  | nil => simp [Cipher.openAll]
  | cons z before =>
    obtain ⟨rfl, hrest⟩ := List.cons.inj heq
    have hlast : (List.length (x :: before) < (x :: handled).length) =
        (before.length < handled.length) := by simp
    rw [Cipher.openAll_of_open ho, hlast, h.iff _ _ _ hrest]
    constructor
    · rintro ⟨hfirst, hnext⟩
      refine ⟨rfl, fun j hj => ?_⟩
      cases j with
      | zero => exact hfirst
      | succ j => exact hnext j (by simpa using hj)
    · rintro ⟨-, hall⟩
      exact ⟨hall 0 (by simp), fun j hj => hall (j + 1) (by simpa using hj)⟩

/-- There is only one way to divide the entries. -/
theorem unique {flag : Bool} {handled' left' : List Entry}
    (h : Handled c flag replies es handled left) (h' : Handled c flag replies es handled' left') :
    handled = handled' ∧ left = left' := by
  -- the entry after the shorter list would be handled and not handled
  have hle : ∀ {handled left handled' left' : List Entry},
      Handled c flag replies es handled left → Handled c flag replies es handled' left' →
      handled'.length ≤ handled.length := by
    intro handled left handled' left' h h'
    by_contra hlt
    cases left with
    | nil =>
      have hlength := congrArg List.length (h.split.symm.trans h'.split)
      simp only [List.length_append, List.length_nil] at hlength
      omega
    | cons y left =>
      have hboth := (h.iff _ _ _ h.split).trans (h'.iff _ _ _ h.split).symm
      omega
  exact List.append_inj (h.split.symm.trans h'.split) (Nat.le_antisymm (hle h' h) (hle h h'))

/-- If the queue is never told to stop all entries are handled. -/
theorem left_eq_nil {flag : Bool} (h : Handled c flag replies es handled left)
    (hflag : flag = false)
    (hall : ∀ j < (c.openAll handled).length, (replies j).raises = false) : left = [] := by
  cases left with
  | nil => rfl
  | cons y left => exact absurd ((h.iff _ _ _ h.split).2 ⟨hflag, hall⟩) (Nat.lt_irrefl _)

/-- An entry is handed over only if the queue has not been told to stop by then. -/
theorem down_of_opened {flag : Bool} (h : Handled c flag replies es handled left) {i : Nat}
    (hi : i < (c.openAll handled).length) :
    flag = false ∧ ∀ j < i, (replies j).raises = false := by
  -- the entries before that of the call
  obtain ⟨before, x, after, rfl, rfl⟩ := Cipher.exists_of_lt_openAll hi
  have heq : es = before ++ x :: (after ++ left) := by rw [h.split]; simp
  exact (h.iff _ _ _ heq).1 (by simp)

end Handled

/-! ### The walk -/

variable {s : Forwarder.Settings} {replies : Nat → SinkReply} {h : Hub} {before : Store}

/-- A walk that has come to its end is committed. -/
theorem leads_of_committing (replies : Nat → SinkReply) {w : Table} (visited deleted : Nat)
    (works : h.faults.committing = none)
    (free : before.writer = none) (hst : h.store = { before with writer := some w })
    (hsome : 0 < visited) (delivered dropped : Nat) :
    Leads s replies (.walking (.committing visited deleted) delivered dropped false) h []
      (.ended (.ok (.delivered delivered dropped))) (Drops deleted w.toList before) := by
  obtain ⟨store, faults, style, flag, wake, commits, journal⟩ := h
  obtain ⟨table, writer, counter, puts, deletes, failed, closed, mapSize⟩ := before
  obtain rfl : writer = none := free
  obtain rfl := hst
  obtain ⟨visited, rfl⟩ := Nat.exists_eq_add_one.2 hsome
  have hcommit : (walking (.committing (visited + 1) deleted) delivered dropped false).step s
      ⟨⟨table, some w, counter, puts, deletes, failed, closed, mapSize⟩, faults, style, flag, wake,
        commits, journal⟩ =
      some (walking (if deleted = 0 then .done (.ok ⟨visited + 1, 0, true⟩)
          else .releasing (visited + 1) deleted) delivered dropped false,
        ⟨⟨w, none, counter, puts, deletes, failed, closed, mapSize⟩, faults, style, flag, wake,
        commits, journal⟩) := by
    have works : faults.committing = none := works
    simp [step, WalkOp.offered?, WalkOp.result?, WalkOp.step, works, Store.commit]
  refine .step hcommit ?_
  by_cases hnone : deleted = 0
  · subst hnone
    exact .step rfl <| .ended rfl ⟨w, rfl, by rw [Store.release_zero]; rfl⟩
  · rw [if_neg hnone]
    exact .step rfl <| .step rfl <| .step rfl <| .ended rfl ⟨w, rfl, rfl⟩

/-- A pass that has been told to stop ends its walk at the next entry. -/
theorem step_of_told {x : Entry} {rest : List Entry} {visited deleted delivered dropped : Nat}
    (hflag : h.flag = true) :
    (walking (.walking (x :: rest) visited deleted) delivered dropped false).step s h =
      some (walking (.committing (visited + 1) deleted) delivered dropped false, h) := by
  show some (look _ _ _ _ _ _) = _
  unfold look
  rw [if_pos hflag]
  rfl

/-- An unreadable entry is dropped. -/
theorem step_of_unreadable {x : Entry} {rest : List Entry}
    {visited deleted delivered dropped : Nat} {fault : Error} (hflag : h.flag = false)
    (ho : s.cipher.openEvent x.value = .error fault) :
    (walking (.walking (x :: rest) visited deleted) delivered dropped false).step s h =
      some (walking (.walking rest (visited + 1) (deleted + 1)) delivered (dropped + 1) false,
        Hub.report { h with store := { h.store with
          writer := some (h.store.working.erase x.key) } }
          [.incident (.unreadableEntry x.key fault)]) := by
  have hdown : ¬ h.flag = true := by simp [hflag]
  show some (look _ _ _ _ _ _) = _
  unfold look
  rw [if_neg hdown, ho]
  rfl

/-- The event of a readable entry is offered to the sink. -/
theorem step_of_readable {x : Entry} {rest : List Entry}
    {visited deleted delivered dropped : Nat} {event : Event} (hflag : h.flag = false)
    (ho : s.cipher.openEvent x.value = .ok event) :
    (walking (.walking (x :: rest) visited deleted) delivered dropped false).step s h =
      some (offering (.walking (x :: rest) visited deleted) event delivered dropped, h) := by
  have hdown : ¬ h.flag = true := by simp [hflag]
  show some (look _ _ _ _ _ _) = _
  unfold look
  rw [if_neg hdown, ho]

/-- The rest of a walk: the entries that it gets to are handed over or dropped. -/
theorem leads_of_rest (replies : Nat → SinkReply) {rest : List Entry} {w : Table} {n : Nat}
    (works : h.faults.committing = none) (free : before.writer = none)
    (hst : h.store = { before with writer := some w }) (hw : w.toList = rest)
    (hsome : 0 < n + rest.length) (delivered dropped : Nat) :
    ∃ handled left, Handled s.cipher h.flag replies rest handled left ∧
      ∃ made a q, Handover replies (SinkStyle.each.calls (s.cipher.openAll handled)) made a ∧
        Leads s replies (.walking (.walking rest n n) delivered dropped false) h made q
          (Settles (.delivered (delivered + (s.cipher.openAll handled).length)
              (dropped + s.cipher.unreadable handled)) before
            (Drops (n + handled.length) left before) a q) := by
  induction rest generalizing h replies w n delivered dropped with
  | nil =>
    refine ⟨[], [], .nil, [], .accepted, .ended (.ok (.delivered delivered dropped)), .done, ?_⟩
    have hlast := leads_of_committing (s := s) replies n n works free hst hsome delivered dropped
    rw [hw] at hlast
    exact .step rfl (hlast.mono fun _ hdrops => ⟨rfl, hdrops⟩)
  | cons x rest ih =>
    have hw' : (w.erase x.key).toList = rest :=
      Table.toList_erase_middle (show w.toList = [] ++ x :: rest from hw)
    have hmore : 0 < n + 1 + rest.length := by omega
    -- the store after the entry has been deleted, and after the walk has been given up
    have hdel : { h.store with writer := some (h.store.working.erase x.key) } =
        { before with writer := some (w.erase x.key) } := by
      rw [hst]
      rfl
    have habort : h.store.abort = before := by
      rw [hst]
      unfold Store.abort
      rw [← free]
    cases hflag : h.flag with
    | true =>
      have hlast := leads_of_committing (s := s) replies (n + 1) n works free hst n.succ_pos
        delivered dropped
      rw [hw] at hlast
      exact ⟨[], x :: rest, .of_flag, [], .accepted, .ended (.ok (.delivered delivered dropped)),
        .done, .step (step_of_told hflag) (hlast.mono fun _ hdrops => ⟨rfl, hdrops⟩)⟩
    | false =>
      cases ho : s.cipher.openEvent x.value with
      | error fault =>
        obtain ⟨handled, left, hhandled, made, a, q, hmade, hleads⟩ := ih replies
          (h := Hub.report { h with store := { h.store with
            writer := some (h.store.working.erase x.key) } }
            [.incident (.unreadableEntry x.key fault)]) works hdel hw' hmore delivered (dropped + 1)
        have hhandled : Handled s.cipher false replies rest handled left := hflag ▸ hhandled
        rw [Nat.add_assoc, Nat.add_comm 1, Nat.add_assoc n 1, Nat.add_comm 1] at hleads
        refine ⟨x :: handled, left, .of_error ho hhandled, made, a, q, ?_,
          .step (step_of_unreadable hflag ho) ?_⟩
        · rw [Cipher.openAll_of_error ho]
          exact hmade
        · rw [Cipher.openAll_of_error ho, Cipher.unreadable_of_error ho]
          exact hleads
      | ok event =>
        -- the store is not touched while the call lasts
        have hstore := h.store_during (replies 0).raises
        have hfaults := h.faults_during (replies 0).raises
        have hlater : (h.during (replies 0).raises).flag = (replies 0).raises := by
          rw [h.flag_during, hflag, Bool.false_or]
        obtain ⟨handled, left, hhandled, made, a, q, hmade, hleads⟩ := ih (fun n => replies (n + 1))
          (h := { h.during (replies 0).raises with store := { h.store with
            writer := some (h.store.working.erase x.key) } })
          (hfaults ▸ works) hdel hw' hmore (delivered + 1) dropped
        have hhandled : Handled s.cipher (replies 0).raises (fun n => replies (n + 1)) rest handled
          left := hlater ▸ hhandled
        rw [Nat.add_assoc, Nat.add_comm 1, Nat.add_assoc n 1, Nat.add_comm 1] at hleads
        refine ⟨x :: handled, left, .of_open ho hhandled, ?_⟩
        rw [Cipher.openAll_of_open ho, Cipher.unreadable_of_open ho]
        cases ha : (replies 0).answer with
        | accepted =>
          refine ⟨[event] :: made, a, q, .more ha hmade,
            .step (step_of_readable hflag ho) (.answer rfl ?_)⟩
          rw [ha]
          show Leads s _ _ { h.during (replies 0).raises with
            store := { (h.during (replies 0).raises).store with
              writer := some ((h.during (replies 0).raises).store.working.erase x.key) } } _ _ _
          rw [hstore]
          exact hleads
        | refused e =>
          refine ⟨_, .refused e, .ended (.ok .failed), .broken ha nofun,
            .step (step_of_readable hflag ho) (.answer rfl ?_)⟩
          rw [ha]
          exact .step rfl (.ended rfl ⟨rfl, (congrArg Store.abort hstore).trans habort⟩)
        | died =>
          refine ⟨_, .died, .died, .broken ha nofun,
            .step (step_of_readable hflag ho) (.answer rfl ?_)⟩
          rw [ha]
          exact .ended rfl ⟨rfl, (congrArg Store.abort hstore).trans habort⟩

/-- Without a batch size, a pass begins a walk under the lock. -/
theorem leads_of_lock {calls : List (List Event)} {q : Pass} {Q : Store → Prop}
    (single : ¬ 1 < s.batchSize) (hr : h.Ready) (walks : h.faults.walking = none)
    (next : Leads s replies (.walking (.walking h.store.table.toList 0 0) 0 0 false)
      { h with store := { h.store with writer := some h.store.table } } calls q Q) :
    Leads s replies .starting h calls q Q := by
  have hwalk : h.faults.walk = .entering := by
    unfold Faults.walk
    rw [walks]
  have hstart : starting.step s h = some (walking .entering 0 0 false, h) := by
    simp only [step, if_neg single, hwalk]
  have henter : (walking .entering 0 0 false).step s h =
      some (walking .locking 0 0 false, h) := by
    simp [step, WalkOp.offered?, WalkOp.result?, WalkOp.step, hr.isOpen]
  have hlock : (walking .locking 0 0 false).step s h =
      some (walking (.walking h.store.table.toList 0 0) 0 0 false,
        { h with store := { h.store with writer := some h.store.table } }) := by
    simp [step, WalkOp.offered?, WalkOp.result?, WalkOp.step, Store.lock, hr.free]
  exact .step hstart (.step henter (.step hlock next))

/-- A walk over nothing finds nothing. -/
theorem leads_of_nothing (replies : Nat → SinkReply) (hr : h.Ready)
    (works : h.faults.committing = none) :
    Leads s replies (.walking (.walking [] 0 0) 0 0 false)
      { h with store := { h.store with writer := some h.store.table } } []
      (.ended (.ok .empty)) (· = h.store.recounted h.store.table.size) := by
  have hcommit : Store.commit { h.store with writer := some h.store.table } = h.store := by
    unfold Store.commit
    rw [← hr.free]
    rfl
  have hdone : (walking (.committing 0 0) 0 0 false).step s
      { h with store := { h.store with writer := some h.store.table } } =
      some (walking (.done (.ok ⟨0, 0, true⟩)) 0 0 false, h) := by
    simp only [step, WalkOp.offered?, WalkOp.result?, WalkOp.step, works, Option.map_some, if_true,
      hcommit]
  exact .step rfl (.step hdone (.step rfl (leads_of_emptied replies hr)))

end Pass

/-- A pass without a batch size over a store that no other thread works with, whose walk can be
    committed. The events of the readable entries are handed over one by one, in the order of the
    keys, and no call begins after the queue has been told to stop. If a call is refused or dies it
    is the last one, and the store is as it was. Otherwise the entries that were handled before the
    queue was told to stop are removed, and these are as many as were delivered or dropped. -/
theorem Forwarder.single_exact {s : Settings} {h : Hub} (replies : Nat → SinkReply)
    (single : ¬ 1 < s.batchSize) (ready : h.Ready) (walks : h.faults.walking = none)
    (works : h.faults.committing = none) :
    ∃ calls q g, Pass.Course s replies .starting h calls q g ∧
      (∀ calls' q' g', Pass.Course s replies .starting h calls' q' g' →
        calls' = calls ∧ q' = q ∧ g' = g) ∧
      calls <+: SinkStyle.each.calls (s.cipher.openAll h.store.table.toList) ∧
      (∀ i < calls.length, h.flag = false ∧ ∀ j < i, (replies j).raises = false) ∧
      (h.store.table.toList = [] → q = .ended (.ok .empty) ∧
        g.store = h.store.recounted 0) ∧
      (h.store.table.toList ≠ [] → ∃ handled left,
        Pass.Handled s.cipher h.flag replies h.store.table.toList handled left ∧
        (s.cipher.openAll handled).length + s.cipher.unreadable handled = handled.length ∧
        ∃ a, Handover replies (SinkStyle.each.calls (s.cipher.openAll handled)) calls a ∧
          Pass.Settles (.delivered (s.cipher.openAll handled).length (s.cipher.unreadable handled))
            h.store (Pass.Drops handled.length left h.store) a q g.store ∧
          (a = .accepted → h.flag = false → (∀ j < calls.length, (replies j).raises = false) →
            left = [])) := by
  by_cases hnone : h.store.table.toList = []
  · have hleads := Pass.leads_of_lock single ready walks
      (hnone ▸ Pass.leads_of_nothing (s := s) replies ready works)
    obtain ⟨g, hcourse, hstore⟩ := hleads
    have hsize : h.store.table.size = 0 := by
      unfold Table.size
      rw [hnone]
      rfl
    rw [hsize] at hstore
    exact ⟨_, _, g, hcourse, fun _ _ _ h => hcourse.unique h, List.nil_prefix, nofun,
      fun _ => ⟨rfl, hstore⟩, fun hsome => absurd hnone hsome⟩
  · have hsome : 0 < 0 + h.store.table.toList.length := by
      have := List.length_pos_iff.2 hnone
      omega
    obtain ⟨handled, left, hhandled, made, a, q, hmade, hrest⟩ :=
      Pass.leads_of_rest (s := s) replies
        (h := { h with store := { h.store with writer := some h.store.table } }) works ready.free
        rfl rfl hsome 0 0
    rw [Nat.zero_add, Nat.zero_add, Nat.zero_add] at hrest
    obtain ⟨g, hcourse, hsettles⟩ := Pass.leads_of_lock single ready walks hrest
    have hhandled : Pass.Handled s.cipher h.flag replies h.store.table.toList handled left :=
      hhandled
    -- the calls are for the first of the entries that are handled
    have hlength : ∀ {i : Nat}, i < made.length → i < (s.cipher.openAll handled).length := by
      intro i hi
      have hle := hmade.isPrefix.length_le
      rw [SinkStyle.calls, List.length_map] at hle
      omega
    refine ⟨made, q, g, hcourse, fun _ _ _ h => hcourse.unique h, ?_,
      fun i hi => hhandled.down_of_opened (hlength hi), fun hnil => absurd hnil hnone,
      fun _ => ⟨handled, left, hhandled, s.cipher.length_openAll_add_unreadable handled, a, hmade,
        hsettles, ?_⟩⟩
    · refine hmade.isPrefix.trans ?_
      rw [hhandled.split, Cipher.openAll_append, SinkStyle.calls, SinkStyle.calls, List.map_append]
      exact List.prefix_append _ _
    · rintro rfl hflag hall
      refine hhandled.left_eq_nil hflag fun j hj => hall j ?_
      rw [hmade.made_eq_of_accepted, SinkStyle.calls, List.length_map]
      exact hj

/-- Five entries, of which the first and the third cannot be read. -/
def Table.patchwork : Table :=
  let value := ((Cipher.plaintext.sealEvent (.ofNat 0) Forwarder.note).toOption).getD []
  ((((Table.empty.insert [97] []).insert [98] value).insert [99] []).insert [100] value).insert
    [101] value

/-- An open store with these entries and a counter that is wrong. -/
def Hub.undercounted : Hub :=
  ⟨{ Store.ofTable .patchwork 64 with counter := 3 }, .none, .whole, false, .empty, .idle, []⟩

/-- The queue is told to stop in the second call: four entries are gone and the last one stays. If
    the second call is refused instead, all five stay. -/
theorem Forwarder.single_exact_of_patchwork :
    let s := Settings.of .plaintext 1 0
    (¬ 1 < s.batchSize ∧ Hub.undercounted.Ready ∧ Hub.undercounted.faults.walking = none ∧
      Hub.undercounted.faults.committing = none) ∧
    (∃ g, Pass.Course s (fun n => ⟨.accepted, n = 1⟩) .starting .undercounted [[note], [note]]
        (.ended (.ok (.delivered 2 2))) g ∧
      g.store.table.toList.map Entry.key = [[101]] ∧ g.store.count = 0 ∧ g.store.deletes = 4) ∧
    ∃ g, Pass.Course s (fun n => ⟨if n = 1 then .refused .queueUnavailable else .accepted, false⟩)
        .starting .undercounted [[note], [note]] (.ended (.ok .failed)) g ∧
      g.store = Hub.undercounted.store := by
  intro s
  let es := Table.patchwork.toList
  have single : ¬ 1 < s.batchSize := by decide
  have ready : Hub.undercounted.Ready := ⟨rfl, rfl, rfl⟩
  have hsome : es ≠ [] := by decide +kernel
  obtain ⟨v, hes, hgood⟩ : ∃ v, es = [⟨[97], []⟩, ⟨[98], v⟩, ⟨[99], []⟩, ⟨[100], v⟩, ⟨[101], v⟩] ∧
      s.cipher.openEvent v = .ok note := ⟨_, rfl, by decide +kernel⟩
  obtain ⟨fault, hbad⟩ : ∃ fault, s.cipher.openEvent [] = .error fault := ⟨_, rfl⟩
  refine ⟨⟨single, ready, rfl, rfl⟩, ?_, ?_⟩
  · have hstop : Pass.Handled s.cipher false (fun n => ⟨.accepted, n = 1⟩) es (es.take 4)
        (es.drop 4) := by
      rw [hes]
      exact .of_error hbad (.of_open hgood (.of_error hbad (.of_open hgood .of_flag)))
    have hopen : s.cipher.openAll (es.take 4) = [note, note] := by decide +kernel
    have hbad : s.cipher.unreadable (es.take 4) = 2 := by decide +kernel
    have hlength : (es.take 4).length = 4 := by decide +kernel
    have hleft : (es.drop 4).map Entry.key = [[101]] := by decide +kernel
    obtain ⟨calls, q, g, hcourse, -, -, -, -, hrest⟩ := Forwarder.single_exact
      (fun n => ⟨.accepted, n = 1⟩) single ready rfl rfl
    obtain ⟨handled, left, hhandled, -, a, hmade, hsettles, -⟩ := hrest hsome
    -- the pass handles these entries only, so its calls and its end are those of the course
    obtain ⟨rfl, rfl⟩ := hhandled.unique hstop
    rw [hopen] at hmade hsettles
    rw [hbad, hlength] at hsettles
    cases hmade with
    | broken answer hne => exact absurd answer.symm hne
    | more _ hmade =>
      cases hmade with
      | broken answer hne => exact absurd answer.symm hne
      | more _ hmade =>
        cases hmade
        obtain ⟨rfl, t, ht, hstore⟩ := hsettles
        refine ⟨g, hcourse, ?_⟩
        rw [hstore, ht]
        exact ⟨hleft, rfl, rfl⟩
  · have hall : Pass.Handled s.cipher false
        (fun n => ⟨if n = 1 then .refused .queueUnavailable else .accepted, false⟩) es es [] := by
      rw [hes]
      exact .of_error hbad (.of_open hgood (.of_error hbad (.of_open hgood (.of_open hgood .nil))))
    have hopen : s.cipher.openAll es = [note, note, note] := by decide +kernel
    obtain ⟨calls, q, g, hcourse, -, -, -, -, hrest⟩ := Forwarder.single_exact
      (fun n => ⟨if n = 1 then .refused .queueUnavailable else .accepted, false⟩) single ready rfl
      rfl
    obtain ⟨handled, left, hhandled, -, a, hmade, hsettles, -⟩ := hrest hsome
    obtain ⟨rfl, rfl⟩ := hhandled.unique hall
    rw [hopen] at hmade
    cases hmade with
    | broken answer hne => exact absurd answer.symm hne
    | more _ hmade =>
      cases hmade with
      | more accepted => cases accepted
      | broken answer =>
        obtain rfl := answer
        obtain ⟨rfl, hstore⟩ := hsettles
        exact ⟨g, hcourse, hstore⟩

end Outbox
