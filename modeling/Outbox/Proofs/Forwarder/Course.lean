import Outbox.Proofs.Forwarder.Drains
import Outbox.Proofs.Forwarder.Settle
import Outbox.Proofs.Store.Whole

namespace Outbox

/-!
# Passes before any sink

A pass that no other thread comes between, whatever the sink answers:

* `SinkReply` — what comes of a call of the sink, and whether the queue is told to stop meanwhile.
* `Pass.Course` — the calls of such a pass and where it ends; there is one course (`Course.unique`).
* `Handover` — the calls of a list that are made, up to the first that is not accepted.
* `Hub.Ready` — the store is open, its lock is free, and its entries can be counted.
* `Pass.leads_of_clearing` — a pass whose events have been taken over.
* `Forwarder.batch_exact` — all that a pass with a batch size does.
-/

/-! ### Courses -/

/-- What comes of a call of the sink. -/
structure SinkReply where
  answer : SinkAnswer
  /-- Whether the queue is told to stop while the call lasts. -/
  raises : Bool

/-- The hub after the queue may have been told to stop. -/
def Hub.during (h : Hub) (raises : Bool) : Hub := if raises then h.raise else h

/-- During a call of the sink the store stays as it is. -/
theorem Hub.store_during (h : Hub) (raises : Bool) : (h.during raises).store = h.store := by
  cases raises <;> rfl

/-- So do its faults. -/
theorem Hub.faults_during (h : Hub) (raises : Bool) : (h.during raises).faults = h.faults := by
  cases raises <;> rfl

/-- During a call of the sink the flag may be raised. -/
theorem Hub.flag_during (h : Hub) (raises : Bool) :
    (h.during raises).flag = (h.flag || raises) := by
  cases raises <;> simp [during, raise]

namespace Pass

/-- A pass that nothing comes between, before a sink with some replies: the calls to come, and the
    pass and the hub in the end. -/
inductive Course (s : Forwarder.Settings) :
    (Nat → SinkReply) → Pass → Hub → List (List Event) → Pass → Hub → Prop
  | ended {replies : Nat → SinkReply} {p : Pass} {h : Hub} (hp : p.isOver = true) :
      Course s replies p h [] p h
  | step {replies : Nat → SinkReply} {p p' q : Pass} {h h' g : Hub} {calls : List (List Event)}
      (hp : p.step s h = some (p', h')) (next : Course s replies p' h' calls q g) :
      Course s replies p h calls q g
  | answer {replies : Nat → SinkReply} {p q : Pass} {h g : Hub} {events : List Event}
      {calls : List (List Event)} (hc : p.call? = some events)
      (next : Course s (fun n => replies (n + 1))
        (p.answer (replies 0).answer (h.during (replies 0).raises)).1
        (p.answer (replies 0).answer (h.during (replies 0).raises)).2 calls q g) :
      Course s replies p h (events :: calls) q g

variable {s : Forwarder.Settings} {replies : Nat → SinkReply} {p p' q q' : Pass} {h h' g g' : Hub}
  {calls calls' : List (List Event)}

/-- A pass that is over takes no step. -/
theorem step_of_isOver (hp : p.isOver = true) : p.step s h = none := by
  cases p with
  | ended r => rfl
  | died => rfl
  | _ => cases hp

/-- A pass that is over calls no sink. -/
theorem call?_of_isOver (hp : p.isOver = true) : p.call? = none := by
  cases p with
  | ended r => rfl
  | died => rfl
  | _ => cases hp

/-- There is only one course. -/
theorem Course.unique (hp : Course s replies p h calls q g)
    (hp' : Course s replies p h calls' q' g') : calls' = calls ∧ q' = q ∧ g' = g := by
  induction hp generalizing calls' q' g' with
  -- over, taking a step and waiting for the sink exclude one another, so both go on alike
  | ended hover =>
    cases hp' with
    | ended => exact ⟨rfl, rfl, rfl⟩
    | step hp =>
      rw [step_of_isOver hover] at hp
      cases hp
    | answer hc =>
      rw [call?_of_isOver hover] at hc
      cases hc
  | step hp next ih =>
    cases hp' with
    | ended hover =>
      rw [step_of_isOver hover] at hp
      cases hp
    | step hp₁ next₁ =>
      rw [hp] at hp₁
      cases hp₁
      exact ih next₁
    | answer hc =>
      rw [step_of_call hc] at hp
      cases hp
  | answer hc next ih =>
    cases hp' with
    | ended hover =>
      rw [call?_of_isOver hover] at hc
      cases hc
    | step hp =>
      rw [step_of_call hc] at hp
      cases hp
    | answer hc₁ next₁ =>
      rw [hc] at hc₁
      cases hc₁
      obtain ⟨rfl, rfl, rfl⟩ := ih next₁
      exact ⟨rfl, rfl, rfl⟩

end Pass

/-- Calls that are made one after another up to the first that is not accepted: those to be made,
    those that are made, and what comes of the last one. -/
inductive Handover : (Nat → SinkReply) → List (List Event) → List (List Event) → SinkAnswer → Prop
  | done {replies : Nat → SinkReply} : Handover replies [] [] .accepted
  | more {replies : Nat → SinkReply} {events : List Event} {planned made : List (List Event)}
      {a : SinkAnswer} (accepted : (replies 0).answer = .accepted)
      (rest : Handover (fun n => replies (n + 1)) planned made a) :
      Handover replies (events :: planned) (events :: made) a
  | broken {replies : Nat → SinkReply} {events : List Event} {planned : List (List Event)}
      {a : SinkAnswer} (answer : (replies 0).answer = a) (ha : a ≠ .accepted) :
      Handover replies (events :: planned) [events] a

/-- The calls that are made are the first ones. -/
theorem Handover.isPrefix {replies : Nat → SinkReply} {planned made : List (List Event)}
    {a : SinkAnswer} (h : Handover replies planned made a) : made <+: planned := by
  induction h with
  | done => exact List.prefix_rfl
  | more _ _ ih => exact (List.prefix_cons_inj _).2 ih
  | broken => exact ⟨_, rfl⟩

/-- Erasing the keys of the first entries of a table removes as many entries. -/
theorem RemovalOp.removed_of_append {t : Table} {xs ys : List Entry} {keys : List Bytes}
    (ht : t.toList = xs ++ ys) (hk : [] ∉ keys)
    (hkeys : ∀ key, key ∈ keys ↔ key ∈ xs.map Entry.key) :
    (eraseKeys keys t).2.1 = xs.length := by
  have hsize := size_eraseKeys keys t
  unfold Table.size at hsize
  rw [toList_eraseKeys_append ht hk hkeys, ht, List.length_append] at hsize
  omega

/-- If the last call is accepted, all are made. -/
theorem Handover.made_eq_of_accepted {replies : Nat → SinkReply} {planned made : List (List Event)}
    (h : Handover replies planned made .accepted) : made = planned := by
  generalize ha : SinkAnswer.accepted = a at h
  induction h with
  | done => rfl
  | more _ _ ih => rw [ih ha]
  | broken _ hne => exact absurd ha.symm hne

/-- A single call is made, whatever comes of it. -/
theorem Handover.made_eq {replies : Nat → SinkReply} {events : List Event}
    {made : List (List Event)} {a : SinkAnswer} (h : Handover replies [events] made a) :
    made = [events] ∧ a = (replies 0).answer := by
  cases h with
  | more accepted rest =>
    cases rest
    exact ⟨rfl, accepted.symm⟩
  | broken answer => exact ⟨rfl, answer.symm⟩

/-! ### Stores that nobody works with -/

/-- The store is open, its lock is free, and its entries can be counted. -/
structure Hub.Ready (h : Hub) : Prop where
  isOpen : h.store.closed = false
  free : h.store.writer = none
  recounts : h.faults.recounting = none

/-- A report leaves a hub ready. -/
theorem Hub.Ready.report {h : Hub} (hr : h.Ready) (j : Journal) : (h.report j).Ready :=
  ⟨hr.isOpen, hr.free, hr.recounts⟩

/-- A call of the sink leaves a hub ready. -/
theorem Hub.Ready.during {h : Hub} (hr : h.Ready) (raises : Bool) : (h.during raises).Ready := by
  cases raises with
  | false => exact hr
  | true => exact ⟨hr.isOpen, hr.free, hr.recounts⟩

namespace Pass

/-- A pass has a course, and leaves a store of a kind. -/
def Leads (s : Forwarder.Settings) (replies : Nat → SinkReply) (p : Pass) (h : Hub)
    (calls : List (List Event)) (q : Pass) (Q : Store → Prop) : Prop :=
  ∃ g, Course s replies p h calls q g ∧ Q g.store

variable {s : Forwarder.Settings} {replies : Nat → SinkReply} {p p' q : Pass} {h h' g : Hub}
  {calls : List (List Event)} {Q : Store → Prop}

/-- A pass that is over has come to its end. -/
theorem Leads.ended (hp : p.isOver = true) (hq : Q h.store) : Leads s replies p h [] p Q :=
  ⟨h, .ended hp, hq⟩

/-- A pass leads to where it leads after its next step. -/
theorem Leads.step (hp : p.step s h = some (p', h')) (next : Leads s replies p' h' calls q Q) :
    Leads s replies p h calls q Q := by
  obtain ⟨g, hg, hq⟩ := next
  exact ⟨g, .step hp hg, hq⟩

/-- A pass leads to where it leads after an answer. -/
theorem Leads.answer {events : List Event} (hc : p.call? = some events)
    (next : Leads s (fun n => replies (n + 1))
      (p.answer (replies 0).answer (h.during (replies 0).raises)).1
      (p.answer (replies 0).answer (h.during (replies 0).raises)).2 calls q Q) :
    Leads s replies p h (events :: calls) q Q := by
  obtain ⟨g, hg, hq⟩ := next
  exact ⟨g, .answer hc hg, hq⟩

/-- A pass leads to a store of any kind that holds of where it leads. -/
theorem Leads.mono {Q' : Store → Prop} (hq : ∀ st, Q st → Q' st)
    (hp : Leads s replies p h calls q Q) : Leads s replies p h calls q Q' := by
  obtain ⟨g, hg, h⟩ := hp
  exact ⟨g, hg, hq _ h⟩

/-- A pass that has found nothing sets the counter right. -/
theorem leads_of_emptied (replies : Nat → SinkReply) (hr : h.Ready) :
    Leads s replies .emptied h [] (.ended (.ok .empty))
      (· = h.store.recounted h.store.table.size) := by
  obtain ⟨⟨table, writer, counter, puts, deletes, failed, closed, mapSize⟩, faults, style, flag,
    wake, commits, journal⟩ := h
  obtain ⟨rfl, rfl, hrecount⟩ := hr
  have hbegin : faults.recount = .entering := by
    unfold Faults.recount
    rw [show faults.recounting = none from hrecount]
  refine .step (congrArg (fun op => some (recounting op, _)) hbegin) ?_
  -- enter, lock, count, store, unlock, and conclude
  exact .step rfl <| .step rfl <| .step rfl <| .step rfl <| .step rfl <| .step rfl <| .ended rfl rfl

/-! ### Removals -/

/-- A pass takes the steps of its removal. -/
theorem leads_of_iterate {fuel expected delivered dropped : Nat} {op op' : RemovalOp}
    {st st' : Store} {j j' : Journal}
    (hit : Store.iterate (fun (op, s, journal) =>
        (RemovalOp.step h.faults.committing op s).map fun (op, s, more) =>
          (op, s, journal ++ more)) fuel (op, st, j) = (op', st', j'))
    (next : Leads s replies (.removing op' expected delivered dropped)
      (Hub.report { h with store := st' } j') calls q Q) :
    Leads s replies (.removing op expected delivered dropped)
      (Hub.report { h with store := st } j) calls q Q := by
  induction fuel generalizing op st j with
  | zero =>
    cases hit
    exact next
  | succ fuel ih =>
    unfold Store.iterate at hit
    cases hstep : RemovalOp.step h.faults.committing op st with
    | none =>
      simp only [hstep, Option.map_none] at hit
      cases hit
      exact next
    | some y =>
      obtain ⟨op₁, st₁, more⟩ := y
      simp only [hstep, Option.map_some] at hit
      refine .step ?_ (ih hit)
      have hresult : op.result? = none := by
        cases op with
        | done r => cases hstep
        | _ => rfl
      simp only [step, hresult, Hub.report, hstep, Option.map_some, List.append_assoc]

/-- Whatever came of its removal, the pass has delivered. -/
theorem leads_of_removed (replies : Nat → SinkReply) (expected delivered dropped : Nat)
    (r : Except StoreFault Nat) (h : Hub) :
    Leads s replies (.removing (.done r) expected delivered dropped) h []
      (.ended (.ok (.delivered delivered dropped))) (· = h.store) := by
  refine .step rfl ?_
  cases r with
  | error fault => exact .ended rfl rfl
  | ok n =>
    refine .ended rfl ?_
    dsimp only [conclude, Hub.store_report]
    split <;> rfl

/-- So it does with a whole removal, and it leaves the store of that removal. -/
theorem leads_of_removeUnder {keys : List Bytes} {r : Except StoreFault Nat} {st : Store}
    (hit : h.store.removeUnder h.faults.committing keys = (some r, st))
    (expected delivered dropped : Nat) :
    Leads s replies (.removing (.entering keys) expected delivered dropped) h []
      (.ended (.ok (.delivered delivered dropped))) (· = st) := by
  unfold Store.removeUnder at hit
  split at hit
  next op st' j hend =>
    obtain ⟨hdone, rfl⟩ := Prod.mk.inj hit
    obtain rfl : op = .done r := by
      cases op with
      | done r' => exact congrArg _ (Option.some.inj hdone)
      | _ => cases hdone
    have hlast := leads_of_iterate hend (leads_of_removed (s := s) replies expected delivered
      dropped r (Hub.report { h with store := st' } j))
    have hbegin : Hub.report { h with store := h.store } [] = h := by
      unfold Hub.report
      rw [List.append_nil]
    rwa [hbegin] at hlast

/-- A number of entries are removed from a store, and others are left. -/
def Drops (n : Nat) (left : List Entry) (before after : Store) : Prop :=
  ∃ t : Table, t.toList = left ∧ after = { before.release n with
    table := t
    deletes := before.deletes + n }

/-- What a removal of the first entries of a table makes of a store, whatever may go wrong with
    removals; `rest` are the other entries. -/
def Clears (faults : Faults) (first rest : List Entry) (before after : Store) : Prop :=
  match faults.removing, faults.removesNothing, faults.committing with
  | none, false, none => Drops first.length rest before after
  | none, false, some _ => after = { before with failedCommits := before.failedCommits + 1 }
  | _, _, _ => after = before

/-- A pass whose events have been taken over removes its keys, if it can. -/
theorem leads_of_clearing (replies : Nat → SinkReply) {first rest : List Entry}
    {keys : List Bytes} (hr : h.Ready)
    (ht : h.store.table.toList = first ++ rest) (hnamed : [] ∉ keys)
    (hkeys : ∀ key, key ∈ keys ↔ key ∈ first.map Entry.key) (hsome : keys ≠ [])
    (delivered dropped : Nat) :
    Leads s replies (.clearing delivered dropped keys) h []
      (.ended (.ok (.delivered delivered dropped))) (Clears h.faults first rest h.store) := by
  refine .step rfl ?_
  unfold Faults.remove Clears
  cases h.faults.removing with
  | some text => exact leads_of_removed _ _ _ _ _ _
  | none =>
    cases h.faults.removesNothing with
    | true => exact leads_of_removed _ _ _ _ _ _
    | false =>
      cases hc : h.faults.committing with
      | some fault =>
        have hfailed : h.store.removeUnder (some fault) keys = _ :=
          Store.removeUnder_failed hr.isOpen hr.free hsome
        rw [← hc] at hfailed
        exact leads_of_removeUnder hfailed _ _ _
      | none =>
        have hdone := Store.removeUnder_done hr.isOpen hr.free hsome
        have hremoved := RemovalOp.removed_of_append ht hnamed hkeys
        rw [hremoved, ← hc] at hdone
        exact (leads_of_removeUnder hdone _ _ _).mono fun st hst =>
          ⟨_, RemovalOp.toList_eraseKeys_append ht hnamed hkeys, hst⟩

/-! ### Batches -/

/-- What a pass comes to by the last answer of the sink: if nothing was refused it has an outcome
    and makes something of the store; otherwise the store is as it was before. -/
def Settles (o : Outcome) (before : Store) (Q : Store → Prop) : SinkAnswer → Pass → Store → Prop
  | .accepted, q, after => q = .ended (.ok o) ∧ Q after
  | .refused _, q, after => q = .ended (.ok .failed) ∧ after = before
  | .died, q, after => q = .died ∧ after = before

/-- A pass hands its events over call by call, as long as the sink accepts them. -/
theorem leads_of_delivering (replies : Nat → SinkReply) {first rest : List Entry}
    {keys : List Bytes} {faults : Faults} {before : Store} {planned : List (List Event)}
    (hr : h.Ready) (hf : h.faults = faults) (hst : h.store = before)
    (ht : before.table.toList = first ++ rest) (hnamed : [] ∉ keys)
    (hkeys : ∀ key, key ∈ keys ↔ key ∈ first.map Entry.key) (hsome : keys ≠ [])
    (hplan : planned ≠ []) (delivered dropped : Nat) :
    ∃ made a q, Handover replies planned made a ∧
      Leads s replies (.delivering planned delivered dropped keys) h made q
        (Settles (.delivered delivered dropped) before (Clears faults first rest before) a q) := by
  subst hf hst
  induction planned generalizing h replies with
  | nil => exact absurd rfl hplan
  | cons events planned ih =>
    have hr' := hr.during (replies 0).raises
    have hst := h.store_during (replies 0).raises
    have hf := h.faults_during (replies 0).raises
    cases ha : (replies 0).answer with
    | accepted =>
      cases planned with
      | nil =>
        -- the last call has been accepted, so the entries go
        have hlast := leads_of_clearing (s := s) (fun n => replies (n + 1)) hr' (hst ▸ ht)
          hnamed hkeys hsome delivered dropped
        rw [hst, hf] at hlast
        refine ⟨_, _, .ended (.ok (.delivered delivered dropped)), .more ha .done,
          .answer rfl ?_⟩
        rw [ha]
        exact hlast.mono fun st h => ⟨rfl, h⟩
      | cons more planned =>
        obtain ⟨made, a, q, hmade, hleads⟩ := ih (fun n => replies (n + 1)) hr'
          (List.cons_ne_nil _ _) (hst ▸ ht)
        rw [hst, hf] at hleads
        refine ⟨_, _, q, .more ha hmade, .answer rfl ?_⟩
        rw [ha]
        exact hleads
    | refused e =>
      refine ⟨_, _, .ended (.ok .failed), .broken ha nofun, .answer rfl ?_⟩
      rw [ha]
      exact .ended rfl ⟨rfl, hst⟩
    | died =>
      refine ⟨_, _, .died, .broken ha nofun, .answer rfl ?_⟩
      rw [ha]
      exact .ended rfl ⟨rfl, hst⟩

/-- With a batch size, a pass begins with a scan. -/
theorem step_starting_of_ready (batch : 1 < s.batchSize) (hr : h.Ready)
    (scans : h.faults.scanning = none) :
    starting.step s h = some
      ((scanned s.cipher h.style (h.store.table.toList.take s.batchSize)).1,
        h.report (scanned s.cipher h.style (h.store.table.toList.take s.batchSize)).2) := by
  have hscan : h.faults.scan h.store s.batchSize =
      .ok (h.store.table.toList.take s.batchSize) := by
    unfold Faults.scan Store.scan
    rw [scans]
    simp [hr.isOpen]
  simp only [step, if_pos batch, hscan]

/-- What a pass over the first entries of a table plans to hand over. -/
def planned (c : Cipher) (style : SinkStyle) (xs : List Entry) : List (List Event) :=
  if (c.openAll xs).isEmpty then [] else style.calls (c.openAll xs)

/-- A pass that has scanned the first entries hands them over and removes them. -/
theorem leads_of_scanned (replies : Nat → SinkReply) {first rest : List Entry} (hr : h.Ready)
    (ht : h.store.table.toList = first ++ rest) (hnamed : ∀ x ∈ h.store.table.toList, x.key ≠ [])
    (hsome : first ≠ []) :
    ∃ made a q, Handover replies (planned s.cipher h.style first) made a ∧
      Leads s replies (scanned s.cipher h.style first).1 h made q
        (Settles (.delivered (s.cipher.openAll first).length (s.cipher.unreadable first)) h.store
          (Clears h.faults first rest h.store) a q) := by
  -- the keys that are to be removed are those of the entries
  let keys := (sort s.cipher first).1.map Prod.fst ++ (sort s.cipher first).2.1
  have hmem : ∀ key, key ∈ keys ↔ key ∈ first.map Entry.key := fun key => mem_keys_sort
  have hne : keys ≠ [] := by
    obtain ⟨x, xs, rfl⟩ := List.exists_cons_of_ne_nil hsome
    exact List.ne_nil_of_mem ((hmem x.key).2 List.mem_cons_self)
  have hgood : [] ∉ keys := by
    intro hin
    obtain ⟨x, hx, hxk⟩ := List.mem_map.1 ((hmem []).1 hin)
    exact hnamed x (ht ▸ List.mem_append_left _ hx) hxk
  unfold scanned planned
  rw [if_neg (show ¬ first.isEmpty = true by simpa using hsome), openAll_eq_sort,
    unreadable_eq_sort]
  dsimp only
  split
  · next hnone =>
    rw [List.isEmpty_iff.1 hnone]
    exact ⟨_, .accepted, .ended (.ok _), .done,
      (leads_of_clearing replies hr ht hgood hmem hne _ _).mono fun _ h => ⟨rfl, h⟩⟩
  · next hevents =>
    have hcalls : h.style.calls ((sort s.cipher first).1.map Prod.snd) ≠ [] := by
      intro hnil
      have hflat := h.style.flatten_calls ((sort s.cipher first).1.map Prod.snd)
      rw [hnil] at hflat
      exact hevents (by rw [← hflat]; rfl)
    exact leads_of_delivering replies hr rfl rfl ht hgood hmem hne hcalls _ _

end Pass

/-- A pass with a batch size over a store that no other thread works with. If there is no entry it
    calls no sink, finds nothing and sets the counter right. Otherwise it hands the readable ones of
    the first entries over, if there are any, in the order of their keys. If the sink refuses or
    dies, the store is as it was; otherwise the first entries are delivered or dropped, and they are
    removed as far as removals work. A sink that takes a batch as a whole is called at most once. -/
theorem Forwarder.batch_exact {s : Settings} {h : Hub} (replies : Nat → SinkReply)
    (batch : 1 < s.batchSize) (ready : h.Ready) (scans : h.faults.scanning = none)
    (named : ∀ x ∈ h.store.table.toList, x.key ≠ []) {first rest : List Entry}
    (hfirst : h.store.table.toList.take s.batchSize = first)
    (hrest : h.store.table.toList.drop s.batchSize = rest) :
    ∃ calls q g, Pass.Course s replies .starting h calls q g ∧
      (∀ calls' q' g', Pass.Course s replies .starting h calls' q' g' →
        calls' = calls ∧ q' = q ∧ g' = g) ∧
      (first = [] → calls = [] ∧ q = .ended (.ok .empty) ∧
        g.store = h.store.recounted h.store.table.size) ∧
      (first ≠ [] → ∃ a, Handover replies (Pass.planned s.cipher h.style first) calls a ∧
        Pass.Settles
          (.delivered (s.cipher.openAll first).length (s.cipher.unreadable first)) h.store
          (Pass.Clears h.faults first rest h.store) a q g.store) ∧
      (h.style = .whole → first ≠ [] → calls =
        if s.cipher.openAll first = [] then [] else [s.cipher.openAll first]) := by
  have hstart := Pass.step_starting_of_ready batch ready scans
  rw [hfirst] at hstart
  have ht : h.store.table.toList = first ++ rest := by
    rw [← hfirst, ← hrest, List.take_append_drop]
  by_cases hnone : first = []
  · subst hnone
    obtain ⟨g, hg, hstore⟩ := Pass.leads_of_emptied (s := s) replies (ready.report [])
    have hcourse := Pass.Course.step hstart hg
    exact ⟨_, _, g, hcourse, fun _ _ _ h => hcourse.unique h, fun _ => ⟨rfl, rfl, hstore⟩,
      fun hsome => absurd rfl hsome, fun _ hsome => absurd rfl hsome⟩
  · obtain ⟨calls, a, q, hmade, g, hg, hsettles⟩ := Pass.leads_of_scanned (s := s) replies
      (ready.report _) ht named hnone
    have hcourse := Pass.Course.step hstart hg
    have hmade : Handover replies (Pass.planned s.cipher h.style first) calls a := hmade
    refine ⟨calls, q, g, hcourse, fun _ _ _ h => hcourse.unique h, fun hnil => absurd hnil hnone,
      fun _ => ⟨a, hmade, hsettles⟩, fun hwhole _ => ?_⟩
    simp only [Pass.planned, hwhole, SinkStyle.calls, List.isEmpty_iff] at hmade
    split at hmade
    · next hnil =>
      rw [if_pos hnil]
      cases hmade
      rfl
    · next hevents =>
      rw [if_neg hevents]
      exact hmade.made_eq.1

/-- A sink that gives one answer. -/
def SinkReply.always (a : SinkAnswer) : Nat → SinkReply := fun _ => ⟨a, false⟩

/-- An unreadable entry lies between two others. Together they are taken over and removed, or
    refused and kept. -/
theorem Forwarder.batch_exact_of_mixed :
    let s := Settings.of .plaintext 3 0
    (1 < s.batchSize ∧ overCounted.Ready ∧ overCounted.faults.scanning = none ∧
      (∀ x ∈ overCounted.store.table.toList, x.key ≠ [])) ∧
    (∃ g, Pass.Course s (SinkReply.always .accepted) .starting overCounted [[note, note]]
        (.ended (.ok (.delivered 2 1))) g ∧
      g.store.table.toList = [] ∧ g.store.count = 4 ∧ g.store.deletes = 3) ∧
    ∃ g, Pass.Course s (SinkReply.always (.refused .queueUnavailable)) .starting overCounted
        [[note, note]] (.ended (.ok .failed)) g ∧
      g.store = overCounted.store := by
  intro s
  have batch : 1 < s.batchSize := by decide
  have ready : overCounted.Ready := ⟨rfl, rfl, rfl⟩
  have named : ∀ x ∈ overCounted.store.table.toList, x.key ≠ [] := by decide +kernel
  have hsome : overCounted.store.table.toList.take s.batchSize ≠ [] := by decide +kernel
  have hplan : Pass.planned s.cipher overCounted.style
      (overCounted.store.table.toList.take s.batchSize) = [[note, note]] := by decide +kernel
  have hopen : (s.cipher.openAll (overCounted.store.table.toList.take s.batchSize)).length = 2 ∧
      s.cipher.unreadable (overCounted.store.table.toList.take s.batchSize) = 1 := by
    decide +kernel
  refine ⟨⟨batch, ready, rfl, named⟩, ?_, ?_⟩
  · obtain ⟨calls, q, g, hcourse, -, -, hmade, -⟩ := Forwarder.batch_exact
      (SinkReply.always .accepted) batch ready rfl named rfl rfl
    obtain ⟨a, hmade, hsettles⟩ := hmade hsome
    rw [hplan] at hmade
    obtain ⟨rfl, rfl⟩ := hmade.made_eq
    rw [hopen.1, hopen.2] at hsettles
    obtain ⟨rfl, t, ht, hstore⟩ := hsettles
    refine ⟨g, hcourse, ?_⟩
    have hlength : (overCounted.store.table.toList.take s.batchSize).length = 3 := by
      decide +kernel
    rw [hstore, hlength]
    exact ⟨ht.trans (by decide +kernel), rfl, rfl⟩
  · obtain ⟨calls, q, g, hcourse, -, -, hmade, -⟩ := Forwarder.batch_exact
      (SinkReply.always (.refused .queueUnavailable)) batch ready rfl named rfl rfl
    obtain ⟨a, hmade, hsettles⟩ := hmade hsome
    rw [hplan] at hmade
    obtain ⟨rfl, rfl⟩ := hmade.made_eq
    obtain ⟨rfl, hstore⟩ := hsettles
    exact ⟨g, hcourse, hstore⟩

end Outbox
