import Outbox.Proofs.Forwarder.Outcomes
import Outbox.Proofs.Life.Counter
import Outbox.Proofs.Life.Drain

namespace Outbox

/-!
# Every entry is accounted for

A store that is open once and is not closed, for which one thread forwards at a time, and whose
removals are committed:

* `Job.gone`, `Job.untallied`, `Job.uncounted`, `Job.unmeasured` — what an actor has done that is
  not in the books yet.
* `Job.Reckons`, `Job.Stride.reckons` — a step moves the entries, the counters of the store, the
  journal and what passes report together.
* `Life.outcomes` — what the passes of a run come to, one after another.
* `Life.steady` — what may happen to such a store.
* `Life.serial`, `Life.paced` — what may happen to it while nothing comes between an operation, or
  no overwriting between a subtraction and what makes it due.
* `Life.Books`, `Life.books_of_run` — the books of a run, but for what actors are still to enter.
* `Life.accounts_for_every_entry` — between operations nothing is still to be entered.
-/

/-! ### Commit tasks -/

namespace CommitTask

/-- How many puts a task has committed that the store does not count yet. -/
def uncounted : CommitTask → Nat
  | putting .tallying _ => 1
  | _ => 0

/-- The measure of a put that a task has committed, until it is taken. -/
def unmeasured : CommitTask → List Measure
  | putting .tallying bytes | putting (.done (.ok ())) bytes => [.enqueued bytes]
  | _ => []

/-- A task measures its value. -/
def Weighs (value : Bytes) : CommitTask → Prop
  | putting _ bytes => bytes = value.length
  | _ => True

variable {h h' : Hub} {t t' : CommitTask} {key value : Bytes} {landed : Prop}

/-- A put that is about to begin has committed nothing. -/
theorem put_open (faults : Faults) (key value : Bytes) (bytes : Nat) :
    (putting (faults.put key value) bytes).uncounted = 0 ∧
      (putting (faults.put key value) bytes).unmeasured = [] := by
  unfold Faults.put
  split <;> exact ⟨rfl, rfl⟩

/-- What a task commits under a new key is one entry more, which is counted and measured. -/
theorem Turn.reckons (ht : Turn h t t' h') (hf : t.Fits key value landed h.store.files)
    (hw : t.Weighs value) (hnew : t.lands t' = true → h.store.table.contains key = false) :
    t'.Weighs value ∧ h'.store.deletes = h.store.deletes ∧
      h'.store.table.size = h.store.table.size + (t.lands t').toNat ∧
      h'.store.puts + t'.uncounted = h.store.puts + t.uncounted + (t.lands t').toNat ∧
      h'.journal.counts ++ t'.unmeasured = h.journal.counts ++ t.unmeasured ++
        if t.lands t' then [.enqueued value.length] else [] := by
  -- most steps commit nothing and enter nothing
  have hsame : ∀ {u : CommitTask} {k : Hub}, u.Weighs value → k.store = h.store →
      k.journal = h.journal → t.lands u = false → u.uncounted = t.uncounted →
      u.unmeasured = t.unmeasured → u.Weighs value ∧ k.store.deletes = h.store.deletes ∧
        k.store.table.size = h.store.table.size + (t.lands u).toNat ∧
        k.store.puts + u.uncounted = h.store.puts + t.uncounted + (t.lands u).toNat ∧
        k.journal.counts ++ u.unmeasured = h.journal.counts ++ t.unmeasured ++
          if t.lands u then [.enqueued value.length] else [] := by
    intro u k hu hstore hjournal hlands hcount hmeasure
    rw [hstore, hjournal, hlands, hcount, hmeasure]
    exact ⟨hu, rfl, rfl, rfl, (List.append_nil _).symm⟩
  cases ht with
  | @start k v =>
    obtain ⟨-, rfl⟩ := hf
    obtain ⟨hcount, hmeasure⟩ := put_open h.faults k v v.length
    exact hsame rfl rfl rfl rfl hcount hmeasure
  | @put op op' store bytes ho =>
    obtain rfl : bytes = value.length := hw
    cases PutOp.step_cases ho with
    | @commit isNew =>
      have hsize := StoreOp.size_of_put hf.1
      obtain ⟨-, -, rfl⟩ := hf.1
      rw [if_pos (by rw [show (!h.store.files.table.contains key) = true from
        congrArg (!·) (hnew rfl)])] at hsize
      exact ⟨rfl, rfl, hsize, rfl, by simp [unmeasured, lands, PutOp.lands]⟩
    | tally => exact ⟨rfl, rfl, rfl, rfl, (List.append_nil _).symm⟩
    | _ => exact ⟨rfl, rfl, rfl, rfl, (List.append_nil _).symm⟩
  | @done bytes =>
    obtain rfl : bytes = value.length := hw
    refine ⟨trivial, rfl, rfl, rfl, ?_⟩
    rw [Hub.measure, Hub.journal_report, Journal.counts_append]
    rfl
  | leave hn => rcases hn with rfl | rfl <;> exact hsame trivial rfl rfl rfl rfl rfl
  | _ => exact hsame trivial rfl rfl rfl rfl rfl

end CommitTask

/-! ### Actors -/

namespace Job

/-- The pass of an actor that is under way. -/
def pass? : Job → Option Pass
  | forwarding w _ => w.pass?
  | _ => none

/-- What the pass of an actor has come to. -/
def outcome? (j : Job) : Option Outcome := j.pass?.bind Pass.outcome?

/-- How many entries an actor has removed and not reported yet. -/
def gone (j : Job) : Nat := j.pass?.elim 0 Pass.gone

/-- How many of them are not counted as deleted yet. -/
def untallied (j : Job) : Nat := j.pass?.elim 0 Pass.untallied

/-- How many puts an actor has committed that the store does not count yet. -/
def uncounted : Job → Nat
  | sending _ sub => sub.task.elim 0 CommitTask.uncounted
  | _ => 0

/-- The measures of what an actor has committed, until they are taken. -/
def unmeasured : Job → List Measure
  | sending _ sub => sub.task.elim [] CommitTask.unmeasured
  | _ => []

/-- What a pass counts is what it removes, and what a task measures is its value. -/
def Exact (t : Table) : Job → Prop
  | forwarding w _ => ∀ p, w.pass? = some p → p.Exact t
  | sending e sub => ∀ task, sub.task = some task → ∀ key value,
      Submission.entry sub.producer.cipher sub.nonce e = .ok (key, value) → task.Weighs value
  | stopping _ _ => True

/-- What comes of a step of an actor by which some entries are committed: what the actor does moves
    together with the counters of the store, the journal and what is reported. -/
structure Reckons (s s' : Session) (j j' : Job) (committed : List Entry) : Prop where
  exact : j'.Exact s'.hub.store.table
  puts : s'.hub.store.puts + j'.uncounted = s.hub.store.puts + j.uncounted + committed.length
  entries : s'.hub.store.table.size + j'.gone + j'.outcome?.elim 0 Outcome.removed =
    s.hub.store.table.size + j.gone + committed.length
  deletes : s'.hub.store.deletes + j'.untallied + j.gone =
    s.hub.store.deletes + j.untallied + j'.gone + j'.outcome?.elim 0 Outcome.removed
  counts : ∀ f : Measure → Nat,
    (s'.hub.journal.counts.map f).sum + (j'.unmeasured.map f).sum =
      (s.hub.journal.counts.map f).sum + (j.unmeasured.map f).sum +
        (committed.map fun x => f (.enqueued x.value.length)).sum +
        ((j'.outcome?.toList.flatMap Outcome.measures).map f).sum

variable {ended died : Bool} {past : Nat} {s s' : Session} {how : Act} {j j' : Job}
  {news history : List Occurrence} {t t' : Table}

/-- A step of a pass is one of the thread that runs it. -/
theorem reckons_of_pass {w w' : Scenario.Work} {a a' : Account} {p : Pass} {y : Pass × Hub}
    {q : Queue} (hp : w.pass? = some p) (hp' : w'.pass? = some y.1) (h : Pass.Reckons s.hub p y) :
    Reckons s ⟨y.2, q⟩ (forwarding w a) (forwarding w' a') [] := by
  have hgone : (forwarding w a).gone = p.gone ∧ (forwarding w a).untallied = p.untallied := by
    have hpass : (forwarding w a).pass? = some p := hp
    unfold gone untallied
    rw [hpass]
    exact ⟨rfl, rfl⟩
  have hgone' : (forwarding w' a').gone = y.1.gone ∧
      (forwarding w' a').untallied = y.1.untallied ∧
      (forwarding w' a').outcome? = y.1.outcome? := by
    have hpass : (forwarding w' a').pass? = some y.1 := hp'
    unfold gone untallied outcome?
    rw [hpass]
    exact ⟨rfl, rfl, rfl⟩
  refine ⟨fun p' hp'' => ?_, ?_, ?_, ?_, fun f => ?_⟩
  · cases hp'.symm.trans hp''
    exact h.exact
  · exact h.settles.puts
  · rw [hgone.1, hgone'.1, hgone'.2.2]
    exact h.settles.entries
  · rw [hgone.1, hgone.2, hgone'.1, hgone'.2.1, hgone'.2.2]
    exact h.settles.deletes
  · have hsum := congrArg (fun ms => (ms.map f).sum) h.counts
    rw [List.map_append, List.sum_append] at hsum
    rw [hgone'.2.2]
    exact hsum

/-- A thread outside of a pass, which may begin one, enters nothing. -/
theorem reckons_of_turn {w w' : Scenario.Work} {a a' : Account} {h : Hub} {q : Queue}
    (hover : ∀ p, w.pass? = some p → p.isOver = true)
    (fresh : ∀ p, w'.pass? = some p → p = .starting) (same : h.store = s.hub.store)
    (counts : h.journal.counts = s.hub.journal.counts) :
    Reckons s ⟨h, q⟩ (forwarding w a) (forwarding w' a') [] := by
  have hgone : (forwarding w a).gone = 0 ∧ (forwarding w a).untallied = 0 := by
    show w.pass?.elim 0 Pass.gone = 0 ∧ w.pass?.elim 0 Pass.untallied = 0
    cases hp : w.pass? with
    | none => exact ⟨rfl, rfl⟩
    | some p => exact (Pass.exact_of_isOver (t := .empty) (hover p hp)).2
  have hgone' : (forwarding w' a').gone = 0 ∧ (forwarding w' a').untallied = 0 ∧
      (forwarding w' a').outcome? = none := by
    show w'.pass?.elim 0 Pass.gone = 0 ∧ w'.pass?.elim 0 Pass.untallied = 0 ∧
      w'.pass?.bind Pass.outcome? = none
    cases hp : w'.pass? with
    | none => exact ⟨rfl, rfl, rfl⟩
    | some p =>
      rw [fresh p hp]
      exact ⟨rfl, rfl, rfl⟩
  refine ⟨fun p hp => ?_, ?_, ?_, ?_, fun f => ?_⟩
  · rw [fresh p hp]
    trivial
  · rw [same]
    rfl
  · rw [hgone.1, hgone'.1, hgone'.2.2, same]
    rfl
  · rw [hgone.1, hgone.2, hgone'.1, hgone'.2.1, hgone'.2.2, same]
    rfl
  · rw [hgone'.2.2, counts]
    rfl

/-- A step of the loop is one of its pass, or it enters nothing. -/
theorem reckons_of_loop {now : Nat} {f f' : Forwarder} {a a' : Account} {h : Hub} {q : Queue}
    (hpass : ∀ p y, f.phase = .passing p → p.step f.settings s.hub = some y →
      Pass.Reckons s.hub p y) (hf : f.step now s.hub = some (f', h)) :
    Reckons s ⟨h, q⟩ (forwarding (.loop f) a) (forwarding (.loop f') a') [] := by
  have hstep : Forwarder.Step now f s.hub f' h := Forwarder.step_cases hf
  -- a gauge is no count
  have hmeasure : ∀ n, (s.hub.measure (.depth n)).journal.counts = s.hub.journal.counts := by
    intro n
    rw [Hub.measure, Hub.journal_report, Journal.counts_append]
    exact List.append_nil _
  have hpasses : ∀ {g : Forwarder} {p q : Pass}, g.phase = .passing p →
      (Scenario.Work.loop g).pass? = some q → p = q := by
    intro g p q hp hq
    unfold Scenario.Work.pass? at hq
    dsimp only at hq
    rw [hp] at hq
    exact Option.some.inj hq
  have hnone : ∀ {g : Forwarder} {P : Pass → Prop}, (Scenario.Work.loop g).pass? = none →
      ∀ p, (Scenario.Work.loop g).pass? = some p → P p := by
    intro g P hg p hp
    rw [hg] at hp
    cases hp
  obtain ⟨settings, nextPass, idle, phase⟩ := f
  cases hstep with
  | pass hp hs =>
    obtain rfl := hp
    exact reckons_of_pass rfl rfl (hpass _ _ rfl hs)
  | rest hp | gather hp | due hp =>
    obtain rfl : phase = .counting := hp
    exact reckons_of_turn (hnone rfl) (hnone rfl) rfl (hmeasure _)
  | wake hp =>
    rcases hp with hp | ⟨deadline, hp⟩
    · obtain rfl : phase = _ := hp
      exact reckons_of_turn (hnone rfl) (hnone rfl) rfl rfl
    · obtain rfl : phase = _ := hp
      exact reckons_of_turn (hnone rfl) (hnone rfl) rfl rfl
  | clear hp =>
    obtain rfl : phase = _ := hp
    exact reckons_of_turn (hnone rfl) (fun p hp => (hpasses rfl hp).symm) rfl rfl
  | delivered hp | empty hp | refused hp | die hp =>
    obtain rfl : phase = _ := hp
    refine reckons_of_turn (fun p hp => ?_) (hnone rfl) rfl rfl
    rw [← hpasses rfl hp]
    rfl
  | unreadable hp =>
    obtain rfl : phase = _ := hp
    refine reckons_of_turn (fun p hp => ?_) (hnone rfl) rfl ?_
    · rw [← hpasses rfl hp]
      rfl
    · show Journal.counts (s.hub.journal ++ _) = _
      rw [Journal.counts_append]
      exact List.append_nil _
  | start hp | halt hp | look hp | park hp | heed hp | pause hp | hear hp | resume hp =>
    obtain rfl : phase = _ := hp
    exact reckons_of_turn (hnone rfl) (hnone rfl) rfl rfl

/-- A step that commits nothing and enters nothing. -/
theorem reckons_of_eq (exact : j'.Exact s'.hub.store.table) (store : s'.hub.store = s.hub.store)
    (counts : s'.hub.journal.counts = s.hub.journal.counts) (hp : j.pass? = none)
    (hp' : j'.pass? = none) (hcount : j'.uncounted = j.uncounted)
    (hmeasure : j'.unmeasured = j.unmeasured) : Reckons s s' j j' [] := by
  have hgone : j.gone = 0 ∧ j.untallied = 0 := by
    unfold gone untallied
    rw [hp]
    exact ⟨rfl, rfl⟩
  have hgone' : j'.gone = 0 ∧ j'.untallied = 0 ∧ j'.outcome? = none := by
    unfold gone untallied outcome?
    rw [hp']
    exact ⟨rfl, rfl, rfl⟩
  refine ⟨exact, ?_, ?_, ?_, fun f => ?_⟩
  · rw [store, hcount]
    rfl
  · rw [hgone.1, hgone'.1, hgone'.2.2, store]
    rfl
  · rw [hgone.1, hgone.2, hgone'.1, hgone'.2.1, hgone'.2.2, store]
    rfl
  · rw [hgone'.2.2, counts, hmeasure]
    rfl

/-- A step of a call submits a task that has done nothing yet, or none. -/
theorem reckons_of_call {now : Nat} {e : Event} {sub sub' : Submission} {h : Hub} {q : Queue}
    (hf : (sending e sub).Fits s.hub.store.files history)
    (hj : (sending e sub).Exact s.hub.store.table)
    (hs : sub.stepCall now s.hub = some (sub', h)) :
    Reckons s ⟨h, q⟩ (sending e sub) (sending e sub') [] := by
  have hincident : ∀ i, (s.hub.incident i).journal.counts = s.hub.journal.counts := by
    intro i
    rw [Hub.incident, Hub.journal_report, Journal.counts_append]
    exact List.append_nil _
  have hturn := Submission.callTurn_of_step hs
  cases hturn with
  | submit hc =>
    obtain ⟨-, hnone⟩ := Submission.Fits.call hf _ (.inr (.inr hc))
    refine reckons_of_eq (fun task ht => ?_) rfl rfl rfl rfl ?_ ?_
    · cases ht
      exact fun _ _ _ => trivial
    · exact (congrArg (·.elim 0 CommitTask.uncounted) hnone).symm
    · exact (congrArg (·.elim [] CommitTask.unmeasured) hnone).symm
  | wait | giveUp => exact reckons_of_eq hj rfl (hincident _) rfl rfl rfl rfl
  | _ => exact reckons_of_eq hj rfl rfl rfl rfl rfl rfl

/-- What a task commits under a new key is entered, at once or later. -/
theorem reckons_of_task {e : Event} {sub sub' : Submission} {h : Hub} {q : Queue}
    (hf : (sending e sub).Fits s.hub.store.files history)
    (hj : (sending e sub).Exact s.hub.store.table) (hs : sub.stepTask s.hub = some (sub', h))
    (hnew : ∀ x, Submission.landing e sub sub' = some x →
      s.hub.store.table.contains x.key = false) :
    Reckons s ⟨h, q⟩ (sending e sub) (sending e sub')
      (Submission.landing e sub sub').toList := by
  obtain ⟨task, task', ht, rfl, hturn⟩ := Submission.turn_of_stepTask hs
  obtain ⟨key, value, hentry, hfits⟩ := Submission.Fits.task hf task ht
  rw [Submission.landing_of_entry ht hentry] at hnew ⊢
  obtain ⟨hweighs, hdeletes, hsize, hputs, hcounts⟩ :=
    hturn.reckons hfits (hj task ht key value hentry) fun hl => hnew _ (if_pos hl)
  have hopen : (sending e sub).uncounted = task.uncounted ∧
      (sending e sub).unmeasured = task.unmeasured :=
    ⟨congrArg (·.elim 0 CommitTask.uncounted) ht, congrArg (·.elim [] CommitTask.unmeasured) ht⟩
  have hlength : (if task.lands task' then some (⟨key, value⟩ : Entry) else none).toList.length =
      (task.lands task').toNat := by
    cases task.lands task' <;> rfl
  refine ⟨fun task'' ht'' key' value' hentry' => ?_, ?_, ?_, ?_, fun f => ?_⟩
  · cases ht''
    cases hentry.symm.trans hentry'
    exact hweighs
  · rw [hlength, hopen.1]
    exact hputs
  · rw [hlength]
    exact hsize
  · exact congrArg (· + 0 + 0) hdeletes
  · have hsum := congrArg (fun ms => (ms.map f).sum) hcounts
    rw [List.map_append, List.map_append, List.map_append, List.sum_append, List.sum_append,
      List.sum_append] at hsum
    rw [hopen.2]
    refine hsum.trans ?_
    cases task.lands task' <;> rfl

/-- Where nothing keeps a removal from being committed and an entry is put under a new key, what a
    step does is entered, at once or later. -/
theorem Stride.reckons (h : Stride ended died past s how j j' s' news)
    (hf : j.Fits s.hub.store.files history) (hj : j.Exact s.hub.store.table)
    (hstop : j.isStopping = false) (hspare : s.hub.faults.SparesRemovals)
    (isOpen : s.hub.store.closed = false) (hnamed : ∀ x ∈ s.hub.store.table.toList, x.key ≠ [])
    (hnew : ∀ e y, .committed e y ∈ news → ∀ z ∈ s.hub.store.table.toList, z.key ≠ y.key) :
    Reckons s s' j j' (committedEntries news) := by
  cases h with
  | @loop now f f' a h hstep =>
    rw [(entries_removals _ _ _).1]
    refine reckons_of_loop (fun p y hp hs => ?_) hstep
    have hpass := Scenario.Work.pass?_of_phase hp
    exact (hj p hpass).step (hf.1 p hpass) hspare isOpen hnamed hs
  | pass hstep =>
    rw [(entries_removals _ _ _).1]
    exact reckons_of_pass rfl rfl ((hj _ rfl).step (hf.1 _ rfl) hspare isOpen hnamed hstep)
  | @answer r w a events hc =>
    rw [committedEntries_acceptance]
    obtain ⟨p, hp, hcall, hanswer⟩ := Scenario.Work.exists_pass_of_call hc
    obtain ⟨-, hp', hhub⟩ := hanswer r s.hub
    rw [hhub]
    exact reckons_of_pass hp hp' ((hj p hp).answer (hf.1 p hp) r hcall)
  | @call now e sub sub' h hs =>
    rw [(entries_confirmation e sub').1]
    exact reckons_of_call hf hj hs
  | @task e sub sub' h hs =>
    have hentries : committedEntries ((Submission.landing e sub sub').map (.committed e)).toList =
        (Submission.landing e sub sub').toList := by
      cases Submission.landing e sub sub' <;> rfl
    rw [hentries]
    refine reckons_of_task hf hj hs fun x hl => ?_
    rw [hl] at hnew
    by_contra hne
    obtain ⟨z, hz, hk⟩ := Table.contains_iff.1 (by simpa using hne)
    exact hnew e x (List.mem_singleton.2 rfl) z hz hk
  | @drop e sub =>
    have htask := Submission.task_drop sub
    refine reckons_of_eq (fun task ht => ?_) rfl rfl rfl rfl ?_ ?_
    · obtain ⟨hproducer, hnonce⟩ :
          sub.drop.producer = sub.producer ∧ sub.drop.nonce = sub.nonce := by
        unfold Submission.drop
        split <;> exact ⟨rfl, rfl⟩
      rw [hproducer, hnonce]
      exact hj task (htask ▸ ht)
    · exact congrArg (·.elim 0 CommitTask.uncounted) htask
    · exact congrArg (·.elim [] CommitTask.unmeasured) htask
  | stop => cases hstop

/-- What a thread that does not forward any more leaves alone, and what a task does, takes no key
    from the store. -/
theorem Stride.contains (h : Stride ended died past s how j j' s' news)
    (hf : j.Fits s.hub.store.files history) (hj : j.isForwarding = false) {k : Bytes}
    (hk : s.hub.store.table.contains k = true) : s'.hub.store.table.contains k = true := by
  have hlive : ∀ {w : Scenario.Work} {a : Account}, (forwarding w a).isForwarding = false →
      w.hasEnded = false → False := by
    intro w a hj hw
    rw [isForwarding_of_live hw] at hj
    cases hj
  cases h with
  | loop hstep => exact (hlive hj (Forwarder.hasEnded_of_step hstep)).elim
  | @pass now c p p' a h hp =>
    cases p with
    | ended r => cases hp
    | died => cases hp
    | _ => cases hj
  | answer hc => exact (hlive hj (Scenario.Work.hasEnded_of_call hc)).elim
  | call hs =>
    rw [(Submission.stepCall_cases hs).2]
    exact hk
  | task hs =>
    rcases (Submission.stepTask_cases hs).landing_cases hf with ⟨-, htable⟩ | ⟨y, -, -, htable⟩
    · rw [htable]
      exact hk
    · rw [htable]
      obtain ⟨x, hx, rfl⟩ := Table.contains_iff.1 hk
      by_cases hy : x.key = y.key
      · exact Table.contains_iff.2 ⟨y, Table.mem_insert_iff.2 (.inl rfl), hy.symm⟩
      · exact Table.contains_iff.2 ⟨x, Table.mem_insert_iff.2 (.inr ⟨hx, hy⟩), rfl⟩
  | drop => exact hk
  | stop hs =>
    have htable := congrArg Files.table (stop_cases hs).1
    exact (congrArg (Table.contains · k) htable).trans hk

/-- What a job knows of keys in the table stays right while they stay. -/
theorem Exact.mono (hj : j.Exact t) (hk : ∀ k, t.contains k = true → t'.contains k = true) :
    j.Exact t' := by
  cases j with
  | forwarding w a => exact fun p hp => (hj p hp).mono hk
  | _ => exact hj

/-- Who does not forward any more is in no pass that could become inexact. -/
theorem exact_of_not_isForwarding (hj : j.isForwarding = false) (h : j.Exact t) : j.Exact t' := by
  cases j with
  | forwarding w a =>
    intro p hp
    cases hover : p.isOver with
    | true => exact (Pass.exact_of_isOver hover).1
    | false =>
      -- a thread whose pass is under way has not ended
      cases w with
      | loop f =>
        obtain ⟨settings, nextPass, idle, phase⟩ := f
        cases phase with
        | passing q => cases hj
        | _ => cases hp
      | pass c q =>
        cases hp
        cases p with
        | ended r => cases hover
        | died => cases hover
        | _ => cases hj
  | _ => exact h

/-- Whether an actor has no operation on the store under way. -/
def isIdle : Job → Bool
  | sending _ sub => sub.task.all fun t => !t.runs
  | j => j.rests

/-- Who has no operation under way has nothing to enter. -/
theorem entered_of_isIdle (hj : j.isIdle = true) :
    j.gone = 0 ∧ j.untallied = 0 ∧ j.uncounted = 0 ∧ j.unmeasured = [] := by
  cases j with
  | forwarding w a =>
    have hgone : ∀ p, w.pass? = some p → p.gone = 0 ∧ p.untallied = 0 := by
      intro p hp
      cases p with
      | starting => exact ⟨rfl, rfl⟩
      | ended r => exact ⟨rfl, rfl⟩
      | died => exact ⟨rfl, rfl⟩
      | _ =>
        simp only [isIdle, rests, hp] at hj
        cases hj
    show w.pass?.elim 0 Pass.gone = 0 ∧ w.pass?.elim 0 Pass.untallied = 0 ∧ _
    cases hp : w.pass? with
    | none => exact ⟨rfl, rfl, rfl, rfl⟩
    | some p => exact ⟨(hgone p hp).1, (hgone p hp).2, rfl, rfl⟩
  | sending e sub =>
    have htask : ∀ task, sub.task = some task → task.uncounted = 0 ∧ task.unmeasured = [] := by
      intro task ht
      simp only [isIdle, ht, Option.all_some] at hj
      cases task with
      | ringing e => exact ⟨rfl, rfl⟩
      | ended e => exact ⟨rfl, rfl⟩
      | _ => cases hj
    show 0 = 0 ∧ 0 = 0 ∧ sub.task.elim 0 CommitTask.uncounted = 0 ∧
      sub.task.elim [] CommitTask.unmeasured = []
    cases ht : sub.task with
    | none => exact ⟨rfl, rfl, rfl, rfl⟩
    | some task => exact ⟨rfl, rfl, (htask task ht).1, (htask task ht).2⟩
  | stopping graceful stop => exact ⟨rfl, rfl, rfl, rfl⟩

/-- Who rests has not put the counter ahead. -/
theorem ahead_of_isIdle (hj : j.isIdle = true) : j.ahead = 0 := by
  cases j with
  | forwarding w a =>
    show StoreOp.lead (w.pass?.bind Pass.storeOp?) = 0
    cases hp : w.pass? with
    | none => rfl
    | some p =>
      simp only [isIdle, rests, hp] at hj
      cases p with
      | starting => rfl
      | ended r => rfl
      | died => rfl
      | _ => cases hj
  | sending e sub =>
    show StoreOp.lead (sub.task.bind CommitTask.storeOp?) = 0
    cases ht : sub.task with
    | none => rfl
    | some task =>
      simp only [isIdle, ht, Option.all_some] at hj
      cases task with
      | ringing e => rfl
      | ended e => rfl
      | _ => cases hj
  | stopping graceful stop => rfl

/-- Who rests has nothing to subtract. -/
theorem subtracts_of_isIdle (hj : j.isIdle = true) : j.subtracts = 0 :=
  Nat.le_zero.1 (ahead_of_isIdle hj ▸ subtracts_le_ahead)

/-- Who does not end the queue leaves the store open and its faults as they are. -/
theorem Stride.keeps (h : Stride ended died past s how j j' s' news) (hj : j.isStopping = false) :
    s.hub.Keeps s'.hub ∧ j'.isStopping = false := by
  cases h with
  | loop hf => exact ⟨Forwarder.step_keeps hf, rfl⟩
  | pass hp => exact ⟨Pass.step_keeps hp, rfl⟩
  | answer hc => exact ⟨Scenario.Work.answer_keeps _ _ _, rfl⟩
  | call hs => exact ⟨Submission.stepCall_keeps hs, rfl⟩
  | task hs => exact ⟨Submission.stepTask_keeps hs, rfl⟩
  | drop => exact ⟨⟨rfl, rfl⟩, rfl⟩
  | stop hs => cases hj

end Job

/-! ### Lives -/

namespace Life

variable {t : Table} {l l' : Life} {m : Move} {ms : List Move} {i k n : Nat} {a b : Actor}
  {s : Session}

/-- What the pass of an actor has come to by a move. -/
def outcome? (l : Life) : Move → Option Outcome
  | .acts i _ => l.actors[i]?.bind fun a => a.job.outcome?
  | _ => none

/-- What the passes of a run come to, one after another. -/
def outcomes (l : Life) : List Move → List Outcome
  | [] => []
  | m :: ms =>
    match l.move m with
    | some l => (l.outcome? m).toList ++ l.outcomes ms
    | none => []

/-- What may happen to a store that is open once and is not closed, for which one thread forwards at
    a time, and whose removals are committed. -/
def steady (l : Life) : Move → Prop
  | .opens _ _ faults _ => l.sessions.length = 0 ∧ faults.SparesRemovals
  | .forwards _ _ _ => ∀ a ∈ l.actors, a.job.isForwarding = false
  | .spoils _ faults => faults.SparesRemovals
  | .stops _ _ | .crashes => False
  | .sends _ _ _ _ | .acts _ _ | .raises _ => True

instance (l : Life) : (m : Move) → Decidable (steady l m)
  | .opens _ _ faults _ =>
    inferInstanceAs (Decidable (l.sessions.length = 0 ∧ faults.SparesRemovals))
  | .forwards _ _ _ => inferInstanceAs (Decidable (∀ a ∈ l.actors, a.job.isForwarding = false))
  | .spoils _ faults => inferInstanceAs (Decidable faults.SparesRemovals)
  | .stops _ _ | .crashes => inferInstanceAs (Decidable False)
  | .sends _ _ _ _ | .acts _ _ | .raises _ => inferInstanceAs (Decidable True)

/-- A store that is forwarded steadily is open once, and one thread forwards at a time. -/
theorem solo_of_steady (h : steady l m) : solo l m := by
  cases m with
  | opens queue style faults mapSize => exact h.1
  | forwards n s loops => exact h
  | _ => trivial

/-- What may happen to such a store while one operation follows the other: an actor does something
    while no other one has an operation under way. -/
def serial (l : Life) (m : Move) : Prop :=
  steady l m ∧
    match m with
    | .acts i _ => ∀ k (hk : k < l.actors.length), k ≠ i → l.actors[k].job.isIdle = true
    | _ => True

/-- What may happen to such a store while the operations interleave, but for a recount: it
    overwrites the counter while nobody has a subtraction to make. -/
def paced (l : Life) (m : Move) : Prop := steady l m ∧ keepsApart l m

instance (l : Life) : (m : Move) → Decidable (serial l m)
  | .acts i how =>
    inferInstanceAs (Decidable (steady l (.acts i how) ∧
      ∀ k (hk : k < l.actors.length), k ≠ i → l.actors[k].job.isIdle = true))
  | .opens _ _ _ _ | .sends _ _ _ _ | .forwards _ _ _ | .stops _ _ | .raises _ | .spoils _ _
  | .crashes => inferInstanceAs (Decidable (steady l _ ∧ True))

instance (l : Life) (m : Move) : Decidable (paced l m) :=
  inferInstanceAs (Decidable (steady l m ∧ keepsApart l m))

/-- So is one in which no overwriting comes between, and that keeps apart. -/
theorem apart_of_paced (h : paced l m) : apart l m := ⟨solo_of_steady h.1, h.2⟩

/-- Where one operation follows the other, nobody has a subtraction to make while an actor
    overwrites the counter. -/
theorem paced_of_serial (h : serial l m) : paced l m := by
  refine ⟨h.1, ?_⟩
  cases m with
  | acts i how =>
    intro hover a ha
    obtain ⟨k, hk, rfl⟩ := List.mem_iff_getElem.1 ha
    by_cases hki : k = i
    · subst hki
      rw [List.getElem?_eq_getElem hk] at hover
      exact Job.subtracts_of_overwrites hover
    · exact Job.subtracts_of_isIdle (h.2 k hk hki)
  | _ => trivial

/-- The outcomes of a longer run are those of the run and of its last move. -/
theorem outcomes_concat {allowed : Life → Move → Prop} [∀ l m, Decidable (allowed l m)] {l₁ : Life}
    (h : l.run allowed ms = some l₁) (hm : l₁.move m = some l') :
    l.outcomes (ms ++ [m]) = l.outcomes ms ++ (l'.outcome? m).toList := by
  induction ms generalizing l with
  | nil =>
    cases h
    show (match l₁.move m with | some l => (l.outcome? m).toList ++ [] | none => []) = _
    rw [hm]
    exact List.append_nil _
  | cons m₁ ms ih =>
    obtain ⟨l₂, -, hm₁, h⟩ := run_cons.1 h
    show (match l.move m₁ with | some l => _ ++ l.outcomes (ms ++ [m]) | none => []) =
      (match l.move m₁ with | some l => (l.outcome? m₁).toList ++ l.outcomes ms | none => []) ++ _
    rw [hm₁]
    dsimp only
    rw [ih h, List.append_assoc]

/-- The removals of such a store are committed, it is open, and its queue does not end. -/
structure Steady (l : Life) : Prop where
  spares : ∀ s ∈ l.sessions, s.hub.faults.SparesRemovals
  isOpen : ∀ s ∈ l.sessions, s.hub.store.closed = false
  goesOn : ∀ a ∈ l.actors, a.job.isStopping = false

/-- Moves keep a steady life steady. -/
theorem Steady.move (hl : l.Steady) (ok : steady l m) (h : l.move m = some l') : l'.Steady := by
  have hset : ∀ {k : Nat} {r r' : Session}, r ∈ l.sessions.set k r' → r ∈ l.sessions ∨ r = r' :=
    List.mem_or_eq_of_mem_set
  have hmem : ∀ {k : Nat} {r : Session}, l.sessions[k]? = some r → r ∈ l.sessions :=
    List.mem_of_getElem?
  cases moved_of_move h with
  | opens queue style faults mapSize =>
    refine ⟨fun r hr => ?_, fun r hr => ?_, hl.goesOn⟩ <;>
      rcases List.mem_append.1 hr with hr | hr
    · exact hl.spares r hr
    · rw [List.mem_singleton.1 hr]
      exact ok.2
    · exact hl.isOpen r hr
    · rw [List.mem_singleton.1 hr]
      rfl
  | enlists hj =>
    refine ⟨hl.spares, hl.isOpen, fun a ha => ?_⟩
    rcases List.mem_append.1 ha with ha | ha
    · exact hl.goesOn a ha
    · rw [List.mem_singleton.1 ha]
      cases hj with
      | stops => exact ok.elim
      | _ => rfl
  | @acts i how a s s' j news ha hs hstep =>
    obtain ⟨hkeeps, hstop⟩ := hstep.keeps (hl.goesOn a (List.mem_of_getElem? ha))
    refine ⟨fun r hr => ?_, fun r hr => ?_, fun b hb => ?_⟩
    · rcases hset hr with hr | rfl
      · exact hl.spares r hr
      · rw [hkeeps.faults]
        exact hl.spares s (List.mem_of_getElem? hs)
    · rcases hset hr with hr | rfl
      · exact hl.isOpen r hr
      · rw [hkeeps.closed]
        exact hl.isOpen s (List.mem_of_getElem? hs)
    · rcases List.mem_or_eq_of_mem_set hb with hb | rfl
      · exact hl.goesOn b hb
      · exact hstop
  | @raises n s hs =>
    refine ⟨fun r hr => ?_, fun r hr => ?_, hl.goesOn⟩ <;> rcases hset hr with hr | rfl
    · exact hl.spares r hr
    · exact hl.spares s (hmem hs)
    · exact hl.isOpen r hr
    · exact hl.isOpen s (hmem hs)
  | @spoils n s faults hs =>
    refine ⟨fun r hr => ?_, fun r hr => ?_, hl.goesOn⟩ <;> rcases hset hr with hr | rfl
    · exact hl.spares r hr
    · exact ok
    · exact hl.isOpen r hr
    · exact hl.isOpen s (hmem hs)
  | crashes => exact ok.elim

/-- A life that is reached by such moves is steady. -/
theorem Reached.steady (h : Reached steady t l) : l.Steady := by
  induction h with
  | new =>
    exact ⟨fun s hs => (List.not_mem_nil hs).elim, fun s hs => (List.not_mem_nil hs).elim,
      fun a ha => (List.not_mem_nil ha).elim⟩
  | move before ok hm ih => exact ih.move ok hm

/-- The books of a store that was opened over some entries, but for what actors are still to
    enter: the entries, the counters of the store, and the journal tell what has been committed and
    what passes have come to. -/
structure Books (t : Table) (outcomes : List Outcome) (l : Life) : Prop where
  unopened : l.sessions = [] → l = new t ∧ outcomes = []
  exact : ∀ a ∈ l.actors, a.job.Exact l.files.table
  entries : l.files.table.size + l.total 0 Job.gone + (outcomes.map Outcome.removed).sum =
    t.size + (committedEntries l.history).length
  deletes : ∀ s ∈ l.sessions, s.hub.store.deletes + l.total 0 Job.untallied =
    l.total 0 Job.gone + (outcomes.map Outcome.removed).sum
  puts : ∀ s ∈ l.sessions, s.hub.store.puts + l.total 0 Job.uncounted =
    (committedEntries l.history).length
  counts : ∀ s ∈ l.sessions, ∀ f : Measure → Nat,
    (s.hub.journal.counts.map f).sum + l.total 0 (fun j => (j.unmeasured.map f).sum) =
      ((committedEntries l.history).map fun x => f (.enqueued x.value.length)).sum +
        ((outcomes.flatMap Outcome.measures).map f).sum

/-- Whoever takes a step leaves what the others do exact. -/
theorem Reached.exact_of_stride {how : Act} {s' : Session} {j : Job} {news : List Occurrence}
    (h : Reached solo t l) (hik : i ≠ k) (ha : l.actors[i]? = some a) (hb : l.actors[k]? = some b)
    (hstep : Job.Stride (l.hasEnded a.session) (l.hasDied a.session) l.history.length
      (s.over l.files) how a.job j s' news)
    (hexact : b.job.Exact l.files.table) : b.job.Exact s'.hub.store.table := by
  cases hforward : a.job.isForwarding with
  | true =>
    exact Job.exact_of_not_isForwarding (h.isForwarding_eq_false hik ha hb hforward) hexact
  | false => exact hexact.mono fun k hk => hstep.contains (h.sound.fits ha) hforward hk

/-- A step of an actor keeps the books. -/
theorem Books.act {outcomes : List Outcome} {how : Act} {s' : Session} {j j' : Job}
    {news : List Occurrence} (hl : l.Books t outcomes) (h : Reached steady t l)
    (ha : l.actors[i]? = some ⟨0, j⟩) (hs : l.sessions[0]? = some s)
    (hstep : Job.Stride (l.hasEnded 0) (l.hasDied 0) l.history.length (s.over l.files) how j j' s'
      news) (hnamed : ∀ x ∈ l.files.table.toList, x.key ≠ [])
    (hnew : ∀ e y, .committed e y ∈ news → ∀ z ∈ l.files.table.toList, z.key ≠ y.key) :
    Books t (outcomes ++ j'.outcome?.toList) ⟨s'.hub.store.files, l.sessions.set 0 s',
      l.actors.set i ⟨0, j'⟩, l.history ++ news⟩ := by
  have hsolo : Reached solo t l := h.mono fun _ _ => solo_of_steady
  have hmem := List.mem_of_getElem? hs
  have hr : Job.Reckons (s.over l.files) s' j j' (committedEntries news) :=
    hstep.reckons (hsolo.sound.fits ha) (hl.exact _ (List.mem_of_getElem? ha))
      (h.steady.goesOn _ (List.mem_of_getElem? ha)) (h.steady.spares s hmem)
      (h.steady.isOpen s hmem) hnamed hnew
  -- of each sum over the actors, only the part of this one changes
  have htotal : ∀ f : Job → Nat, ∃ x, l.total 0 f = x + f j ∧
      total ⟨s'.hub.store.files, l.sessions.set 0 s', l.actors.set i ⟨0, j'⟩, l.history ++ news⟩
        0 f = x + f j' := fun f => (total_set (n := 0) ha j' _ _ _).2
  have hsession : ∀ r ∈ l.sessions.set 0 s', r = s' := by
    intro r hr
    obtain ⟨k, hk⟩ := List.mem_iff_getElem?.1 hr
    rcases getElem?_set_cases hk with ⟨-, rfl⟩ | ⟨hne, hk⟩
    · rfl
    · exact absurd (hsolo.session_eq_zero hk) hne
  have hremoved : ((outcomes ++ j'.outcome?.toList).map Outcome.removed).sum =
      (outcomes.map Outcome.removed).sum + j'.outcome?.elim 0 Outcome.removed := by
    rw [List.map_append, List.sum_append]
    cases j'.outcome? <;> rfl
  obtain ⟨gone, hgone, hgone'⟩ := htotal Job.gone
  obtain ⟨untallied, huntallied, huntallied'⟩ := htotal Job.untallied
  obtain ⟨uncounted, huncounted, huncounted'⟩ := htotal Job.uncounted
  have hentries := hl.entries
  have hdeletes := hl.deletes s hmem
  have hputs := hl.puts s hmem
  have hentries' : s'.hub.store.table.size + j'.gone + j'.outcome?.elim 0 Outcome.removed =
    l.files.table.size + j.gone + (committedEntries news).length := hr.entries
  have hdeletes' : s'.hub.store.deletes + j'.untallied + j.gone =
    s.hub.store.deletes + j.untallied + j'.gone + j'.outcome?.elim 0 Outcome.removed := hr.deletes
  have hputs' : s'.hub.store.puts + j'.uncounted =
    s.hub.store.puts + j.uncounted + (committedEntries news).length := hr.puts
  refine ⟨fun hnone => ?_, fun b hb => ?_, ?_, fun r hr' => ?_, fun r hr' => ?_, fun r hr' f => ?_⟩
  · have hnil : l.sessions = [] := (List.set_eq_nil_iff 0 s').1 hnone
    rw [hnil] at hs
    cases hs
  · obtain ⟨k, hk⟩ := List.mem_iff_getElem?.1 hb
    rcases getElem?_set_cases hk with ⟨-, rfl⟩ | ⟨hne, hk⟩
    · exact hr.exact
    · exact hsolo.exact_of_stride hne.symm ha hk hstep (hl.exact b (List.mem_of_getElem? hk))
  · rw [hremoved, hgone', committedEntries_append, List.length_append]
    show s'.hub.store.table.size + _ + _ = _
    omega
  · rw [hsession r hr', hremoved, hgone', huntallied']
    omega
  · rw [hsession r hr', huncounted', committedEntries_append, List.length_append]
    omega
  · obtain ⟨unmeasured, hunmeasured, hunmeasured'⟩ :=
      htotal fun j => (j.unmeasured.map f).sum
    have hcounts := hl.counts s hmem f
    have hcounts' : (s'.hub.journal.counts.map f).sum + (j'.unmeasured.map f).sum =
      (s.hub.journal.counts.map f).sum + (j.unmeasured.map f).sum +
        ((committedEntries news).map fun x => f (.enqueued x.value.length)).sum +
        ((j'.outcome?.toList.flatMap Outcome.measures).map f).sum := hr.counts f
    rw [hsession r hr', hunmeasured', committedEntries_append, List.map_append, List.sum_append,
      List.flatMap_append, List.map_append, List.sum_append]
    omega

/-- One more actor that has nothing to enter. -/
theorem Books.enlist {outcomes : List Outcome} {j : Job} {news : List Occurrence}
    (hl : l.Books t outcomes) (hj : m.Enlists n j) (hn : n < l.sessions.length)
    (hc : committedEntries news = []) :
    Books t outcomes ⟨l.files, l.sessions, l.actors ++ [⟨n, j⟩], l.history ++ news⟩ := by
  have hfresh : j.Exact l.files.table ∧ j.gone = 0 ∧ j.untallied = 0 ∧ j.uncounted = 0 ∧
      j.unmeasured = [] := by
    cases hj with
    | sends n p nonce e => exact ⟨nofun, rfl, rfl, rfl, rfl⟩
    | forwards n s loops =>
      cases loops with
      | true => exact ⟨nofun, rfl, rfl, rfl, rfl⟩
      | false =>
        refine ⟨fun p hp => ?_, rfl, rfl, rfl, rfl⟩
        cases hp
        trivial
    | stops n graceful => exact ⟨trivial, rfl, rfl, rfl, rfl⟩
  obtain ⟨hexact, hgone, huntallied, huncounted, hunmeasured⟩ := hfresh
  have htotal : ∀ f : Job → Nat, f j = 0 →
      total ⟨l.files, l.sessions, l.actors ++ [⟨n, j⟩], l.history ++ news⟩ 0 f = l.total 0 f := by
    intro f hf
    rw [total_concat, hf, ite_self]
    rfl
  have hcommitted : committedEntries (l.history ++ news) = committedEntries l.history := by
    rw [committedEntries_append, hc, List.append_nil]
  refine ⟨fun hnone => ?_, fun a ha => ?_, ?_, fun s hs => ?_, fun s hs => ?_, fun s hs f => ?_⟩
  · rw [show l.sessions = [] from hnone] at hn
    cases hn
  · rcases List.mem_append.1 ha with ha | ha
    · exact hl.exact a ha
    · rw [List.mem_singleton.1 ha]
      exact hexact
  · rw [htotal _ hgone, hcommitted]
    exact hl.entries
  · rw [htotal _ huntallied, htotal _ hgone]
    exact hl.deletes s hs
  · rw [htotal _ huncounted, hcommitted]
    exact hl.puts s hs
  · rw [htotal _ (by rw [hunmeasured]; rfl), hcommitted]
    exact hl.counts s hs f

/-- What becomes of a session but for its store and its journal is not in the books. -/
theorem Books.set {outcomes : List Outcome} {s' : Session} (hl : l.Books t outcomes)
    (hs : l.sessions[n]? = some s) (store : s'.hub.store = s.hub.store)
    (journal : s'.hub.journal = s.hub.journal) :
    Books t outcomes { l with sessions := l.sessions.set n s' } := by
  have hmem := List.mem_of_getElem? hs
  refine ⟨fun hnone => ?_, hl.exact, hl.entries, fun r hr => ?_, fun r hr => ?_, fun r hr f => ?_⟩
  · rw [(List.set_eq_nil_iff n s').1 hnone] at hs
    cases hs
  · rcases List.mem_or_eq_of_mem_set hr with hr | rfl
    · exact hl.deletes r hr
    · rw [store]
      exact hl.deletes s hmem
  · rcases List.mem_or_eq_of_mem_set hr with hr | rfl
    · exact hl.puts r hr
    · rw [store]
      exact hl.puts s hmem
  · rcases List.mem_or_eq_of_mem_set hr with hr | rfl
    · exact hl.counts r hr f
    · rw [journal]
      exact hl.counts s hmem f

/-- A move keeps the books. -/
theorem Books.move {outcomes : List Outcome} (hl : l.Books t outcomes) (hr : Reached steady t l)
    (ok : steady l m) (hm : l.move m = some l') (hd : (sentGuids l'.history).Nodup)
    (hnew : ∀ guid ∈ sentGuids l'.history, t.contains (Utf8.encode guid) = false)
    (ht : ∀ x ∈ t.toList, x.key ≠ []) : l'.Books t (outcomes ++ (l'.outcome? m).toList) := by
  cases m with
  | opens queue style faults mapSize =>
    obtain ⟨rfl, rfl⟩ := hl.unopened (List.eq_nil_of_length_eq_zero ok.1)
    cases hm
    refine ⟨nofun, hl.exact, hl.entries, fun s hs => ?_, fun s hs => ?_, fun s hs f => ?_⟩ <;>
      cases List.mem_singleton.1 hs <;> rfl
  | sends n p nonce e =>
    obtain ⟨l₁, h₁, rfl⟩ := Option.map_eq_some_iff.1 hm
    obtain ⟨hn, rfl⟩ := enlist_cases h₁
    show Books t (outcomes ++ []) _
    rw [List.append_nil]
    exact hl.enlist (.sends n p nonce e) hn rfl
  | forwards n s loops =>
    obtain ⟨hn, rfl⟩ := enlist_cases hm
    show Books t (outcomes ++ []) _
    rw [List.append_nil, ← List.append_nil l.history]
    exact hl.enlist (.forwards n s loops) hn rfl
  | stops n graceful => exact ok.elim
  | acts i how =>
    have hsolo : Reached solo t l := hr.mono fun _ _ => solo_of_steady
    have hr' := hr.move ok hm
    cases moved_of_move hm with
    | enlists hj => cases hj
    | @acts _ _ a s s' j' news ha hs hstep =>
      obtain ⟨n, j⟩ := a
      -- whoever acts does so in the one session, so that the books are those of its store
      obtain rfl : n = 0 := hsolo.session_eq_zero hs
      have houtcome : (l.actors.set i ⟨0, j'⟩)[i]? = some ⟨0, j'⟩ :=
        List.getElem?_set_self (List.getElem?_eq_some_iff.1 ha).1
      show Books t (outcomes ++ ((l.actors.set i ⟨0, j'⟩)[i]?.bind fun a =>
        a.job.outcome?).toList) _
      rw [houtcome]
      exact hl.act hr ha hs hstep (hr.named ht) fun e y hy z hz => hr.key_ne hr' hd hnew rfl hy hz
  | raises n =>
    obtain ⟨s, hs, rfl⟩ := Option.map_eq_some_iff.1 hm
    show Books t (outcomes ++ []) _
    rw [List.append_nil]
    exact hl.set hs rfl rfl
  | spoils n faults =>
    obtain ⟨s, hs, rfl⟩ := Option.map_eq_some_iff.1 hm
    show Books t (outcomes ++ []) _
    rw [List.append_nil]
    exact hl.set hs rfl rfl
  | crashes => exact ok.elim

/-- The books of a run. -/
theorem books_of_run (hrun : (new t).run steady ms = some l) (hd : (sentGuids l.history).Nodup)
    (hnew : ∀ guid ∈ sentGuids l.history, t.contains (Utf8.encode guid) = false)
    (ht : ∀ x ∈ t.toList, x.key ≠ []) : l.Books t ((new t).outcomes ms) := by
  induction ms using List.reverseRecOn generalizing l with
  | nil =>
    cases hrun
    exact ⟨fun _ => ⟨rfl, rfl⟩, fun a ha => (List.not_mem_nil ha).elim, rfl,
      fun s hs => (List.not_mem_nil hs).elim, fun s hs => (List.not_mem_nil hs).elim,
      fun s hs => (List.not_mem_nil hs).elim⟩
  | append_singleton ms m ih =>
    obtain ⟨l₁, hrun₁, ok, hm⟩ := run_concat.1 hrun
    rw [outcomes_concat hrun₁ hm]
    have hbefore : ∀ guid ∈ sentGuids l₁.history, t.contains (Utf8.encode guid) = false := by
      obtain ⟨news, hnews⟩ := history_of_move hm
      intro guid hsent
      refine hnew guid ?_
      rw [hnews, sentGuids_append]
      exact List.mem_append_left _ hsent
    exact (ih hrun₁ (nodup_of_move hm hd) hbefore).move (Reached.new.run hrun₁) ok hm hd hnew ht

/-- What is measured adds up to what the entries of a run and the outcomes of its passes are
    measured as, when nothing is still to be entered. -/
theorem Books.total_eq {outcomes : List Outcome} {name : String} (hl : l.Books t outcomes)
    (hs : s ∈ l.sessions) (hidle : ∀ a ∈ l.actors, a.job.isIdle = true)
    (hn : name ≠ "spool.queue.depth") (put : Nat → Nat) (pass : Outcome → Nat)
    (hput : ∀ bytes, Measure.adds name (.enqueued bytes) = put bytes)
    (hpass : ∀ o : Outcome, (o.measures.map (Measure.adds name)).sum = pass o) :
    Journal.total name s.hub.journal =
      ((committedEntries l.history).map fun x => put x.value.length).sum +
        (outcomes.map pass).sum := by
  have hcounts := hl.counts s hs (Measure.adds name)
  have hnone : l.total 0 (fun j => (j.unmeasured.map (Measure.adds name)).sum) = 0 :=
    total_eq_zero fun a ha _ => by rw [(Job.entered_of_isIdle (hidle a ha)).2.2.2]; rfl
  have houtcomes : ((outcomes.flatMap Outcome.measures).map (Measure.adds name)).sum =
      (outcomes.map pass).sum := by
    clear hcounts hl
    induction outcomes with
    | nil => rfl
    | cons o outcomes ih =>
      rw [List.flatMap_cons, List.map_append, List.sum_append, List.map_cons, List.sum_cons, hpass]
      exact congrArg _ ih
  rw [hnone, Nat.add_zero, houtcomes] at hcounts
  rw [Journal.total_eq_sum hn, hcounts]
  simp only [hput]

/-- In a store that is open once and is not closed, for which one thread forwards at a time and
    whose removals are committed, events are sent with different identifiers that are new to the
    store; whether their puts can be committed is left open. One operation follows the other, or
    they interleave but for the recounts, which wait for the subtractions that are due. Whatever the
    sink answers, between operations: the entries that were there and those that have been committed
    are those that are counted and those that passes report as delivered or dropped; so many deletes
    and puts are counted; and the totals are those of the committed values and of what passes
    report. -/
theorem accounts_for_every_entry
    (hrun : (new t).run serial ms = some l ∨ (new t).run paced ms = some l)
    (hd : (sentGuids l.history).Nodup)
    (hnew : ∀ guid ∈ sentGuids l.history, t.contains (Utf8.encode guid) = false)
    (ht : ∀ x ∈ t.toList, x.key ≠ []) (hidle : ∀ a ∈ l.actors, a.job.isIdle = true)
    (hs : l.sessions[n]? = some s) :
    let outcomes := (new t).outcomes ms
    let committed := committedEntries l.history
    t.size + committed.length = s.hub.store.count + (outcomes.map Outcome.removed).sum ∧
      s.hub.store.deletes = (outcomes.map Outcome.removed).sum ∧
      s.hub.store.puts = committed.length ∧
      Journal.total "spool.enqueue.total" s.hub.journal = committed.length ∧
      Journal.total "spool.enqueue.bytes_total" s.hub.journal =
        (committed.map fun x => x.value.length).sum ∧
      Journal.total "spool.forward.events_delivered_total" s.hub.journal =
        (outcomes.map Outcome.handedOver).sum ∧
      Journal.total "spool.forward.events_dropped_total" s.hub.journal =
        (outcomes.map Outcome.discarded).sum ∧
      Journal.total "spool.forward.passes_total\x7boutcome=ok\x7d" s.hub.journal =
        outcomes.countP Outcome.isDelivered ∧
      Journal.total "spool.forward.passes_total\x7boutcome=fail\x7d" s.hub.journal =
        outcomes.countP Outcome.isFailed := by
  intro outcomes committed
  have hmem := List.mem_of_getElem? hs
  -- a run in which one operation follows the other is one of those in which they interleave
  have hpaced : (new t).run paced ms = some l :=
    hrun.elim (run_mono fun _ _ => paced_of_serial) id
  have hapart : Reached apart t l := (Reached.new.run hpaced).mono fun _ _ => apart_of_paced
  have hbooks : l.Books t outcomes :=
    books_of_run (run_mono (fun _ _ ok => ok.1) hpaced) hd hnew ht
  -- nothing is still to be entered, and nobody has put the counter ahead
  have hdone := fun a ha => Job.entered_of_isIdle (hidle a ha)
  have hgone : l.total 0 Job.gone = 0 := total_eq_zero fun a ha _ => (hdone a ha).1
  have huntallied : l.total 0 Job.untallied = 0 := total_eq_zero fun a ha _ => (hdone a ha).2.1
  have huncounted : l.total 0 Job.uncounted = 0 := total_eq_zero fun a ha _ => (hdone a ha).2.2.1
  have hahead : (l.actors.map fun a => a.job.ahead).sum = 0 := by
    rw [List.sum_eq_zero_iff_forall_eq_nat]
    intro x hx
    obtain ⟨a, ha, rfl⟩ := List.mem_map.1 hx
    exact Job.ahead_of_isIdle (hidle a ha)
  have hcount := hapart.count_eq_sum hs
  have hentries : _ = t.size + committed.length := hbooks.entries
  have hdeletes : _ = _ + (outcomes.map Outcome.removed).sum := hbooks.deletes s hmem
  have hputs : _ = committed.length := hbooks.puts s hmem
  have hzero : ∀ {α : Type} (xs : List α), (xs.map fun _ => 0).sum = 0 := by simp
  -- what puts and passes add to each of the totals
  refine ⟨by omega, by omega, by omega, ?_, ?_, ?_, ?_, ?_, ?_⟩
  · refine (hbooks.total_eq hmem hidle (by decide) (fun _ => 1) (fun _ => 0) (fun _ => rfl)
      fun o => by cases o <;> rfl).trans ?_
    rw [hzero, Nat.add_zero, List.map_const', List.sum_replicate_nat, Nat.mul_one]
  · refine (hbooks.total_eq hmem hidle (by decide) id (fun _ => 0)
      (fun bytes => by simp [Measure.adds, Measure.changes, Change.apply])
      fun o => by cases o <;> rfl).trans ?_
    rw [hzero, Nat.add_zero]
    rfl
  · refine (hbooks.total_eq hmem hidle (by decide) (fun _ => 0) Outcome.handedOver
      (fun _ => rfl) Outcome.adds_handedOver).trans ?_
    rw [hzero, Nat.zero_add]
  · refine (hbooks.total_eq hmem hidle (by decide) (fun _ => 0) Outcome.discarded
      (fun _ => rfl) Outcome.adds_discarded).trans ?_
    rw [hzero, Nat.zero_add]
  · refine (hbooks.total_eq hmem hidle (by decide) (fun _ => 0) (fun o => o.isDelivered.toNat)
      (fun _ => rfl) fun o => by cases o <;> rfl).trans ?_
    rw [hzero, Nat.zero_add, sum_map_toNat]
  · refine (hbooks.total_eq hmem hidle (by decide) (fun _ => 0) (fun o => o.isFailed.toNat)
      (fun _ => rfl) fun o => by cases o <;> rfl).trans ?_
    rw [hzero, Nat.zero_add, sum_map_toNat]

/-- A store with an entry that cannot be read. -/
def rubbish : Table := Table.empty.insert [99] [255]

/-- An event cannot be committed. Two others are, and passes of three entries are made: the sink
    refuses in the first one, and accepts in the second one, which drops the entry that cannot be
    read. -/
def bookkeeping : List Move :=
  reopening 3 :: .spoils 0 { Faults.none with landing := some .mapFull } ::
    (submitting 0 ⟨[3], Headers.empty.add (guidHeader, "d")⟩ ++ .spoils 0 .none ::
      (submitting 1 letter ++ submitting 2 postcard ++
        [.forwards 0 (.of .plaintext 3 0) false, .acts 3 (.step 0),
          .acts 3 (.answer (.refused .queueUnavailable)),
          .forwards 0 (.of .plaintext 3 0) false, .acts 4 (.step 0), .acts 4 (.answer .accepted)] ++
        List.replicate 8 (.acts 4 (.step 0))))

/-- Events are sent and forwarded while a put's commit fails, one operation after another. -/
theorem accounts_for_every_entry_of_bookkeeping :
    let l := (new rubbish).onward serial bookkeeping
    let outcomes := (new rubbish).outcomes bookkeeping
    let committed := committedEntries l.history
    (new rubbish).run serial bookkeeping = some l ∧ (sentGuids l.history).Nodup ∧
      (∀ guid ∈ sentGuids l.history, rubbish.contains (Utf8.encode guid) = false) ∧
      (∀ x ∈ rubbish.toList, x.key ≠ []) ∧ (∀ a ∈ l.actors, a.job.isIdle = true) ∧
      ∃ s, l.sessions[0]? = some s ∧ s.hub.store.failedCommits = 1 ∧ committed.length = 2 ∧
        rubbish.size + committed.length =
          s.hub.store.count + (outcomes.map Outcome.removed).sum ∧
        s.hub.store.deletes = (outcomes.map Outcome.removed).sum ∧
        s.hub.store.puts = committed.length ∧
        Journal.total "spool.enqueue.total" s.hub.journal = committed.length ∧
        Journal.total "spool.enqueue.bytes_total" s.hub.journal =
          (committed.map fun x => x.value.length).sum ∧
        Journal.total "spool.forward.events_delivered_total" s.hub.journal =
          (outcomes.map Outcome.handedOver).sum ∧
        Journal.total "spool.forward.events_dropped_total" s.hub.journal =
          (outcomes.map Outcome.discarded).sum ∧
        Journal.total "spool.forward.passes_total\x7boutcome=ok\x7d" s.hub.journal =
          outcomes.countP Outcome.isDelivered ∧
        Journal.total "spool.forward.passes_total\x7boutcome=fail\x7d" s.hub.journal =
          outcomes.countP Outcome.isFailed := by
  intro l outcomes committed
  have hrun : (new rubbish).run serial bookkeeping = some l := run_onward (by decide +kernel)
  have hd : (sentGuids l.history).Nodup := by decide +kernel
  have hnew : ∀ guid ∈ sentGuids l.history, rubbish.contains (Utf8.encode guid) = false := by
    decide +kernel
  have ht : ∀ x ∈ rubbish.toList, x.key ≠ [] := by decide +kernel
  have hidle : ∀ a ∈ l.actors, a.job.isIdle = true := by decide +kernel
  obtain ⟨s, hs, hfailed⟩ : ∃ s, l.sessions[0]? = some s ∧ s.hub.store.failedCommits = 1 := by
    obtain ⟨s, hs, hfailed⟩ := Option.map_eq_some_iff.1
      (show l.sessions[0]?.map (fun s => s.hub.store.failedCommits) = some 1 by decide +kernel)
    exact ⟨s, hs, hfailed⟩
  exact ⟨hrun, hd, hnew, ht, hidle, s, hs, hfailed, by decide +kernel,
    accounts_for_every_entry (.inl hrun) hd hnew ht hidle hs⟩

end Life

end Outbox
