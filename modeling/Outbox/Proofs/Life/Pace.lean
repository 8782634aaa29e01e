import Outbox.Proofs.Forwarder.Yield
import Outbox.Proofs.Life.Delivery
import Outbox.Proofs.Life.Wakeful

namespace Outbox

/-!
# The pace of the loop

A pass that changes nothing is to be followed by a pause:

* `Forwarder.Phase.Rests` — the loop is going to wait until a time is over.
* `Forwarder.rests_of_conclude`, `Forwarder.rests_of_step` — it does so after a pass that has not
  delivered, and for as long as nobody wakes it.
* `Life.Disturbed` — the flag is up, or something has been committed, or somebody was yet to wake
  the loop.
* `Life.Quiet`, `Life.Quiet.moved` — otherwise the flag is down, nothing new is in the store, and
  nobody owes a wake-up.
* `Life.run_undisturbed` — what every move of a run keeps up unless the loop is disturbed.
* `Life.pauses_after_idle_pass` — so the loop waits, unless it admits that it has not removed what
  it has delivered.
* `Life.redelivers_at_once` — then it does not.
-/

/-! ### A loop that waits -/

namespace Forwarder

/-- The loop waits, or is going to, until a time is over; or it has ended. -/
def Phase.Rests (due : Nat) : Phase → Prop
  | emptied | stopped | died => True
  | idling deadline | pausing deadline | paused deadline _ => due ≤ deadline
  | _ => False

namespace Phase

/-- What the pass has come to that is under way. -/
def result? : Phase → Option (Except Error Outcome)
  | passing p => p.result?
  | _ => none

/-- A phase with a result is that of a pass that has ended. -/
theorem eq_ended {p : Phase} {r : Except Error Outcome} (h : p.result? = some r) :
    p = passing (.ended r) := by
  cases p with
  | passing q =>
    cases q with
    | ended r' => cases h; rfl
    | _ => cases h
  | _ => cases h

/-- This is the place before a pass. -/
theorem eq_clearing {p : Phase} (h : p.isClearing = true) : p = clearing := by
  cases p with
  | clearing => rfl
  | _ => cases h

end Phase

variable {now past : Nat} {f f' : Forwarder} {h h' : Hub}

/-- After a pass that has not delivered, the loop waits for the delay. -/
theorem rests_of_conclude {r : Except Error Outcome} (hr : ∀ n m, r ≠ .ok (.delivered n m))
    (f : Forwarder) (now : Nat) (h : Hub) :
    (f.conclude now h r).1.phase.Rests (now + f.settings.delay) := by
  cases r with
  | error e => trivial
  | ok o =>
    cases o with
    | delivered n m => exact absurd rfl (hr n m)
    | empty => trivial
    | failed => exact Nat.le_refl _

/-- While nobody wakes it and the flag is down, the loop goes on to wait until the time is over. -/
theorem rests_of_step (hf : f.step now h = some (f', h'))
    (hr : f.phase.Rests (past + f.settings.delay)) (hempty : h.wake.isEmpty = true)
    (down : h.flag = false) (hpast : past ≤ now) :
    past + f.settings.delay ≤ now ∨ f'.phase.Rests (past + f.settings.delay) := by
  obtain ⟨settings, nextPass, idle, phase⟩ := f
  cases phase with
  | emptied =>
    cases hf
    exact .inr (Nat.add_le_add_right hpast _)
  | idling deadline =>
    -- without a wake-up, only the deadline lets it go on
    have hdue : past + settings.delay ≤ deadline := hr
    simp only [Forwarder.step, Wakeups.releases, hempty] at hf
    split at hf
    · next hover =>
      have hover : deadline ≤ now := by simpa using hover
      exact .inl (Nat.le_trans hdue hover)
    · cases hf
  | pausing deadline =>
    cases hf
    rw [down]
    exact .inr hr
  | paused deadline rings =>
    have hdue : past + settings.delay ≤ deadline := hr
    simp only [Forwarder.step] at hf
    split at hf
    · cases hf
      exact .inr hdue
    · split at hf
      · next hover => exact .inl (Nat.le_trans hdue hover)
      · cases hf
  | stopped => cases hf
  | died => cases hf
  | _ => exact hr.elim

/-- What the pass of a loop achieves in a step. -/
theorem yields_of_step {gone told : Prop} {a : Account} (hf : f.step now h = some (f', h'))
    (hp : ∀ p, f.phase = .passing p → p.Yields gone told)
    (hfits : ∀ p, f.phase = .passing p → p.Fits f.settings a h.store.files)
    (down : h.flag = false) (p : Pass) (hp' : f'.phase = .passing p) :
    p.Yields (gone ∨ h.store.table.Loses h'.store.table)
      (told ∨ 1 < f.settings.batchSize ∧ h.Admits h') := by
  have hstep : Step now f h f' h' := step_cases hf
  cases hstep with
  | @pass q y hq hs =>
    cases hp'
    exact (hp q hq).step (hfits q hq) down hs
  | clear =>
    cases hp'
    trivial
  | _ => cases hp'

end Forwarder

/-! ### Wake-ups and reports -/

namespace CommitTask

variable {t t' : CommitTask} {h h' : Hub}

/-- A task with a put under way owes a wake-up when the put has committed. -/
theorem owesWake_putting_iff {op : PutOp} {bytes : Nat} :
    (putting op bytes).owesWake = true ↔ op = .tallying ∨ op = .done (.ok ()) := by
  cases op with
  | tallying => simp [owesWake]
  | done r =>
    cases r with
    | error fault => simp [owesWake]
    | ok u => simp [owesWake]
  | _ => simp [owesWake]

/-- A task owes a wake-up when it commits, and not before. -/
theorem Turn.lands_of_owesWake (ht : t.Turn h t' h') (ho : t'.owesWake = true) :
    t.owesWake = true ∨ t.lands t' = true := by
  cases ht with
  | @start key value =>
    obtain ⟨-, -, hne, hne'⟩ := fits_put h.faults key value h.store.files
    exact ((owesWake_putting_iff.1 ho).elim hne hne').elim
  | put hs =>
    rcases PutOp.landed_step hs (owesWake_putting_iff.1 ho) with hl | hop
    · exact .inr hl
    · exact .inl (owesWake_putting_iff.2 (.inl hop))
  | done => exact .inl rfl
  | leave hn => rcases hn with rfl | rfl <;> cases ho
  | _ => cases ho

end CommitTask

namespace Job

variable {ended died : Bool} {past : Nat} {s s' : Session} {how : Act} {j j' : Job}
  {news : List Occurrence}

/-- Whoever comes to owe a wake-up has committed an entry. -/
theorem Stride.committed_of_owesWake (h : Stride ended died past s how j j' s' news)
    {f : Files} {history : List Occurrence} (hf : j.Fits f history) (ho : j'.owesWake = true) :
    j.owesWake = true ∨ ∃ e x, .committed e x ∈ news := by
  cases h with
  | call hs =>
    cases Submission.callTurn_of_step hs with
    | submit => cases ho
    | _ => exact .inl ho
  | @task e sub sub' h hs =>
    obtain ⟨t, t', ht, rfl, hturn⟩ := Submission.turn_of_stepTask hs
    rcases hturn.lands_of_owesWake ho with ho | hl
    · left
      show sub.task.elim false _ = true
      rw [ht]
      exact ho
    · obtain ⟨key, value, hentry, -⟩ := Submission.Fits.task hf t ht
      refine .inr ⟨e, ⟨key, value⟩, ?_⟩
      rw [Submission.landing_of_entry ht hentry, if_pos hl]
      exact List.mem_singleton.2 rfl
  | @drop e sub =>
    have ho : Option.elim sub.drop.task false CommitTask.owesWake = true := ho
    rw [Submission.task_drop] at ho
    exact .inl ho
  | _ => cases ho

/-- Only a task that owes a wake-up and the end of a queue wake anybody. -/
theorem Stride.asleep (h : Stride ended died past s how j j' s' news) (ho : j.owesWake = false)
    (hr : j.hasRaised = false) (hempty : s.hub.wake.isEmpty = true) :
    s'.hub.wake.isEmpty = true := by
  have hsame : ∀ {h : Hub}, h.wake = s.hub.wake → h.wake.isEmpty = true := by
    intro h heq
    rwa [heq]
  cases h with
  | loop hf =>
    cases Forwarder.step_cases hf with
    | pass hp hs => exact hsame (Pass.step_still hs).wake
    | wake => rfl
    | clear => rfl
    | _ => exact hempty
  | pass hp => exact hsame (Pass.step_still hp).wake
  | answer hc => exact hsame (Scenario.Work.answer_still _ _ _).wake
  | call hs => exact hsame (Submission.callTurn_of_step hs).quiet.2.1
  | task hs =>
    obtain ⟨t, t', ht, -, hturn⟩ := Submission.turn_of_stepTask hs
    cases hturn with
    | wake =>
      have ho : Option.elim _ false CommitTask.owesWake = false := ho
      rw [ht] at ho
      cases ho
    | _ => exact hempty
  | drop => exact hempty
  | stop hs =>
    cases Stop.turn_of_step hs with
    | wake => cases hr
    | _ => exact hempty

/-- What has been reported stays so. -/
theorem Stride.journal (h : Stride ended died past s how j j' s' news) {history : List Occurrence}
    (hf : j.Fits s.hub.store.files history) : s.hub.journal <+: s'.hub.journal := by
  have hgrows : ∀ {kind : Incident → Prop} {h : Hub}, s.hub.Tells kind h →
      s.hub.journal <+: h.journal := by
    rintro kind h ⟨notes, hnotes, -⟩
    exact ⟨notes, hnotes.symm⟩
  cases h with
  | @loop now f f' a h hs =>
    have hw : (Scenario.Work.loop f).step now s.hub = some (.loop f', h) := by
      show (f.step now s.hub).map _ = _
      rw [hs]
      rfl
    exact hgrows (Scenario.Work.tells_of_step hf.1 hw)
  | pass hp => exact hgrows (Pass.tells_of_step (hf.1 _ rfl) hp)
  | @answer r w =>
    exact hgrows (Scenario.Work.tells_of_answer (c := w.settings.cipher) (t := .empty) r w s.hub)
  | call hs =>
    cases Submission.callTurn_of_step hs with
    | wait => exact List.prefix_append _ _
    | giveUp => exact List.prefix_append _ _
    | _ => exact List.prefix_refl _
  | task hs =>
    obtain ⟨t, t', -, -, hturn⟩ := Submission.turn_of_stepTask hs
    cases hturn with
    | done => exact List.prefix_append _ _
    | _ => exact List.prefix_refl _
  | drop => exact List.prefix_refl _
  | stop hs =>
    cases Stop.turn_of_step hs with
    | expire => exact List.prefix_append _ _
    | join => exact List.prefix_append _ _
    | close => exact List.prefix_append _ _
    | _ => exact List.prefix_refl _

end Job

/-- What has been admitted stays so. -/
theorem Hub.Admits.mono {h g h' g' : Hub} (ha : h.Admits h') (hbefore : g.journal <+: h.journal)
    (hafter : h'.journal <+: g'.journal) : g.Admits g' := by
  obtain ⟨i, hi, hin⟩ := ha
  obtain ⟨notes, hnotes⟩ := hafter
  refine ⟨i, hi, ?_⟩
  have hin : Note.incident i ∈ h'.journal.drop g.journal.length :=
    (List.drop_sublist_drop_left _ hbefore.length_le).subset hin
  rw [← hnotes, List.drop_append]
  exact List.mem_append_left _ hin

namespace Life

variable {t : Table} {l₀ l l' : Life} {m : Move} {i n : Nat} {ms : List Move} {a a' : Actor}
  {s s' : Session} {allowed : Life → Move → Prop}

/-! ### Disturbances -/

/-- What may cut a wait of the loop short: the flag is up, an entry has been committed since a
    moment, or somebody who had committed one before was yet to wake the loop at that moment. -/
inductive Disturbed (l₀ : Life) (n : Nat) (l : Life) : Prop
  | raised {s : Session} (hs : l.sessions[n]? = some s) (up : s.hub.flag = true)
  | committed {e : Event} {x : Entry} (hx : .committed e x ∈ l.history.drop l₀.history.length)
  | owed {k : Nat} {e : Event} {sub : Submission} (hk : l₀.actors[k]? = some ⟨n, .sending e sub⟩)
      (ho : sub.owesWake = true)

/-- Since a moment, nothing has disturbed the loop of a session, and nobody is about to. -/
structure Quiet (l₀ : Life) (n : Nat) (l : Life) : Prop where
  past : l₀.history.length ≤ l.history.length
  uncommitted : ∀ e x, .committed e x ∉ l.history.drop l₀.history.length
  down : ∀ {s : Session}, l.sessions[n]? = some s → s.hub.flag = false
  within : ∀ x ∈ l.files.table.toList, x ∈ l₀.files.table.toList
  paid : ∀ {k : Nat} {j : Job}, l.actors[k]? = some ⟨n, j⟩ → j.owesWake = false

/-- Either somebody has disturbed the session, or it has been quiet. -/
theorem disturbed_or_quiet (l : Life) (n : Nat) : l.Disturbed n l ∨ l.Quiet n l := by
  by_cases hup : ∃ s, l.sessions[n]? = some s ∧ s.hub.flag = true
  · obtain ⟨s, hs, up⟩ := hup
    exact .inl (.raised hs up)
  · by_cases howed : ∃ (k : Nat) (e : Event) (sub : Submission),
        l.actors[k]? = some ⟨n, .sending e sub⟩ ∧ sub.owesWake = true
    · obtain ⟨k, e, sub, hk, ho⟩ := howed
      exact .inl (.owed hk ho)
    · refine .inr ⟨Nat.le_refl _, ?_, fun {s} hs => ?_, fun x hx => hx, fun {k j} hk => ?_⟩
      · simp
      · by_contra hne
        exact hup ⟨s, hs, by simpa using hne⟩
      · by_contra hne
        cases j with
        | sending e sub => exact howed ⟨k, e, sub, hk, by simpa [Job.owesWake] using hne⟩
        | _ => exact hne rfl

/-- What a move puts into the store is told. -/
theorem Reached.news_of_move (h : Reached allowed t l) (hm : l.move m = some l') :
    ∃ news, l'.history = l.history ++ news ∧ ∀ x ∈ l'.files.table.toList,
      x ∈ l.files.table.toList ∨ ∃ e, .committed e x ∈ news := by
  obtain ⟨news, hnews⟩ := history_of_move hm
  refine ⟨news, hnews, fun x hx => ?_⟩
  cases m with
  | acts k how =>
    have hact := hm
    obtain @⟨a, s, s', job, more, ha, hs, hstep⟩ := act_cases hact
    obtain rfl : more = news := List.append_cancel_left hnews
    rw [← table_of_session hs]
    exact hstep.put (h.sound.fits_session ha hs) x hx
  | _ => cases moved_of_move hm <;> exact .inl hx

/-- What has been disturbed stays so. -/
theorem Disturbed.moved (hd : Disturbed l₀ n l) (hm : Moved l m l') (hc : m.isCrash = false)
    (hnews : ∃ news, l'.history = l.history ++ news) : Disturbed l₀ n l' := by
  cases hd with
  | raised hs up =>
    obtain ⟨s', hs', onward⟩ := hm.onward hc hs
    exact .raised hs' (onward.flag up)
  | @committed e x hx =>
    obtain ⟨news, hnews⟩ := hnews
    refine .committed (e := e) (x := x) ?_
    rw [hnews, List.drop_append]
    exact List.mem_append_left _ hx
  | owed hk ho => exact .owed hk ho

/-- Whoever owes a wake-up after a move has owed it before, or has committed an entry. -/
theorem Reached.committed_of_owesWake {j : Job} (h : Reached allowed t l) (hm : Moved l m l')
    {news : List Occurrence} (hnews : l'.history = l.history ++ news) {k : Nat}
    (hk : l'.actors[k]? = some ⟨n, j⟩) (ho : j.owesWake = true) :
    (∃ i, l.actors[k]? = some ⟨n, i⟩ ∧ i.owesWake = true) ∨ ∃ e x, .committed e x ∈ news := by
  cases hm with
  | enlists hj hn =>
    rcases getElem?_concat_cases hk with hk | ⟨-, heq⟩
    · exact .inl ⟨j, hk, ho⟩
    · -- who has just begun owes nothing
      cases heq
      cases hj <;> cases ho
  | @acts i how b s s' job more hb hs hstep =>
    rcases getElem?_set_cases hk with ⟨rfl, heq⟩ | ⟨-, hk⟩
    · cases heq
      obtain rfl : more = news := List.append_cancel_left hnews
      rcases hstep.committed_of_owesWake (h.sound.fits hb) ho with ho | hx
      · exact .inl ⟨b.job, hb, ho⟩
      · exact .inr hx
    · exact .inl ⟨j, hk, ho⟩
  | crashes => cases hk
  | _ => exact .inl ⟨j, hk, ho⟩

/-- A move disturbs the loop, or leaves everything quiet. -/
theorem Quiet.moved (hq : Quiet l₀ n l) (h : Reached allowed t l) (hm : l.move m = some l') :
    Disturbed l₀ n l' ∨ Quiet l₀ n l' := by
  obtain ⟨news, hnews, hput⟩ := h.news_of_move hm
  have hdrop : l'.history.drop l₀.history.length =
      l.history.drop l₀.history.length ++ news := by
    rw [hnews, List.drop_append_of_le_length hq.past]
  by_cases hup : ∃ s, l'.sessions[n]? = some s ∧ s.hub.flag = true
  · obtain ⟨s, hs, up⟩ := hup
    exact .inl (.raised hs up)
  · by_cases hcom : ∃ e x, .committed e x ∈ news
    · obtain ⟨e, x, hx⟩ := hcom
      refine .inl (.committed (e := e) (x := x) ?_)
      rw [hdrop]
      exact List.mem_append_right _ hx
    · refine .inr ⟨?_, fun e x hx => ?_, fun {s} hs => ?_, fun x hx => ?_, fun {k j} hk => ?_⟩
      · rw [hnews, List.length_append]
        exact Nat.le_add_right_of_le hq.past
      · rw [hdrop] at hx
        exact (List.mem_append.1 hx).elim (hq.uncommitted e x) fun hx => hcom ⟨e, x, hx⟩
      · by_contra hne
        exact hup ⟨s, hs, by simpa using hne⟩
      · rcases hput x hx with hx | ⟨e, hx⟩
        · exact hq.within x hx
        · exact absurd ⟨e, x, hx⟩ hcom
      · by_contra hne
        have ho : j.owesWake = true := by simpa using hne
        rcases h.committed_of_owesWake (moved_of_move hm) hnews hk ho with ⟨j', hk', ho'⟩ | hx
        · rw [hq.paid hk'] at ho'
          cases ho'
        · exact hcom hx

/-- An entry that has gone while everything was quiet does not come back. -/
theorem Quiet.loses (hq : Quiet l₀ n l) (hq' : Quiet l₀ n l') (h : Reached allowed t l)
    (hm : l.move m = some l')
    (hl : l₀.files.table.Loses l.files.table ∨ l.files.table.Loses l'.files.table) :
    l₀.files.table.Loses l'.files.table := by
  obtain ⟨news, hnews, hput⟩ := h.news_of_move hm
  rcases hl with ⟨x, hx, hgone⟩ | ⟨x, hx, hgone⟩
  · refine ⟨x, hx, fun hback => ?_⟩
    rcases hput x hback with hin | ⟨e, hin⟩
    · exact hgone hin
    · refine hq'.uncommitted e x ?_
      rw [hnews, List.drop_append_of_le_length hq.past]
      exact List.mem_append_right _ hin
  · exact ⟨x, hq.within x hx, hgone⟩

/-- While everything is quiet, nobody wakes the loop. -/
theorem Befalls.asleep (hb : Befalls l i a s m a' s') (hq : Quiet l₀ a.session l)
    (h : Reached allowed t l) (ha : l.actors[i]? = some a) (hempty : s.hub.wake.isEmpty = true) :
    s'.hub.wake.isEmpty = true := by
  have hothers : ∀ {k : Nat} {b : Actor}, l.actors[k]? = some b → b.session = a.session →
      b.job.owesWake = false ∧ b.job.hasRaised = false := by
    intro k b hk same
    obtain ⟨_, job⟩ := b
    obtain rfl : _ = a.session := same
    refine ⟨hq.paid hk, ?_⟩
    by_contra hr
    obtain ⟨r, hr', hup⟩ := h.each stable_hasRaised hk
    have hdown := hq.down hr'
    rw [hup (by simpa using hr)] at hdown
    cases hdown
  cases hb with
  | spared hm => exact hempty
  | acts hstep => exact hstep.asleep (hothers ha rfl).1 (hothers ha rfl).2 hempty
  | other hk hb same hstep => exact hstep.asleep (hothers hb same).1 (hothers hb same).2 hempty
  | raised => exact hempty
  | spoiled faults => exact hempty

/-- What has been reported in a session stays so. -/
theorem Befalls.journal (hb : Befalls l i a s m a' s') (h : Reached allowed t l)
    (ha : l.actors[i]? = some a) : s.hub.journal <+: s'.hub.journal := by
  cases hb with
  | acts hstep => exact hstep.journal (h.sound.fits ha)
  | other hk hb same hstep => exact hstep.journal (h.sound.fits hb)
  | _ => exact List.prefix_refl _

/-- What holds at the beginning of a run, and is kept up by every move while everything is quiet,
    holds in the end unless something has disturbed the loop. -/
theorem run_undisturbed [∀ l m, Decidable (allowed l m)] {P : Life → Prop}
    (h : Reached allowed t l) (hrun : l.run (lasting allowed) ms = some l')
    (hstart : Disturbed l₀ n l ∨ Quiet l₀ n l ∧ P l)
    (hstep : ∀ {l₁ l₂ : Life} {m : Move}, Reached allowed t l₁ → m ∈ ms → m.isCrash = false →
      l₁.move m = some l₂ → Quiet l₀ n l₁ → Quiet l₀ n l₂ → P l₁ → P l₂) :
    Disturbed l₀ n l' ∨ Quiet l₀ n l' ∧ P l' := by
  -- from the end: a disturbance lasts, and quiet lasts until something disturbs
  induction ms using List.reverseRecOn generalizing l' with
  | nil =>
    cases hrun
    exact hstart
  | append_singleton ms m ih =>
    obtain ⟨l₁, hrun₁, ok, hm⟩ := run_concat.1 hrun
    have hreached := h.later hrun₁
    have hbefore := ih hrun₁ fun hl hin => hstep hl (List.mem_append_left _ hin)
    rcases hbefore with hd | ⟨hq, hP⟩
    · exact .inl (hd.moved (moved_of_move hm) ok.2 (history_of_move hm))
    · refine (hq.moved hreached hm).imp_right fun hq' => ⟨hq', ?_⟩
      exact hstep hreached (by simp) ok.2 hm hq hq' hP

/-- A disturbance lasts. -/
theorem Disturbed.run [∀ l m, Decidable (allowed l m)] (hd : Disturbed l₀ n l)
    (hrun : l.run (lasting allowed) ms = some l') : Disturbed l₀ n l' :=
  run_keeps (P := Disturbed l₀ n) hd hrun fun hd ok hm =>
    hd.moved (moved_of_move hm) ok.2 (history_of_move hm)

/-! ### From pass to pass -/

/-- After a step of an actor, the files are those of its session. -/
theorem Moved.files_eq {how : Act} (h : Moved l (.acts i how) l') (ha : l.actors[i]? = some a)
    (hs' : l'.sessions[a.session]? = some s') : l'.files = s'.hub.store.files := by
  cases h with
  | enlists hj => cases hj
  | acts hb hs hstep =>
    obtain rfl := Option.some.inj (ha.symm.trans hb)
    have hn := (List.getElem?_eq_some_iff.1 hs).1
    obtain rfl := Option.some.inj ((List.getElem?_set_self hn).symm.trans hs')
    rfl

/-- Nobody wakes the loop, and if a pass of it has delivered, an entry has gone since a moment or it
    has admitted that none has. -/
structure Toils (l₀ : Life) (h₀ : Hub) (i n : Nat) (l : Life) (f : Forwarder) (a : Account)
    (s : Session) : Prop where
  actor : l.actors[i]? = some ⟨n, .forwarding (.loop f) a⟩
  session : l.sessions[n]? = some s
  asleep : s.hub.wake.isEmpty = true
  journal : h₀.journal <+: s.hub.journal
  yields : ∀ p, f.phase = .passing p →
    p.Yields (l₀.files.table.Loses l.files.table) (1 < f.settings.batchSize ∧ h₀.Admits s.hub)

/-- Nobody wakes the loop, and since a pass that ended at a time it waits for the delay, or that was
    over by another time. -/
structure Waits (past last : Nat) (i n : Nat) (l : Life) (f : Forwarder) (a : Account)
    (s : Session) : Prop where
  actor : l.actors[i]? = some ⟨n, .forwarding (.loop f) a⟩
  session : l.sessions[n]? = some s
  asleep : s.hub.wake.isEmpty = true
  rests : past + f.settings.delay ≤ last ∨ f.phase.Rests (past + f.settings.delay)

variable {f : Forwarder} {c : Account} {h₀ : Hub} {past last : Nat}

/-- A loop goes on with its pass while the session is quiet. -/
theorem Toils.move (ht : Toils l₀ h₀ i n l f c s) (h : Reached allowed t l)
    (hm : l.move m = some l') (hc : m.isCrash = false) (hq : Quiet l₀ n l) (hq' : Quiet l₀ n l') :
    ∃ f' c' s', Toils l₀ h₀ i n l' f' c' s' := by
  obtain ⟨b, s', hb, hs', hbefalls⟩ := (moved_of_move hm).befalls hc ht.actor ht.session
  have hasleep := hbefalls.asleep hq h ht.actor ht.asleep
  have hmore := hbefalls.journal h ht.actor
  have hjournal := ht.journal.trans hmore
  have hloses := hq.loses hq' h hm
  have hdown : s.hub.flag = false := hq.down ht.session
  have hadmits : h₀.Admits s.hub → h₀.Admits s'.hub := fun ha => ha.mono (List.prefix_refl _) hmore
  have hfits : ∀ p, f.phase = .passing p → p.Fits f.settings c l.files := by
    intro p hp
    refine (h.sound.fits ht.actor).1 p ?_
    show (match f.phase with | .passing p => some p | _ => none) = some p
    rw [hp]
  cases hbefalls with
  | acts hstep =>
    cases hstep with
    | @loop now _ f' _ h' hf =>
      refine ⟨f', _, _, hb, hs', hasleep, hjournal, fun p hp => ?_⟩
      have hyields := Forwarder.yields_of_step hf ht.yields hfits hdown p hp
      rw [Forwarder.settings_of_step hf]
      -- what the step removes is gone for good, and what it tells stays in the journal
      refine hyields.mono (fun hgone => hloses (hgone.imp_right fun hgone => ?_)) fun htold => ?_
      · rw [(moved_of_move hm).files_eq ht.actor hs']
        exact hgone
      · rcases htold with htold | ⟨hbatch, hnew⟩
        · exact htold.imp_right hadmits
        · exact ⟨hbatch, hnew.mono ht.journal (List.prefix_refl _)⟩
    | @answer r =>
      obtain ⟨settings, nextPass, idle, phase⟩ := f
      cases phase with
      | passing p =>
        refine ⟨_, _, _, hb, hs', hasleep, hjournal, fun q hq => ?_⟩
        cases hq
        refine ((ht.yields p rfl).answer (hfits p rfl) r).mono (fun hgone => hloses (.inl hgone)) ?_
        exact And.imp_right hadmits
      | _ => exact ⟨_, _, _, hb, hs', hasleep, hjournal, nofun⟩
  | _ =>
    -- whatever others do, the pass stays where it is
    refine ⟨f, c, _, hb, hs', hasleep, hjournal, fun p hp => ?_⟩
    exact (ht.yields p hp).mono (fun hgone => hloses (.inl hgone)) (And.imp_right hadmits)

/-- A loop goes on to wait while the session is quiet. -/
theorem Waits.move (hw : Waits past last i n l f c s) (h : Reached allowed t l)
    (hm : l.move m = some l') (hc : m.isCrash = false) (hq : Quiet l₀ n l)
    (htime : ∀ now, m = .acts i (.step now) → past ≤ now ∧ now ≤ last) :
    ∃ f' c' s', Waits past last i n l' f' c' s' := by
  obtain ⟨b, s', hb, hs', hbefalls⟩ := (moved_of_move hm).befalls hc hw.actor hw.session
  have hasleep := hbefalls.asleep hq h hw.actor hw.asleep
  have hdown : s.hub.flag = false := hq.down hw.session
  cases hbefalls with
  | acts hstep =>
    cases hstep with
    | @loop now _ f' _ h' hf =>
      obtain ⟨hpast, hlast⟩ := htime now rfl
      refine ⟨f', _, _, hb, hs', hasleep, ?_⟩
      rw [Forwarder.settings_of_step hf]
      rcases hw.rests with hover | hrests
      · exact .inl hover
      · have hnext := Forwarder.rests_of_step hf hrests hw.asleep hdown hpast
        exact hnext.imp_left fun hover => Nat.le_trans hover hlast
    | @answer r =>
      obtain ⟨settings, nextPass, idle, phase⟩ := f
      cases phase with
      | passing p => exact ⟨_, _, _, hb, hs', hasleep, .inl (hw.rests.resolve_right id)⟩
      | _ => exact ⟨_, _, _, hb, hs', hasleep, hw.rests⟩
  | _ => exact ⟨f, c, _, hb, hs', hasleep, hw.rests⟩

/-- The loop begins a pass, having taken all wake-ups away. -/
theorem toils_of_clear {now : Nat} (h : Reached allowed t l)
    (hi : l.actors[i]? = some ⟨n, .forwarding (.loop f) c⟩) (hbegins : f.phase = .clearing)
    (hs : l.sessions[n]? = some s) (hm : l.move (.acts i (.step now)) = some l') :
    ∃ f' c' s', Toils l s.hub i n l' f' c' s' := by
  obtain ⟨b, s', hb, hs', hbefalls⟩ := (moved_of_move hm).befalls rfl hi hs
  have hjournal := hbefalls.journal h hi
  cases hbefalls with
  | spared hne => exact absurd rfl (hne _)
  | acts hstep =>
    cases hstep with
    | loop hf =>
      obtain ⟨settings, nextPass, idle, phase⟩ := f
      obtain rfl := hbegins
      cases hf
      refine ⟨_, _, _, hb, hs', rfl, hjournal, fun p hp => ?_⟩
      cases hp
      trivial
  | other hk => exact absurd rfl hk

/-- A pass has ended, and has not delivered. -/
theorem waits_of_conclude {now : Nat} {r : Except Error Outcome} (h : Reached allowed t l)
    (ht : Toils l₀ h₀ i n l f c s) (hends : f.phase = .passing (.ended r))
    (hr : ∀ n m, r ≠ .ok (.delivered n m)) (hq : Quiet l₀ n l)
    (hm : l.move (.acts i (.step now)) = some l') :
    ∃ f' c' s', Waits now last i n l' f' c' s' := by
  obtain ⟨b, s', hb, hs', hbefalls⟩ := (moved_of_move hm).befalls rfl ht.actor ht.session
  have hasleep := hbefalls.asleep hq h ht.actor ht.asleep
  cases hbefalls with
  | spared hne => exact absurd rfl (hne _)
  | acts hstep =>
    cases hstep with
    | @loop _ _ f' _ h' hf =>
      have hconclude : f.conclude now (s.over l.files).hub r = (f', h') := by
        simp only [Forwarder.step, hends] at hf
        exact Option.some.inj hf
      have hrests := Forwarder.rests_of_conclude hr f now (s.over l.files).hub
      rw [hconclude] at hrests
      refine ⟨f', _, _, hb, hs', hasleep, .inr ?_⟩
      rw [Forwarder.settings_of_step hf]
      exact hrests
  | other hk => exact absurd rfl hk

/-- Between two moments it has been reported in a session that something delivered has not been
    removed. -/
def Admits (l₀ l : Life) (n : Nat) : Prop :=
  ∃ s₀ s, l₀.sessions[n]? = some s₀ ∧ l.sessions[n]? = some s ∧ s₀.hub.Admits s.hub

/-- A loop begins a pass, which ends with everything still in the store that was there when it
    began. If the loop then begins another pass, the delay is over by then, or the loop has been
    disturbed, or the pass has delivered a batch and has reported that it could not remove it. -/
theorem pauses_after_idle_pass {l₁ l₂ : Life} {f₀ f₁ f₂ : Forwarder} {c₀ c₁ c₂ : Account}
    {now₀ now₁ now₂ : Nat} {ms ms' : List Move} {r : Except Error Outcome}
    (h : Reached anyMove t l₀) (hi₀ : l₀.actors[i]? = some ⟨n, .forwarding (.loop f₀) c₀⟩)
    (hbegins : f₀.phase = .clearing)
    (hpass : l₀.run (lasting anyMove) (.acts i (.step now₀) :: ms) = some l₁)
    (hi₁ : l₁.actors[i]? = some ⟨n, .forwarding (.loop f₁) c₁⟩)
    (hends : f₁.phase = .passing (.ended r))
    (hkept : ∀ x ∈ l₀.files.table.toList, x ∈ l₁.files.table.toList)
    (hrun : l₁.run (lasting anyMove) (.acts i (.step now₁) :: ms') = some l₂)
    (htimes : ∀ now, .acts i (.step now) ∈ ms' → now₁ ≤ now ∧ now ≤ now₂)
    (hi₂ : l₂.actors[i]? = some ⟨n, .forwarding (.loop f₂) c₂⟩) (hagain : f₂.phase = .clearing) :
    now₁ + f₂.settings.delay ≤ now₂ ∨ Disturbed l₀ n l₂ ∨
      (∃ delivered dropped, r = .ok (.delivered delivered dropped)) ∧
        1 < f₁.settings.batchSize ∧ l₀.Admits l₁ n := by
  have hreached := h.later hpass
  obtain ⟨l, -, hclear, hpass⟩ := run_cons.1 hpass
  obtain ⟨l', -, hconclude, hrun⟩ := run_cons.1 hrun
  obtain ⟨s₀, hs₀⟩ := h.session_of_actor hi₀
  -- the pass, from the moment at which the wake-ups are cleared
  have hstart : Disturbed l₀ n l ∨ Quiet l₀ n l ∧ ∃ f c s, Toils l₀ s₀.hub i n l f c s := by
    rcases disturbed_or_quiet l₀ n with hd | hq
    · exact .inl (hd.moved (moved_of_move hclear) rfl (history_of_move hclear))
    · exact (hq.moved h hclear).imp_right fun hq' =>
        ⟨hq', toils_of_clear h hi₀ hbegins hs₀ hclear⟩
  have hbegun : Reached anyMove t l := h.move (m := .acts i (.step now₀)) trivial hclear
  have hended := run_undisturbed (P := fun l => ∃ f c s, Toils l₀ s₀.hub i n l f c s) hbegun hpass
    hstart fun hl _ hc hm hq hq' ⟨_, _, _, ht⟩ => ht.move hl hm hc hq hq'
  rcases hended with hd | ⟨hq, f, c, s, ht⟩
  · have hd := hd.moved (moved_of_move hconclude) rfl (history_of_move hconclude)
    exact .inr (.inl (hd.run hrun))
  · obtain ⟨rfl, rfl⟩ : f = f₁ ∧ c = c₁ := by
      cases ht.actor.symm.trans hi₁
      exact ⟨rfl, rfl⟩
    by_cases hr : ∃ delivered dropped, r = .ok (.delivered delivered dropped)
    · -- what has been delivered has not gone, so that this has been admitted
      right; right
      have hyields := ht.yields _ hends
      obtain ⟨delivered, dropped, rfl⟩ := hr
      rcases hyields with ⟨x, hx, hgone⟩ | ⟨hbatch, hadmits⟩
      · exact absurd (hkept x hx) hgone
      · exact ⟨⟨_, _, rfl⟩, hbatch, s₀, s, hs₀, ht.session, hadmits⟩
    · -- the loop waits from the moment at which the pass ends
      have hwait : Disturbed l₀ n l' ∨
          Quiet l₀ n l' ∧ ∃ f c s, Waits now₁ now₂ i n l' f c s := by
        refine (hq.moved hreached hconclude).imp_right fun hq' => ⟨hq', ?_⟩
        exact waits_of_conclude hreached ht hends (fun k m heq => hr ⟨k, m, heq⟩) hq hconclude
      have hover : Reached anyMove t l' :=
        hreached.move (m := .acts i (.step now₁)) trivial hconclude
      have hlast := run_undisturbed (P := fun l => ∃ f c s, Waits now₁ now₂ i n l f c s) hover hrun
        hwait fun hl hin hc hm hq _ ⟨_, _, _, hw⟩ =>
          hw.move hl hm hc hq fun now heq => htimes now (heq ▸ hin)
      rcases hlast with hd | ⟨-, f', c', s', hw⟩
      · exact .inr (.inl hd)
      · left
        cases hw.actor.symm.trans hi₂
        refine hw.rests.resolve_right fun hrests => ?_
        rw [hagain] at hrests
        exact hrests

/-! ### Runs -/

/-- The loop that an actor of a session runs. -/
def loop? (l : Life) (i n : Nat) : Option Forwarder :=
  match l.actors[i]? with
  | some ⟨k, .forwarding (.loop f) _⟩ => if k = n then some f else none
  | _ => none

/-- A session's loop is the one that an actor runs in it. -/
theorem loop?_eq_some_iff {f : Forwarder} :
    l.loop? i n = some f ↔ ∃ c, l.actors[i]? = some ⟨n, .forwarding (.loop f) c⟩ := by
  unfold loop?
  constructor
  · intro hf
    split at hf
    · next k g c hi =>
      split at hf
      · next hk =>
        cases hf
        subst hk
        exact ⟨c, hi⟩
      · cases hf
    · cases hf
  · rintro ⟨c, hi⟩
    simp [hi]

/-- A loop of some kind is run by an actor. -/
theorem exists_loop (kind : Forwarder → Bool) (h : (l.loop? i n).any kind = true) :
    ∃ f c, l.actors[i]? = some ⟨n, .forwarding (.loop f) c⟩ ∧ kind f = true := by
  obtain ⟨f, hf, hkind⟩ := (Option.any_eq_true _ _).1 h
  obtain ⟨c, hi⟩ := loop?_eq_some_iff.1 hf
  exact ⟨f, c, hi, hkind⟩

/-- A loop in front of a store that is empty and tells two entries too many; it is about to begin a
    pass. -/
def misled : List Move :=
  .opens ⟨"", 2, ⟨.plaintext, 0⟩, 0, false, some ⟨true⟩⟩ .whole
      { Faults.none with overstated := 2 } 64 ::
    .forwards 0 (.of .plaintext 2 30) true :: List.replicate 3 (.acts 0 (.step 0))

/-- It waits for the delay before it is misled again. -/
theorem pauses_after_idle_pass_of_misled :
    let l₀ := after anyMove .empty misled
    let ms := List.replicate 8 (.acts 0 (.step 0))
    let l₁ := l₀.onward (lasting anyMove) (.acts 0 (.step 0) :: ms)
    let ms' := .acts 0 (.step 0) :: List.replicate 3 (.acts 0 (.step 30))
    let l₂ := l₁.onward (lasting anyMove) (.acts 0 (.step 0) :: ms')
    ∃ f₀ f₁ f₂ c₀ c₁ c₂ r,
      (Reached anyMove .empty l₀ ∧ l₀.actors[0]? = some ⟨0, .forwarding (.loop f₀) c₀⟩ ∧
        f₀.phase = .clearing ∧
        l₀.run (lasting anyMove) (.acts 0 (.step 0) :: ms) = some l₁ ∧
        l₁.actors[0]? = some ⟨0, .forwarding (.loop f₁) c₁⟩ ∧ f₁.phase = .passing (.ended r) ∧
        (∀ x ∈ l₀.files.table.toList, x ∈ l₁.files.table.toList) ∧
        l₁.run (lasting anyMove) (.acts 0 (.step 0) :: ms') = some l₂ ∧
        (∀ now, .acts 0 (.step now) ∈ ms' → 0 ≤ now ∧ now ≤ 30) ∧
        l₂.actors[0]? = some ⟨0, .forwarding (.loop f₂) c₂⟩ ∧ f₂.phase = .clearing) ∧
      (0 + f₂.settings.delay ≤ 30 ∨ Disturbed l₀ 0 l₂ ∨
        (∃ delivered dropped, r = .ok (.delivered delivered dropped)) ∧
          1 < f₁.settings.batchSize ∧ l₀.Admits l₁ 0) := by
  intro l₀ ms l₁ ms' l₂
  have hl : Reached anyMove .empty l₀ := Reached.after (by decide +kernel)
  have hpass : l₀.run (lasting anyMove) (.acts 0 (.step 0) :: ms) = some l₁ :=
    run_onward (by decide +kernel)
  have hsame : l₁.files.table = l₀.files.table := by decide +kernel
  have hkept : ∀ x ∈ l₀.files.table.toList, x ∈ l₁.files.table.toList := by
    rw [hsame]
    exact fun x hx => hx
  have hrun : l₁.run (lasting anyMove) (.acts 0 (.step 0) :: ms') = some l₂ :=
    run_onward (by decide +kernel)
  have htimes : ∀ now, Move.acts 0 (.step now) ∈ ms' → 0 ≤ now ∧ now ≤ 30 := by
    simp [ms']
  -- the loop when it begins the pass, when the pass has ended, and when it begins another one
  obtain ⟨f₀, c₀, hi₀, hbegins⟩ := exists_loop (l := l₀) (i := 0) (n := 0)
    (fun f => f.phase.isClearing) (by decide +kernel)
  obtain ⟨f₁, c₁, hi₁, hends⟩ := exists_loop (l := l₁) (i := 0) (n := 0)
    (fun f => f.phase.result? = some (.ok .empty)) (by decide +kernel)
  obtain ⟨f₂, c₂, hi₂, hagain⟩ := exists_loop (l := l₂) (i := 0) (n := 0)
    (fun f => f.phase.isClearing) (by decide +kernel)
  have hbegins := Forwarder.Phase.eq_clearing hbegins
  have hends := Forwarder.Phase.eq_ended (of_decide_eq_true hends)
  have hagain := Forwarder.Phase.eq_clearing hagain
  exact ⟨f₀, f₁, f₂, c₀, c₁, c₂, .ok .empty,
    ⟨hl, hi₀, hbegins, hpass, hi₁, hends, hkept, hrun, htimes, hi₂, hagain⟩,
    pauses_after_idle_pass hl hi₀ hbegins hpass hi₁ hends hkept hrun htimes hi₂ hagain⟩

/-- A loop in front of a store with two entries that cannot be removed; it is about to begin a
    pass. -/
def stuck : List Move :=
  .opens ⟨"", 2, ⟨.plaintext, 0⟩, 0, false, some ⟨true⟩⟩ .whole
      { Faults.none with removing := some "broken" } 64 ::
    (submitting 0 letter ++ submitting 1 postcard ++ .forwards 0 (.of .plaintext 2 30) true ::
      List.replicate 3 (.acts 2 (.step 0)))

/-- The pass hands the batch over and changes nothing in the store. Nothing disturbs the loop then,
    and no time goes by, but it begins another pass. -/
theorem redelivers_at_once :
    let l₀ := after anyMove .empty stuck
    let ms := [.acts 2 (.step 0), .acts 2 (.answer .accepted), .acts 2 (.step 0),
      .acts 2 (.step 0)]
    let l₁ := l₀.onward (lasting anyMove) (.acts 2 (.step 0) :: ms)
    let ms' := [.acts 2 (.step 0), .acts 2 (.step 0)]
    let l₂ := l₁.onward (lasting anyMove) (.acts 2 (.step 0) :: ms')
    ∃ f₀ f₁ f₂ c₀ c₁ c₂,
      Reached anyMove .empty l₀ ∧ l₀.actors[2]? = some ⟨0, .forwarding (.loop f₀) c₀⟩ ∧
        f₀.phase = .clearing ∧
        l₀.run (lasting anyMove) (.acts 2 (.step 0) :: ms) = some l₁ ∧
        l₁.actors[2]? = some ⟨0, .forwarding (.loop f₁) c₁⟩ ∧
        f₁.phase = .passing (.ended (.ok (.delivered 2 0))) ∧
        l₁.files.table = l₀.files.table ∧
        l₁.run (lasting anyMove) (.acts 2 (.step 0) :: ms') = some l₂ ∧
        l₂.actors[2]? = some ⟨0, .forwarding (.loop f₂) c₂⟩ ∧ f₂.phase = .clearing ∧
        f₂.settings.delay = 30 ∧ (l₂.sessions[0]?.map fun s => s.hub.flag) = some false ∧
        committedEntries (l₂.history.drop l₀.history.length) = [] ∧
        ∀ a ∈ l₀.actors, a.job.owesWake = false := by
  intro l₀ ms l₁ ms' l₂
  have hl : Reached anyMove .empty l₀ := Reached.after (by decide +kernel)
  have hpass : l₀.run (lasting anyMove) (.acts 2 (.step 0) :: ms) = some l₁ :=
    run_onward (by decide +kernel)
  have hrun : l₁.run (lasting anyMove) (.acts 2 (.step 0) :: ms') = some l₂ :=
    run_onward (by decide +kernel)
  obtain ⟨f₀, c₀, hi₀, hbegins⟩ := exists_loop (l := l₀) (i := 2) (n := 0)
    (fun f => f.phase.isClearing) (by decide +kernel)
  obtain ⟨f₁, c₁, hi₁, hends⟩ := exists_loop (l := l₁) (i := 2) (n := 0)
    (fun f => f.phase.result? = some (.ok (.delivered 2 0))) (by decide +kernel)
  obtain ⟨f₂, c₂, hi₂, hagain⟩ := exists_loop (l := l₂) (i := 2) (n := 0)
    (fun f => f.phase.isClearing && f.settings.delay == 30) (by decide +kernel)
  obtain ⟨hagain, hdelay⟩ := Bool.and_eq_true_iff.1 hagain
  exact ⟨f₀, f₁, f₂, c₀, c₁, c₂, hl, hi₀, Forwarder.Phase.eq_clearing hbegins, hpass, hi₁,
    Forwarder.Phase.eq_ended (of_decide_eq_true hends), by decide +kernel, hrun, hi₂,
    Forwarder.Phase.eq_clearing hagain, eq_of_beq hdelay, by decide +kernel, by decide +kernel,
    by decide +kernel⟩

end Life

end Outbox
