import Outbox.Proofs.Hub
import Outbox.Proofs.Life.Basic
import Outbox.Proofs.Lists

namespace Outbox

/-!
# What holds throughout the life of a store

* `Job.EndStep`, `Job.Step` — what a step of an actor can do, case by case.
* `Job.Fits` — what an actor has made of the files, told by its account and by what has occurred.
* `Job.Step.turn`, `Job.Step.fits`, `Job.Step.put` — a step keeps this up, and what it puts is told.
* `Life.Sound` — at most one actor holds the lock, and each has made of the files what it is there
  for.
* `Life.Sound.move`, `Life.Reached.sound` — this holds throughout.
-/

namespace Job

/-! ### Steps of actors -/

/-- What a step of the end of a queue can make of it and of its session; `ended` says whether the
    forwarder has ended. -/
inductive EndStep (ended : Bool) (now : Nat) (s : Session) : Stop → Stop → Session → Prop
  | goOn {stop stop' : Stop} {s' : Session} (keeps : s.hub.Keeps s'.hub)
      (handle : s'.queue.handle = s.queue.handle) (hc : stop' ≠ .closing) :
      EndStep ended now s stop stop' s'
  | join {deadline : Nat} {stop' : Stop} {s' : Session} (keeps : s.hub.Keeps s'.hub)
      (hover : s.queue.handle = none ∨ ended = true ∨ deadline ≤ now) :
      EndStep ended now s (.joining deadline) stop' s'
  | close {s' : Session} (faults : s'.hub.faults = s.hub.faults)
      (handle : s'.queue.handle = s.queue.handle) : EndStep ended now s .closing .done s'

/-- What a step of an actor can make of it and of its session, and what occurs. -/
inductive Step (ended : Bool) (past : Nat) (s : Session) :
    Act → Job → Job → Session → List Occurrence → Prop
  | forward {now : Nat} {w w' : Scenario.Work} {a : Account} {h : Hub}
      (hw : w.Step s.hub w' h.store) (live : w.hasEnded = false) (keeps : s.hub.Keeps h) :
      Step ended past s (.step now) (forwarding w a) (forwarding w' (w.account s.hub past a))
        ⟨h, s.queue⟩ (removals w.settings.cipher s.hub.store.table h.store.table)
  | answer {w w' : Scenario.Work} {a : Account} {h : Hub} {r : SinkAnswer} {events : List Event}
      (hw : w.Reply r events s.hub.store w' h.store) (live : w.hasEnded = false)
      (keeps : s.hub.Keeps h) :
      Step ended past s (.answer r) (forwarding w a) (forwarding w' (Pass.answered r events a))
        ⟨h, s.queue⟩ (acceptance r w.settings.cipher a events)
  | call {now : Nat} {e : Event} {sub sub' : Submission} {h : Hub} (hs : sub.CallStep sub')
      (same : h.store = s.hub.store) (keeps : s.hub.Keeps h) :
      Step ended past s (.step now) (sending e sub) (sending e sub') ⟨h, s.queue⟩
        (confirmation e sub')
  | task {e : Event} {sub sub' : Submission} {h : Hub}
      (hs : Submission.TaskStep s.hub sub sub' h.store) (keeps : s.hub.Keeps h) :
      Step ended past s .task (sending e sub) (sending e sub') ⟨h, s.queue⟩
        ((Submission.landing e sub sub').map (.committed e)).toList
  | drop {e : Event} {sub : Submission} :
      Step ended past s .drop (sending e sub) (sending e sub.drop) s []
  | stop {now : Nat} {graceful : Bool} {stop stop' : Stop} {s' : Session}
      (same : s'.hub.store.files = s.hub.store.files) (hs : EndStep ended now s stop stop' s') :
      Step ended past s (.step now) (stopping graceful stop) (stopping graceful stop') s' []

/-- The end of a queue does nothing to the files. -/
theorem stop_cases {graceful ended died : Bool} {now : Nat} {s : Session} {stop : Stop}
    {y : Stop × Queue × Hub} (hs : stop.step graceful ended died now s.queue s.hub = some y) :
    y.2.2.store.files = s.hub.store.files ∧ EndStep ended now s stop y.1 ⟨y.2.2, y.2.1⟩ := by
  obtain ⟨stop', q', h'⟩ := y
  cases Stop.turn_of_step hs with
  | wake =>
    refine ⟨rfl, .goOn ⟨rfl, rfl⟩ rfl ?_⟩
    cases graceful <;> exact nofun
  | join hover => exact ⟨rfl, .join ⟨rfl, rfl⟩ hover⟩
  | close hc =>
    subst hc
    refine ⟨?_, .close rfl rfl⟩
    show (s.hub.faults.close s.hub.store).2.files = s.hub.store.files
    unfold Faults.close
    split <;> rfl
  | _ => exact ⟨rfl, .goOn ⟨rfl, rfl⟩ rfl nofun⟩

/-- Every step of an actor is one of these. -/
theorem step_cases {ended died : Bool} {past : Nat} {s : Session} {how : Act} {j : Job}
    {y : Job × Session × List Occurrence} (h : j.act ended died past s how = some y) :
    Step ended past s how j y.1 y.2.1 y.2.2 := by
  cases j with
  | forwarding w a =>
    cases how with
    | step now =>
      obtain ⟨x, hx, rfl⟩ := Option.map_eq_some_iff.1 h
      exact .forward (Scenario.Work.step_cases hx) (Scenario.Work.hasEnded_of_step hx)
        (Scenario.Work.step_keeps hx)
    | answer r =>
      obtain ⟨events, hc, rfl⟩ := Option.map_eq_some_iff.1 h
      exact .answer (Scenario.Work.answer_cases hc r s.hub) (Scenario.Work.hasEnded_of_call hc)
        (Scenario.Work.answer_keeps r w s.hub)
    | _ => cases h
  | sending e sub =>
    cases how with
    | step now =>
      obtain ⟨x, hx, rfl⟩ := Option.map_eq_some_iff.1 h
      obtain ⟨hs, same⟩ := Submission.stepCall_cases hx
      exact .call hs same (Submission.stepCall_keeps hx)
    | task =>
      obtain ⟨x, hx, rfl⟩ := Option.map_eq_some_iff.1 h
      exact .task (Submission.stepTask_cases hx) (Submission.stepTask_keeps hx)
    | drop => cases h; exact .drop
    | answer r => cases h
  | stopping graceful stop =>
    cases how with
    | step now =>
      obtain ⟨x, hx, rfl⟩ := Option.map_eq_some_iff.1 h
      obtain ⟨same, hs⟩ := stop_cases hx
      exact .stop same hs
    | _ => cases h

/-! ### What an actor has done -/

/-- Whether an actor holds the lock. -/
def holds : Job → Bool
  | forwarding w _ => w.holds
  | sending _ sub => sub.holds
  | stopping _ _ => false

/-- What an actor has made of the files, told by its account and by what has occurred. -/
def Fits (f : Files) (history : List Occurrence) : Job → Prop
  | forwarding w a => w.Fits a f ∧ w.Sound a f.table history
  | sending e sub => sub.Fits e (fun x => .committed e x ∈ history) f
  | stopping _ _ => True

variable {s s' : Session} {f g : Files} {history news : List Occurrence} {j j' : Job} {past : Nat}
  {ended : Bool} {how : Act}

/-- Whoever holds the lock has a working copy. -/
theorem Fits.writer_ne_none (hf : j.Fits f history) (hh : j.holds = true) : f.writer ≠ none := by
  cases j with
  | forwarding w a => exact hf.1.writer_ne_none hh
  | sending e sub => exact Submission.Fits.writer_ne_none hf hh
  | stopping graceful stop => cases hh

/-- A step of somebody else, who tells what is put, leaves an actor as far as it has come. -/
theorem Fits.of_turn {before after : Bool} (hf : j.Fits f history) (ht : f.Turn before after g)
    (hb : j.holds = true → before = false)
    (hput : ∀ x ∈ g.table.toList, x ∈ f.table.toList ∨ ∃ event, .committed event x ∈ news) :
    j.Fits g (history ++ news) := by
  cases j with
  | forwarding w a => exact ⟨hf.1.of_turn ht hb, hf.2.mono hput⟩
  | sending e sub =>
    exact Submission.Fits.of_turn hf ht hb fun x hx => List.mem_append_left _ hx
  | stopping graceful stop => trivial

namespace Step

/-- A step of an actor takes and frees the lock in turn. -/
theorem turn (h : Step ended past s how j j' s' news) (hf : j.Fits s.hub.store.files history) :
    s.hub.store.files.Turn j.holds j'.holds s'.hub.store.files := by
  cases h with
  | forward hw => exact hw.turn
  | answer hw => exact hw.turn hf.1
  | @call now e sub sub' h hs same =>
    have hholds : sub'.holds = sub.holds := by
      cases hs with
      | @submit e key value deadline hc hentry =>
        -- the task that is handed in has not begun, and there was none before
        rw [Submission.holds_of_task rfl]
        unfold Submission.holds
        rw [(Submission.Fits.call hf e (.inr (.inr hc))).2]
        rfl
      | _ => rfl
    show s.hub.store.files.Turn sub.holds sub'.holds h.store.files
    rw [hholds, same]
    exact .stay rfl
  | task hs => exact hs.turn
  | @drop e sub =>
    have hholds : sub.drop.holds = sub.holds := by
      unfold Submission.holds
      rw [Submission.task_drop]
    show s.hub.store.files.Turn sub.holds sub.drop.holds _
    rw [hholds]
    exact .stay rfl
  | stop same => exact .stay same

/-- What a step puts into the store is told. -/
theorem put (h : Step ended past s how j j' s' news) (hf : j.Fits s.hub.store.files history) :
    ∀ x ∈ s'.hub.store.table.toList,
      x ∈ s.hub.store.table.toList ∨ ∃ event, .committed event x ∈ news := by
  intro x hx
  cases h with
  | forward hw => exact .inl (hw.mem_of_mem hf.1 hx)
  | answer hw => exact .inl (by rwa [hw.table_eq] at hx)
  | call hs same => exact .inl (by rwa [same] at hx)
  | @task e sub sub' h hs =>
    rcases hs.landing_cases hf with ⟨-, htable⟩ | ⟨y, hl, -, htable⟩
    · exact .inl (by rwa [htable] at hx)
    · rw [htable, Table.mem_insert_iff] at hx
      rw [hl]
      rcases hx with rfl | hx
      · exact .inr ⟨e, List.mem_singleton.2 rfl⟩
      · exact .inl hx.1
  | drop => exact .inl hx
  | stop same =>
    have htable : _ = s.hub.store.table := congrArg Files.table same
    exact .inl (by rwa [← htable])

/-- A step keeps up what the actor has done. -/
theorem fits (h : Step ended history.length s how j j' s' news)
    (hf : j.Fits s.hub.store.files history) :
    j'.Fits s'.hub.store.files (history ++ news) := by
  have hput := h.put hf
  cases h with
  | forward hw =>
    exact ⟨hw.fits hf.1 _, (hw.sound hf.1 hf.2).mono hput⟩
  | @answer w w' a h r events hw =>
    refine ⟨hw.fits hf.1, ?_⟩
    show w'.Sound _ h.store.table _
    rw [hw.table_eq]
    exact hw.sound hf.1 hf.2
  | @call now e sub sub' h hs same =>
    show Submission.Fits e _ h.store.files sub'
    rw [same]
    exact Submission.Fits.of_turn (hs.fits hf) (.stay (b := false) rfl) (fun _ => rfl)
      fun x hx => List.mem_append_left _ hx
  | @task e sub sub' h hs =>
    refine Submission.Fits.of_turn (hs.fits hf) (.stay (b := false) rfl) (fun _ => rfl)
      fun x hx => ?_
    rcases hx with hx | hx
    · exact List.mem_append_left _ hx
    · rw [hx]
      exact List.mem_append_right _ (List.mem_singleton.2 rfl)
  | drop =>
    rw [List.append_nil]
    exact Submission.fits_drop hf
  | stop same => trivial

end Step

end Job

/-! ### Lives -/

namespace Life

/-- At most one actor holds the lock, and each has made of the files what it is there for. -/
structure Sound (l : Life) : Prop where
  exclusive : ∀ {i j : Nat} {a b : Actor}, l.actors[i]? = some a → l.actors[j]? = some b →
    a.job.holds = true → b.job.holds = true → i = j
  fits : ∀ {i : Nat} {a : Actor}, l.actors[i]? = some a → a.job.Fits l.files l.history

/-- What comes of a step of an actor. -/
inductive ActStep (l : Life) (i : Nat) (how : Act) : Life → Prop
  | mk {a : Actor} {s s' : Session} {j : Job} {news : List Occurrence} (ha : l.actors[i]? = some a)
      (hs : l.session? a.session = some s)
      (hstep : Job.Step (l.hasEnded a.session) l.history.length s how a.job j s' news) :
      ActStep l i how ⟨s'.hub.store.files, l.sessions.set a.session s',
        l.actors.set i { a with job := j }, l.history ++ news⟩

variable {l l' : Life} {i n : Nat} {how : Act} {s : Session}

/-- Every act is one of these. -/
theorem act_cases (h : l.act i how = some l') : ActStep l i how l' := by
  unfold Life.act at h
  obtain ⟨a, ha, h⟩ := Option.bind_eq_some_iff.1 h
  obtain ⟨s, hs, h⟩ := Option.bind_eq_some_iff.1 h
  obtain ⟨⟨j, s', news⟩, hj, h⟩ := Option.bind_eq_some_iff.1 h
  cases h
  exact .mk ha hs (Job.step_cases hj)

/-- A session sees the files as they are. -/
theorem files_of_session (h : l.session? n = some s) : s.hub.store.files = l.files := by
  obtain ⟨s₀, -, rfl⟩ := Option.map_eq_some_iff.1 h
  rfl

/-- A session sees the table as it is. -/
theorem table_of_session (h : l.session? n = some s) : s.hub.store.table = l.files.table :=
  congrArg Files.table (files_of_session h)

/-- What an actor has made of the files, it sees in its session. -/
theorem Sound.fits_session {a : Actor} (hl : l.Sound) (ha : l.actors[i]? = some a)
    (hs : l.session? a.session = some s) : a.job.Fits s.hub.store.files l.history := by
  rw [files_of_session hs]
  exact hl.fits ha

/-- An actor begins in a session that is there. -/
theorem enlist_cases {j : Job} (h : l.enlist n j = some l') :
    n < l.sessions.length ∧ l' = { l with actors := l.actors ++ [⟨n, j⟩] } := by
  unfold enlist at h
  split at h
  · next hn => cases h; exact ⟨hn, rfl⟩
  · cases h

/-- What has occurred stays so. -/
theorem history_of_move {m : Move} (h : l.move m = some l') :
    ∃ news, l'.history = l.history ++ news := by
  cases m with
  | sends n p nonce e =>
    obtain ⟨l₁, h₁, rfl⟩ := Option.map_eq_some_iff.1 h
    obtain ⟨-, rfl⟩ := enlist_cases h₁
    exact ⟨_, rfl⟩
  | forwards n s loops =>
    obtain ⟨-, rfl⟩ := enlist_cases h
    exact ⟨[], (List.append_nil _).symm⟩
  | stops n graceful =>
    obtain ⟨-, rfl⟩ := enlist_cases h
    exact ⟨[], (List.append_nil _).symm⟩
  | acts i how =>
    obtain ⟨-, -, -⟩ := act_cases h
    exact ⟨_, rfl⟩
  | raises n =>
    obtain ⟨s, -, rfl⟩ := Option.map_eq_some_iff.1 h
    exact ⟨[], (List.append_nil _).symm⟩
  | spoils n faults =>
    obtain ⟨s, -, rfl⟩ := Option.map_eq_some_iff.1 h
    exact ⟨[], (List.append_nil _).symm⟩
  | _ =>
    cases h
    exact ⟨[], (List.append_nil _).symm⟩

/-- Without actors nothing has been made of the files. -/
theorem sound_of_nil (ha : l.actors = []) : l.Sound := by
  refine ⟨fun {i j a b} h => ?_, fun {i a} h => ?_⟩ <;> rw [ha] at h <;> cases h

/-- One more actor that has done nothing yet. -/
theorem Sound.enlist (hl : l.Sound) {j : Job} {news : List Occurrence} (hh : j.holds = false)
    (hf : j.Fits l.files (l.history ++ news)) :
    Sound ⟨l.files, l.sessions, l.actors ++ [⟨n, j⟩], l.history ++ news⟩ := by
  refine ⟨fun {i k a b} ha hb hha hhb => ?_, fun {i a} ha => ?_⟩
  · rcases getElem?_concat_cases ha with ha | ⟨-, rfl⟩
    · rcases getElem?_concat_cases hb with hb | ⟨-, rfl⟩
      · exact hl.exclusive ha hb hha hhb
      · rw [hh] at hhb
        cases hhb
    · rw [hh] at hha
      cases hha
  · rcases getElem?_concat_cases ha with ha | ⟨-, rfl⟩
    · exact (hl.fits ha).of_turn (.stay (b := false) rfl) (fun _ => rfl) fun x hx => .inl hx
    · exact hf

/-- The lock passes from actor to actor. -/
theorem Sound.act (hl : l.Sound) (h : l.act i how = some l') : l'.Sound := by
  obtain @⟨a, s, s', j, news, ha, hs, hstep⟩ := act_cases h
  have hfits := hl.fits_session ha hs
  have hturn := hstep.turn hfits
  rw [files_of_session hs] at hturn
  have hput := hstep.put hfits
  -- whoever holds the lock keeps others from taking it
  have hother : ∀ {k : Nat} {b : Actor}, k ≠ i → l.actors[k]? = some b → b.job.holds = true →
      j.holds = true → False := by
    intro k b hk hb hhb hhj
    rcases hturn.free_of_holds hhj with hbefore | hfree
    · exact hk (hl.exclusive hb ha hhb hbefore)
    · exact (hl.fits hb).writer_ne_none hhb hfree
  refine ⟨fun {k m b c} hb hc hhb hhc => ?_, fun {k b} hb => ?_⟩
  · rcases getElem?_set_cases hb with ⟨hk, rfl⟩ | ⟨hk, hkb⟩
    · rcases getElem?_set_cases hc with ⟨hm, -⟩ | ⟨hm, hmc⟩
      · rw [hk, hm]
      · exact (hother hm hmc hhc hhb).elim
    · rcases getElem?_set_cases hc with ⟨-, rfl⟩ | ⟨hm, hmc⟩
      · exact (hother hk hkb hhb hhc).elim
      · exact hl.exclusive hkb hmc hhb hhc
  · rcases getElem?_set_cases hb with ⟨-, rfl⟩ | ⟨hk, hkb⟩
    · exact hstep.fits hfits
    · -- another actor that holds the lock keeps this one from touching the files
      refine (hl.fits hkb).of_turn hturn (fun hh => ?_) fun x hx => ?_
      · by_contra hne
        exact hk (hl.exclusive hkb ha hh (by simpa using hne))
      · rw [← table_of_session hs]
        exact hput x hx

/-- Moves keep a life sound. -/
theorem Sound.move {m : Move} (hl : l.Sound) (h : l.move m = some l') : l'.Sound := by
  cases m with
  | opens queue style faults mapSize => cases h; exact ⟨hl.exclusive, hl.fits⟩
  | sends n p nonce e =>
    obtain ⟨l₁, h₁, rfl⟩ := Option.map_eq_some_iff.1 h
    obtain ⟨-, rfl⟩ := enlist_cases h₁
    exact hl.enlist rfl (Submission.fits_ofEvent p nonce e)
  | forwards n s loops =>
    obtain ⟨-, rfl⟩ := enlist_cases h
    -- a thread is in no pass yet, or in one that has not begun
    have hfresh : ∀ p, (if loops then Scenario.Work.loop (.create s)
        else .pass s .starting).pass? = some p → p = .starting := by
      intro p hp
      cases loops <;> cases hp
      rfl
    rw [← List.append_nil l.history]
    refine hl.enlist (Scenario.Work.holds_of_fresh hfresh) ⟨Scenario.Work.fits_of_fresh hfresh, ?_⟩
    exact ⟨Nat.zero_le _, Account.sound_opened _ _ _ _⟩
  | stops n graceful =>
    obtain ⟨-, rfl⟩ := enlist_cases h
    rw [← List.append_nil l.history]
    exact hl.enlist rfl trivial
  | acts i act => exact hl.act h
  | raises n =>
    obtain ⟨s, -, rfl⟩ := Option.map_eq_some_iff.1 h
    exact ⟨hl.exclusive, hl.fits⟩
  | spoils n faults =>
    obtain ⟨s, -, rfl⟩ := Option.map_eq_some_iff.1 h
    exact ⟨hl.exclusive, hl.fits⟩
  | crashes => cases h; exact sound_of_nil rfl

/-- Every life that can be reached is sound. -/
theorem Reached.sound {allowed : Life → Move → Prop} {t : Table} (h : Reached allowed t l) :
    l.Sound := by
  induction h with
  | new => exact sound_of_nil rfl
  | move _ _ hm ih => exact ih.move hm

end Life

end Outbox
