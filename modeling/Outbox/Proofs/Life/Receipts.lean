import Outbox.Proofs.Life.Deeds

namespace Outbox

/-!
# What the answer to a producer means

The answer to a call, and what its task does before and after it:

* `Life.Reached.running_eq` — what is told as running is what runs.
* `Life.Befalls.spared_or_own` — a move is a step of an actor, or leaves it as it is.
* `Life.deed`, `Life.deeds` — what a call and its task do in a step and in a run.
* `Life.Situation`, `Life.Situation.moved`, `Life.situation_of_run` — how a call stands agrees with
  what has been done, whatever happens in between.
* `Life.over_of_run` — a call that is over does nothing any more.
* `Life.exists_end_of_task` — a task that need not wait for the lock comes to its end.
* `Life.table_of_deed` — what is put into the files is what is said to be committed.
* `Life.AnswersTruly`, `Life.answers_truly` — what it means that a call stands as it does.
-/

/-! ### Who is counted, exactly -/

namespace Submission

variable {now x : Nat} {s s' : Submission} {h h' : Hub}

/-- A step of a call changes the number of those who run as it changes what the call adds to it. -/
theorem CallTurn.running_eq (hs : CallTurn now s h s' h')
    (hnone : ∀ e, s.call = .sealing e → s.task = none)
    (hx : h.commits.running = x + s.running) : h'.commits.running = x + s'.running := by
  obtain ⟨producer, nonce, call, task⟩ := s
  cases hs with
  | submit hc =>
    obtain rfl : call = _ := hc
    obtain rfl : task = none := hnone _ rfl
    exact hx
  | leave hc hn =>
    obtain rfl : call = _ := hc
    rcases hn with rfl | rfl <;>
      simp only [Submission.running, Call.runs, Commits.leave, Bool.toNat_true,
        Bool.toNat_false] at hx ⊢ <;> omega
  | enter hc | bar hc | pass hc | unfit hc | ring hc | learn hc | wait hc | giveUp hc =>
    obtain rfl : call = _ := hc
    simp only [Submission.running, Call.runs, Commits.enter, Commits.ring, Hub.incident,
      Hub.report, Bool.toNat_true, Bool.toNat_false] at hx ⊢
    omega

/-- So does a step of a task. -/
theorem running_eq_of_turn {t t' : CommitTask} (hs : s.task = some t) (ht : t.Turn h t' h')
    (hx : h.commits.running = x + s.running) :
    h'.commits.running = x + ({ s with task := some t' } : Submission).running := by
  unfold running at hx ⊢
  rw [hs] at hx
  cases ht with
  | leave hn =>
    rcases hn with rfl | rfl <;>
      simp only [Option.elim, CommitTask.runs, Commits.leave, Bool.toNat_true,
        Bool.toNat_false] at hx ⊢ <;> omega
  | _ => exact hx

end Submission

namespace Life

variable {allowed : Life → Move → Prop} {t : Table} {l l' l₁ : Life} {m : Move} {n i : Nat}
  {s : Session}

/-- Those who are counted are those who run. -/
theorem Reached.running_eq (h : Reached allowed t l) (hs : l.sessions[n]? = some s) :
    s.hub.commits.running = l.total n Job.running := by
  have htally : l.Tallied Job.running fun s x => s.hub.commits.running = x := by
    clear hs
    induction h with
    | new => intro n s hs; cases hs
    | @move l l' m before ok hm ih =>
      refine Tallied.moved_of_steps (l := l) (fun hs => ih hs) (fun _ _ _ _ _ => rfl)
        (fun {_ _ _ s _ _ _ _ a _ _ x} ha hstep hx => ?_)
        (fun hx => hx) (fun _ hx => hx) (moved_of_move hm)
        (fun ha => (before.session_of_actor ha).imp fun _ hs => ⟨hs, trivial⟩)
        fun {_ _ j} hj hs => ?_
      · have hfits := before.sound.fits ha
        obtain ⟨k, job⟩ := a
        have hsame : ∀ {h : Hub}, h.commits = s.hub.commits → s.hub.commits.running = x →
            h.commits.running = x := by
          intro h heq hx
          rwa [heq]
        cases hstep with
        | loop hf => exact hsame (Forwarder.step_cases hf).commits_eq hx
        | pass hp => exact hsame (Pass.step_still hp).commits hx
        | answer hc => exact hsame (Scenario.Work.answer_still _ _ _).commits hx
        | call hs =>
          refine (Submission.callTurn_of_step hs).running_eq (fun e hc => ?_) hx
          exact (Submission.Fits.call hfits e (.inr (.inr hc))).2
        | task hs =>
          obtain ⟨t, t', ht, rfl, hturn⟩ := Submission.turn_of_stepTask hs
          exact Submission.running_eq_of_turn ht hturn hx
        | @drop e sub =>
          show _ = x + sub.drop.running
          rw [Submission.running_drop]
          exact hx
        | stop hs => exact hsame (Stop.turn_of_step hs).steady.1 hx
      · have hnone : j.running = 0 := by
          cases hj <;> rfl
        rw [hnone]
        exact ih hs
  exact htally hs

end Life

/-! ### What is done in a run -/

/-- Whether a move lets an actor go on. -/
def Move.isOf (i : Nat) : Move → Bool
  | acts k _ => k == i
  | _ => false

/-- Whether a move lets the task of a call go on. -/
def Move.isTaskOf (i : Nat) : Move → Bool
  | acts k .task => k == i
  | _ => false

theorem Move.isOf_eq_false {i : Nat} {m : Move} (hm : ∀ how, m ≠ .acts i how) :
    m.isOf i = false ∧ m.isTaskOf i = false := by
  cases m with
  | acts k how =>
    have hk : (k == i) = false := by
      rw [beq_eq_false_iff_ne]
      rintro rfl
      exact hm how rfl
    cases how with
    | task => exact ⟨hk, hk⟩
    | _ => exact ⟨hk, rfl⟩
  | _ => exact ⟨rfl, rfl⟩

namespace Life

variable {allowed : Life → Move → Prop} {t : Table} {l l' l₁ : Life} {m : Move} {n i : Nat}
  {e : Event} {sub sub' : Submission} {s s' : Session} {ms : List Move} {ds : List Deed}
  {p : Producer} {nonce : Nonce} {taken : Nat}

/-- Whatever is no step of an actor leaves it as it is. -/
theorem Befalls.spared_or_own {a a' : Actor} (h : Befalls l i a s m a' s') :
    ((∀ how, m ≠ .acts i how) ∧ a' = a) ∨
      ∃ how j news, m = .acts i how ∧ a' = { a with job := j } ∧
        Job.Stride (l.hasEnded a.session) (l.hasDied a.session) l.history.length
          (s.over l.files) how a.job j s' news := by
  cases h with
  | spared hm => exact .inl ⟨hm, rfl⟩
  | acts hstep => exact .inr ⟨_, _, _, rfl, rfl, hstep⟩
  | other hk => exact .inl ⟨fun how heq => hk (by cases heq; rfl), rfl⟩
  | raised => exact .inl ⟨nofun, rfl⟩
  | spoiled faults => exact .inl ⟨nofun, rfl⟩

/-- What a call and its task do when they go on. -/
def deed (l l' : Life) (i : Nat) : List Deed :=
  match l.actors[i]?, l'.actors[i]? with
  | some ⟨n, .sending e sub⟩, some ⟨_, .sending _ sub'⟩ =>
    match l.sessions[n]?, l'.sessions[n]? with
    | some s, some s' => sub.deeds e s.hub sub' s'.hub
    | _, _ => []
  | _, _ => []

/-- What a call and its task do while some moves are made. -/
def deeds (l : Life) (i : Nat) : List Move → List Deed
  | [] => []
  | m :: ms =>
    match l.move m with
    | some l' => (if m.isOf i then l.deed l' i else []) ++ l'.deeds i ms
    | none => []

theorem deed_eq {e' : Event} (ha : l.actors[i]? = some ⟨n, .sending e sub⟩)
    (hs : l.sessions[n]? = some s) (ha' : l'.actors[i]? = some ⟨n, .sending e' sub'⟩)
    (hs' : l'.sessions[n]? = some s') :
    l.deed l' i = sub.deeds e s.hub sub' s'.hub := by
  unfold deed
  rw [ha, ha']
  dsimp only
  rw [hs, hs']

theorem deeds_concat [∀ l m, Decidable (allowed l m)]
    (hrun : l.run allowed ms = some l₁) (hm : l₁.move m = some l') :
    l.deeds i (ms ++ [m]) = l.deeds i ms ++ if m.isOf i then l₁.deed l' i else [] := by
  induction ms generalizing l with
  | nil =>
    cases hrun
    simp [deeds, hm]
  | cons m₁ ms ih =>
    obtain ⟨l₂, -, hm₁, hrun⟩ := run_cons.1 hrun
    simp [deeds, hm₁, ih hrun]

/-- How a call stands that is about an event: what it has done with its task, but for the waits that
    were over too soon, how many of these there were, and how many steps the task has taken. -/
structure Situation (l : Life) (i n : Nat) (p : Producer) (nonce : Nonce) (e : Event)
    (sub : Submission) (s : Session) (ds : List Deed) (taken : Nat) : Prop where
  actor : l.actors[i]? = some ⟨n, .sending e sub⟩
  session : l.sessions[n]? = some s
  producer : sub.producer = p ∧ sub.nonce = nonce
  receipt : sub.Receipt e (ds.filter (· ≠ .expired)) (ds.count .expired)
  steps : taken + sub.toGo ≤ 11

/-- Whatever happens, unless everything crashes, a call stands where what it does leads it. -/
theorem Situation.moved (hl : l.Situation i n p nonce e sub s ds taken)
    (hrun : sub.running ≤ s.hub.commits.running) (h : Moved l m l') (hc : m.isCrash = false) :
    ∃ sub' s', l'.Situation i n p nonce e sub' s' (ds ++ if m.isOf i then l.deed l' i else [])
      (taken + (m.isTaskOf i).toNat) := by
  obtain ⟨a', s', ha', hs', hbefalls⟩ := h.befalls hc hl.actor hl.session
  have ha : l.actors[i]? = some ⟨n, .sending e sub⟩ := hl.actor
  have hs : l.sessions[n]? = some s := hl.session
  -- what others do changes nothing in what the call has done
  obtain ⟨hm, rfl⟩ | ⟨how, j, news, rfl, rfl, hstep⟩ := hbefalls.spared_or_own
  · rw [(Move.isOf_eq_false hm).1, (Move.isOf_eq_false hm).2]
    exact ⟨sub, s', by simpa using ⟨ha', hs', hl.producer, hl.receipt, hl.steps⟩⟩
  · have hof : (Move.acts i how).isOf i = true := beq_self_eq_true i
    rw [hof, if_pos rfl]
    have hsteps := hl.steps
    cases hstep with
    | @call now e sub sub' h hcall =>
      have hturn := Submission.callTurn_of_step hcall
      rw [deed_eq ha hs ha' hs']
      refine ⟨sub', _, ha', hs', ?_, ?_, ?_⟩
      · rw [hturn.producer_eq.1, hturn.producer_eq.2]
        exact hl.producer
      · rw [List.filter_append, List.count_append]
        exact hl.receipt.call (h := (s.over l.files).hub) hrun hcall
      · rw [hl.receipt.toGo_call hturn]
        exact hsteps
    | @task e sub sub' h htask =>
      have hless := Submission.toGo_stepTask htask
      have hone : (Move.acts i .task).isTaskOf i = true := hof
      rw [deed_eq ha hs ha' hs', hone, Bool.toNat_true]
      refine ⟨sub', _, ha', hs', ?_, ?_, by omega⟩
      · obtain ⟨t, t', -, rfl, -⟩ := Submission.turn_of_stepTask htask
        exact hl.producer
      · rw [List.filter_append, List.count_append]
        exact hl.receipt.task (h := (s.over l.files).hub) hrun htask
    | @drop e sub =>
      have hnone : (Move.acts i .drop).isTaskOf i = false := rfl
      have hidle : sub.deeds e s.hub sub.drop (s.over l.files).hub = [] := sub.deeds_drop s.hub
      rw [deed_eq ha hs ha' hs', hnone, hidle, List.append_nil]
      refine ⟨sub.drop, _, ha', hs', ?_, hl.receipt.drop, ?_⟩
      · rw [sub.producer_drop.1, sub.producer_drop.2]
        exact hl.producer
      · rw [sub.toGo_drop]
        exact hsteps

/-- A call that begins has done nothing. -/
theorem situation_of_sends (h : l.move (.sends n p nonce e) = some l') :
    ∃ s, l'.Situation l.actors.length n p nonce e (.ofEvent p nonce e) s [] 0 := by
  obtain ⟨l₁, h₁, rfl⟩ := Option.map_eq_some_iff.1 h
  obtain ⟨hn, rfl⟩ := enlist_cases h₁
  exact ⟨_, List.getElem?_concat_length, List.getElem?_eq_getElem hn, ⟨rfl, rfl⟩,
    .begun rfl rfl, Nat.le_refl _⟩

theorem situation_of_run [∀ l m, Decidable (allowed l m)] (h : Reached allowed t l)
    (hl : l.Situation i n p nonce e sub s [] 0) (hrun : l.run (lasting allowed) ms = some l') :
    ∃ sub' s', l'.Situation i n p nonce e sub' s' (l.deeds i ms) (ms.countP (Move.isTaskOf i)) := by
  induction ms using List.reverseRecOn generalizing l' with
  | nil =>
    cases hrun
    exact ⟨sub, s, hl⟩
  | append_singleton ms m ih =>
    obtain ⟨l₁, hrun₁, ok, hm⟩ := run_concat.1 hrun
    obtain ⟨sub₁, s₁, hl₁⟩ := ih hrun₁
    have hle : sub₁.running ≤ s₁.hub.commits.running := by
      rw [(h.later hrun₁).running_eq hl₁.session]
      exact le_total (f := Job.running) hl₁.actor
    rw [deeds_concat hrun₁ hm, List.countP_append, List.countP_singleton]
    obtain ⟨sub', s', hl'⟩ := hl₁.moved hle (moved_of_move hm) ok.2
    refine ⟨sub', s', ?_⟩
    cases htask : m.isTaskOf i <;> simpa [htask] using hl'

/-! ### A call that is over -/

/-- Whatever happens, a call that has returned stays as it is with a task that is over, and neither
    of them does anything more. -/
theorem over_of_run [∀ l m, Decidable (allowed l m)] {r : Except Error Unit}
    (ha : l.actors[i]? = some ⟨n, .sending e sub⟩) (hs : l.sessions[n]? = some s)
    (hcall : sub.call = .returned r)
    (htask : sub.task = none ∨ ∃ ending, sub.task = some (.ended ending))
    (hrun : l.run (lasting allowed) ms = some l') :
    l'.actors[i]? = some ⟨n, .sending e sub⟩ ∧ (∃ s', l'.sessions[n]? = some s') ∧
      l.deeds i ms = [] := by
  induction ms using List.reverseRecOn generalizing l' with
  | nil =>
    cases hrun
    exact ⟨ha, ⟨s, hs⟩, rfl⟩
  | append_singleton ms m ih =>
    obtain ⟨l₁, hrun₁, ok, hm⟩ := run_concat.1 hrun
    obtain ⟨ha₁, ⟨s₁, hs₁⟩, hnone⟩ := ih hrun₁
    obtain ⟨a', s', ha', hs', hbefalls⟩ := (moved_of_move hm).befalls ok.2 ha₁ hs₁
    rw [deeds_concat hrun₁ hm, hnone, List.nil_append]
    obtain ⟨hm, rfl⟩ | ⟨how, j, news, rfl, rfl, hstep⟩ := hbefalls.spared_or_own
    · rw [(Move.isOf_eq_false hm).1]
      exact ⟨ha', ⟨s', hs'⟩, rfl⟩
    · cases hstep with
      | call hs =>
        unfold Submission.stepCall at hs
        rw [hcall] at hs
        cases hs
      | task hs =>
        unfold Submission.stepTask at hs
        rcases htask with htask | ⟨ending, htask⟩ <;> rw [htask] at hs <;> cases hs
      | drop =>
        -- a caller that has its answer has nothing to drop
        have hdrop : sub.drop = sub := by
          unfold Submission.drop
          rw [hcall]
        have hidle : l₁.deed l' i = [] := by
          rw [deed_eq ha₁ hs₁ ha' hs']
          exact sub.deeds_drop s₁.hub
        rw [hidle, ite_self]
        rw [hdrop] at ha'
        exact ⟨ha', ⟨_, hs'⟩, rfl⟩

/-! ### A task that goes on -/

/-- Only the lock keeps a task waiting that has not ended. -/
theorem exists_move_of_task {task : CommitTask} (ha : l.actors[i]? = some ⟨n, .sending e sub⟩)
    (hs : l.sessions[n]? = some s) (ht : sub.task = some task) (hend : task.end? = none)
    (hfree : task.needsLock = true → l.files.writer = none) :
    ∃ l' task' h', l.move (.acts i .task) = some l' ∧ task.Turn (s.over l.files).hub task' h' ∧
      l'.actors[i]? = some ⟨n, .sending e { sub with task := some task' }⟩ ∧
      l'.sessions[n]? = some ⟨h', s.queue⟩ ∧ l'.files = h'.store.files := by
  obtain ⟨⟨task', h'⟩, hstep⟩ := Option.isSome_iff_exists.1
    (CommitTask.isSome_step (h := (s.over l.files).hub) hend hfree)
  have hi : i < l.actors.length := (List.getElem?_eq_some_iff.1 ha).1
  have hn : n < l.sessions.length := (List.getElem?_eq_some_iff.1 hs).1
  have hsession : l.session? n = some (s.over l.files) := congrArg _ hs
  have hsub : sub.stepTask (s.over l.files).hub =
      some ({ sub with task := some task' }, h') := by
    simp [Submission.stepTask, ht, hstep]
  have hmove : (l.move (.acts i .task)).isSome = true := by
    simp [move, act, ha, hsession, Job.act, hsub]
  obtain ⟨l', hm⟩ := Option.isSome_iff_exists.1 hmove
  refine ⟨l', task', h', hm, CommitTask.turn_of_step hstep, ?_⟩
  simp only [move, act, ha, hsession, Job.act, hsub, Option.bind_eq_bind, Option.bind_some,
    Option.map_some] at hm
  cases hm
  exact ⟨List.getElem?_set_self hi, List.getElem?_set_self hn, rfl⟩

/-- A task that need not wait for the lock comes to its end by steps of its own. -/
theorem exists_end_of_task {task : CommitTask} (ha : l.actors[i]? = some ⟨n, .sending e sub⟩)
    (hs : l.sessions[n]? = some s) (ht : sub.task = some task)
    (hfree : task.needsLock = true → l.files.writer = none) :
    ∃ k l' ending, k ≤ task.toGo ∧
      l.run (lasting anyMove) (List.replicate k (.acts i .task)) = some l' ∧
      l'.actors[i]? = some ⟨n, .sending e { sub with task := some (.ended ending) }⟩ := by
  induction hgo : task.toGo using Nat.strongRecOn generalizing l sub s task with
  | ind k ih =>
    cases hend : task.end? with
    | some ending =>
      cases task with
      | ended ending' =>
        refine ⟨0, l, ending', Nat.zero_le _, rfl, ?_⟩
        rw [ha, ← ht]
      | _ => cases hend
    | none =>
      obtain ⟨l₁, task', h', hm, hturn, ha₁, hs₁, hfiles₁⟩ :=
        exists_move_of_task ha hs ht hend hfree
      have hlt := hturn.toGo_lt
      have hfree₁ : task'.needsLock = true → l₁.files.writer = none := by
        intro hlock
        obtain ⟨hbefore, hfiles⟩ := hturn.needsLock hlock
        rw [hfiles₁, hfiles]
        exact hfree hbefore
      obtain ⟨k', l', ending, hk', hrun, hended⟩ :=
        ih task'.toGo (by omega) ha₁ hs₁ rfl hfree₁ rfl
      refine ⟨k' + 1, l', ending, by omega, ?_, hended⟩
      rw [List.replicate_succ]
      exact run_cons.2 ⟨l₁, ⟨trivial, rfl⟩, hm, hrun⟩

/-! ### What a call does to the store -/

/-- What a step of a call or of its task does, and what it puts into the files. -/
theorem deed_cases {how : Act} (hl : l.Sound) (ha : l.actors[i]? = some ⟨n, .sending e sub⟩)
    (hs : l.sessions[n]? = some s) (h : l.move (.acts i how) = some l') :
    ∃ sub' h', l.deed l' i = sub.deeds e s.hub sub' h' ∧
      ((Submission.landing e sub sub' = none ∧ l'.files.table = l.files.table) ∨
        ∃ x, Submission.landing e sub sub' = some x ∧
          l'.files.table = l.files.table.insert x.key x.value) := by
  have hfits : sub.Fits e (fun x => .committed e x ∈ l.history) l.files := hl.fits ha
  have hi : i < l.actors.length := (List.getElem?_eq_some_iff.1 ha).1
  have hn : n < l.sessions.length := (List.getElem?_eq_some_iff.1 hs).1
  cases moved_of_move h with
  | enlists hj => cases hj
  | @acts _ _ a s₁ s' j news ha₁ hs₁ hstep =>
    obtain rfl := Option.some.inj (ha.symm.trans ha₁)
    obtain rfl : s = s₁ := Option.some.inj (hs.symm.trans hs₁)
    cases hstep with
    | @call now e sub sub' _ hcall =>
      have hturn := Submission.callTurn_of_step hcall
      refine ⟨sub', _, deed_eq ha hs (List.getElem?_set_self hi) (List.getElem?_set_self hn),
        .inl ⟨Submission.landing_of_task (hturn.task_eq fun e hc => ?_), ?_⟩⟩
      · exact (hfits.call e (.inr (.inr hc))).2
      · exact congrArg Store.table hturn.quiet.2.2.1
    | @task e sub sub' _ htask =>
      refine ⟨sub', _, deed_eq ha hs (List.getElem?_set_self hi) (List.getElem?_set_self hn), ?_⟩
      exact ((Submission.stepTask_cases htask).landing_cases hfits).imp_right
        fun ⟨x, hx, _, htable⟩ => ⟨x, hx, htable⟩
    | @drop e sub =>
      exact ⟨sub.drop, _, deed_eq ha hs (List.getElem?_set_self hi) (List.getElem?_set_self hn),
        .inl ⟨Submission.landing_of_task (.inl sub.task_drop), rfl⟩⟩

/-- An entry is put into the files where a step of a call says that it is committed, and nowhere
    else. -/
theorem table_of_deed {how : Act} (hl : l.Sound) (ha : l.actors[i]? = some ⟨n, .sending e sub⟩)
    (hs : l.sessions[n]? = some s) (h : l.move (.acts i how) = some l') :
    (∀ x, .committed x ∈ l.deed l' i → l'.files.table = l.files.table.insert x.key x.value) ∧
      ((∀ x, .committed x ∉ l.deed l' i) → l'.files.table = l.files.table) := by
  obtain ⟨sub', h', hdeed, hcases⟩ := deed_cases hl ha hs h
  simp only [hdeed, Submission.committed_mem_deeds_iff]
  rcases hcases with ⟨hnone, htable⟩ | ⟨y, hy, htable⟩
  · simp [hnone, htable]
  · simp [hy, htable]

/-! ### What the answer means -/

/-- What it means that a call stands as it does, where it has done so much with its task, which has
    taken some steps. -/
structure AnswersTruly (l : Life) (i n : Nat) (p : Producer) (nonce : Nonce) (e : Event)
    (sub : Submission) (s : Session) (ds : List Deed) (taken : Nat) : Prop where
  /-- A success says that the entry of the event is committed and that the forwarder has been
      woken. -/
  ok : sub.call = .returned (.ok ()) → ∃ guid value, e.guid? = some guid ∧
    p.cipher.sealEvent nonce e = .ok value ∧
    ds.filter (· ≠ .expired) =
      [.entered, .committed ⟨Utf8.encode guid, value⟩, .woke, .left]
  /-- Any error but that the call has given up says why nothing is committed. -/
  error : ∀ err, sub.call = .returned (.error err) → err ≠ .deliveryQueue .gaveUp →
    ((err = .queueUnavailable ∨ Submission.entry p.cipher nonce e = .error err) ∧
        ds.filter (· ≠ .expired) = [.entered, .left]) ∨
      (∃ cause, err = .deliveryQueue (.refused cause.message) ∧
        ds.filter (· ≠ .expired) = [.entered, .refused cause, .left]) ∨
      (err = .deliveryQueue .taskFailed ∧ ds.filter (· ≠ .expired) = [.entered, .died, .left])
  /-- After a success or such an error, the call and its task do nothing any more. -/
  last : ∀ r, sub.call = .returned r → r ≠ .error (.deliveryQueue .gaveUp) →
    ∀ (ms : List Move) (l' : Life), l.run (lasting anyMove) ms = some l' → l.deeds i ms = []
  /-- A call gives up when two of its waits were over too soon, and only then. -/
  waits : ds.count .expired ≤ Producer.attempts ∧ (ds.count .expired = Producer.attempts ↔
    sub.call = .returned (.error (.deliveryQueue .gaveUp)))
  /-- Who gives a call up, or is given up by it, leaves a task behind. -/
  leaves : sub.call = .returned (.error (.deliveryQueue .gaveUp)) ∨ sub.call = .dropped →
    ∃ task, sub.task = some task
  /-- Whatever becomes of the call, the task puts the entry of the event; it wakes the forwarder if
      this succeeds, and then leaves. -/
  task : ∀ task, sub.task = some task → ∃ guid value, e.guid? = some guid ∧
    p.cipher.sealEvent nonce e = .ok value ∧
    ds.filter (· ≠ .expired) = .entered :: task.deeds ⟨Utf8.encode guid, value⟩
  /-- Only the lock keeps the task waiting before its end. -/
  goesOn : ∀ task, sub.task = some task → task.end? = none →
    (l.move (.acts i .task)).isSome = true ∨ task.needsLock = true ∧ l.files.writer ≠ none
  /-- The task never takes more than so many steps. -/
  bounded : taken ≤ 11
  /-- Where it need not wait for the lock, its own steps lead it to its end. -/
  ends : ∀ task, sub.task = some task → (task.needsLock = true → l.files.writer = none) →
    ∃ k l' ending, k ≤ 11 ∧
      l.run (lasting anyMove) (List.replicate k (.acts i .task)) = some l' ∧
      l'.actors[i]? = some ⟨n, .sending e { sub with task := some (.ended ending) }⟩
  /-- Without a task, nothing keeps the call waiting. -/
  returns : sub.task = none → (∃ r, sub.call = .returned r) ∨
    ∀ now, (l.move (.acts i (.step now))).isSome = true
  /-- What is told as running is what runs, and the call has a share in it. -/
  counted : s.hub.commits.running = l.total n Job.running
  /-- The call enters once, it leaves once when its task is over, or the call without a task, and in
      between it counts as running. -/
  once : ds.count .entered = sub.hasBegun.toNat ∧ ds.count .left = sub.isOver.toNat ∧
    sub.running + sub.isOver.toNat = sub.hasBegun.toNat
  /-- What the call and its task say they commit is what they put into the files, and they put
      nothing else. -/
  stored : ∀ how l', l.move (.acts i how) = some l' →
    (∀ x, .committed x ∈ l.deed l' i → l'.files.table = l.files.table.insert x.key x.value) ∧
      ((∀ x, .committed x ∉ l.deed l' i) → l'.files.table = l.files.table)

theorem told_of_situation (h : Reached anyMove t l)
    (hl : l.Situation i n p nonce e sub s ds taken) :
    l.AnswersTruly i n p nonce e sub s ds taken := by
  obtain ⟨rfl, rfl⟩ := hl.producer
  have hr := hl.receipt
  have hgo : taken + sub.toGo ≤ 11 := hl.steps
  -- a task tells the entry that it puts
  have htask : ∀ task, sub.task = some task → ∃ guid value, e.guid? = some guid ∧
      sub.producer.cipher.sealEvent sub.nonce e = .ok value ∧
      ds.filter (· ≠ .expired) = .entered :: task.deeds ⟨Utf8.encode guid, value⟩ := by
    intro task ht
    obtain ⟨⟨key, value⟩, hentry, hds, -⟩ := hr.submitted_cases ht
    obtain ⟨guid, hguid, rfl, hseal⟩ := Submission.guid_of_entry hentry
    exact ⟨guid, value, hguid, hseal, hds⟩
  constructor
  case ok =>
    intro hc
    obtain ⟨err, heq, -⟩ | ⟨ending, heq, ht, -⟩ | ⟨heq, -⟩ := hr.returned_cases hc
    · cases heq
    · cases ending with
      | committed => exact htask _ ht
      | _ => cases heq
    · cases heq
  case error =>
    intro err hc hne
    obtain ⟨err', heq, -, cause, hds, -⟩ | ⟨ending, heq, ht, -⟩ | ⟨heq, -⟩ := hr.returned_cases hc
    · cases heq
      exact .inl ⟨cause, hds⟩
    · obtain ⟨guid, value, -, -, hds⟩ := htask _ ht
      cases ending with
      | committed => cases heq
      | refused cause =>
        cases heq
        exact .inr (.inl ⟨cause, rfl, hds⟩)
      | died =>
        cases heq
        exact .inr (.inr ⟨rfl, hds⟩)
    · exact absurd (Except.error.inj heq) hne
  case last =>
    intro r hc hne ms l' hrun
    obtain ⟨-, -, ht, -⟩ | ⟨ending, -, ht, -⟩ | ⟨heq, -⟩ := hr.returned_cases hc
    · exact (over_of_run hl.actor hl.session hc (.inl ht) hrun).2.2
    · exact (over_of_run hl.actor hl.session hc (.inr ⟨ending, ht⟩) hrun).2.2
    · exact absurd heq hne
  case waits => exact hr.waits
  case leaves => exact hr.exists_task
  case task => exact htask
  case goesOn =>
    intro task ht hend
    by_cases hfree : task.needsLock = true → l.files.writer = none
    · obtain ⟨l', -, -, hm, -⟩ := exists_move_of_task hl.actor hl.session ht hend hfree
      exact .inl (by rw [hm]; rfl)
    · exact .inr (Classical.not_imp.1 hfree)
  case bounded => omega
  case ends =>
    intro task ht hfree
    obtain ⟨k, l', ending, hk, hrun, hended⟩ :=
      exists_end_of_task hl.actor hl.session ht hfree
    have htogo : sub.toGo = task.toGo := by
      unfold Submission.toGo
      rw [ht]
      rfl
    exact ⟨k, l', ending, by omega, hrun, hended⟩
  case returns =>
    intro ht
    by_cases hc : ∃ r, sub.call = .returned r
    · exact .inl hc
    · refine .inr fun now => ?_
      obtain ⟨x, hx⟩ := Option.isSome_iff_exists.1
        (hr.isSome_stepCall ht (fun r hr => hc ⟨r, hr⟩) now (s.over l.files).hub)
      have hsession : l.session? n = some (s.over l.files) := congrArg _ hl.session
      simp [move, act, hl.actor, hsession, Job.act, hx]
  case counted => exact h.running_eq hl.session
  case once =>
    have hcounts := hr.counts
    rwa [List.count_filter (by decide), List.count_filter (by decide)] at hcounts
  case stored =>
    intro how l' hm
    exact table_of_deed h.sound hl.actor hl.session hm

/-- Whatever has happened to a store when a producer begins to send an event, and whatever happens
    then unless everything crashes: how the call stands means what it is said to mean. -/
theorem answers_truly (h : Reached anyMove t l) (hm : l.move (.sends n p nonce e) = some l₁)
    (hrun : l₁.run (lasting anyMove) ms = some l') :
    ∃ sub s, l'.actors[l.actors.length]? = some ⟨n, .sending e sub⟩ ∧ l'.sessions[n]? = some s ∧
      l'.AnswersTruly l.actors.length n p nonce e sub s (l₁.deeds l.actors.length ms)
        (ms.countP (Move.isTaskOf l.actors.length)) := by
  have hfirst : Reached anyMove t l₁ := h.move trivial hm
  obtain ⟨s₁, hl₁⟩ := situation_of_sends hm
  obtain ⟨sub, s, hl⟩ := situation_of_run hfirst hl₁ hrun
  exact ⟨sub, s, hl.actor, hl.session, told_of_situation (hfirst.later hrun) hl⟩

/-- A call gives up before its task has begun, and the task goes on to its end. -/
def givingUp : List Move :=
  List.replicate 5 (.acts 0 (.step 0)) ++ List.replicate 11 (.acts 0 .task)

/-- The entry of the first event. -/
def letterEntry : Entry :=
  ⟨[97], [0, 0, 0, 1, 1, 0, 0, 0, 1, 0, 4, 103, 117, 105, 100, 0, 1, 97]⟩

theorem answers_truly_of_givingUp :
    let sends := Move.sends 0 ⟨.plaintext, 0⟩ (.ofNat 0) letter
    let l := after anyMove .empty [reopening 1]
    let l₁ := l.onward anyMove [sends]
    let l' := l₁.onward (lasting anyMove) givingUp
    (Reached anyMove .empty l ∧ l.move sends = some l₁ ∧
      l₁.run (lasting anyMove) givingUp = some l' ∧
      l₁.deeds 0 givingUp =
        [.entered, .expired, .expired, .committed letterEntry, .woke, .left]) ∧
    ∃ sub s, l'.actors[0]? = some ⟨0, .sending letter sub⟩ ∧ l'.sessions[0]? = some s ∧
      l'.AnswersTruly 0 0 ⟨.plaintext, 0⟩ (.ofNat 0) letter sub s (l₁.deeds 0 givingUp)
        (givingUp.countP (Move.isTaskOf 0)) := by
  intro sends l l₁ l'
  have hl : Reached anyMove .empty l := Reached.after (by decide +kernel)
  have hm : l.move sends = some l₁ := by rfl
  have hrun : l₁.run (lasting anyMove) givingUp = some l' := run_onward (by decide +kernel)
  have hds : l₁.deeds 0 givingUp =
      [.entered, .expired, .expired, .committed letterEntry, .woke, .left] := by decide +kernel
  have hfirst : l.actors.length = 0 := by rfl
  have htold := answers_truly hl hm hrun
  rw [hfirst] at htold
  exact ⟨⟨hl, hm, hrun, hds⟩, htold⟩

end Life

end Outbox
