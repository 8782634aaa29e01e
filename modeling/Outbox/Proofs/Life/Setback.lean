import Outbox.Proofs.Forwarder.OwnSteps
import Outbox.Proofs.Life.Pace
import Outbox.Proofs.Life.Queued

namespace Outbox

/-!
# Removals that fail

* `Life.Stands` — where the loop of a session stands, and what its threads share.
* `Life.Struck` — in a run, something has doomed the loop.
* `Life.isDoomed_iff_struck` — the loop is doomed exactly by this.
* `Life.Alone` — a run of the loop's own steps in front of a sink that accepts.
* `Life.Stands.drains` — such a run takes everything out of the store.
* `Life.Recovers` — what becomes of a batch that could not be removed.
* `Life.outlives_failed_removal` — it is handed over again, and the loop goes on.
* `Life.ends_without_cause` — a walk that cannot be committed ends the loop, and so does a sink that
  kills the thread.
-/

namespace Forwarder.Phase

/-- Why a batch could not be removed, of how many entries that is reported, and how many of them
    have been delivered and dropped. -/
def failure? : Phase → Option (StoreFault × Nat × Nat × Nat)
  | passing (.removing (.done (.error fault)) expected delivered dropped) =>
    some (fault, expected, delivered, dropped)
  | _ => none

/-- Where there is such a failure, a removal has come to it. -/
theorem eq_removing {p : Phase} {fault : StoreFault} {expected delivered dropped : Nat}
    (h : p.failure? = some (fault, expected, delivered, dropped)) :
    p = passing (.removing (.done (.error fault)) expected delivered dropped) := by
  unfold failure? at h
  split at h
  · cases h
    rfl
  · cases h

/-- Whether the loop is about to read the flag. -/
def isChecking : Phase → Bool
  | checking => true
  | _ => false

/-- This is the place at the head of the loop. -/
theorem eq_checking {p : Phase} (h : p.isChecking = true) : p = checking := by
  cases p with
  | checking => rfl
  | _ => cases h

end Forwarder.Phase

instance (style : SinkStyle) (t : Table) (w : Option Table) (h : Hub) :
    Decidable (h.Lone style t w) :=
  decidable_of_iff (h.faults = .none ∧ h.style = style ∧ h.flag = false ∧ h.store.closed = false ∧
      h.store.table = t ∧ h.store.writer = w)
    ⟨fun ⟨faults, style, down, isOpen, table, writer⟩ =>
        ⟨faults, style, down, isOpen, table, writer⟩,
      fun hl => ⟨hl.faults, hl.style, hl.down, hl.isOpen, hl.table, hl.writer⟩⟩

/-- Whether a move is a step of an actor, or an answer by which the sink accepts what it hands
    over. -/
def Move.isOwn (i : Nat) : Move → Bool
  | .acts j (.step _) | .acts j (.answer .accepted) => j == i
  | _ => false

/-- An actor's own moves are its acts. -/
theorem Move.eq_acts_of_isOwn {m : Move} {i : Nat} (h : m.isOwn i = true) :
    ∃ how, m = .acts i how := by
  unfold isOwn at h
  split at h
  · exact ⟨_, congrArg (acts · _) (eq_of_beq h)⟩
  · exact ⟨_, congrArg (acts · _) (eq_of_beq h)⟩
  · cases h

/-- Its steps are its own. -/
theorem Move.isOwn_step (i now : Nat) : (acts i (.step now)).isOwn i = true := beq_self_eq_true i

/-- Answers that accept are its own. -/
theorem Move.isOwn_answer (i : Nat) : (acts i (.answer .accepted)).isOwn i = true :=
  beq_self_eq_true i

/-- Whether a pass with a cipher has told something. -/
def Occurrence.isBy (c : Cipher) : Occurrence → Prop
  | .accepted c' _ _ | .removed c' _ => c' = c
  | _ => False

namespace Life

variable {allowed : Life → Move → Prop} {t : Table}
  {l l₀ l₁ l₂ l' : Life} {m : Move} {ms ms' : List Move} {i n now : Nat} {f f' g : Forwarder}
  {c c' : Account} {h h' k : Hub} {style : SinkStyle}

/-! ### Where the loop stands -/

/-- The loop that an actor of a session runs, with the account of its pass, and what the threads of
    the session share. -/
structure Stands (l : Life) (i n : Nat) (f : Forwarder) (c : Account) (h : Hub) : Prop where
  actor : l.actors[i]? = some ⟨n, .forwarding (.loop f) c⟩
  session : ∃ s, l.sessions[n]? = some s ∧ (s.over l.files).hub = h

/-- The loop and its session see the same files. -/
theorem Stands.files_eq (hl : l.Stands i n f c h) : h.store.files = l.files := by
  obtain ⟨-, s, hs, rfl⟩ := hl
  rfl

/-- Whatever happens, unless everything crashes, the loop stays. It is doomed by what it meets with
    itself, or has been before. -/
theorem Stands.move (hl : l.Stands i n f c h) (hr : Reached allowed t l) (hm : l.move m = some l')
    (hc : m.isCrash = false) :
    ∃ f' c' h', l'.Stands i n f' c' h' ∧
      (f'.isDoomed = true ↔ f.isDoomed = true ∨ ∃ how, m = .acts i how ∧ f.Ends h how) := by
  obtain ⟨hi, s, hs, rfl⟩ := hl
  obtain ⟨b, s', hb, hs', hbefalls⟩ := (moved_of_move hm).befalls hc hi hs
  -- what others do neither moves the loop nor is it a strike
  have hspared : (∀ how, m ≠ .acts i how) →
      (f.isDoomed = true ↔ f.isDoomed = true ∨
        ∃ how, m = .acts i how ∧ f.Ends (s.over l.files).hub how) := by
    intro hne
    simp [hne]
  cases hbefalls with
  | spared hne => exact ⟨f, c, _, ⟨hb, _, hs', rfl⟩, hspared hne⟩
  | acts hstep =>
    cases hstep with
    | @loop now _ f' _ h' hf =>
      refine ⟨f', _, _, ⟨hb, _, hs', rfl⟩, ?_⟩
      rw [Forwarder.isDoomed_iff_of_step hf]
      simp
    | @answer r _ _ events hcall =>
      refine ⟨(f.answer r (s.over l.files).hub).1, _, _, ⟨hb, _, hs', rfl⟩, ?_⟩
      rw [Forwarder.isDoomed_iff_of_answer (hr.sound.fits hi).1 hcall]
      simp
  | other hk =>
    refine ⟨f, c, _, ⟨hb, _, hs', rfl⟩, hspared fun how heq => ?_⟩
    cases heq
    exact hk rfl
  | raised => exact ⟨f, c, _, ⟨hb, _, hs', rfl⟩, hspared nofun⟩
  | spoiled faults => exact ⟨f, c, _, ⟨hb, _, hs', rfl⟩, hspared nofun⟩

/-- A loop that is not doomed leaves the flag alone. -/
theorem Stands.flag_eq {how : Act} (hl : l.Stands i n f c h) (hsafe : f.isDoomed = false)
    (hm : l.move (.acts i how) = some l') :
    ∃ f' c' h', l'.Stands i n f' c' h' ∧ h'.flag = h.flag := by
  obtain ⟨hi, s, hs, rfl⟩ := hl
  obtain ⟨b, s', hb, hs', hbefalls⟩ := (moved_of_move hm).befalls rfl hi hs
  cases hbefalls with
  | spared hne => exact absurd rfl (hne _)
  | acts hstep =>
    cases hstep with
    | loop hf =>
      have hflag := Forwarder.flag_of_step hf hsafe
      exact ⟨_, _, _, ⟨hb, _, hs', rfl⟩, hflag⟩
    | @answer r _ _ events hcall =>
      exact ⟨(f.answer r (s.over l.files).hub).1, _, _, ⟨hb, _, hs', rfl⟩,
        (Scenario.Work.answer_still r (.loop f) _).flag⟩
  | other hk => exact absurd rfl hk

/-! ### What dooms the loop -/

/-- In a run, the loop of a session meets with something that dooms it. -/
def Struck (l₀ : Life) (ms : List Move) (i n : Nat) : Prop :=
  ∃ ms₁ how ms₂ l f c h, ms = ms₁ ++ .acts i how :: ms₂ ∧
    l₀.run (lasting anyMove) ms₁ = some l ∧ l.Stands i n f c h ∧ f.Ends h how

/-- The loop of a session is there and is doomed. -/
def Doomed (l : Life) (i n : Nat) : Prop :=
  ∃ f c h, l.Stands i n f c h ∧ f.isDoomed = true

/-- A loop that stands somewhere is doomed if it is so by its phase. -/
theorem Stands.doomed_iff (hl : l.Stands i n f c h) : l.Doomed i n ↔ f.isDoomed = true := by
  constructor
  · rintro ⟨f', c', h', hl', hdoomed⟩
    cases hl.actor.symm.trans hl'.actor
    exact hdoomed
  · exact fun hdoomed => ⟨f, c, h, hl, hdoomed⟩

/-- The loop stays, and so does its doom. -/
theorem Stands.run [∀ l m, Decidable (allowed l m)] (hl : l.Stands i n f c h)
    (hr : Reached allowed t l)
    (hrun : l.run (lasting allowed) ms = some l') :
    (∃ f' c' h', l'.Stands i n f' c' h') ∧ (f.isDoomed = true → l'.Doomed i n) := by
  induction ms using List.reverseRecOn generalizing l' with
  | nil =>
    cases hrun
    exact ⟨⟨f, c, h, hl⟩, fun hdoomed => ⟨f, c, h, hl, hdoomed⟩⟩
  | append_singleton ms m ih =>
    obtain ⟨l₁, hrun₁, ok, hm⟩ := run_concat.1 hrun
    obtain ⟨⟨f₁, c₁, h₁, hl₁⟩, hlasts⟩ := ih hrun₁
    obtain ⟨f', c', h', hl', hiff⟩ := hl₁.move (hr.later hrun₁) hm ok.2
    exact ⟨⟨f', c', h', hl'⟩, fun hdoomed =>
      ⟨f', c', h', hl', hiff.2 (.inl (hl₁.doomed_iff.1 (hlasts hdoomed)))⟩⟩

/-- A loop that was not doomed is so after a run exactly if it has met with something that dooms
    it. -/
theorem isDoomed_iff_struck (hr : Reached anyMove t l₀) {f₀ : Forwarder} {c₀ : Account} {h₀ : Hub}
    (hl₀ : l₀.Stands i n f₀ c₀ h₀) (hsafe : f₀.isDoomed = false)
    (hrun : l₀.run (lasting anyMove) ms = some l) (hl : l.Stands i n f c h) :
    f.isDoomed = true ↔ l₀.Struck ms i n := by
  rw [← hl.doomed_iff]
  constructor
  · -- the strike is the move by which the loop came to be doomed
    intro hdoomed
    have hbefore : ¬ l₀.Doomed i n := by
      rw [hl₀.doomed_iff, hsafe]
      exact Bool.false_ne_true
    obtain ⟨ms₁, m, ms₂, l₁, l₂, rfl, hrun₁, ok, hm, h₁, h₂⟩ :=
      exists_turning (P := fun l => l.Doomed i n) hrun hbefore hdoomed
    obtain ⟨⟨f₁, c₁, k₁, hl₁⟩, -⟩ := hl₀.run hr hrun₁
    obtain ⟨f₂, c₂, k₂, hl₂, hiff⟩ := hl₁.move (hr.later hrun₁) hm ok.2
    rw [hl₁.doomed_iff] at h₁
    rw [hl₂.doomed_iff] at h₂
    obtain ⟨how, rfl, hends⟩ := (hiff.1 h₂).resolve_left h₁
    exact ⟨ms₁, how, ms₂, l₁, f₁, c₁, k₁, rfl, hrun₁, hl₁, hends⟩
  · -- from the strike on, the doom lasts to the end of the run
    rintro ⟨ms₁, how, ms₂, l₁, f₁, c₁, h₁, rfl, hrun₁, hl₁, hends⟩
    obtain ⟨l₂, hrun₂, hrest⟩ := run_append.1 hrun
    obtain rfl : l₁ = l₂ := Option.some.inj (hrun₁.symm.trans hrun₂)
    obtain ⟨l₃, ok, hm, hrest⟩ := run_cons.1 hrest
    obtain ⟨f₃, c₃, h₃, hl₃, hiff⟩ := hl₁.move (hr.later hrun₁) hm ok.2
    have hreached : Reached anyMove t l₃ := (hr.later hrun₁).move trivial hm
    exact (hl₃.run hreached hrest).2 (hiff.2 (.inr ⟨how, rfl, hends⟩))

/-! ### The loop by itself -/

/-- A run of the own steps of an actor that forwards with a cipher, in front of a sink that
    accepts. -/
def Alone (l : Life) (i : Nat) (c : Cipher) (l' : Life) : Prop :=
  ∃ ms, (∀ m ∈ ms, m.isOwn i = true) ∧ l.run (lasting solo) ms = some l' ∧
    ∃ news, l'.history = l.history ++ news ∧ ∀ o ∈ news, o.isBy c

/-- Nobody has to do anything for a loop to be where it is. -/
theorem Alone.refl (l : Life) (i : Nat) (c : Cipher) : l.Alone i c l := by
  refine ⟨[], ?_, rfl, [], (List.append_nil _).symm, ?_⟩
  · simp
  · simp

/-- Its own moves go on after its own moves. -/
theorem Alone.trans {c : Cipher} (before : l.Alone i c l₁) (after : l₁.Alone i c l₂) :
    l.Alone i c l₂ := by
  obtain ⟨ms, hown, hrun, news, hnews, hby⟩ := before
  obtain ⟨ms', hown', hrun', news', hnews', hby'⟩ := after
  refine ⟨ms ++ ms', fun m hm => ?_, run_append.2 ⟨l₁, hrun, hrun'⟩, news ++ news', ?_,
    fun o ho => ?_⟩
  · exact (List.mem_append.1 hm).elim (hown m) (hown' m)
  · rw [hnews', hnews, List.append_assoc]
  · exact (List.mem_append.1 ho).elim (hby o) (hby' o)

/-- One act of the loop is a run of its own. -/
theorem Alone.of_act {c : Cipher} {how : Act} {news : List Occurrence}
    (hown : (Move.acts i how).isOwn i = true) (hm : l.move (.acts i how) = some l')
    (hnews : l'.history = l.history ++ news) (hby : ∀ o ∈ news, o.isBy c) : l.Alone i c l' := by
  refine ⟨[.acts i how], fun m hm => ?_, run_cons.2 ⟨l', ⟨trivial, rfl⟩, hm, rfl⟩, news, hnews, hby⟩
  rw [List.mem_singleton.1 hm]
  exact hown

/-- A run of the loop's own leads to a life that can be reached. -/
theorem Alone.reached {c : Cipher} (h : l.Alone i c l') (hr : Reached solo t l) :
    Reached solo t l' := by
  obtain ⟨ms, -, hrun, -⟩ := h
  exact hr.later hrun

/-- Where the counter does not fall short of the entries, the loop does not bring that about. -/
theorem Alone.covered {c : Cipher} (h : l.Alone i c l') (hr : Reached anyMove t l)
    (hl : l.Covered i) : l'.Covered i := by
  obtain ⟨ms, hown, hrun, -⟩ := h
  induction ms generalizing l with
  | nil =>
    cases hrun
    exact hl
  | cons m ms ih =>
    obtain ⟨l₁, ok, hm, hrest⟩ := run_cons.1 hrun
    obtain ⟨how, rfl⟩ := Move.eq_acts_of_isOwn (hown m List.mem_cons_self)
    exact ih (hr.move trivial hm) (hl.act hr hm) (fun m hm => hown m (List.mem_cons_of_mem _ hm))
      hrest

/-- The loop takes its step. -/
theorem Stands.step (hl : l.Stands i n f c h) (hf : f.step now h = some (f', h')) :
    ∃ l' c', l.move (.acts i (.step now)) = some l' ∧ l'.Stands i n f' c' h' ∧
      l'.history = l.history ++
        Job.removals f.settings.cipher h.store.table h'.store.table := by
  obtain ⟨hi, s, hs, rfl⟩ := hl
  have hlt := (List.getElem?_eq_some_iff.1 hi).1
  have hlt' := (List.getElem?_eq_some_iff.1 hs).1
  have hw : (Scenario.Work.loop f).step now (s.over l.files).hub = some (.loop f', h') := by
    show (f.step now _).map _ = _
    rw [hf]
    rfl
  have hact : l.act i (.step now) = some ⟨h'.store.files, l.sessions.set n ⟨h', s.queue⟩,
      l.actors.set i ⟨n, .forwarding (.loop f') ((Scenario.Work.loop f).account (s.over l.files).hub
        l.history.length c)⟩, l.history ++
          Job.removals f.settings.cipher (s.over l.files).hub.store.table h'.store.table⟩ := by
    unfold Life.act
    rw [hi]
    show (l.session? n).bind _ = _
    unfold session?
    rw [hs]
    show (Option.map _ ((Scenario.Work.loop f).step now (s.over l.files).hub)).bind _ = _
    rw [hw]
    rfl
  exact ⟨_, _, hact, ⟨List.getElem?_set_self hlt, _, List.getElem?_set_self hlt', rfl⟩, rfl⟩

/-- The loop takes the answer of a sink that accepts. -/
theorem Stands.answer (hl : l.Stands i n f c h) {events : List Event}
    (hc : f.call? = some events) :
    ∃ l' c', l.move (.acts i (.answer .accepted)) = some l' ∧
      l'.Stands i n (f.answer .accepted h).1 c' (f.answer .accepted h).2 ∧
      l'.history = l.history ++ Job.acceptance .accepted f.settings.cipher c events := by
  obtain ⟨hi, s, hs, rfl⟩ := hl
  have hlt := (List.getElem?_eq_some_iff.1 hi).1
  have hlt' := (List.getElem?_eq_some_iff.1 hs).1
  have hact : l.act i (.answer .accepted) = some
      ⟨(f.answer .accepted (s.over l.files).hub).2.store.files,
        l.sessions.set n ⟨(f.answer .accepted (s.over l.files).hub).2, s.queue⟩,
        l.actors.set i ⟨n, .forwarding (.loop (f.answer .accepted (s.over l.files).hub).1)
          (Pass.answered .accepted events c)⟩,
        l.history ++ Job.acceptance .accepted f.settings.cipher c events⟩ := by
    unfold Life.act
    rw [hi]
    show (l.session? n).bind _ = _
    unfold session?
    rw [hs]
    show (Option.map _ f.call?).bind _ = _
    rw [hc]
    rfl
  exact ⟨_, _, hact, ⟨List.getElem?_set_self hlt, _, List.getElem?_set_self hlt', rfl⟩, rfl⟩

/-- Where the loop gets to by itself, it gets to in a run of its own. -/
theorem Stands.advances (hl : l.Stands i n f c h) (hg : f.Advances h g k) :
    ∃ l' c', l.Alone i f.settings.cipher l' ∧ l'.Stands i n g c' k := by
  induction hg generalizing l c with
  | @refl f h => exact ⟨l, c, .refl l i _, hl⟩
  | @step f f' g h h' k now hf next ih =>
    obtain ⟨l₁, c₁, hm, hl₁, hnews⟩ := hl.step hf
    obtain ⟨l', c', halone, hl'⟩ := ih hl₁
    rw [Forwarder.settings_of_step hf] at halone
    refine ⟨l', c', .trans (.of_act (Move.isOwn_step i now) hm hnews fun o ho => ?_) halone, hl'⟩
    obtain ⟨x, -, rfl⟩ := List.mem_map.1 ho
    exact rfl
  | @answer f g h k events hc next ih =>
    obtain ⟨l₁, c₁, hm, hl₁, hnews⟩ := hl.answer hc
    obtain ⟨l', c', halone, hl'⟩ := ih hl₁
    rw [Forwarder.settings_of_answer] at halone
    refine ⟨l', c', .trans (.of_act (Move.isOwn_answer i) hm hnews fun o ho => ?_) halone, hl'⟩
    rw [Job.acceptance, if_pos rfl] at ho
    rw [List.mem_singleton.1 ho]
    exact rfl

/-- By itself, the loop takes everything out of the store, round after round. -/
theorem Stands.drains {s : Forwarder.Settings} {nextPass : Nat} {idle : Bool}
    (hl : l.Stands i n ⟨s, nextPass, idle, .checking⟩ c h) (hr : Reached solo t l)
    (ht : ∀ x ∈ t.toList, x.key ≠ []) (hlone : h.Lone style l.files.table none)
    (hcovered : l.Covered i) : ∃ l', l.Alone i s.cipher l' ∧ l'.files.table.toList = [] := by
  -- by the number of entries, of which every round leaves fewer
  induction hsize : l.files.table.toList.length using Nat.strongRecOn
    generalizing l c h nextPass idle with
  | ind size ih =>
    by_cases hsome : l.files.table.toList = []
    · exact ⟨l, .refl l i _, hsome⟩
    · -- the counter does not fall behind, so that there is another round
      have hcount : h.count ≠ 0 := by
        obtain ⟨ha, r, hs, rfl⟩ := hl
        have hle := hcovered _ r ha hs
        have hshown :=
          Store.count_of_eq (s := r.hub.store) (n := r.hub.store.counter.toNat) (by omega)
        have hpos : 0 < l.files.table.size := List.length_pos_iff.2 hsome
        show r.hub.store.count + r.hub.faults.overstated ≠ 0
        omega
      obtain ⟨due, h', t', hadvances, hlone', hless⟩ :=
        Forwarder.advances_round hlone hcount (hr.named ht) hsome s nextPass idle
      obtain ⟨l₁, c₁, halone, hl₁⟩ := hl.advances hadvances
      have hfiles : l₁.files.table = t' := by
        rw [← hl₁.files_eq]
        exact hlone'.table
      rw [← hfiles] at hlone' hless
      obtain ⟨l', halone', hempty⟩ := ih _ (hsize ▸ hless) hl₁ (halone.reached hr) hlone'
        (halone.covered (hr.mono fun _ _ _ => trivial) hcovered) rfl
      exact ⟨l', halone.trans halone', hempty⟩

/-! ### Removals that fail -/

/-- What becomes of a batch that could not be removed, when the failure is known. -/
structure Recovers (t : Table) (l : Life) (i n : Nat) (f : Forwarder) (c : Account) (h : Hub)
    (report : Journal) : Prop where
  /-- The failure is reported, and the loop goes back to its head. Nothing else changes: neither the
      store nor the flag. -/
  goesOn : ∀ now now', ∃ l' c',
    l.run (lasting anyMove) [.acts i (.step now), .acts i (.step now')] = some l' ∧
      l'.Stands i n (f.goto .checking) c' (h.report report)
  /-- The sink has accepted whatever the pass could read. -/
  accepted : ∀ x ∈ c.read, f.settings.cipher.reads x = true → Taken (l.history.drop c.since) x
  /-- What is queued stays so until it is settled anew. -/
  kept : Reached solo t l → ∀ ms l', l.run (lasting anyMove) ms = some l' →
    ∀ x ∈ l.files.table.toList,
      x ∈ l'.files.table.toList ∨ Settled (l'.history.drop l.history.length) x
  /-- Whenever the loop is at its head again, nothing is in its way, and the counter does not fall
      short of the entries, it goes on to hand over whatever can be read of what is queued. By
      `Reached.counter_eq_sum` the counter falls short only where a recount has come between a put's
      failed commit and its subtraction. -/
  again : Reached solo t l → ∀ ms l₁ f₁ c₁ h₁ style, l.run (lasting solo) ms = some l₁ →
    l₁.Stands i n f₁ c₁ h₁ → f₁.phase = .checking → h₁.Lone style l₁.files.table none →
    ↑l₁.files.table.size ≤ h₁.store.counter →
      ∃ l₂, l₁.Alone i f₁.settings.cipher l₂ ∧ ∀ x ∈ l₁.files.table.toList,
        f₁.settings.cipher.reads x = true → Taken (l₂.history.drop l₁.history.length) x

/-- What is reported of a removal that has failed, and of the pass. -/
def failureReport (fault : StoreFault) (expected delivered dropped : Nat) : Journal :=
  [.incident (.notRemoved expected (.transaction fault)), .measure (.passed delivered true),
    .measure (.dropped dropped)]

/-- A removal that has failed is reported, and leads back to the head of the loop. -/
theorem Stands.goesOn {fault : StoreFault} {expected delivered dropped : Nat}
    (hl : l.Stands i n f c h)
    (hp : f.phase = .passing (.removing (.done (.error fault)) expected delivered dropped))
    (now now' : Nat) :
    ∃ l' c', l.run (lasting anyMove) [.acts i (.step now), .acts i (.step now')] = some l' ∧
      l'.Stands i n (f.goto .checking) c'
        (h.report (failureReport fault expected delivered dropped)) := by
  obtain ⟨settings, nextPass, idle, phase⟩ := f
  obtain rfl := hp
  have hreport : Forwarder.step now ⟨settings, nextPass, idle,
      .passing (.removing (.done (.error fault)) expected delivered dropped)⟩ h =
      some (⟨settings, nextPass, idle, .passing (.ended (.ok (.delivered delivered dropped)))⟩,
        h.report (failureReport fault expected delivered dropped)) := by
    simp [Forwarder.step, Forwarder.goto, Pass.step, Pass.removed, Pass.conclude, RemovalOp.result?,
      failureReport, Hub.incident, Hub.report]
  obtain ⟨l₁, c₁, hm₁, hl₁, -⟩ := hl.step hreport
  have hback : Forwarder.step now' ⟨settings, nextPass, idle,
      .passing (.ended (.ok (.delivered delivered dropped)))⟩
      (h.report (failureReport fault expected delivered dropped)) =
      some (⟨settings, nextPass, idle, .checking⟩,
        h.report (failureReport fault expected delivered dropped)) := rfl
  obtain ⟨l₂, c₂, hm₂, hl₂, -⟩ := hl₁.step hback
  exact ⟨l₂, c₂, run_cons.2 ⟨l₁, ⟨trivial, rfl⟩, hm₁, run_cons.2 ⟨l₂, ⟨trivial, rfl⟩, hm₂, rfl⟩⟩,
    hl₂⟩

/-- While one loop forwards and its pass is over, or has failed, nothing is still to be removed. -/
theorem Stands.since {past : Nat} (hl : l.Stands i n f c h) (hr : Reached solo t l)
    (hlive : f.hasEnded = false) (howes : (Scenario.Work.loop f).owes = false) :
    l.Since past := by
  intro k m w a hk ho
  by_cases hki : k = i
  · subst hki
    cases hl.actor.symm.trans hk
    rw [howes] at ho
    cases ho
  · have hidle := hr.isForwarding_eq_false (fun heq => hki heq.symm) hl.actor hk
      (Job.isForwarding_of_live hlive)
    rw [Job.isForwarding_of_live (Scenario.Work.live_of_owes ho)] at hidle
    cases hidle

/-- By itself, the loop hands over whatever can be read in the store. -/
theorem Stands.takes_all (hl : l.Stands i n f c h) (hr : Reached solo t l)
    (ht : ∀ x ∈ t.toList, x.key ≠ []) (hp : f.phase = .checking)
    (hlone : h.Lone style l.files.table none) (hle : ↑l.files.table.size ≤ h.store.counter) :
    ∃ l', l.Alone i f.settings.cipher l' ∧ ∀ x ∈ l.files.table.toList,
      f.settings.cipher.reads x = true → Taken (l'.history.drop l.history.length) x := by
  obtain ⟨settings, nextPass, idle, phase⟩ := f
  obtain rfl : phase = .checking := hp
  have hcovered : l.Covered i := by
    intro a s ha hs
    obtain ⟨ha', r, hs', rfl⟩ := hl
    cases ha.symm.trans ha'
    obtain rfl := Option.some.inj (hs.symm.trans hs')
    exact hle
  obtain ⟨l', halone, hempty⟩ := hl.drains hr ht hlone hcovered
  refine ⟨l', halone, fun x hx hreads => ?_⟩
  have hsince : l.Since l.history.length := hl.since hr rfl rfl
  obtain ⟨ms, -, hrun, news, hnews, hby⟩ := halone
  have hdrop : l'.history.drop l.history.length = news := by
    rw [hnews]
    exact List.drop_left
  rcases hsince.stored_or_settled hr hrun hx with hin | hsettled
  · rw [hempty] at hin
    cases hin
  · -- nobody but the loop has done anything
    rw [hdrop] at hsettled ⊢
    rcases hsettled with htaken | ⟨c', fault, hremoved, ho⟩ | ⟨e, y, hy, -⟩
    · exact htaken
    · obtain rfl : c' = settings.cipher := hby _ hremoved
      have hbad := Cipher.not_reads_of_open ho
      rw [hreads] at hbad
      cases hbad
    · exact (hby _ hy).elim

/-- So it goes with every batch that could not be removed. -/
theorem Stands.recovers {fault : StoreFault} {expected delivered dropped : Nat}
    (hl : l.Stands i n f c h) (hr : Reached anyMove t l) (ht : ∀ x ∈ t.toList, x.key ≠ [])
    (hp : f.phase = .passing (.removing (.done (.error fault)) expected delivered dropped)) :
    Recovers t l i n f c h (failureReport fault expected delivered dropped) := by
  obtain ⟨settings, nextPass, idle, phase⟩ := f
  obtain rfl := hp
  refine ⟨hl.goesOn rfl, ?_, ?_, ?_⟩
  · intro x hx hreads
    obtain ⟨hfits, -, hsound⟩ := hr.sound.fits hl.actor
    -- the whole batch was answered before its removal, so that nothing of it waits
    have hwait : c.waiting = [] := (hfits _ rfl).2.1
    have hrec : l.Record (fun _ => True) t := hr.record fun _ _ _ _ _ => trivial
    exact hsound.taken hwait hx hreads fun c entries events hacc => (hrec.grounded _ hacc).2.1
  · intro hsolo ms l' hrun x hx
    have hsince : l.Since l.history.length := hl.since hsolo rfl rfl
    exact hsince.stored_or_settled hr hrun hx
  · intro hsolo ms l₁ f₁ c₁ h₁ style hrun hl₁ hp₁ hlone hle
    exact hl₁.takes_all (hsolo.later hrun) ht hp₁ hlone hle

/-- What a pass could not remove is queued, in either protocol. -/
theorem Stands.queued {p : Pass} (hl : l.Stands i n f c h) (hr : Reached solo t l)
    (hp : f.phase = .passing p) (hfailed : p.hasFailed = true) :
    ∀ x ∈ c.read, x ∈ l.files.table.toList ∨ PutAgain (l.history.drop c.since) x := by
  obtain ⟨settings, nextPass, idle, phase⟩ := f
  obtain rfl := hp
  have hintact : p.isIntact = true := Bool.or_eq_true_iff.2 (.inr hfailed)
  exact hr.intact hl.actor hintact

/-- In every run, the loop is doomed exactly if it meets with a flag that is up, a store that cannot
    be read, a walk that cannot be committed, or a sink that kills the thread. Then it gets to its
    end; before, it leaves the flag alone. What a pass has read and cannot remove stays queued. A
    batch that cannot be removed is not among what dooms the loop: it is handed over again. -/
theorem outlives_failed_removal {f₀ : Forwarder} {c₀ : Account} {h₀ : Hub}
    (hr : Reached anyMove t l₀) (ht : ∀ x ∈ t.toList, x.key ≠ []) (hl₀ : l₀.Stands i n f₀ c₀ h₀)
    (hsafe : f₀.isDoomed = false) (hrun : l₀.run (lasting anyMove) ms = some l)
    (hl : l.Stands i n f c h) :
    (f.isDoomed = true ↔ l₀.Struck ms i n) ∧
    (f.isDoomed = true → ∃ l' f' c' h', l.Alone i f.settings.cipher l' ∧
      l'.Stands i n f' c' h' ∧ f'.hasEnded = true) ∧
    (f.isDoomed = false → ∀ how l', l.move (.acts i how) = some l' →
      ∃ f' c' h', l'.Stands i n f' c' h' ∧ h'.flag = h.flag) ∧
    (∀ p, f.phase = .passing p → p.hasFailed = true → Reached solo t l → ∀ x ∈ c.read,
      x ∈ l.files.table.toList ∨ PutAgain (l.history.drop c.since) x) ∧
    ∀ fault expected delivered dropped,
      f.phase = .passing (.removing (.done (.error fault)) expected delivered dropped) →
        Recovers t l i n f c h (failureReport fault expected delivered dropped) := by
  refine ⟨isDoomed_iff_struck hr hl₀ hsafe hrun hl, ?_, ?_, ?_, ?_⟩
  · intro hdoomed
    obtain ⟨g, k, hadvances, hended⟩ := Forwarder.advances_to_end hdoomed h
    obtain ⟨l', c', halone, hl'⟩ := hl.advances hadvances
    exact ⟨l', g, c', k, halone, hl', hended⟩
  · intro hsafe how l' hm
    exact hl.flag_eq hsafe hm
  · intro p hp hfailed hsolo
    exact hl.queued hsolo hp hfailed
  · intro fault expected delivered dropped hp
    exact hl.recovers (hr.later hrun) ht hp

/-! ### Single runs -/

/-- A loop and a hub of some kind stand somewhere. -/
theorem exists_stands (kind : Forwarder → Bool) (kind' : Hub → Bool)
    (hf : (l.loop? i n).any kind = true) (hh : (l.session? n).any (fun s => kind' s.hub) = true) :
    ∃ f c h, l.Stands i n f c h ∧ kind f = true ∧ kind' h = true := by
  obtain ⟨f, c, hi, hkind⟩ := exists_loop kind hf
  obtain ⟨_, hsession, hkind'⟩ := (Option.any_eq_true _ _).1 hh
  obtain ⟨s, hs, rfl⟩ := Option.map_eq_some_iff.1 hsession
  exact ⟨f, c, _, ⟨hi, s, hs, rfl⟩, hkind, hkind'⟩

/-- Two events are sent, and a loop begins to forward them in batches of two. What is removed cannot
    be committed. -/
def jammed : List Move :=
  .opens ⟨"", 2, ⟨.plaintext, 0⟩, 0, false, some ⟨true⟩⟩ .whole
      { Faults.none with committing := some .mapFull } 64 ::
    (submitting 0 letter ++ submitting 1 postcard ++ [.forwards 0 (.of .plaintext 2 30) true])

/-- The loop hands the batch over and fails to remove it. -/
def jamming : List Move :=
  List.replicate 5 (.acts 2 (.step 0)) ++ .acts 2 (.answer .accepted) ::
    List.replicate 5 (.acts 2 (.step 0))

/-- The loop reports the failure, and then commits succeed again. -/
def mending : List Move :=
  List.replicate 2 (.acts 2 (.step 0)) ++ [.spoils 0 .none]

/-- The failure is reported with the two entries, and both are handed over again afterwards. -/
theorem outlives_failed_removal_of_jam :
    let l₀ := after solo .empty jammed
    let l := l₀.onward (lasting solo) jamming
    let l₁ := l.onward (lasting solo) mending
    ∃ f₀ f c₀ c h₀ h,
      (Reached anyMove .empty l₀ ∧ (∀ x ∈ Table.empty.toList, x.key ≠ []) ∧
        l₀.Stands 2 0 f₀ c₀ h₀ ∧ f₀.isDoomed = false ∧
        l₀.run (lasting anyMove) jamming = some l ∧ l.Stands 2 0 f c h ∧
        f.phase = .passing (.removing (.done (.error (.engine .mapFull))) 2 2 0)) ∧
      (¬ l₀.Struck jamming 2 0 ∧
        (∀ x ∈ c.read, x ∈ l.files.table.toList ∨ PutAgain (l.history.drop c.since) x) ∧
        Recovers .empty l 2 0 f c h (failureReport (.engine .mapFull) 2 2 0)) ∧
      l₁.files.table.size = 2 ∧ ∃ l₂, l₁.Alone 2 .plaintext l₂ ∧ ∀ x ∈ l₁.files.table.toList,
        Taken (l₂.history.drop l₁.history.length) x := by
  intro l₀ l l₁
  have hsolo₀ : Reached solo .empty l₀ := Reached.after (by decide +kernel)
  have hrun : l₀.run (lasting solo) jamming = some l := run_onward (by decide +kernel)
  have hmend : l.run (lasting solo) mending = some l₁ := run_onward (by decide +kernel)
  have hsolo : Reached solo .empty l := hsolo₀.later hrun
  have hr₀ : Reached anyMove .empty l₀ := hsolo₀.mono fun _ _ _ => trivial
  have hrun' : l₀.run (lasting anyMove) jamming = some l :=
    run_mono (fun _ _ ok => ⟨trivial, ok.2⟩) hrun
  -- the loop before the failure, when it has failed, and when it is back at its head
  obtain ⟨f₀, c₀, h₀, hl₀, hsafe, -⟩ := exists_stands (l := l₀) (i := 2) (n := 0)
    (fun f => !f.isDoomed) (fun _ => true) (by decide +kernel) (by decide +kernel)
  obtain ⟨f, c, h, hl, hfails, -⟩ := exists_stands (l := l) (i := 2) (n := 0)
    (fun f => f.phase.failure? = some (.engine .mapFull, 2, 2, 0)) (fun _ => true)
    (by decide +kernel) (by decide +kernel)
  obtain ⟨f₁, c₁, h₁, hl₁, hback, hclear⟩ := exists_stands (l := l₁) (i := 2) (n := 0)
    (fun f => f.phase.isChecking && f.settings.cipher = .plaintext)
    (fun h => h.Lone .whole l₁.files.table none ∧ ↑l₁.files.table.size ≤ h.store.counter)
    (by decide +kernel) (by decide +kernel)
  have hsafe : f₀.isDoomed = false := by simpa using hsafe
  have hfails := Forwarder.Phase.eq_removing (of_decide_eq_true hfails)
  obtain ⟨hback, hcipher⟩ := Bool.and_eq_true_iff.1 hback
  have hback := Forwarder.Phase.eq_checking hback
  have hcipher : f₁.settings.cipher = .plaintext := of_decide_eq_true hcipher
  obtain ⟨hlone, hle⟩ := of_decide_eq_true hclear
  have hnamed : ∀ x ∈ Table.empty.toList, x.key ≠ [] := nofun
  obtain ⟨hdoomed, -, -, hqueued, hrecovers⟩ :=
    outlives_failed_removal hr₀ hnamed hl₀ hsafe hrun' hl
  have hrecovers := hrecovers _ _ _ _ hfails
  obtain ⟨l₂, halone, htaken⟩ :=
    hrecovers.again hsolo mending l₁ f₁ c₁ h₁ .whole hmend hl₁ hback hlone hle
  rw [hcipher] at halone htaken
  have hreads : ∀ x ∈ l₁.files.table.toList, Cipher.plaintext.reads x = true := by decide +kernel
  have halive : f.isDoomed = false := by
    rw [Forwarder.isDoomed_passing hfails]
    rfl
  refine ⟨f₀, f, c₀, c, h₀, h, ⟨hr₀, hnamed, hl₀, hsafe, hrun', hl, hfails⟩,
    ⟨?_, hqueued _ hfails rfl hsolo, hrecovers⟩, by decide +kernel, l₂, halone,
    fun x hx => htaken x hx (hreads x hx)⟩
  rw [← hdoomed, halive]
  exact Bool.false_ne_true

/-- An event is sent, and a loop begins to forward one entry after the other. -/
def oneByOne (faults : Faults) : List Move :=
  .opens ⟨"", 1, ⟨.plaintext, 0⟩, 0, false, some ⟨true⟩⟩ .whole faults 64 ::
    (submitting 0 letter ++ .forwards 0 (.of .plaintext 1 30) true ::
      List.replicate 8 (.acts 1 (.step 0)))

/-- The sink accepts the event, and the walk cannot be committed. -/
def unpaid : List Move :=
  oneByOne { Faults.none with committing := some .mapFull } ++ .acts 1 (.answer .accepted) ::
    List.replicate 4 (.acts 1 (.step 0))

/-- The sink kills the thread. -/
def killed : List Move :=
  oneByOne .none ++ [.acts 1 (.answer .died), .acts 1 (.step 0)]

/-- Whether a move is one of somebody who raises the flag. -/
def raisesFlag : Move → Bool
  | .raises _ | .stops _ _ => true
  | _ => false

/-- The sink has accepted an event, and its removal is not committed: the loop ends and raises the
    flag itself, though the store can be read and the entry is queued. And a sink that kills the
    thread ends the loop while the flag is down and the store can be read. -/
theorem ends_without_cause :
    let l := after anyMove .empty unpaid
    let l' := after anyMove .empty killed
    (Reached anyMove .empty l ∧ (∀ m ∈ unpaid, raisesFlag m = false) ∧
      acceptedEvents l.history = [letter] ∧ l.files.table.size = 1 ∧
      (l.loop? 1 0).any Forwarder.hasEnded = true ∧
      (l.session? 0).map (fun s => (s.hub.flag, s.hub.store.closed, s.hub.faults)) =
        some (true, false, { Faults.none with committing := some .mapFull })) ∧
    (Reached anyMove .empty l' ∧ l'.files.table.size = 1 ∧
      (l'.loop? 1 0).any Forwarder.hasEnded = true ∧
      (l'.session? 0).map (fun s => (s.hub.flag, s.hub.store.closed, s.hub.faults)) =
        some (false, false, .none)) := by
  refine ⟨⟨Reached.after ?_, ?_, ?_, ?_, ?_, ?_⟩, ⟨Reached.after ?_, ?_, ?_, ?_⟩⟩
  all_goals decide +kernel

end Life

end Outbox
