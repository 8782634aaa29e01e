import Outbox.Proofs.Life.Books

namespace Outbox

/-!
# What the history makes of the entries

* `replay` — what commits and removals, one after another, make of the entries of a table.
* `Life.Reached.table_eq_replay` — the entries of a store are what its history makes of them.
* `Pass.settles` — a pass that has removed something, or is about to, and can only deliver.
* `Pass.Step.settles_of_removal`, `Pass.delivers_of_settles` — whoever removes an entry comes to
  this, and goes on until it has delivered.
* `Life.outcomesOf` — what the passes of one thread come to in a run.
* `Life.Completes` — what the threads of a session remove in a run is removed by passes that then
  deliver; `Life.completes_of_run` says that this is so where all of them have ended.
-/

/-! ### Replaying a history -/

/-- What an occurrence makes of the entries. -/
def Occurrence.apply (t : Table) : Occurrence → Table
  | committed _ x => t.insert x.key x.value
  | removed _ x => t.erase x.key
  | sent _ | confirmed _ | accepted _ _ _ => t

/-- What a history makes of the entries. -/
def replay (t : Table) (history : List Occurrence) : Table := history.foldl Occurrence.apply t

variable {t : Table} {history news : List Occurrence}

theorem replay_append (t : Table) (history news : List Occurrence) :
    replay t (history ++ news) = replay (replay t history) news :=
  List.foldl_append

/-- Removing what is missing afterwards leads from the entries before to those after. -/
theorem replay_removals (c : Cipher) {before after : Table}
    (hsub : ∀ x ∈ after.toList, x ∈ before.toList) :
    replay before (Job.removals c before after) = after := by
  have hfold : ∀ (xs : List Entry) (u : Table),
      replay u (xs.map (.removed c)) = Table.eraseAll (xs.map Entry.key) u := by
    intro xs
    induction xs with
    | nil => exact fun u => rfl
    | cons x xs ih => exact fun u => ih (u.erase x.key)
  unfold Job.removals
  rw [hfold]
  refine Table.ext_get? fun k => ?_
  rw [Table.get?_eraseAll]
  by_cases hk : k ∈ (before.toList.filter fun x => x ∉ after.toList).map Entry.key
  · rw [if_pos hk]
    obtain ⟨x, hx, rfl⟩ := List.mem_map.1 hk
    rw [List.mem_filter, decide_eq_true_eq] at hx
    -- no other entry could be under the key afterwards
    refine (Table.get?_eq_none_iff.2 fun y hy hyx => hx.2 ?_).symm
    rwa [← Table.eq_of_key_eq (hsub y hy) hx.1 hyx]
  · rw [if_neg hk]
    have hiff : ∀ v, before.get? k = some v ↔ after.get? k = some v := by
      intro v
      rw [Table.get?_eq_some_iff, Table.get?_eq_some_iff]
      refine ⟨fun hx => ?_, hsub _⟩
      by_contra hgone
      exact hk (List.mem_map.2 ⟨⟨k, v⟩, List.mem_filter.2 ⟨hx, decide_eq_true hgone⟩, rfl⟩)
    exact Option.ext fun v => hiff v

/-- A step makes of the entries what it tells. -/
theorem Job.Step.replays {ended : Bool} {past : Nat} {s s' : Session} {how : Act} {j j' : Job}
    (h : Step ended past s how j j' s' news) (hf : j.Fits s.hub.store.files history) :
    replay s.hub.store.table news = s'.hub.store.table := by
  cases h with
  | forward hw => exact replay_removals _ fun x hx => hw.mem_of_mem hf.1 hx
  | answer hw =>
    rw [show _ = s.hub.store.table from hw.table_eq]
    unfold acceptance
    split <;> rfl
  | @call now e sub sub' h hs same =>
    rw [show h.store.table = _ from congrArg Store.table same]
    unfold confirmation
    split <;> rfl
  | task hs =>
    rcases hs.landing_cases hf with ⟨hl, htable⟩ | ⟨x, hl, -, htable⟩
    · rw [hl, show _ = s.hub.store.table from htable]
      rfl
    · rw [hl, show _ = s.hub.store.table.insert x.key x.value from htable]
      rfl
  | drop => rfl
  | stop same => exact (congrArg Files.table same).symm

/-- The entries of a store are what its history makes of those that were there. -/
theorem Life.Reached.table_eq_replay {allowed : Life → Move → Prop} {l : Life}
    (h : Reached allowed t l) : l.files.table = replay t l.history := by
  induction h with
  | new => rfl
  | @move l l' m before ok hm ih =>
    cases m with
    | sends n p nonce e =>
      obtain ⟨l₁, h₁, rfl⟩ := Option.map_eq_some_iff.1 hm
      obtain ⟨-, rfl⟩ := enlist_cases h₁
      show l.files.table = replay t (l.history ++ [.sent e])
      rw [replay_append, ← ih]
      rfl
    | acts i how =>
      obtain @⟨a, s, s', j, news, ha, hs, hstep⟩ := act_cases hm
      have htable := table_of_session hs
      have hreplays := hstep.replays (before.sound.fits_session ha hs)
      show s'.hub.store.table = replay t (l.history ++ news)
      rw [replay_append, ← ih, ← htable, hreplays]
    | forwards n s loops =>
      obtain ⟨-, rfl⟩ := enlist_cases hm
      exact ih
    | stops n graceful =>
      obtain ⟨-, rfl⟩ := enlist_cases hm
      exact ih
    | raises n =>
      obtain ⟨s, -, rfl⟩ := Option.map_eq_some_iff.1 hm
      exact ih
    | spoils n faults =>
      obtain ⟨s, -, rfl⟩ := Option.map_eq_some_iff.1 hm
      exact ih
    | opens queue style faults mapSize => cases hm; exact ih
    | crashes => cases hm; exact ih

/-! ### Passes that have removed something -/

/-- A walk whose deletions are committed has visited something. -/
def WalkOp.hasVisited : WalkOp → Bool
  | releasing visited _ | tallying visited _ | done (.ok ⟨visited, _, true⟩) => 0 < visited
  | _ => false

namespace Pass

/-- Whether a pass has removed something, or is about to, and can only deliver. -/
def settles : Pass → Bool
  | removing _ _ _ _ => true
  | walking op _ _ refused => op.hasVisited && !refused
  | _ => false

/-- What a walk deletes it has visited, and it is aborted exactly if the sink has refused. -/
def Walks : Pass → Prop
  | walking op delivered dropped refused =>
    op.Exact (delivered + dropped) ∧ refused = op.isAborted
  | offering op _ delivered dropped => op.Exact (delivered + dropped)
  | _ => True

variable {s : Forwarder.Settings} {a : Account} {f : Files} {h h' : Hub} {p p' : Pass}
  {store store' : Store} {op : WalkOp} {x : Entry}

theorem walks_scanned (c : Cipher) (style : SinkStyle) (xs : List Entry) :
    (scanned c style xs).1.Walks := by
  unfold scanned
  split
  · trivial
  · dsimp only
    split <;> trivial

/-- An answer to a walk counts what it visits and what it deletes. -/
theorem exact_answer {n : Nat} (store : Store) (hx : op.offered? = some x) (ho : op.Exact n) :
    (op.answer .stop store).1.Exact n ∧ (op.answer .stop store).1.isAborted = false ∧
      (op.answer .delete store).1.Exact (n + 1) ∧ (op.answer .delete store).1.isAborted = false ∧
      (op.answer .abort store).1.Exact n ∧ (op.answer .abort store).1.isAborted = true := by
  obtain ⟨rest, visited, deleted, rfl⟩ := WalkOp.offered?_eq_some_iff.1 hx
  obtain ⟨rfl, hle⟩ := ho
  exact ⟨⟨rfl, Nat.le_succ_of_le hle⟩, rfl, ⟨rfl, Nat.succ_le_succ hle⟩, rfl, trivial, rfl⟩

theorem Step.walks (hp : Step s h p p' store) (hw : p.Walks) (hf : p.Fits s a h.store.files) :
    p'.Walks := by
  cases hp with
  | scan => exact walks_scanned _ _ _
  | walk =>
    unfold Faults.walk
    split <;> exact ⟨by trivial, rfl⟩
  | stop hx =>
    obtain ⟨hexact, haborted, -⟩ := exact_answer h.store hx hw.1
    exact ⟨hexact, haborted.symm⟩
  | offer => exact hw.1
  | drop hx =>
    obtain ⟨-, -, hexact, haborted, -⟩ := exact_answer h.store hx hw.1
    exact ⟨hexact, haborted.symm⟩
  | walkOn hx ho =>
    obtain ⟨hexact, hbefore, hafter, -⟩ := hw.1.step hf.1 ho
    exact ⟨hexact, (hw.2.trans hbefore).trans hafter.symm⟩
  | walked hr hover => rcases hover with rfl | ⟨r, rfl⟩ <;> trivial
  | _ => trivial

theorem Reply.walks {r : SinkAnswer} {events : List Event}
    (hp : Reply store r events p p' store') (hw : p.Walks) (hf : p.Fits s a f) : p'.Walks := by
  cases hp with
  | @take op event delivered dropped =>
    obtain ⟨seen, x, hx, -⟩ := hf
    obtain ⟨-, -, hexact, haborted, -⟩ := exact_answer store hx hw
    rw [Nat.add_right_comm] at hexact
    exact ⟨hexact, haborted.symm⟩
  | restore =>
    obtain ⟨seen, x, hx, -⟩ := hf
    obtain ⟨-, -, -, -, hexact, haborted⟩ := exact_answer store hx hw
    exact ⟨hexact, haborted.symm⟩
  | _ => trivial

/-- Who removes an entry can only deliver. -/
theorem Step.settles_of_removal (hp : Step s h p p' store) (hw : p.Walks)
    (hf : p.Fits s a h.store.files) (hx : x ∈ h.store.table.toList)
    (hgone : x ∉ store.table.toList) : p'.settles = true := by
  have hsub : ∀ y ∈ store.table.toList, y ∈ h.store.table.toList := fun y hy =>
    hp.mem_of_mem hf hy
  -- the table has become smaller
  have hsize : store.table.size < h.store.table.size := by
    refine Nat.lt_of_not_le fun hle => hgone ?_
    exact ((List.subperm_of_subset (Table.nodup _) hsub).perm_of_length_le hle).mem_iff.2 hx
  have hsame : store.table = h.store.table → p'.settles = true := by
    intro heq
    rw [heq] at hgone
    exact absurd hx hgone
  cases hp with
  | remove => rfl
  | walkOn hoffered ho =>
    obtain ⟨hexact, haborted⟩ := hw
    cases WalkOp.step_cases ho with
    | commitNothing works =>
      have := StoreOp.size_of_walk hf.1
      omega
    | @commit visited deleted works nonzero =>
      obtain ⟨hdeleted, hle⟩ : deleted = _ ∧ _ ≤ visited := hexact
      have hvisited : 0 < visited := by omega
      rw [haborted]
      exact Bool.and_eq_true_iff.2 ⟨decide_eq_true hvisited, rfl⟩
    | _ => exact absurd hx hgone
  | stop | drop => exact hsame (WalkOp.table_answer _ _ _)
  | recountOn ho => exact hsame (RecountOp.table_step ho)
  | _ => exact absurd hx hgone

/-- A pass that can only deliver is not over. -/
theorem live_of_settles (hp : p.settles = true) : p.isOver = false := by
  cases p with
  | removing => rfl
  | walking => rfl
  | _ => cases hp

/-- A pass that can only deliver does not call the sink any more. -/
theorem call?_of_settles (hp : p.settles = true) : p.call? = none := by
  cases p with
  | removing => rfl
  | walking => rfl
  | _ => cases hp

/-- A pass that can only deliver goes on to do so. -/
theorem delivers_of_settles {y : Pass × Hub} (hp : p.settles = true) (hs : p.step s h = some y) :
    y.1.settles = true ∧ y.1.outcome? = none ∨
      ∃ delivered dropped, y.1.outcome? = some (.delivered delivered dropped) := by
  cases turn_of_step hs with
  | remove => exact .inl ⟨rfl, rfl⟩
  | @removed r expected delivered dropped =>
    cases r <;> exact .inr ⟨delivered, dropped, rfl⟩
  | @look op x _ _ _ hx =>
    -- a walk that offers an entry has not been committed
    obtain ⟨hvisited, -⟩ := Bool.and_eq_true_iff.1 hp
    obtain ⟨rest, visited, deleted, rfl⟩ := WalkOp.offered?_eq_some_iff.1 hx
    cases hvisited
  | @walkOn op _ _ _ _ _ hx ho =>
    obtain ⟨hvisited, -⟩ := Bool.and_eq_true_iff.1 hp
    cases op with
    | releasing visited deleted => cases ho; exact .inl ⟨hp, rfl⟩
    | tallying visited deleted => cases ho; exact .inl ⟨hp, rfl⟩
    | done r => cases ho
    | _ => cases hvisited
  | @walked r delivered dropped refused =>
    obtain ⟨hvisited, hrefused⟩ := Bool.and_eq_true_iff.1 hp
    obtain rfl : refused = false := by simpa using hrefused
    cases r with
    | error fault => cases hvisited
    | ok summary =>
      obtain ⟨visited, deleted, committed⟩ := summary
      cases committed with
      | false => cases hvisited
      | true =>
        have hvisited : visited ≠ 0 := Nat.ne_of_gt (of_decide_eq_true hvisited)
        refine .inr ⟨delivered, dropped, ?_⟩
        show (walked delivered dropped false h (.ok ⟨visited, deleted, true⟩)).1.outcome? = _
        simp only [walked, Bool.false_eq_true, if_false, if_neg hvisited]
        rfl
  | _ => cases hp

end Pass

/-! ### Threads -/

namespace Scenario.Work

variable {w w' : Work} {h : Hub} {a : Account} {f : Files} {store store' : Store} {x : Entry}

/-- What the walk of a thread deletes it has visited. -/
def Walks (w : Work) : Prop := ∀ p, w.pass? = some p → p.Walks

theorem Step.walks (hw : Step h w w' store) (hwalks : w.Walks) (hf : w.Fits a h.store.files) :
    w'.Walks := by
  intro q hq
  cases hw with
  | goesOn hs hp hp' hstep =>
    obtain rfl := Option.some.inj (hp'.symm.trans hq)
    exact hstep.walks (hwalks _ hp) (hf _ hp)
  | turns hs hover fresh same =>
    rw [fresh q hq]
    trivial

theorem Reply.walks {r : SinkAnswer} {events : List Event} (hw : Reply r events store w w' store')
    (hwalks : w.Walks) (hf : w.Fits a f) : w'.Walks := by
  obtain ⟨hs, hp, hp', hreply⟩ := hw
  intro q hq
  obtain rfl := Option.some.inj (hp'.symm.trans hq)
  exact hreply.walks (hwalks _ hp) (hf _ hp)

/-- Who removes an entry can only deliver. -/
theorem Step.settles_of_removal {c : Cipher} (hw : Step h w w' store) (hwalks : w.Walks)
    (hf : w.Fits a h.store.files)
    (hx : .removed c x ∈ Job.removals w.settings.cipher h.store.table store.table) :
    w'.pass?.any Pass.settles = true := by
  obtain ⟨y, hy, hgone, -⟩ := Job.exists_of_mem_removals hx
  cases hw with
  | goesOn hs hp hp' hstep =>
    rw [hp']
    exact hstep.settles_of_removal (hwalks _ hp) (hf _ hp) hy hgone
  | turns hs hover fresh same =>
    refine absurd hy ?_
    rw [← same]
    exact hgone

end Scenario.Work

namespace Job

/-- Whether the pass of an actor has removed something, or is about to, and can only deliver. -/
def settles (j : Job) : Bool := j.pass?.any Pass.settles

/-- What the walk of an actor deletes it has visited. -/
def Walks : Job → Prop
  | forwarding w _ => w.Walks
  | _ => True

variable {ended died : Bool} {past : Nat} {s s' : Session} {how : Act} {j j' : Job}

/-- A thread whose pass is under way has not ended. -/
theorem isForwarding_of_settles (hj : j.settles = true) : j.isForwarding = true := by
  obtain ⟨p, hp, hsettles⟩ := (Option.any_eq_true _ _).1 hj
  cases j with
  | forwarding w a =>
    exact isForwarding_of_live (Scenario.Work.hasEnded_of_pass hp (Pass.live_of_settles hsettles))
  | sending e sub => cases hp
  | stopping graceful stop => cases hp

theorem Stride.walks (h : Stride ended died past s how j j' s' news) (hj : j.Walks)
    (hf : j.Fits s.hub.store.files history) : j'.Walks := by
  cases h with
  | loop hstep => exact (Scenario.Work.loop_step_cases hstep).walks hj hf.1
  | @pass now c p p' a h hp =>
    intro q hq
    cases hq
    exact (Pass.step_cases hp).walks (hj p rfl) (hf.1 p rfl)
  | answer hc => exact (Scenario.Work.answer_cases hc _ _).walks hj hf.1
  | _ => trivial

/-- Who removes an entry can only deliver. -/
theorem Stride.settles_of_removal {c : Cipher} {x : Entry}
    (h : Stride ended died past s how j j' s' news) (hj : j.Walks)
    (hf : j.Fits s.hub.store.files history) (hx : .removed c x ∈ news) : j'.settles = true := by
  cases h with
  | loop hstep => exact (Scenario.Work.loop_step_cases hstep).settles_of_removal hj hf.1 hx
  | @pass now c p p' a h hp =>
    obtain ⟨y, hy, hgone, -⟩ := exists_of_mem_removals hx
    exact (Pass.step_cases hp).settles_of_removal (hj p rfl) (hf.1 p rfl) hy hgone
  | answer => cases (of_mem_acceptance hx).2
  | call => cases (of_mem_confirmation hx).2
  | @task e sub sub' =>
    obtain ⟨y, -, hy⟩ := Option.map_eq_some_iff.1 (Option.mem_toList.1 hx)
    cases hy
  | drop => cases hx
  | stop => cases hx

/-- A thread whose pass can only deliver goes on to do so. -/
theorem Stride.delivers_of_settles (h : Stride ended died past s how j j' s' news)
    (hj : j.settles = true) :
    j'.settles = true ∧ j'.outcome? = none ∨
      ∃ delivered dropped, j'.outcome? = some (.delivered delivered dropped) := by
  cases h with
  | @loop now f f' a h hf =>
    obtain ⟨settings, nextPass, idle, phase⟩ := f
    cases phase with
    | passing p =>
      have hp : p.settles = true := hj
      cases p with
      | removing | walking =>
        obtain ⟨y, hs, heq⟩ := Option.map_eq_some_iff.1 hf
        cases heq
        exact Pass.delivers_of_settles hp hs
      | _ => cases hp
    | _ => cases hj
  | pass hp => exact Pass.delivers_of_settles hj hp
  | answer hc =>
    obtain ⟨p, hp, hcall, -⟩ := Scenario.Work.exists_pass_of_call hc
    obtain ⟨q, hq, hsettles⟩ := (Option.any_eq_true _ _).1 hj
    obtain rfl := Option.some.inj (hp.symm.trans hq)
    exact absurd ((Pass.call?_of_settles hsettles).symm.trans hcall) nofun
  | _ => cases hj

end Job

/-! ### Runs -/

/-- The actor that acts. -/
def Move.actor? : Move → Option Nat
  | acts i _ => some i
  | _ => none

namespace Life

/-- What the passes of an actor come to in a run, one after another. -/
def outcomesOf (l : Life) (i : Nat) : List Move → List Outcome
  | [] => []
  | m :: ms =>
    match l.move m with
    | some l => (if m.actor? = some i then l.outcome? m else none).toList ++ l.outcomesOf i ms
    | none => []

/-- Whatever the threads of a session remove in a run is removed by passes that then deliver: this
    is what the passes of the thread come to next. -/
def Completes (l : Life) (ms : List Move) (n : Nat) : Prop :=
  ∀ ms₁ k how ms₂ l₁ l₂ c x, ms = ms₁ ++ .acts k how :: ms₂ →
    l.run (lasting anyMove) ms₁ = some l₁ → l₁.move (.acts k how) = some l₂ →
    (∃ j, l₁.actors[k]? = some ⟨n, j⟩) → .removed c x ∈ l₂.history.drop l₁.history.length →
    ∃ delivered dropped, (l₂.outcomesOf k ms₂).head? = some (.delivered delivered dropped)

variable {allowed : Life → Move → Prop} {l l' : Life} {m : Move} {i n : Nat} {j : Job}

theorem Reached.walks (h : Reached allowed t l) (ha : l.actors[i]? = some ⟨n, j⟩) : j.Walks := by
  induction h generalizing i n j with
  | new => cases ha
  | @move l l' m before ok hm ih =>
    obtain ⟨-, ⟨⟨k, job⟩, s, s', hb, hs, -, hbefalls⟩ | ⟨-, hj, -⟩⟩ :=
      (moved_of_move hm).befallen_or_new ha before.session_of_actor
    · cases hbefalls with
      | acts hstep => exact hstep.walks (ih hb) (before.sound.fits hb)
      | _ => exact ih hb
    · cases hj with
      | forwards n s loops =>
        cases loops with
        | true => exact nofun
        | false =>
          intro p hp
          cases hp
          trivial
      | _ => trivial

variable [∀ l m, Decidable (allowed l m)] {ms : List Move}

/-- A pass that can only deliver has done so when its thread has ended. -/
theorem delivers_of_run (hrun : l.run (lasting allowed) ms = some l')
    (hr : Reached allowed t l) (ha : l.actors[i]? = some ⟨n, j⟩) (hj : j.settles = true)
    (hended : l'.hasEnded n = true) :
    ∃ delivered dropped, (l.outcomesOf i ms).head? = some (.delivered delivered dropped) := by
  induction ms generalizing l j with
  | nil =>
    cases hrun
    have hover : j.isForwarding = false :=
      hasEnded_eq_true_iff.1 hended _ (List.mem_of_getElem? ha) rfl
    rw [Job.isForwarding_of_settles hj] at hover
    cases hover
  | cons m ms ih =>
    obtain ⟨l₁, ok, hm, hrest⟩ := run_cons.1 hrun
    obtain ⟨s, hs⟩ := hr.session_of_actor ha
    obtain ⟨⟨n', j₁⟩, s', hb, -, hbefalls⟩ := (moved_of_move hm).befalls ok.2 ha hs
    obtain rfl : n' = n := hbefalls.session
    have hhead : l.outcomesOf i (m :: ms) =
        (if m.actor? = some i then l₁.outcome? m else none).toList ++ l₁.outcomesOf i ms := by
      show (match l.move m with | some l => _ | none => []) = _
      rw [hm]
    rw [hhead]
    -- unless the thread itself goes on, nothing comes of its pass
    have hstay : m.actor? ≠ some i → j₁ = j → ∃ delivered dropped,
        ((if m.actor? = some i then l₁.outcome? m else none).toList ++
          l₁.outcomesOf i ms).head? = some (.delivered delivered dropped) := by
      rintro hne rfl
      rw [if_neg hne]
      exact ih hrest (hr.move ok.1 hm) hb hj
    cases hbefalls with
    | spared hne =>
      refine hstay (fun heq => ?_) rfl
      cases m with
      | acts k how => cases heq; exact hne how rfl
      | _ => cases heq
    | @acts how _ _ _ hstep =>
      have houtcome : l₁.outcome? (.acts i how) = j₁.outcome? := by
        show (l₁.actors[i]?.bind fun a => a.job.outcome?) = _
        rw [hb]
        rfl
      rw [if_pos (show (Move.acts i how).actor? = some i from rfl), houtcome]
      rcases hstep.delivers_of_settles hj with ⟨hsettles, hnone⟩ | ⟨delivered, dropped, hsome⟩
      · rw [hnone]
        exact ih hrest (hr.move ok.1 hm) hb hsettles
      · rw [hsome]
        exact ⟨delivered, dropped, rfl⟩
    | other hk => exact hstay (fun heq => hk (Option.some.inj heq)) rfl
    | raised => exact hstay nofun rfl
    | spoiled faults => exact hstay nofun rfl

/-- Where all threads of a session have ended at the end of a run, what they have removed in it has
    been removed by passes that have delivered. -/
theorem completes_of_run (hr : Reached allowed t l) (hrun : l.run (lasting allowed) ms = some l')
    (hended : l'.hasEnded n = true) : l.Completes ms n := by
  rintro ms₁ k how ms₂ l₁ l₂ c x rfl hfirst hm ⟨j, ha⟩ hx
  obtain ⟨l₃, hrun₁, hrun₂⟩ := run_append.1 hrun
  obtain rfl : l₃ = l₁ := Option.some.inj
    ((run_mono (fun _ _ ok => ⟨trivial, ok.2⟩) hrun₁).symm.trans hfirst)
  obtain ⟨l₄, ok, hm', hrest⟩ := run_cons.1 hrun₂
  obtain rfl : l₄ = l₂ := Option.some.inj (hm'.symm.trans hm)
  have hr₁ : Reached allowed t l₃ := hr.later hrun₁
  have hr₂ : Reached allowed t l₄ := hr₁.move ok.1 hm
  cases moved_of_move hm with
  | enlists hj => cases hj
  | @acts _ _ a s s' j' news hb hs hstep =>
    obtain rfl : a = ⟨n, j⟩ := Option.some.inj (hb.symm.trans ha)
    have hnews : .removed c x ∈ news := by
      rwa [show (l₃.history ++ news).drop l₃.history.length = news from List.drop_left] at hx
    have hset : (l₃.actors.set k ⟨n, j'⟩)[k]? = some ⟨n, j'⟩ :=
      List.getElem?_set_self (List.getElem?_eq_some_iff.1 ha).1
    exact delivers_of_run hrest hr₂ hset
      (hstep.settles_of_removal (hr₁.walks ha) (hr₁.sound.fits ha) hnews) hended

end Life

end Outbox
