import Outbox.Proofs.Forwarder.Settle
import Outbox.Proofs.Life.Unhindered
import Outbox.Proofs.Life.Counter
import Outbox.Proofs.Life.NoLoss

namespace Outbox

/-!
# What stays queued

What a pass that cannot remove anything leaves behind, and what becomes of it:

* `Pass.isIntact` — a pass has begun to read and has removed nothing, or could not.
* `Life.Reached.intact` — what such a pass has read is in the store, or something has been put under
  its key; so it is where one thread forwards at a time.
* `Settled` — the sink has accepted the event of an entry, a pass has removed it as unreadable, or
  something has been put under its key.
* `Life.Since` — every pass that is to remove something has begun after a moment.
* `Life.Since.stored_or_settled` — what is in the store then stays until it is settled anew.
-/

/-! ### Passes -/

namespace Pass

variable {s : Forwarder.Settings} {h : Hub} {p p' : Pass} {store : Store}

/-- Whether a pass could not remove what it has handed over. -/
def hasFailed : Pass → Bool
  | removing (.done (.error _)) _ _ _ | walking (.done (.error _)) _ _ _ => true
  | _ => false

/-- Whether a pass has begun to read and has removed nothing of it. -/
def isIntact (p : Pass) : Bool := p.owes || p.hasFailed

/-- A step leaves the entries as they are, or it removes what the pass owes to be removed. -/
theorem Step.table_eq_or_paid (hp : Step s h p p' store) :
    store.table = h.store.table ∨ p.owes = true ∧ p'.isIntact = false := by
  cases hp with
  | remove ho =>
    cases RemovalOp.step_cases ho with
    | commitNothing | commit => exact .inr ⟨rfl, rfl⟩
    | _ => exact .inl rfl
  | walkOn hx ho =>
    cases WalkOp.step_cases ho with
    | commitNothing | commit => exact .inr ⟨rfl, rfl⟩
    | _ => exact .inl rfl
  | stop | drop => exact .inl (WalkOp.table_answer _ _ _)
  | recountOn ho => exact .inl (RecountOp.table_step ho)
  | _ => exact .inl rfl

/-- A pass comes to owe something when it starts. -/
theorem Step.owes_before (hp : Step s h p p' store) (ho : p'.owes = true) :
    p.owes = true ∨ p = starting := by
  cases hp with
  | scanFails | scan | walk => exact .inr rfl
  | clear => exact .inl rfl
  | remove hop => cases RemovalOp.step_cases hop <;> first | exact .inl rfl | cases ho
  | stop hx | offer hx | drop hx => exact .inl (WalkOp.awaits_of_offered hx h.store).1
  | walkOn hx hop => cases WalkOp.step_cases hop <;> first | exact .inl rfl | cases ho
  | walked hr hover => rcases hover with rfl | ⟨r, rfl⟩ <;> cases ho
  | _ => cases ho

/-- A pass fails if it owed something, or when it starts. -/
theorem Step.isIntact_before (hp : Step s h p p' store) (hi : p'.isIntact = true) :
    p.isIntact = true ∨ p = starting := by
  rcases Bool.or_eq_true_iff.1 hi with ho | hfailed
  · exact (hp.owes_before ho).imp_left fun ho => Bool.or_eq_true_iff.2 (.inl ho)
  · cases hp with
    | scanFails | scan | walk => exact .inr rfl
    | clear => exact .inl rfl
    | remove hop => cases RemovalOp.step_cases hop <;> first | exact .inl rfl | cases hfailed
    | stop hx | drop hx =>
      obtain ⟨rest, visited, deleted, rfl⟩ := WalkOp.offered?_eq_some_iff.1 hx
      cases hfailed
    | walkOn hx hop => cases WalkOp.step_cases hop <;> first | exact .inl rfl | cases hfailed
    | walked hr hover => rcases hover with rfl | ⟨r, rfl⟩ <;> cases hfailed
    | _ => cases hfailed

/-- The sink answers a pass that owes the removal of what it hands over. -/
theorem Reply.owes_before {r : SinkAnswer} {events : List Event} {store' : Store} {a : Account}
    {f : Files} (hp : Reply store r events p p' store') (hf : p.Fits s a f) : p.owes = true := by
  cases hp with
  | take | restore | fall =>
    obtain ⟨seen, x, hx, -⟩ := hf
    exact (WalkOp.awaits_of_offered hx store).1
  | _ => rfl

end Pass

/-! ### Threads -/

namespace Scenario.Work

variable {w w' : Work} {h : Hub} {a : Account} {store : Store} {p : Pass}

/-- Whether the pass of a thread has begun to read and has removed nothing of it. -/
def isIntact (w : Work) : Bool :=
  match w.pass? with
  | some p => p.isIntact
  | none => false

theorem isIntact_of_pass (hp : w.pass? = some p) : w.isIntact = p.isIntact := by
  unfold isIntact
  rw [hp]

theorem isIntact_of_fresh (fresh : ∀ p, w.pass? = some p → p = .starting) : w.isIntact = false := by
  cases hp : w.pass? with
  | none =>
    unfold isIntact
    rw [hp]
  | some p =>
    rw [isIntact_of_pass hp, fresh p hp]
    rfl

theorem isIntact_of_owes (ho : w.owes = true) : w.isIntact = true := by
  cases hp : w.pass? with
  | none =>
    unfold owes at ho
    rw [hp] at ho
    cases ho
  | some p =>
    rw [owes_of_pass hp] at ho
    rw [isIntact_of_pass hp]
    exact Bool.or_eq_true_iff.2 (.inl ho)

/-- A thread whose pass is intact has not ended. -/
theorem live_of_isIntact (hi : w.isIntact = true) : w.hasEnded = false := by
  cases w with
  | pass s p => cases p <;> first | rfl | cases hi
  | loop f =>
    obtain ⟨settings, nextPass, idle, phase⟩ := f
    cases phase <;> first | rfl | cases hi

/-- An account begins when its pass starts, and goes on with it. -/
theorem since_account (h : Hub) (now : Nat) (a : Account) (w : Work) :
    (w.account h now a).since = a.since ∨ (w.account h now a).since = now := by
  cases hp : w.pass? with
  | none =>
    unfold account
    rw [hp]
    exact .inl rfl
  | some p =>
    rw [account_of_pass hp]
    cases p <;> first | exact .inl rfl | exact .inr rfl

/-- A thread that owes something after a step has owed it before, or begins to owe it now. -/
theorem Step.owes_before (hw : Step h w w' store) (ho : w'.owes = true) (now : Nat) (a : Account) :
    w.owes = true ∨ (w.account h now a).since = now := by
  cases hw with
  | goesOn hs hp hp' hstep =>
    rw [owes_of_pass hp'] at ho
    rw [owes_of_pass hp, account_of_pass hp]
    refine (hstep.owes_before ho).imp_right ?_
    rintro rfl
    rfl
  | turns hs hover fresh same =>
    rw [owes_of_fresh fresh] at ho
    cases ho

/-- A step of a thread that owes nothing leaves the entries as they are. -/
theorem Step.owes_of_table_ne (hw : Step h w w' store) (hne : store.table ≠ h.store.table) :
    w.owes = true := by
  cases hw with
  | goesOn hs hp hp' hstep =>
    rw [owes_of_pass hp]
    exact (hstep.table_eq_or_paid.resolve_left hne).1
  | turns hs hover fresh same =>
    rw [same] at hne
    exact absurd rfl hne

/-- What the pass of a thread has read is in the store as long as nothing of it is removed, but for
    what was missing before. -/
theorem Step.intact (hw : Step h w w' store) (hf : w.Fits a h.store.files)
    (hi : w'.isIntact = true) (now : Nat) {x : Entry} (hx : x ∈ (w.account h now a).read) :
    store.table = h.store.table ∧
      (x ∈ h.store.table.toList ∨
        w.isIntact = true ∧ x ∈ a.read ∧ (w.account h now a).since = a.since) := by
  cases hw with
  | @goesOn p p' hs hp hp' hstep =>
    rw [isIntact_of_pass hp'] at hi
    rw [account_of_pass hp] at hx
    rw [isIntact_of_pass hp, account_of_pass hp]
    refine ⟨hstep.table_eq_or_paid.resolve_right fun hpaid => ?_, ?_⟩
    · rw [hpaid.2] at hi
      cases hi
    · rcases List.mem_append.1 hx with hx | hx
      · -- a pass that starts has read nothing
        right
        rcases hstep.isIntact_before hi with hbefore | rfl
        · cases p <;> first | exact ⟨hbefore, hx, rfl⟩ | cases hbefore
        · cases hx
      · exact .inl ((hf p hp).mem_reads hx)
  | turns hs hover fresh same =>
    rw [isIntact_of_fresh fresh] at hi
    cases hi

/-- The sink answers a thread that owes the removal of what it hands over. -/
theorem Reply.owes_before {r : SinkAnswer} {events : List Event} {store' : Store} {f : Files}
    (hw : Reply r events store w w' store') (hf : w.Fits a f) : w.owes = true := by
  obtain ⟨hs, hp, hp', hreply⟩ := hw
  rw [owes_of_pass hp]
  exact hreply.owes_before (hf _ hp)

end Scenario.Work

/-! ### What becomes of an entry -/

/-- Something has been put under the key of an entry. -/
def PutAgain (news : List Occurrence) (x : Entry) : Prop :=
  ∃ e y, .committed e y ∈ news ∧ y.key = x.key

/-- The sink has accepted the event of an entry, or a pass has removed it as unreadable, or
    something has been put under its key. -/
def Settled (news : List Occurrence) (x : Entry) : Prop :=
  Taken news x ∨ Discarded news x ∨ PutAgain news x

variable {history news more : List Occurrence} {x : Entry}

theorem PutAgain.mono (h : PutAgain news x) : PutAgain (news ++ more) x := by
  obtain ⟨e, y, hy, hk⟩ := h
  exact ⟨e, y, List.mem_append_left _ hy, hk⟩

theorem Settled.mono (h : Settled news x) : Settled (news ++ more) x :=
  h.imp Taken.mono (Or.imp Discarded.mono PutAgain.mono)

/-- When nothing waits, what a pass has read and could open has been accepted since it began. -/
theorem Account.Sound.taken {a : Account} {c : Cipher} {t : Table}
    (hs : a.Sound c t (history.drop a.since)) (hw : a.waiting = []) (hx : x ∈ a.read)
    (hreads : c.reads x = true)
    (hopens : ∀ c entries events, .accepted c entries events ∈ history → Opens c entries events) :
    Taken (history.drop a.since) x := by
  obtain ⟨-, ⟨fault, ho⟩ | ⟨event, entries, events, -, ho, hin, hevent, hacc⟩⟩ := hs.forwarded hw hx
  · rw [Cipher.not_reads_of_open ho] at hreads
    cases hreads
  · have hopens := hopens c entries events (List.mem_of_mem_drop hacc)
    exact ⟨c, entries, events, event, hacc, hopens, hin, hevent, ho⟩

/-- What a pass removes that has begun after a moment has been settled since then. -/
theorem Account.Sound.settled {a : Account} {c : Cipher} {t : Table} {past : Nat}
    (hs : a.Sound c t (history.drop a.since)) (hw : a.waiting = []) (hpast : past ≤ a.since)
    (hx : x ∈ t.toList) (hk : x.key ∈ a.read.map Entry.key)
    (hopens : ∀ c entries events, .accepted c entries events ∈ history → Opens c entries events)
    (hn : .removed c x ∈ news) : Settled (history.drop past ++ news) x := by
  have hsub : history.drop a.since ⊆ history.drop past :=
    (List.drop_sublist_drop_left _ hpast).subset
  -- either it was put again after the pass had read its key, or it is what the pass has read
  by_cases hrep : a.Replaced history x
  · obtain ⟨⟨e, he⟩, -⟩ := hrep
    exact .inr (.inr ⟨e, x, List.mem_append_left _ (hsub he), rfl⟩)
  · have hread : x ∈ a.read := ((hs.forwarded_iff hw hx hk).2 hrep).1
    cases ho : c.openEvent x.value with
    | error fault => exact .inr (.inl ⟨c, fault, List.mem_append_right _ hn, ho⟩)
    | ok event =>
      obtain ⟨c', entries, events, event', hacc, hrest⟩ :=
        hs.taken hw hread (Cipher.reads_of_open ho) hopens
      exact .inl ⟨c', entries, events, event', List.mem_append_left _ (hsub hacc), hrest⟩

namespace Job.Step

variable {ended : Bool} {how : Act} {s s' : Session} {past : Nat} {j : Job} {w : Scenario.Work}
  {a : Account}

/-- A pass that has removed nothing after a step has left the entries as they were; what it has read
    it had read before, or it is in the store. -/
theorem intact (h : Step ended past s how j (forwarding w a) s' news)
    (hf : j.Fits s.hub.store.files history) (hi : w.isIntact = true) (hx : x ∈ a.read) :
    s'.hub.store.table = s.hub.store.table ∧
      (x ∈ s.hub.store.table.toList ∨ ∃ w₀ a₀, j = forwarding w₀ a₀ ∧ w₀.isIntact = true ∧
        x ∈ a₀.read ∧ a.since = a₀.since) := by
  cases h with
  | forward hw live keeps =>
    obtain ⟨htable, hx⟩ := hw.intact hf.1 hi past hx
    refine ⟨htable, hx.imp_right ?_⟩
    rintro ⟨hi, hx, hsince⟩
    exact ⟨_, _, rfl, hi, hx, hsince⟩
  | @answer w₀ w a₀ h r events hw =>
    refine ⟨hw.table_eq, .inr ⟨_, _, rfl, ?_, ?_⟩⟩
    · exact Scenario.Work.isIntact_of_owes (hw.owes_before hf.1)
    · cases r <;> exact ⟨hx, rfl⟩

/-- Who owes the removal of something after a step has owed it before, or begins now. -/
theorem owes_before (h : Step ended past s how j (forwarding w a) s' news)
    (hf : j.Fits s.hub.store.files history) (ho : w.owes = true) :
    (∃ w₀ a₀, j = forwarding w₀ a₀ ∧ w₀.owes = true ∧ a.since = a₀.since) ∨ a.since = past := by
  cases h with
  | @forward now w₀ w a₀ h hw live keeps =>
    rcases Scenario.Work.since_account s.hub past a₀ w₀ with hsince | hsince
    · refine (hw.owes_before ho past a₀).imp_left fun ho => ?_
      exact ⟨_, _, rfl, ho, hsince⟩
    · exact .inr hsince
  | @answer w₀ w a₀ h r events hw =>
    refine .inl ⟨_, _, rfl, hw.owes_before hf.1, ?_⟩
    cases r <;> rfl

/-- What leaves the store is removed by a pass that owes its removal, or something is put under its
    key. -/
theorem leaves_or_putAgain (h : Step ended past s how j j' s' news)
    (hf : j.Fits s.hub.store.files history) (hx : x ∈ s.hub.store.table.toList)
    (hgone : x ∉ s'.hub.store.table.toList) :
    (∃ w a, j = forwarding w a ∧ w.owes = true ∧ .removed w.settings.cipher x ∈ news ∧
        a.waiting = [] ∧ x.key ∈ a.read.map Entry.key) ∨ PutAgain news x := by
  rcases h.leaves hf hx hgone with ⟨w, a, hj, hn, hwait, hkey⟩ | ⟨e, y, hy, hk, -⟩
  · left
    refine ⟨w, a, hj, ?_, hn, hwait, hkey⟩
    subst hj
    -- an entry has gone, so that the step was one of somebody who owed it
    have hne : s'.hub.store.table ≠ s.hub.store.table := by
      intro heq
      rw [heq] at hgone
      exact hgone hx
    cases h with
    | forward hw => exact hw.owes_of_table_ne hne
    | answer hw => exact absurd hw.table_eq hne
  · exact .inr ⟨e, y, hy, hk⟩

end Job.Step

namespace Life

variable {allowed : Life → Move → Prop} {t : Table} {l l' : Life} {m : Move}

/-- An actor that has not acted was there before, or has just begun to work. -/
theorem Moved.actor_cases (h : Moved l m l') (hm : ∀ k how, m ≠ .acts k how) {k n : Nat}
    {w : Scenario.Work} {a : Account} (hk : l'.actors[k]? = some ⟨n, .forwarding w a⟩) :
    l.actors[k]? = some ⟨n, .forwarding w a⟩ ∨ w.isIntact = false := by
  cases h with
  | enlists hj hn =>
    rcases getElem?_concat_cases hk with hk | ⟨-, heq⟩
    · exact .inl hk
    · cases heq
      cases hj with
      | forwards n s loops => cases loops <;> exact .inr rfl
  | acts hb hs hstep => exact absurd rfl (hm _ _)
  | crashes => cases hk
  | _ => exact .inl hk

/-- Only actors change the entries. -/
theorem Moved.table_eq (h : Moved l m l') (hm : ∀ k how, m ≠ .acts k how) :
    l'.files.table = l.files.table := by
  cases h with
  | acts hb hs hstep => exact absurd rfl (hm _ _)
  | _ => rfl

/-! ### What has been read and not removed -/

/-- What a pass has read that has removed nothing is in the store, or something has been put under
    its key since the pass began. -/
def Intact (l : Life) : Prop :=
  ∀ {i n : Nat} {w : Scenario.Work} {a : Account},
    l.actors[i]? = some ⟨n, .forwarding w a⟩ → w.isIntact = true → ∀ x ∈ a.read,
      x ∈ l.files.table.toList ∨ PutAgain (l.history.drop a.since) x

/-- While a thread forwards, an entry leaves the store by its own steps, or something is put under
    its key. -/
theorem Reached.mem_or_putAgain {i k n : Nat} {w : Scenario.Work} {a : Account} {b : Actor}
    {ended : Bool} {how : Act} {s s' : Session} {j : Job} (h : Reached solo t l)
    (hi : l.actors[i]? = some ⟨n, .forwarding w a⟩) (hlive : w.hasEnded = false) (hne : i ≠ k)
    (hb : l.actors[k]? = some b) (hs : l.session? b.session = some s)
    (hstep : Job.Step ended l.history.length s how b.job j s' news)
    (hx : x ∈ l.files.table.toList) : x ∈ s'.hub.store.table.toList ∨ PutAgain news x := by
  by_cases hgone : x ∈ s'.hub.store.table.toList
  · exact .inl hgone
  · right
    rw [← table_of_session hs] at hx
    refine (hstep.leaves_or_putAgain (h.sound.fits_session hb hs) hx hgone).resolve_left ?_
    rintro ⟨w', c, hj, howes, -⟩
    -- nobody else forwards
    have hidle : b.job.isForwarding = false :=
      h.isForwarding_eq_false hne hi hb (Job.isForwarding_of_live hlive)
    rw [hj, Job.isForwarding_of_live (Scenario.Work.live_of_owes howes)] at hidle
    cases hidle

/-- Where one thread forwards at a time, nothing is lost of what a pass has read, until the pass
    removes it. -/
theorem Reached.intact (h : Reached solo t l) : l.Intact := by
  induction h with
  | new => exact fun hi => by cases hi
  | @move l l' m before ok hm ih =>
    intro i n w a hi hw x hx
    have hkept : ∀ (news : List Occurrence) {c : Account}, c.since ≤ l.history.length →
        x ∈ l.files.table.toList ∨ PutAgain (l.history.drop c.since) x →
          x ∈ l.files.table.toList ∨ PutAgain ((l.history ++ news).drop c.since) x := by
      intro news c hsince hput
      rw [List.drop_append_of_le_length hsince]
      exact hput.imp_right PutAgain.mono
    -- only actors touch the store: the pass itself, or somebody who does not forward
    cases m with
    | acts k how =>
      have hact := hm
      obtain @⟨b, s, s', j, news, hb, hs, hstep⟩ := act_cases hact
      have htable := table_of_session hs
      rcases getElem?_set_cases hi with ⟨rfl, heq⟩ | ⟨hne, hi⟩
      · -- the pass itself goes on
        obtain ⟨_, job⟩ := b
        cases heq
        obtain ⟨hsame, hx | ⟨w₀, a₀, rfl, hw₀, hx₀, hsince⟩⟩ :=
          hstep.intact (before.sound.fits_session hb hs) hw hx
        · left
          show x ∈ s'.hub.store.table.toList
          rwa [hsame]
        · have hold := hkept news (before.sound.fits hb).2.1 (ih hb hw₀ x hx₀)
          rw [← htable, ← hsame, ← hsince] at hold
          exact hold
      · have hsince := (before.sound.fits hi).2.1
        rcases ih hi hw x hx with hin | hput
        · have hlive := Scenario.Work.live_of_isIntact hw
          rcases before.mem_or_putAgain hi hlive hne hb hs hstep hin with hin | hput
          · exact .inl hin
          · right
            show PutAgain ((l.history ++ news).drop a.since) x
            rw [List.drop_append_of_le_length hsince]
            obtain ⟨e, y, hy, hk⟩ := hput
            exact ⟨e, y, List.mem_append_right _ hy, hk⟩
        · right
          show PutAgain ((l.history ++ news).drop a.since) x
          rw [List.drop_append_of_le_length hsince]
          exact hput.mono
    | _ =>
      obtain ⟨news, hnews⟩ := history_of_move hm
      have hmoved := moved_of_move hm
      rw [hmoved.table_eq nofun, hnews]
      rcases hmoved.actor_cases nofun hi with hi | hfresh
      · exact hkept news (before.sound.fits hi).2.1 (ih hi hw x hx)
      · rw [hfresh] at hw
        cases hw

/-! ### What is in the store -/

/-- Every pass that is still to remove something has begun when so much had occurred. -/
def Since (past : Nat) (l : Life) : Prop :=
  ∀ {i n : Nat} {w : Scenario.Work} {a : Account},
    l.actors[i]? = some ⟨n, .forwarding w a⟩ → w.owes = true → past ≤ a.since

theorem Since.move {past : Nat} (hl : l.Since past) (h : Reached allowed t l)
    (hpast : past ≤ l.history.length) (hm : l.move m = some l') : l'.Since past := by
  intro i n w a hi ho
  cases m with
  | acts k how =>
    have hact := hm
    obtain @⟨b, s, s', j, news, hb, hs, hstep⟩ := act_cases hact
    rcases getElem?_set_cases hi with ⟨rfl, heq⟩ | ⟨-, hi⟩
    · obtain ⟨_, job⟩ := b
      cases heq
      rcases hstep.owes_before (h.sound.fits_session hb hs) ho with
        ⟨w₀, a₀, rfl, ho₀, hsince⟩ | hsince
      · rw [hsince]
        exact hl hb ho₀
      · rwa [hsince]
    · exact hl hi ho
  | _ =>
    rcases (moved_of_move hm).actor_cases nofun hi with hi | hfresh
    · exact hl hi ho
    · rw [Scenario.Work.isIntact_of_owes ho] at hfresh
      cases hfresh

/-- What leaves the store when every pass has begun after a moment has been settled since then. -/
theorem Since.settled {past : Nat} (hl : l.Since past) (h : Reached allowed t l)
    (hpast : past ≤ l.history.length) (hm : l.move m = some l') (hx : x ∈ l.files.table.toList) :
    x ∈ l'.files.table.toList ∨ Settled (l'.history.drop past) x := by
  cases m with
  | acts k how =>
    have hact := hm
    obtain @⟨b, s, s', j, news, hb, hs, hstep⟩ := act_cases hact
    have hfits := h.sound.fits_session hb hs
    have hrec : l.Record (fun _ => True) t := h.record fun _ _ _ _ _ => trivial
    rw [← table_of_session hs] at hx
    by_cases hgone : x ∈ s'.hub.store.table.toList
    · exact .inl hgone
    · right
      show Settled ((l.history ++ news).drop past) x
      rw [List.drop_append_of_le_length hpast]
      rcases hstep.leaves_or_putAgain hfits hx hgone with
        ⟨w, a, hj, ho, hn, hwait, hkey⟩ | ⟨e, y, hy, hk⟩
      · obtain ⟨_, job⟩ := b
        obtain rfl : job = _ := hj
        exact hfits.2.2.settled hwait (hl hb ho) hx hkey
          (fun c entries events hacc => (hrec.grounded _ hacc).2.1) hn
      · exact .inr (.inr ⟨e, y, List.mem_append_right _ hy, hk⟩)
  | _ =>
    left
    rwa [(moved_of_move hm).table_eq nofun]

/-- What is in the store when no pass is still to remove anything stays there until it is settled
    anew. -/
theorem Since.stored_or_settled [∀ l m, Decidable (allowed l m)] {ms : List Move}
    (hl : l.Since l.history.length) (h : Reached allowed t l)
    (hrun : l.run (lasting allowed) ms = some l') (hx : x ∈ l.files.table.toList) :
    x ∈ l'.files.table.toList ∨ Settled (l'.history.drop l.history.length) x := by
  -- the run is read from its end, with the moment from which every pass has begun
  have hboth : (l'.Since l.history.length ∧ l.history.length ≤ l'.history.length) ∧
      (x ∈ l'.files.table.toList ∨ Settled (l'.history.drop l.history.length) x) := by
    induction ms using List.reverseRecOn generalizing l' with
    | nil =>
      cases hrun
      exact ⟨⟨hl, Nat.le_refl _⟩, .inl hx⟩
    | append_singleton ms m ih =>
      obtain ⟨l₁, hrun₁, -, hm⟩ := run_concat.1 hrun
      obtain ⟨⟨hsince, hpast⟩, hx₁⟩ := ih hrun₁
      have hreached := h.later hrun₁
      obtain ⟨news, hnews⟩ := history_of_move hm
      refine ⟨⟨hsince.move hreached hpast hm, ?_⟩, ?_⟩
      · rw [hnews, List.length_append]
        exact Nat.le_add_right_of_le hpast
      · rcases hx₁ with hx₁ | hsettled
        · exact hsince.settled hreached hpast hm hx₁
        · right
          rw [hnews, List.drop_append_of_le_length hpast]
          exact hsettled.mono
  exact hboth.2

end Life

end Outbox
