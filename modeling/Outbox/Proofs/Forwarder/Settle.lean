import Outbox.Proofs.Forwarder.Work

namespace Outbox

/-!
# What a pass owes

A pass that has handed entries over owes their removal until it commits it:

* `RemovalOp.awaits`, `WalkOp.awaits` — whether an operation is still to be committed.
* `Pass.owes`, `Pass.owed` — whether a pass is still to remove what it hands over, and what that is.
* `Faults.SparesRemovals` — no removal fails.
* `Pass.Step.settles` — then a step leaves what is owed as it is, or removes what has been read.
* `Pass.Step.balance`, `Pass.Reply.owed_eq` — what is stored and not owed stays the same, and what
  the sink accepts is owed from then on.
-/

/-! ### Operations -/

/-- Nothing keeps a removal from being committed. -/
structure Faults.SparesRemovals (f : Faults) : Prop where
  removing : f.removing = .none
  removesNothing : f.removesNothing = false
  committing : f.committing = .none

theorem Faults.SparesRemovals.remove_eq {f : Faults} (h : f.SparesRemovals) (keys : List Bytes) :
    f.remove keys = .entering keys := by
  unfold Faults.remove
  rw [h.removing]
  dsimp only
  rw [if_neg (by rw [h.removesNothing]; exact Bool.false_ne_true)]

/-- Whether a removal is still to be committed. -/
def RemovalOp.awaits : RemovalOp → Bool
  | entering _ | locking _ | erasing _ | committing _ => true
  | releasing _ | tallying _ | done _ => false

/-- Whether a walk is still to be committed. -/
def WalkOp.awaits : WalkOp → Bool
  | entering | locking | walking _ _ _ | committing _ _ => true
  | releasing _ _ | tallying _ _ | done _ => false

/-- A removal in an open store changes nothing, or is committed. -/
theorem RemovalOp.settles {keys : List Bytes} {op op' : RemovalOp} {s s' : Store} {j : Journal}
    (hf : op.Fits keys s.files) (hopen : s.closed = false)
    (h : op.step none s = some (op', s', j)) :
    (s'.table = s.table ∧ op'.awaits = op.awaits) ∨
      (op.awaits = true ∧ op'.awaits = false ∧ s'.table = (eraseKeys keys s.table).1) := by
  cases step_cases h with
  | refuse closed =>
    rw [hopen] at closed
    cases closed
  | pass =>
    -- there is nothing to remove, and nothing is removed
    obtain rfl : [] = keys := hf
    exact .inr ⟨rfl, rfl, rfl⟩
  | commitNothing | commit => exact .inr ⟨rfl, rfl, Store.working_eq hf.1⟩
  | fail fails => cases fails
  | _ => exact .inl ⟨rfl, rfl⟩

/-- A walk in an open store changes nothing, or is committed. -/
theorem WalkOp.settles {kept seen : List Entry} {op op' : WalkOp} {s s' : Store}
    (hf : op.Fits kept seen s.files) (hopen : s.closed = false)
    (h : op.step none s = some (op', s')) :
    (s'.table = s.table ∧ op'.awaits = op.awaits) ∨
      (op.awaits = true ∧ op'.awaits = false ∧
        ∃ rest, s.table.toList = seen ++ rest ∧ s'.table.toList = kept ++ rest) := by
  cases step_cases h with
  | refuse closed =>
    rw [hopen] at closed
    cases closed
  | commitNothing | commit => exact .inr ⟨rfl, rfl, toList_commit hf⟩
  | fail fails => cases fails
  | _ => exact .inl ⟨rfl, rfl⟩

/-- A walk that offers an entry is still to be committed, and so it is after a verdict on the
    entry. -/
theorem WalkOp.awaits_of_offered {op : WalkOp} {x : Entry} (hx : op.offered? = some x) (s : Store) :
    op.awaits = true ∧ (op.answer .delete s).1.awaits = true ∧
      (op.answer .stop s).1.awaits = true := by
  obtain ⟨rest, visited, deleted, rfl⟩ := WalkOp.offered?_eq_some_iff.1 hx
  exact ⟨rfl, rfl, rfl⟩

/-! ### Passes -/

namespace Pass

/-- Whether a pass is still to remove what it hands over. -/
def owes : Pass → Bool
  | delivering _ _ _ _ | clearing _ _ _ => true
  | removing op _ _ _ => op.awaits
  | walking op _ _ _ | offering op _ _ _ => op.awaits
  | _ => false

/-- What a pass has handed over and is still to remove. -/
def owed (a : Account) (p : Pass) : List Entry := if p.owes then a.taken else []

variable {s : Forwarder.Settings} {h : Hub} {a : Account} {p p' : Pass} {store : Store}

theorem owes_of_isOver (hp : p.isOver = true) : p.owes = false := by
  cases p with
  | ended r => rfl
  | died => rfl
  | _ => cases hp

/-- Reading changes nothing of what a pass owes. -/
theorem owed_account (h : Hub) (now : Nat) (a : Account) (hp : p'.owes = p.owes ∨ p = starting) :
    p'.owed (p.account s h now a) = p.owed a := by
  unfold owed
  rcases hp with hp | rfl
  · rw [hp]
    cases p <;> rfl
  · -- a pass that starts has taken nothing over
    show (if p'.owes then [] else []) = _
    rw [ite_self]
    rfl

/-- What a committed removal leaves are the entries with other keys than those that have been
    read. -/
theorem mem_of_cleared {t t' : Table} (hkeys : ∀ x ∈ t.toList, x.key ≠ [])
    (h : (∃ keys, (∀ key, key ∈ keys ↔ key ∈ a.read.map Entry.key) ∧
      t' = (RemovalOp.eraseKeys keys t).1) ∨ t.toList = a.read ++ t'.toList) {x : Entry} :
    x ∈ t'.toList ↔ x ∈ t.toList ∧ x.key ∉ a.read.map Entry.key := by
  rcases h with ⟨keys, hmem, rfl⟩ | h
  · rw [RemovalOp.mem_eraseKeys_iff, ← hmem]
    exact and_congr_right fun hx =>
      ⟨fun himp hk => hkeys x hx (himp hk), fun hk hin => absurd hin hk⟩
  · -- what has been read stands before the rest, and no key stands twice
    have hnd := t.nodup_keys
    rw [h, List.map_append] at hnd
    rw [h, List.mem_append]
    constructor
    · intro hx
      exact ⟨.inr hx, fun hk => (List.disjoint_of_nodup_append hnd hk) (List.mem_map_of_mem hx)⟩
    · rintro ⟨hx | hx, hk⟩
      · exact absurd (List.mem_map_of_mem hx) hk
      · exact hx

/-- Where no removal fails, a step of a pass over an open store changes nothing of the entries, or
    it removes what has been read under the same keys, when nothing waits any more. -/
theorem Step.settles (hp : Step s h p p' store) (hf : p.Fits s a h.store.files)
    (hspare : h.faults.SparesRemovals) (hopen : h.store.closed = false)
    (hkeys : ∀ x ∈ h.store.table.toList, x.key ≠ []) :
    (store.table = h.store.table ∧ (p'.owes = p.owes ∨ p = starting)) ∨
      (p.owes = true ∧ p'.owes = false ∧ a.waiting = [] ∧
        ∀ x, x ∈ store.table.toList ↔ x ∈ h.store.table.toList ∧ x.key ∉ a.read.map Entry.key) := by
  cases hp with
  | scanFails batch => exact .inl ⟨rfl, .inr rfl⟩
  | scan batch hs => exact .inl ⟨rfl, .inr rfl⟩
  | walk single => exact .inl ⟨rfl, .inr rfl⟩
  | clear =>
    rw [hspare.remove_eq]
    exact .inl ⟨rfl, .inl rfl⟩
  | remove ho =>
    rw [hspare.committing] at ho
    obtain ⟨-, hw, keys, hmem, hf⟩ := hf
    -- a removal changes the entries at once, when it commits
    rcases RemovalOp.settles hf hopen ho with ⟨htable, hsame⟩ | ⟨hbefore, hafter, htable⟩
    · exact .inl ⟨htable, .inl hsame⟩
    · exact .inr ⟨hbefore, hafter, hw, fun x => mem_of_cleared hkeys (.inl ⟨keys, hmem, htable⟩)⟩
  | removed hr =>
    obtain rfl := RemovalOp.eq_done hr
    exact .inl ⟨rfl, .inl rfl⟩
  | stop hx hflag =>
    obtain ⟨hbefore, -, hafter⟩ := WalkOp.awaits_of_offered hx h.store
    exact .inl ⟨WalkOp.table_answer _ _ _, .inl (hafter.trans hbefore.symm)⟩
  | offer hx hflag ho => exact .inl ⟨rfl, .inl rfl⟩
  | drop hx hflag ho =>
    obtain ⟨hbefore, hafter, -⟩ := WalkOp.awaits_of_offered hx h.store
    exact .inl ⟨WalkOp.table_answer _ _ _, .inl (hafter.trans hbefore.symm)⟩
  | walkOn hx ho =>
    rw [hspare.committing] at ho
    rcases WalkOp.settles hf.1 hopen ho with
      ⟨htable, hsame⟩ | ⟨hbefore, hafter, rest, htable, hrest⟩
    · exact .inl ⟨htable, .inl hsame⟩
    · rcases hf.2 with hw | ⟨r, rfl⟩
      · refine .inr ⟨hbefore, hafter, hw, fun x => mem_of_cleared hkeys (.inr ?_)⟩
        rw [htable, hrest, List.nil_append]
      · cases ho
  | walked hr hover =>
    obtain rfl := WalkOp.eq_done hr
    obtain rfl | ⟨r', rfl⟩ := hover <;> exact .inl ⟨rfl, .inl rfl⟩
  | recount => exact .inl ⟨rfl, .inl rfl⟩
  | recountOn ho => exact .inl ⟨RecountOp.table_step ho, .inl rfl⟩
  | recounted hr => exact .inl ⟨rfl, .inl rfl⟩

/-- When nothing waits and everything could be read, all that has been read is taken over. -/
theorem taken_eq_read {t : Table} {news : List Occurrence} (hs : a.Sound s.cipher t news)
    (hw : a.waiting = []) (hr : ∀ x ∈ a.read, s.cipher.reads x = true) : a.taken = a.read := by
  have hread := hs.readable
  rw [hw, List.append_nil, List.filter_eq_self.2 hr] at hread
  exact hread.symm

/-- An entry is in the store exactly if it is there after a removal or has been removed. -/
theorem count_of_cleared {t t' : Table} (hnd : (a.read.map Entry.key).Nodup)
    (hheld : ∀ x ∈ a.read, x ∈ t.toList)
    (h : ∀ x, x ∈ t'.toList ↔ x ∈ t.toList ∧ x.key ∉ a.read.map Entry.key) (x : Entry) :
    t.toList.count x = t'.toList.count x + a.read.count x := by
  rw [t.nodup.count, t'.nodup.count, (List.Nodup.of_map _ hnd).count]
  -- keys are unique, so an entry with the key of one that has been read is that entry
  by_cases hx : x ∈ a.read
  · have hgone : x ∉ t'.toList := fun hin => ((h x).1 hin).2 (List.mem_map_of_mem hx)
    rw [if_pos (hheld x hx), if_neg hgone, if_pos hx]
  · have hsame : x ∈ t'.toList ↔ x ∈ t.toList := by
      rw [h x]
      refine ⟨And.left, fun hin => ⟨hin, fun hk => hx ?_⟩⟩
      obtain ⟨y, hy, hyx⟩ := List.mem_map.1 hk
      rwa [← Table.eq_of_key_eq (hheld y hy) hin hyx]
    rw [if_neg hx]
    simp only [hsame, Nat.add_zero]

/-- What is stored and not owed stays the same. -/
theorem Step.balance (hp : Step s h p p' store) (hf : p.Fits s a h.store.files)
    (hspare : h.faults.SparesRemovals) (hopen : h.store.closed = false)
    (hkeys : ∀ x ∈ h.store.table.toList, x.key ≠ []) {news : List Occurrence}
    (hs : a.Sound s.cipher h.store.table news) (hr : ∀ x ∈ a.read, s.cipher.reads x = true)
    (hheld : p.owes = true → ∀ x ∈ a.read, x ∈ h.store.table.toList) (now : Nat) (x : Entry) :
    h.store.table.toList.count x + (p'.owed (p.account s h now a)).count x =
      store.table.toList.count x + (p.owed a).count x := by
  rcases hp.settles hf hspare hopen hkeys with ⟨htable, howes⟩ | ⟨hbefore, hafter, hw, hmem⟩
  · rw [htable, owed_account h now a howes]
  · -- the debt is paid with the very entries that leave the store
    have howed : p'.owed (p.account s h now a) = [] := by
      unfold owed
      rw [hafter]
      rfl
    have hread : p.owed a = a.read := by
      unfold owed
      rw [hbefore]
      exact taken_eq_read hs hw hr
    rw [howed, hread, List.count_nil, Nat.add_zero]
    exact count_of_cleared hs.nodup (hheld hbefore) hmem x

/-- What a pass has read stays in the store as long as the pass owes its removal. -/
theorem Step.held (hp : Step s h p p' store) (hf : p.Fits s a h.store.files)
    (hspare : h.faults.SparesRemovals) (hopen : h.store.closed = false)
    (hkeys : ∀ x ∈ h.store.table.toList, x.key ≠ [])
    (hheld : p.owes = true → ∀ x ∈ a.read, x ∈ h.store.table.toList) (now : Nat)
    (howes : p'.owes = true) {x : Entry} (hx : x ∈ (p.account s h now a).read) :
    x ∈ store.table.toList := by
  rcases hp.settles hf hspare hopen hkeys with ⟨htable, hsame⟩ | ⟨-, hafter, -⟩
  · rw [htable]
    rcases List.mem_append.1 hx with hx | hx
    · rcases hsame with hsame | rfl
      · rw [hsame] at howes
        have hx : x ∈ a.read := by cases p <;> first | exact hx | cases howes
        exact hheld howes x hx
      · cases hx
    · exact hf.mem_reads hx
  · rw [hafter] at howes
    cases howes

/-- What the sink accepts is owed from then on. -/
theorem Reply.owed_eq {events : List Event} {store' : Store} {f : Files}
    (hp : Reply store .accepted events p p' store') (hf : p.Fits s a f) :
    p'.owes = p.owes ∧
      p'.owed (a.accept events.length) = p.owed a ++ a.waiting.take events.length := by
  cases hp with
  | next more => exact ⟨rfl, rfl⟩
  | last => exact ⟨rfl, rfl⟩
  | @take op event delivered dropped =>
    obtain ⟨seen, x, hx, -⟩ := hf
    obtain ⟨hbefore, hafter, -⟩ := WalkOp.awaits_of_offered hx store
    refine ⟨hafter.trans hbefore.symm, ?_⟩
    show (if (op.answer .delete store).1.awaits then _ else _) = (if op.awaits then _ else _) ++ _
    rw [hbefore, hafter]
    rfl

end Pass

/-! ### Threads -/

namespace Scenario.Work

/-- Whether a thread is still to remove what it hands over. -/
def owes (w : Work) : Bool :=
  match w.pass? with
  | some p => p.owes
  | none => false

/-- What a thread has handed over and is still to remove. -/
def owed (a : Account) (w : Work) : List Entry := if w.owes then a.taken else []

variable {w w' : Work} {h : Hub} {a : Account} {store : Store}

theorem owes_of_pass {p : Pass} (hp : w.pass? = some p) : w.owes = p.owes := by
  unfold owes
  rw [hp]

theorem owed_of_pass {p : Pass} (hp : w.pass? = some p) : w.owed a = p.owed a := by
  unfold owed Pass.owed
  rw [owes_of_pass hp]

/-- A thread outside of a pass owes nothing. -/
theorem owes_of_over (hover : ∀ p, w.pass? = some p → p.isOver = true) : w.owes = false := by
  cases hp : w.pass? with
  | none =>
    unfold owes
    rw [hp]
  | some p => rw [owes_of_pass hp, Pass.owes_of_isOver (hover p hp)]

theorem owes_of_fresh (fresh : ∀ p, w.pass? = some p → p = .starting) : w.owes = false := by
  cases hp : w.pass? with
  | none =>
    unfold owes
    rw [hp]
  | some p =>
    rw [owes_of_pass hp, fresh p hp]
    rfl

/-- A thread that owes something has not ended. -/
theorem live_of_owes (hw : w.owes = true) : w.hasEnded = false := by
  cases w with
  | pass s p => cases p <;> first | rfl | cases hw
  | loop f =>
    obtain ⟨settings, nextPass, idle, phase⟩ := f
    cases phase <;> first | rfl | cases hw

theorem owed_of_not_owes (hw : w.owes = false) (a : Account) : w.owed a = [] := by
  unfold owed
  rw [hw]
  rfl

/-- What is stored and not owed stays the same. -/
theorem Step.balance {history : List Occurrence} (hw : Step h w w' store)
    (hf : w.Fits a h.store.files) (hspare : h.faults.SparesRemovals)
    (hopen : h.store.closed = false) (hkeys : ∀ x ∈ h.store.table.toList, x.key ≠ [])
    (hs : w.Sound a h.store.table history) (hr : ∀ x ∈ a.read, w.settings.cipher.reads x = true)
    (hheld : w.owes = true → ∀ x ∈ a.read, x ∈ h.store.table.toList) (now : Nat) (x : Entry) :
    h.store.table.toList.count x + (w'.owed (w.account h now a)).count x =
      store.table.toList.count x + (w.owed a).count x := by
  cases hw with
  | goesOn hset hp hp' hstep =>
    rw [owed_of_pass hp, owed_of_pass hp', account_of_pass hp]
    rw [owes_of_pass hp] at hheld
    exact hstep.balance (hf _ hp) hspare hopen hkeys hs.2 hr hheld now x
  | turns hset hover fresh same =>
    rw [owed_of_not_owes (owes_of_over hover), owed_of_not_owes (owes_of_fresh fresh), same]

/-- What a thread has read stays in the store as long as the thread owes its removal. -/
theorem Step.held (hw : Step h w w' store) (hf : w.Fits a h.store.files)
    (hspare : h.faults.SparesRemovals) (hopen : h.store.closed = false)
    (hkeys : ∀ x ∈ h.store.table.toList, x.key ≠ [])
    (hheld : w.owes = true → ∀ x ∈ a.read, x ∈ h.store.table.toList) (now : Nat)
    (howes : w'.owes = true) {x : Entry} (hx : x ∈ (w.account h now a).read) :
    x ∈ store.table.toList := by
  cases hw with
  | goesOn hset hp hp' hstep =>
    rw [owes_of_pass hp] at hheld
    rw [owes_of_pass hp'] at howes
    rw [account_of_pass hp] at hx
    exact hstep.held (hf _ hp) hspare hopen hkeys hheld now howes hx
  | turns hset hover fresh same =>
    rw [owes_of_fresh fresh] at howes
    cases howes

/-- What the sink accepts is owed from then on. -/
theorem Reply.owed_eq {events : List Event} {store' : Store} {f : Files}
    (hw : Reply .accepted events store w w' store') (hf : w.Fits a f) :
    w'.owes = w.owes ∧
      w'.owed (a.accept events.length) = w.owed a ++ a.waiting.take events.length := by
  obtain ⟨hset, hp, hp', hreply⟩ := hw
  rw [owes_of_pass hp, owes_of_pass hp', owed_of_pass hp, owed_of_pass hp']
  exact hreply.owed_eq (hf _ hp)

end Scenario.Work

end Outbox
