import Outbox.Proofs.Forwarder.Work

namespace Outbox

/-!
# What a pass reports

* `Incident.Holds` — what an incident says of a store and a cipher: an entry that is called
  unreadable is there, and the cipher cannot open it.
* `Hub.Tells` — a hub after incidents of some kind have been reported.
* `Pass.tells_of_step`, `Pass.tells_of_answer` — what a pass reports is so.
* `Scenario.Work.tells_of_step`, `Scenario.Work.tells_of_answer` — so is what a thread reports.
-/

/-- What an incident says of the entries of a store and the cipher of a pass. -/
def Incident.Holds (c : Cipher) (t : Table) : Incident → Prop
  | .unreadableEntry key fault =>
    ∃ value, ⟨key, value⟩ ∈ t.toList ∧ c.openEvent value = .error fault
  | _ => True

/-- A hub after reports whose incidents are of some kind. -/
def Hub.Tells (kind : Incident → Prop) (h h' : Hub) : Prop :=
  ∃ notes, h'.journal = h.journal ++ notes ∧ ∀ i, .incident i ∈ notes → kind i

namespace Hub.Tells

variable {kind : Incident → Prop} {h h' h'' : Hub}

/-- Who leaves the journal alone tells nothing. -/
theorem of_eq (hj : h'.journal = h.journal) : Tells kind h h' :=
  ⟨[], by simp [hj], by simp⟩

/-- What is told in two steps is told in each of them. -/
theorem trans (h₁ : Tells kind h h') (h₂ : Tells kind h' h'') : Tells kind h h'' := by
  obtain ⟨notes, hj, hn⟩ := h₁
  obtain ⟨notes', hj', hn'⟩ := h₂
  refine ⟨notes ++ notes', by simp [hj, hj'], fun i hi => ?_⟩
  exact (List.mem_append.1 hi).elim (hn i) (hn' i)

/-- A report tells the incidents that are in it. -/
theorem report {j : Journal} (hj : ∀ i, .incident i ∈ j → kind i) : Tells kind h (h.report j) :=
  ⟨j, rfl, hj⟩

/-- An incident tells of itself. -/
theorem incident {i : Incident} (hi : kind i) : Tells kind h (h.incident i) :=
  report fun i' hi' => by simp_all

/-- What is counted is no incident. -/
theorem measure {m : Measure} : Tells kind h (h.measure m) :=
  report fun i hi => by simp at hi

end Hub.Tells

namespace Pass

open Hub

variable {s : Forwarder.Settings} {a : Account} {h : Hub} {p : Pass} {c : Cipher} {t : Table}

/-- The incidents of a scan are about entries of the scan that cannot be opened. -/
theorem mem_sort_journal {xs : List Entry} {i : Incident} (hi : .incident i ∈ (sort c xs).2.2) :
    ∃ x ∈ xs, ∃ fault, i = .unreadableEntry x.key fault ∧ c.openEvent x.value = .error fault := by
  induction xs with
  | nil => simp [sort] at hi
  | cons x xs ih =>
    have hrest : .incident i ∈ (sort c xs).2.2 → ∃ y ∈ x :: xs, ∃ fault,
        i = .unreadableEntry y.key fault ∧ c.openEvent y.value = .error fault := by
      intro hi
      obtain ⟨y, hy, hrest⟩ := ih hi
      exact ⟨y, List.mem_cons_of_mem _ hy, hrest⟩
    simp only [sort] at hi
    split at hi
    · exact hrest hi
    · next fault ho =>
      rcases List.mem_cons.1 hi with hi | hi
      · cases hi
        exact ⟨x, List.mem_cons_self .., fault, rfl, ho⟩
      · exact hrest hi

/-- A scan reports entries of the table that cannot be read, and nothing else. -/
theorem tells_scanned {xs : List Entry} (hx : ∀ x ∈ xs, x ∈ t.toList) (style : SinkStyle) :
    ∀ i, .incident i ∈ (scanned c style xs).2 → i.Holds c t := by
  intro i hi
  unfold scanned at hi
  split at hi
  · cases hi
  · obtain ⟨x, hin, fault, rfl, ho⟩ := mem_sort_journal hi
    exact ⟨x.value, hx x hin, ho⟩

/-- A pass that comes to something counts, and tells nothing. -/
theorem tells_conclude {kind : Incident → Prop} (o : Outcome) : Tells kind h (conclude o h).2 := by
  cases o with
  | empty => exact .of_eq rfl
  | delivered delivered dropped => exact .report fun i hi => by simp at hi
  | failed => exact .measure

/-- Of a removal that has ended, it is told at most what came of it. -/
theorem tells_removed (expected delivered dropped : Nat) (r : Except StoreFault Nat) :
    Tells (Incident.Holds c t) h (removed expected delivered dropped h r).2 := by
  cases r with
  | error fault => exact (Tells.incident trivial).trans (tells_conclude _)
  | ok n =>
    refine Tells.trans ?_ (tells_conclude _)
    split
    · exact .incident trivial
    · exact .of_eq rfl

/-- Of a walk that has ended, nothing is told. -/
theorem tells_walked {kind : Incident → Prop} (delivered dropped : Nat) (refused : Bool)
    (r : Except StoreFault WalkSummary) :
    Tells kind h (walked delivered dropped refused h r).2 := by
  cases r with
  | error fault => exact .of_eq rfl
  | ok summary =>
    unfold walked
    dsimp only
    split
    · exact tells_conclude _
    · split
      · exact .of_eq rfl
      · exact tells_conclude _

/-- Of a recount that has ended, nothing is told. -/
theorem tells_recounted {kind : Incident → Prop} (r : Except StoreFault Nat) :
    Tells kind h (recounted h r).2 := by
  cases r with
  | error fault => exact .of_eq rfl
  | ok actual => exact Tells.measure.trans (tells_conclude _)

/-- A walk that comes to an entry which cannot be opened says so. -/
theorem tells_look {x : Entry} (hx : x ∈ t.toList) (op : WalkOp) (delivered dropped : Nat) :
    Tells (Incident.Holds c t) h (look c x op delivered dropped h).2 := by
  unfold look
  split
  · exact .of_eq rfl
  · split
    · exact .of_eq rfl
    · next fault ho => exact Tells.trans (.of_eq rfl) (.incident ⟨x.value, hx, ho⟩)

/-- What a removal reports of single keys holds of every table. -/
theorem tells_removal {op op' : RemovalOp} {store store' : Store} {j : Journal}
    {failure : Option EngineFault} (ho : op.step failure store = some (op', store', j)) :
    ∀ i, .incident i ∈ j → i.Holds c t := by
  intro i hi
  obtain ⟨key, hkey⟩ := RemovalOp.exists_of_mem_step ho hi
  cases hkey
  trivial

/-- What a pass reports in a step is so. -/
theorem tells_of_step (hf : p.Fits s a h.store.files) {y : Pass × Hub}
    (hp : p.step s h = some y) : Tells (Incident.Holds s.cipher h.store.table) h y.2 := by
  cases turn_of_step hp with
  | scan batch hs =>
    refine .report (tells_scanned (fun x hx => ?_) _)
    rw [Faults.eq_take_of_scan hs] at hx
    exact List.mem_of_mem_take hx
  | remove ho => exact Tells.trans (.of_eq rfl) (.report (tells_removal ho))
  | removed => exact tells_removed _ _ _ _
  | look hx =>
    -- what is on offer is the next entry of the table
    obtain ⟨rest, htable⟩ := WalkOp.toList_of_offered hf.1 hx
    refine tells_look ?_ _ _ _
    rw [show h.store.table.toList = a.read ++ _ :: rest from htable]
    exact List.mem_append_right _ (List.mem_cons_self ..)
  | walked => exact tells_walked _ _ _ _
  | recounted => exact tells_recounted _
  | _ => exact .of_eq rfl

/-- An answer of the sink is reported, and nothing is said about entries. -/
theorem tells_of_answer (r : SinkAnswer) (p : Pass) (h : Hub) :
    Tells (Incident.Holds c t) h (p.answer r h).2 := by
  cases p with
  | delivering calls delivered dropped keys =>
    cases r with
    | accepted => exact .of_eq rfl
    | refused e => exact (Tells.incident trivial).trans (tells_conclude _)
    | died => exact .of_eq rfl
  | offering op event delivered dropped =>
    cases r with
    | accepted => exact .of_eq rfl
    | refused e => exact Tells.trans (.of_eq rfl) (.incident trivial)
    | died => exact .of_eq rfl
  | _ => exact .of_eq rfl

end Pass

namespace Scenario.Work

open Hub

variable {w : Work} {a : Account} {h : Hub} {now : Nat}

/-- What a thread reports in a step is so. -/
theorem tells_of_step (hf : w.Fits a h.store.files) {y : Work × Hub} (hw : w.step now h = some y) :
    Tells (Incident.Holds w.settings.cipher h.store.table) h y.2 := by
  cases w with
  | pass s p =>
    obtain ⟨x, hp, rfl⟩ := Option.map_eq_some_iff.1 hw
    exact Pass.tells_of_step (hf p rfl) hp
  | loop f =>
    obtain ⟨⟨f', h'⟩, hx, rfl⟩ := Option.map_eq_some_iff.1 hw
    have hstep : Forwarder.Step now f h f' h' := Forwarder.step_cases hx
    cases hstep with
    | pass hp hs => exact Pass.tells_of_step (hf _ (pass?_of_phase hp)) hs
    | @unreadable e hp =>
      have hkind : (Incident.storeUnreadable e).Holds f.settings.cipher h.store.table := trivial
      exact (Tells.incident hkind).trans (.of_eq rfl)
    | rest | gather | due => exact .measure
    | _ => exact .of_eq rfl

/-- An answer of the sink tells a refusal at most. -/
theorem tells_of_answer {c : Cipher} {t : Table} (r : SinkAnswer) (w : Work) (h : Hub) :
    Tells (Incident.Holds c t) h (w.answer r h).2 := by
  cases w with
  | pass s p => exact Pass.tells_of_answer r p h
  | loop f =>
    obtain ⟨settings, nextPass, idle, phase⟩ := f
    cases phase with
    | passing p => exact Pass.tells_of_answer r p h
    | _ => exact .of_eq rfl

end Scenario.Work

end Outbox
