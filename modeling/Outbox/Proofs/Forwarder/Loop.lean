import Outbox.Forwarder
import Outbox.Proofs.Store.Steps

namespace Outbox

/-!
# Steps of the loop

What the loop and its passes do to what they share with others:

* `Hub.Still` — nobody has been told anything: the flag, the wake-ups and the running commits are as
  they were, and the store has the same faults.
* `Faults.eq_take_of_scan` — what a scan gives, whatever its faults are.
* `Pass.Turn` — what a step of a pass can do, case by case, with the hub that it leaves.
* `Pass.turn_of_step` — every step is of this kind.
* `Pass.step_still`, `Pass.answer_still` — a pass tells nobody anything.
* `Forwarder.Step` — what a step of the loop can do, case by case, with the hub that it leaves.
* `Forwarder.step_cases` — every step is of this kind.
-/

/-- The flag, the wake-ups and the running commits are as they were, and so are the faults. What a
    pass does to the store is told by `Pass.Step`. -/
structure Hub.Still (h h' : Hub) : Prop where
  flag : h'.flag = h.flag
  wake : h'.wake = h.wake
  commits : h'.commits = h.commits
  faults : h'.faults = h.faults

/-! ### Passes -/

/-- A scan that does not fail gives the first entries. -/
theorem Faults.eq_take_of_scan {f : Faults} {s : Store} {limit : Nat} {xs : List Entry}
    (hs : f.scan s limit = .ok xs) : xs = s.table.toList.take limit := by
  unfold Faults.scan Store.scan at hs
  split at hs
  · cases hs
  · split at hs <;> cases hs
    rfl

namespace Pass

variable {s : Forwarder.Settings} {h : Hub} {p : Pass} {y : Pass × Hub}

/-- What a step of a pass makes of it and of the hub. What comes of a walk, a removal or a recount
    that has ended, and of an entry that is looked at, is told by the functions that do it. -/
inductive Turn (s : Forwarder.Settings) (h : Hub) : Pass → Pass × Hub → Prop
  | scanFails {fault : StoreFault} (batch : 1 < s.batchSize)
      (hs : h.faults.scan h.store s.batchSize = .error fault) :
      Turn s h starting (ended (.error (.transaction fault)), h)
  | scan {xs : List Entry} (batch : 1 < s.batchSize)
      (hs : h.faults.scan h.store s.batchSize = .ok xs) :
      Turn s h starting
        ((scanned s.cipher h.style xs).1, h.report (scanned s.cipher h.style xs).2)
  | walk (single : ¬ 1 < s.batchSize) : Turn s h starting (walking h.faults.walk 0 0 false, h)
  | clear {delivered dropped : Nat} {keys : List Bytes} :
      Turn s h (clearing delivered dropped keys)
        (removing (h.faults.remove keys) keys.length delivered dropped, h)
  | remove {op op' : RemovalOp} {store : Store} {j : Journal} {expected delivered dropped : Nat}
      (ho : op.step h.faults.committing h.store = some (op', store, j)) :
      Turn s h (removing op expected delivered dropped)
        (removing op' expected delivered dropped, { h with store }.report j)
  | removed {r : Except StoreFault Nat} {expected delivered dropped : Nat} :
      Turn s h (removing (.done r) expected delivered dropped)
        (removed expected delivered dropped h r)
  | look {op : WalkOp} {x : Entry} {delivered dropped : Nat} {refused : Bool}
      (hx : op.offered? = some x) :
      Turn s h (walking op delivered dropped refused) (look s.cipher x op delivered dropped h)
  | walkOn {op op' : WalkOp} {store : Store} {delivered dropped : Nat} {refused : Bool}
      (hx : op.offered? = none) (ho : op.step h.faults.committing h.store = some (op', store)) :
      Turn s h (walking op delivered dropped refused)
        (walking op' delivered dropped refused, { h with store })
  | walked {r : Except StoreFault WalkSummary} {delivered dropped : Nat} {refused : Bool} :
      Turn s h (walking (.done r) delivered dropped refused)
        (walked delivered dropped refused h r)
  | recount : Turn s h emptied (recounting h.faults.recount, h)
  | recountOn {op op' : RecountOp} {store : Store} (ho : op.step h.store = some (op', store)) :
      Turn s h (recounting op) (recounting op', { h with store })
  | recounted {r : Except StoreFault Nat} : Turn s h (recounting (.done r)) (recounted h r)

/-- A step of a pass is one of these. -/
theorem turn_of_step (hp : p.step s h = some y) : Turn s h p y := by
  cases p with
  | starting =>
    simp only [step] at hp
    split at hp
    · next batch =>
      split at hp
      · next fault hs => cases hp; exact .scanFails batch hs
      · next xs hs => cases hp; exact .scan batch hs
    · next single => cases hp; exact .walk single
  | clearing delivered dropped keys => cases hp; exact .clear
  | removing op expected delivered dropped =>
    simp only [step] at hp
    split at hp
    · next r hr =>
      cases hp
      obtain rfl := RemovalOp.eq_done hr
      exact .removed
    · obtain ⟨⟨op', store, j⟩, ho, rfl⟩ := Option.map_eq_some_iff.1 hp
      exact .remove ho
  | walking op delivered dropped refused =>
    simp only [step] at hp
    split at hp
    · next hx => cases hp; exact .look hx
    · next r hx hr =>
      cases hp
      obtain rfl := WalkOp.eq_done hr
      exact .walked
    · next hx hr =>
      obtain ⟨⟨op', store⟩, ho, rfl⟩ := Option.map_eq_some_iff.1 hp
      exact .walkOn hx ho
  | emptied => cases hp; exact .recount
  | recounting op =>
    simp only [step] at hp
    split at hp
    · next r hr =>
      cases hp
      obtain rfl := RecountOp.eq_done hr
      exact .recounted
    · obtain ⟨⟨op', store⟩, ho, rfl⟩ := Option.map_eq_some_iff.1 hp
      exact .recountOn ho
  | _ => cases hp

/-- Only the journal grows when a pass comes to something. -/
theorem conclude_still (o : Outcome) (h : Hub) : h.Still (conclude o h).2 := by
  cases o <;> exact ⟨rfl, rfl, rfl, rfl⟩

/-- A removal that has ended is at most reported. -/
theorem removed_still (expected delivered dropped : Nat) (h : Hub) (r : Except StoreFault Nat) :
    h.Still (removed expected delivered dropped h r).2 := by
  cases r with
  | error fault => exact ⟨rfl, rfl, rfl, rfl⟩
  | ok n =>
    simp only [removed]
    split <;> exact ⟨rfl, rfl, rfl, rfl⟩

/-- A walk that has ended is at most counted. -/
theorem walked_still (delivered dropped : Nat) (refused : Bool) (h : Hub)
    (r : Except StoreFault WalkSummary) : h.Still (walked delivered dropped refused h r).2 := by
  cases r with
  | error fault => exact ⟨rfl, rfl, rfl, rfl⟩
  | ok summary =>
    simp only [walked]
    split
    · exact conclude_still _ _
    · split
      · exact ⟨rfl, rfl, rfl, rfl⟩
      · exact conclude_still _ _

/-- Looking at an entry changes the store and the journal only. -/
theorem look_still (c : Cipher) (x : Entry) (op : WalkOp) (delivered dropped : Nat) (h : Hub) :
    h.Still (look c x op delivered dropped h).2 := by
  unfold look
  split
  · exact ⟨rfl, rfl, rfl, rfl⟩
  · split <;> exact ⟨rfl, rfl, rfl, rfl⟩

/-- A recount that has ended is at most measured. -/
theorem recounted_still (h : Hub) (r : Except StoreFault Nat) : h.Still (recounted h r).2 := by
  cases r <;> exact ⟨rfl, rfl, rfl, rfl⟩

/-- A step of a pass tells nobody anything. -/
theorem step_still (hp : p.step s h = some y) : h.Still y.2 := by
  cases turn_of_step hp with
  | removed => exact removed_still _ _ _ _ _
  | look hx => exact look_still _ _ _ _ _ _
  | walked => exact walked_still _ _ _ _ _
  | recounted => exact recounted_still _ _
  | _ => exact ⟨rfl, rfl, rfl, rfl⟩

/-- Nor does the answer of the sink. -/
theorem answer_still (a : SinkAnswer) (p : Pass) (h : Hub) : h.Still (p.answer a h).2 := by
  cases p with
  | delivering calls delivered dropped keys => cases a <;> exact ⟨rfl, rfl, rfl, rfl⟩
  | offering op event delivered dropped => cases a <;> exact ⟨rfl, rfl, rfl, rfl⟩
  | _ => exact ⟨rfl, rfl, rfl, rfl⟩

end Pass

/-! ### The loop -/

namespace Forwarder

/-- Whether the next step begins a pass. -/
def Phase.isClearing : Phase → Bool
  | clearing => true
  | _ => false

/-- What a step of the loop can make of it and of the hub. -/
inductive Step (now : Nat) (f : Forwarder) (h : Hub) : Forwarder → Hub → Prop
  | start (hp : f.phase = .starting) :
      Step now f h { f with nextPass := now + f.settings.delay, phase := .checking } h
  | halt (hp : f.phase = .checking) (up : h.flag = true) : Step now f h (f.goto .stopped) h
  | look (hp : f.phase = .checking) (down : h.flag = false) : Step now f h (f.goto .counting) h
  | rest {deadline : Nat} (hp : f.phase = .counting) (zero : h.count = 0) :
      Step now f h { f with idle := true, phase := .idling deadline }
        (h.measure (.depth h.count))
  | gather {nextPass : Nat} (hp : f.phase = .counting) (nonzero : h.count ≠ 0) :
      Step now f h ⟨f.settings, nextPass, false, .gathering⟩ (h.measure (.depth h.count))
  | due {nextPass : Nat} (hp : f.phase = .counting) (nonzero : h.count ≠ 0) :
      Step now f h ⟨f.settings, nextPass, false, .clearing⟩ (h.measure (.depth h.count))
  | wake (hp : f.phase = .gathering ∨ ∃ deadline, f.phase = .idling deadline) :
      Step now f h (f.goto .checking) { h with wake := h.wake.take.2 }
  | clear (hp : f.phase = .clearing) :
      Step now f h (f.goto (.passing .starting)) { h with wake := h.wake.clear }
  | pass {p : Pass} {y : Pass × Hub} (hp : f.phase = .passing p)
      (hs : p.step f.settings h = some y) : Step now f h (f.goto (.passing y.1)) y.2
  | delivered {n m : Nat} (hp : f.phase = .passing (.ended (.ok (.delivered n m)))) :
      Step now f h (f.goto .checking) h
  | empty (hp : f.phase = .passing (.ended (.ok .empty))) :
      Step now f h { f with idle := true, phase := .emptied } h
  | refused {deadline : Nat} (hp : f.phase = .passing (.ended (.ok .failed))) :
      Step now f h (f.goto (.pausing deadline)) h
  | unreadable {e : Error} (hp : f.phase = .passing (.ended (.error e))) :
      Step now f h (f.goto .stopped) (h.incident (.storeUnreadable e)).raise
  | die (hp : f.phase = .passing .died) : Step now f h (f.goto .died) h
  | park {deadline : Nat} (hp : f.phase = .emptied) : Step now f h (f.goto (.idling deadline)) h
  | heed {deadline : Nat} (hp : f.phase = .pausing deadline) (up : h.flag = true) :
      Step now f h (f.goto .checking) h
  | pause {deadline : Nat} (hp : f.phase = .pausing deadline) (down : h.flag = false) :
      Step now f h (f.goto (.paused deadline h.wake.rings)) h
  | hear {deadline rings : Nat} (hp : f.phase = .paused deadline rings) :
      Step now f h (f.goto (.pausing deadline)) h
  | resume {deadline rings : Nat} (hp : f.phase = .paused deadline rings) :
      Step now f h (f.goto .checking) h

variable {now : Nat} {f : Forwarder} {h : Hub}

/-- Having read the counter, the loop rests, waits for more, or begins a pass. -/
theorem decide_cases (now : Nat) (hp : f.phase = .counting) :
    Step now f h (f.decide h.count now) (h.measure (.depth h.count)) := by
  unfold decide
  split
  · next hzero => exact .rest hp hzero
  · next hsome =>
    -- whether the pass is due depends on the time, and both answers are steps
    generalize (if f.idle then now + f.settings.delay else f.nextPass) = nextPass
    dsimp only
    split
    · exact .gather hp hsome
    · exact .due hp hsome

/-- A step of the loop is one of these. -/
theorem step_cases {y : Forwarder × Hub} (hf : f.step now h = some y) : Step now f h y.1 y.2 := by
  unfold step at hf
  split at hf
  · next hp => cases hf; exact .start hp
  · next hp =>
    cases hf
    cases hflag : h.flag with
    | true => exact .halt hp hflag
    | false => exact .look hp hflag
  · next hp => cases hf; exact decide_cases now hp
  · next deadline hp =>
    split at hf
    · cases hf; exact .wake (.inr ⟨deadline, hp⟩)
    · cases hf
  · next hp =>
    split at hf
    · cases hf; exact .wake (.inl hp)
    · cases hf
  · next hp => cases hf; exact .clear hp
  · next p hp =>
    split at hf
    · next r =>
      cases hf
      cases r with
      | error e => exact .unreadable hp
      | ok o =>
        cases o with
        | empty => exact .empty hp
        | delivered n m => exact .delivered hp
        | failed => exact .refused hp
    · cases hf; exact .die hp
    · obtain ⟨x, hx, rfl⟩ := Option.map_eq_some_iff.1 hf
      exact .pass hp hx
  · next hp => cases hf; exact .park hp
  · next deadline hp =>
    cases hf
    cases hflag : h.flag with
    | true => exact .heed hp hflag
    | false => exact .pause hp hflag
  · next deadline rings hp =>
    split at hf
    · cases hf; exact .hear hp
    · split at hf
      · cases hf; exact .resume hp
      · cases hf
  · cases hf
  · cases hf

/-- A loop that has ended takes no step. -/
theorem hasEnded_of_step {y : Forwarder × Hub} (hf : f.step now h = some y) :
    f.hasEnded = false := by
  obtain ⟨settings, nextPass, idle, phase⟩ := f
  cases phase with
  | stopped => cases hf
  | died => cases hf
  | _ => rfl

/-- The loop keeps its settings. -/
theorem settings_of_step {f' : Forwarder} {h' : Hub} (hf : f.step now h = some (f', h')) :
    f'.settings = f.settings := by
  have hstep : Step now f h f' h' := step_cases hf
  cases hstep <;> rfl

/-- Nor does the answer of the sink change its settings. -/
theorem settings_of_answer (r : SinkAnswer) (f : Forwarder) (h : Hub) :
    (f.answer r h).1.settings = f.settings := by
  unfold answer
  split <;> rfl

/-- The loop sends nothing. -/
theorem Step.commits_eq {f' : Forwarder} {h' : Hub} (hf : Step now f h f' h') :
    h'.commits = h.commits := by
  cases hf with
  | pass hp hs => exact (Pass.step_still hs).commits
  | _ => rfl

end Forwarder

end Outbox
