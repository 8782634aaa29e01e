import Outbox.Proofs.Forwarder.Account
import Outbox.Proofs.Forwarder.Loop

namespace Outbox.Pass

/-!
# Passes and their accounts

What the steps of a pass do to the store, and that the account of the pass is kept with them:

* `Step`, `Reply` — what a step and an answer of the sink can do, case by case.
* `holds`, `Step.turn`, `Reply.turn` — the lock that a pass holds.
* `account` — the account after the next step.
* `Fits` — how far a pass has come, told by its account.
* `Step.fits`, `Reply.fits` — steps and answers keep this up.
* `Step.removes` — a pass removes what it has read, or what is under the same keys; and it does so
  when nothing waits any more.
-/

/-! ### Steps and answers -/

/-- What a step of a pass can make of the pass and of the store. -/
inductive Step (s : Forwarder.Settings) (h : Hub) : Pass → Pass → Store → Prop
  | scanFails {r : Except Error Outcome} (batch : 1 < s.batchSize) :
      Step s h starting (ended r) h.store
  | scan {xs : List Entry} (batch : 1 < s.batchSize)
      (hs : h.faults.scan h.store s.batchSize = .ok xs) :
      Step s h starting (scanned s.cipher h.style xs).1 h.store
  | walk (single : ¬ 1 < s.batchSize) :
      Step s h starting (walking h.faults.walk 0 0 false) h.store
  | clear {keys : List Bytes} {delivered dropped : Nat} :
      Step s h (clearing delivered dropped keys)
        (removing (h.faults.remove keys) keys.length delivered dropped) h.store
  | remove {op op' : RemovalOp} {store : Store} {j : Journal} {expected delivered dropped : Nat}
      (ho : op.step h.faults.committing h.store = some (op', store, j)) :
      Step s h (removing op expected delivered dropped)
        (removing op' expected delivered dropped) store
  | removed {op : RemovalOp} {r : Except StoreFault Nat} {r' : Except Error Outcome}
      {expected delivered dropped : Nat} (hr : op.result? = some r) :
      Step s h (removing op expected delivered dropped) (ended r') h.store
  | stop {op : WalkOp} {x : Entry} {delivered dropped : Nat} {refused : Bool}
      (hx : op.offered? = some x) (hflag : h.flag = true) :
      Step s h (walking op delivered dropped refused)
        (walking (op.answer .stop h.store).1 delivered dropped false) (op.answer .stop h.store).2
  | offer {op : WalkOp} {x : Entry} {event : Event} {delivered dropped : Nat} {refused : Bool}
      (hx : op.offered? = some x) (hflag : h.flag = false)
      (ho : s.cipher.openEvent x.value = .ok event) :
      Step s h (walking op delivered dropped refused) (offering op event delivered dropped) h.store
  | drop {op : WalkOp} {x : Entry} {fault : Error} {delivered dropped : Nat} {refused : Bool}
      (hx : op.offered? = some x) (hflag : h.flag = false)
      (ho : s.cipher.openEvent x.value = .error fault) :
      Step s h (walking op delivered dropped refused)
        (walking (op.answer .delete h.store).1 delivered (dropped + 1) false)
        (op.answer .delete h.store).2
  | walkOn {op op' : WalkOp} {store : Store} {delivered dropped : Nat} {refused : Bool}
      (hx : op.offered? = none) (ho : op.step h.faults.committing h.store = some (op', store)) :
      Step s h (walking op delivered dropped refused) (walking op' delivered dropped refused) store
  | walked {op : WalkOp} {r : Except StoreFault WalkSummary} {p : Pass} {delivered dropped : Nat}
      {refused : Bool} (hr : op.result? = some r) (hover : p = emptied ∨ ∃ r, p = ended r) :
      Step s h (walking op delivered dropped refused) p h.store
  | recount : Step s h emptied (recounting h.faults.recount) h.store
  | recountOn {op op' : RecountOp} {store : Store} (ho : op.step h.store = some (op', store)) :
      Step s h (recounting op) (recounting op') store
  | recounted {op : RecountOp} {r : Except StoreFault Nat} {r' : Except Error Outcome}
      (hr : op.result? = some r) : Step s h (recounting op) (ended r') h.store

/-- What an answer of the sink can make of a pass that has called it, and of the store. -/
inductive Reply (store : Store) : SinkAnswer → List Event → Pass → Pass → Store → Prop
  | next {events : List Event} {calls : List (List Event)} {keys : List Bytes}
      {delivered dropped : Nat} (more : calls ≠ []) :
      Reply store .accepted events (delivering (events :: calls) delivered dropped keys)
        (delivering calls delivered dropped keys) store
  | last {events : List Event} {keys : List Bytes} {delivered dropped : Nat} :
      Reply store .accepted events (delivering [events] delivered dropped keys)
        (clearing delivered dropped keys) store
  | refuse {e : Error} {events : List Event} {calls : List (List Event)} {keys : List Bytes}
      {delivered dropped : Nat} {r : Except Error Outcome} :
      Reply store (.refused e) events (delivering (events :: calls) delivered dropped keys)
        (ended r) store
  | die {events : List Event} {calls : List (List Event)} {keys : List Bytes}
      {delivered dropped : Nat} :
      Reply store .died events (delivering (events :: calls) delivered dropped keys) died store
  | take {op : WalkOp} {event : Event} {delivered dropped : Nat} :
      Reply store .accepted [event] (offering op event delivered dropped)
        (walking (op.answer .delete store).1 (delivered + 1) dropped false)
        (op.answer .delete store).2
  | restore {e : Error} {op : WalkOp} {event : Event} {delivered dropped : Nat} :
      Reply store (.refused e) [event] (offering op event delivered dropped)
        (walking (op.answer .abort store).1 delivered dropped true) (op.answer .abort store).2
  | fall {op : WalkOp} {event : Event} {delivered dropped : Nat} :
      Reply store .died [event] (offering op event delivered dropped) died store.abort

/-- Coming to something leaves the store alone. -/
theorem store_conclude (o : Outcome) (h : Hub) : (conclude o h).2.store = h.store := by
  cases o <;> rfl

/-- A pass that has removed ends, whatever came of the removal. -/
theorem removed_spec (expected delivered dropped : Nat) (h : Hub) (r : Except StoreFault Nat) :
    (∃ r', (removed expected delivered dropped h r).1 = ended r') ∧
      (removed expected delivered dropped h r).2.store = h.store := by
  cases r with
  | error fault => exact ⟨⟨_, rfl⟩, rfl⟩
  | ok n =>
    refine ⟨⟨_, rfl⟩, ?_⟩
    simp only [removed, store_conclude]
    split <;> rfl

/-- A pass whose walk is over ends or finds nothing. -/
theorem walked_spec (delivered dropped : Nat) (refused : Bool) (h : Hub)
    (r : Except StoreFault WalkSummary) :
    ((walked delivered dropped refused h r).1 = emptied ∨
        ∃ r', (walked delivered dropped refused h r).1 = ended r') ∧
      (walked delivered dropped refused h r).2.store = h.store := by
  cases r with
  | error fault => exact ⟨.inr ⟨_, rfl⟩, rfl⟩
  | ok summary =>
    simp only [walked]
    split
    · exact ⟨.inr ⟨_, rfl⟩, store_conclude _ _⟩
    · split
      · exact ⟨.inl rfl, rfl⟩
      · exact ⟨.inr ⟨_, rfl⟩, store_conclude _ _⟩

/-- A pass that has recounted ends, whatever came of the recount. -/
theorem recounted_spec (h : Hub) (r : Except StoreFault Nat) :
    (∃ r', (recounted h r).1 = ended r') ∧ (recounted h r).2.store = h.store := by
  cases r <;> exact ⟨⟨_, rfl⟩, rfl⟩

/-- A pass that looks at an entry stops its walk, offers the event, or drops the entry. -/
theorem look_cases {s : Forwarder.Settings} {h : Hub} {op : WalkOp} {x : Entry}
    (hx : op.offered? = some x) (delivered dropped : Nat) (refused : Bool) :
    Step s h (walking op delivered dropped refused) (look s.cipher x op delivered dropped h).1
      (look s.cipher x op delivered dropped h).2.store := by
  unfold look
  split
  · next hflag => exact .stop hx hflag
  · next hflag =>
    have hflag : h.flag = false := by simpa using hflag
    split
    · next event ho => exact .offer hx hflag ho
    · next fault ho => exact .drop hx hflag ho

/-- A step of a pass is one of these. -/
theorem step_cases {s : Forwarder.Settings} {h : Hub} {p : Pass} {y : Pass × Hub}
    (hp : p.step s h = some y) : Step s h p y.1 y.2.store := by
  cases turn_of_step hp with
  | scanFails batch hs => exact .scanFails batch
  | scan batch hs => exact .scan batch hs
  | walk single => exact .walk single
  | clear => exact .clear
  | remove ho => exact .remove ho
  | @removed r expected delivered dropped =>
    obtain ⟨⟨r', hpass⟩, hstore⟩ := removed_spec expected delivered dropped h r
    rw [hpass, hstore]
    exact .removed rfl
  | @look op x delivered dropped refused hx => exact look_cases hx delivered dropped refused
  | walkOn hx ho => exact .walkOn hx ho
  | @walked r delivered dropped refused =>
    obtain ⟨hover, hstore⟩ := walked_spec delivered dropped refused h r
    rw [hstore]
    exact .walked rfl hover
  | recount => exact .recount
  | recountOn ho => exact .recountOn ho
  | @recounted r =>
    obtain ⟨⟨r', hpass⟩, hstore⟩ := recounted_spec h r
    rw [hpass, hstore]
    exact .recounted rfl

/-- An answer to a pass that has called the sink is one of these. -/
theorem answer_cases {h : Hub} {p : Pass} {events : List Event} (hc : p.call? = some events)
    (a : SinkAnswer) : Reply h.store a events p (p.answer a h).1 (p.answer a h).2.store := by
  cases p with
  | delivering calls delivered dropped keys =>
    cases calls with
    | nil => cases hc
    | cons call calls =>
      cases hc
      cases a with
      | accepted =>
        cases calls with
        | nil => exact .last
        | cons call' calls => exact .next (List.cons_ne_nil _ _)
      | refused e => exact .refuse
      | died => exact .die
  | offering op event delivered dropped =>
    cases hc
    cases a with
    | accepted => exact .take
    | refused e => exact .restore
    | died => exact .fall
  | _ => cases hc

/-! ### The lock -/

/-- Whether a pass holds the lock. -/
def holds : Pass → Bool
  | removing op _ _ _ => op.holds
  | walking op _ _ _ | offering op _ _ _ => op.holds
  | recounting op => op.holds
  | _ => false

/-- Whether a pass has come to an end. -/
def isOver : Pass → Bool
  | ended _ | died => true
  | _ => false

/-- A pass that is over does not hold the lock. -/
theorem holds_of_isOver {p : Pass} (h : p.isOver = true) : p.holds = false := by
  cases p with
  | ended r => rfl
  | died => rfl
  | _ => cases h

/-- An operation that a pass begins holds nothing, whatever its faults are. -/
theorem holds_remove (faults : Faults) (keys : List Bytes) :
    (faults.remove keys).holds = false := by
  unfold Faults.remove
  split
  · rfl
  · split <;> rfl

/-- Nor does a walk that is about to begin. -/
theorem holds_walk (faults : Faults) : faults.walk.holds = false := by
  unfold Faults.walk
  split <;> rfl

/-- Nor does a recount. -/
theorem holds_recount (faults : Faults) : faults.recount.holds = false := by
  unfold Faults.recount
  split <;> rfl

/-- A removal that is about to begin has removed nothing. -/
theorem fits_remove (faults : Faults) (keys : List Bytes) (f : Files) :
    (faults.remove keys).Fits keys f := by
  unfold Faults.remove
  split
  · trivial
  · split
    · trivial
    · rfl

/-- A walk that is about to begin has visited nothing. -/
theorem fits_walk (faults : Faults) (f : Files) : faults.walk.Fits [] [] f := by
  unfold Faults.walk
  split
  · trivial
  · exact ⟨rfl, rfl⟩

/-- A recount that is about to begin has counted nothing. -/
theorem fits_recount (faults : Faults) (f : Files) : faults.recount.Fits f := by
  unfold Faults.recount
  split <;> trivial

/-! ### Accounts of passes -/

/-- The entries that the next step of a pass reads. -/
def reads (s : Forwarder.Settings) (h : Hub) : Pass → List Entry
  | starting =>
    if 1 < s.batchSize then
      match h.faults.scan h.store s.batchSize with
      | .ok xs => xs
      | .error _ => []
    else []
  | walking op _ _ _ => if h.flag then [] else op.offered?.toList
  | _ => []

/-- The account with which the next step of a pass begins; a pass that starts has none yet. -/
def before (now : Nat) (a : Account) : Pass → Account
  | starting => .opened now
  | _ => a

/-- The account of a pass after its next step. -/
def account (s : Forwarder.Settings) (h : Hub) (now : Nat) (a : Account) (p : Pass) : Account :=
  (p.before now a).see s.cipher (p.reads s h)

/-- How far a pass has come. The keys of a batch are those of the entries that have been read, and a
    walk under the lock has deleted what it has read. -/
def Fits (s : Forwarder.Settings) (a : Account) (f : Files) : Pass → Prop
  | delivering calls _ _ keys =>
    1 < s.batchSize ∧ Opens s.cipher a.waiting calls.flatten ∧
      ∀ key, key ∈ keys ↔ key ∈ a.read.map Entry.key
  | clearing _ _ keys =>
    1 < s.batchSize ∧ a.waiting = [] ∧ ∀ key, key ∈ keys ↔ key ∈ a.read.map Entry.key
  | removing op _ _ _ =>
    1 < s.batchSize ∧ a.waiting = [] ∧
      ∃ keys, (∀ key, key ∈ keys ↔ key ∈ a.read.map Entry.key) ∧ op.Fits keys f
  | walking op _ _ _ => op.Fits [] a.read f ∧ (a.waiting = [] ∨ ∃ r, op = .done r)
  | offering op event _ _ =>
    ∃ seen x, op.offered? = some x ∧ op.Fits [] seen f ∧ a.read = seen ++ [x] ∧ a.waiting = [x] ∧
      s.cipher.openEvent x.value = .ok event
  | recounting op => op.Fits f
  | _ => True

variable {s : Forwarder.Settings} {a : Account} {f g : Files}

/-- Whoever holds the lock has a working copy. -/
theorem Fits.writer_ne_none {p : Pass} (hf : p.Fits s a f) (hh : p.holds = true) :
    f.writer ≠ none := by
  cases p with
  | removing op expected delivered dropped =>
    obtain ⟨-, -, keys, -, hf⟩ := hf
    exact RemovalOp.writer_ne_none hf hh
  | walking op delivered dropped refused => exact WalkOp.writer_ne_none hf.1 hh
  | offering op event delivered dropped =>
    obtain ⟨seen, x, -, hf, -⟩ := hf
    exact WalkOp.writer_ne_none hf hh
  | recounting op => exact RecountOp.writer_ne_none hf hh
  | _ => cases hh

/-- A step of somebody else leaves a pass as far as it has come. -/
theorem Fits.of_turn {p : Pass} {before after : Bool} (hf : p.Fits s a f)
    (ht : f.Turn before after g) (hb : p.holds = true → before = false) : p.Fits s a g := by
  cases p with
  | removing op expected delivered dropped =>
    obtain ⟨hbatch, hw, keys, hkeys, hf⟩ := hf
    exact ⟨hbatch, hw, keys, hkeys, RemovalOp.fits_of_turn hf ht hb⟩
  | walking op delivered dropped refused => exact ⟨WalkOp.fits_of_turn hf.1 ht hb, hf.2⟩
  | offering op event delivered dropped =>
    obtain ⟨seen, x, hx, hf, hrest⟩ := hf
    exact ⟨seen, x, hx, WalkOp.fits_of_turn hf ht hb, hrest⟩
  | recounting op => exact RecountOp.fits_of_turn hf ht hb
  | _ => exact hf

variable {h : Hub} {p p' : Pass} {store : Store}

/-- A step that reads nothing leaves the account as it is. -/
theorem account_of_reads_nil (now : Nat) (hr : p.reads s h = []) :
    p.account s h now a = p.before now a := by
  unfold account
  rw [hr]
  show Account.mk _ (_ ++ []) (_ ++ []) _ = _
  rw [List.append_nil, List.append_nil]

/-- A pass that starts reads the first entries of the store, or none. -/
theorem reads_starting (s : Forwarder.Settings) (h : Hub) :
    ∃ n, starting.reads s h = h.store.table.toList.take n := by
  show ∃ n, (if 1 < s.batchSize then _ else []) = _
  split
  · split
    · next hxs => exact ⟨s.batchSize, Faults.eq_take_of_scan hxs⟩
    · exact ⟨0, rfl⟩
  · exact ⟨0, rfl⟩

/-- The account of a pass that is over is closed. -/
theorem account_of_isOver (now : Nat) (ho : p.isOver = true) : p.account s h now a = a := by
  cases p with
  | ended r => exact account_of_reads_nil now rfl
  | died => exact account_of_reads_nil now rfl
  | _ => cases ho

/-- A pass that is about to walk reads nothing yet. -/
theorem reads_of_single (single : ¬ 1 < s.batchSize) : starting.reads s h = [] :=
  if_neg single

/-- A walk reads the entry that it offers, if the flag is down. -/
theorem reads_of_offered {op : WalkOp} {x : Entry} (hx : op.offered? = some x)
    (hflag : h.flag = false) (delivered dropped : Nat) (refused : Bool) :
    (walking op delivered dropped refused).reads s h = [x] := by
  show (if h.flag then [] else op.offered?.toList) = [x]
  rw [hflag, hx]
  rfl

/-- A walk that offers nothing, or is about to stop, reads nothing. -/
theorem reads_of_not_offered {op : WalkOp} (hx : h.flag = true ∨ op.offered? = none)
    (delivered dropped : Nat) (refused : Bool) :
    (walking op delivered dropped refused).reads s h = [] := by
  show (if h.flag then [] else op.offered?.toList) = []
  rcases hx with hflag | hx
  · exact if_pos hflag
  · rw [hx]
    split <;> rfl

/-- A walk reads nothing, or the entry that comes right after those that it has read. -/
theorem Fits.reads_walking {op : WalkOp} {delivered dropped : Nat} {refused : Bool}
    (hf : (walking op delivered dropped refused).Fits s a h.store.files) :
    (walking op delivered dropped refused).reads s h = [] ∨
      ∃ x rest, op.offered? = some x ∧ (walking op delivered dropped refused).reads s h = [x] ∧
        h.store.table.toList = a.read ++ x :: rest := by
  by_cases ho : h.flag = true ∨ op.offered? = none
  · exact .inl (reads_of_not_offered ho _ _ _)
  · rw [not_or] at ho
    obtain ⟨x, hx⟩ := Option.ne_none_iff_exists'.1 ho.2
    obtain ⟨rest, htable⟩ := WalkOp.toList_of_offered hf.1 hx
    exact .inr ⟨x, rest, hx, reads_of_offered hx (by simpa using ho.1) _ _ _, htable⟩

/-- While a walk offers an entry, nothing else waits. -/
theorem Fits.waiting_of_offered {op : WalkOp} {delivered dropped : Nat} {refused : Bool}
    (hf : (walking op delivered dropped refused).Fits s a f) {x : Entry}
    (hx : op.offered? = some x) : a.waiting = [] := by
  rcases hf.2 with hw | ⟨r, rfl⟩
  · exact hw
  · cases hx

/-- Who does not hold the lock before or after has left the files alone. -/
theorem turn_of_fresh {after : Bool} (ha : after = false) : f.Turn false after f := by
  rw [ha]
  exact .stay rfl

/-- A pass that has scanned holds nothing. -/
theorem holds_scanned (c : Cipher) (style : SinkStyle) (xs : List Entry) :
    (scanned c style xs).1.holds = false := by
  unfold scanned
  split
  · rfl
  · simp only
    split <;> rfl

namespace Step

/-- A step of a pass takes and frees the lock in turn. -/
theorem turn (hp : Step s h p p' store) :
    h.store.files.Turn p.holds p'.holds store.files := by
  cases hp with
  | scanFails batch => exact .stay rfl
  | scan batch hs => exact turn_of_fresh (holds_scanned _ _ _)
  | walk single => exact turn_of_fresh (holds_walk _)
  | clear => exact turn_of_fresh (holds_remove _ _)
  | remove ho => exact RemovalOp.turn ho
  | removed hr =>
    obtain rfl := RemovalOp.eq_done hr
    exact .stay rfl
  | stop hx hflag => exact WalkOp.turn_answer _ _ _
  | offer hx hflag ho => exact .stay rfl
  | drop hx hflag ho => exact WalkOp.turn_answer _ _ _
  | walkOn hx ho => exact WalkOp.turn ho
  | walked hr hover =>
    obtain rfl := WalkOp.eq_done hr
    obtain rfl | ⟨r', rfl⟩ := hover <;> exact .stay rfl
  | recount => exact turn_of_fresh (holds_recount _)
  | recountOn ho => exact RecountOp.turn ho
  | recounted hr =>
    obtain rfl := RecountOp.eq_done hr
    exact .stay rfl

/-- What a scan has found is what the pass has read. -/
theorem fits_scanned {xs : List Entry} (hbatch : 1 < s.batchSize)
    (ha : a.waiting = xs.filter s.cipher.reads)
    (hr : a.read = xs) (style : SinkStyle) : (scanned s.cipher style xs).1.Fits s a f := by
  have hopens : Opens s.cipher a.waiting ((sort s.cipher xs).1.map Prod.snd) := by
    rw [ha]
    exact opens_sort s.cipher xs
  have hkeys : ∀ key, key ∈ (sort s.cipher xs).1.map Prod.fst ++ (sort s.cipher xs).2.1 ↔
      key ∈ a.read.map Entry.key := by
    intro key
    rw [hr]
    exact mem_keys_sort
  unfold scanned
  split
  · trivial
  · simp only
    split
    · next he =>
      rw [List.isEmpty_iff.1 he] at hopens
      exact ⟨hbatch, hopens.eq_nil, hkeys⟩
    · refine ⟨hbatch, ?_, hkeys⟩
      rw [SinkStyle.flatten_calls]
      exact hopens

/-- A step keeps the account of the pass up. -/
theorem fits (hp : Step s h p p' store) (hf : p.Fits s a h.store.files) (now : Nat) :
    p'.Fits s (p.account s h now a) store.files := by
  cases hp with
  | scanFails batch => trivial
  | @scan xs batch hs =>
    have hr : reads s h starting = xs := by
      unfold reads
      rw [if_pos batch, hs]
    refine fits_scanned batch ?_ ?_ h.style
    · show [] ++ List.filter _ _ = _
      rw [hr, List.nil_append]
    · show [] ++ _ = _
      rw [hr, List.nil_append]
  | walk single =>
    rw [account_of_reads_nil now (reads_of_single single)]
    exact ⟨fits_walk _ _, .inl rfl⟩
  | @clear keys delivered dropped =>
    rw [account_of_reads_nil now rfl]
    exact ⟨hf.1, hf.2.1, keys, hf.2.2, fits_remove _ _ _⟩
  | remove ho =>
    rw [account_of_reads_nil now rfl]
    obtain ⟨hbatch, hw, keys, hkeys, hf⟩ := hf
    exact ⟨hbatch, hw, keys, hkeys, RemovalOp.fits_step hf ho⟩
  | removed hr => trivial
  | @stop op x delivered dropped refused hx hflag =>
    rw [account_of_reads_nil now (reads_of_not_offered (.inl hflag) _ _ _)]
    refine ⟨WalkOp.fits_stop hf.1 hx, hf.2.imp_right fun ⟨r, hr⟩ => ?_⟩
    subst hr
    cases hx
  | @offer op x event delivered dropped refused hx hflag ho =>
    have hr := reads_of_offered (s := s) hx hflag delivered dropped refused
    have hw := hf.waiting_of_offered hx
    -- the entry is the only one that waits
    refine ⟨a.read, x, hx, hf.1, ?_, ?_, ho⟩
    · show a.read ++ _ = _
      rw [hr]
    · show a.waiting ++ List.filter _ _ = _
      rw [hr, hw, List.filter_cons_of_pos (Cipher.reads_of_open ho)]
      rfl
  | @drop op x fault delivered dropped refused hx hflag ho =>
    have hr := reads_of_offered (s := s) hx hflag delivered dropped refused
    have hw := hf.waiting_of_offered hx
    -- what cannot be read does not wait, but it is deleted all the same
    refine ⟨?_, .inl ?_⟩
    · show WalkOp.Fits [] (a.read ++ _) _ _
      rw [hr]
      exact WalkOp.fits_delete hf.1 hx
    · show a.waiting ++ List.filter _ _ = _
      have hunread : ¬ s.cipher.reads x = true := by
        rw [Cipher.not_reads_of_open ho]
        exact Bool.false_ne_true
      rw [hr, hw, List.filter_cons_of_neg hunread]
      rfl
  | @walkOn op op' store delivered dropped refused hx ho =>
    rw [account_of_reads_nil now (reads_of_not_offered (.inr hx) _ _ _)]
    refine ⟨WalkOp.fits_step hf.1 ho, hf.2.imp_right fun ⟨r, hr⟩ => ?_⟩
    subst hr
    cases ho
  | walked hr hover => obtain rfl | ⟨r', rfl⟩ := hover <;> trivial
  | recount => exact fits_recount _ _
  | recountOn ho => exact RecountOp.fits_step hf ho
  | recounted hr => trivial

/-- What a step makes of the committed entries: nothing waits when a batch is removed by its keys,
    or when a walk is committed that has deleted what the pass has read. -/
theorem table_cases (hp : Step s h p p' store) (hf : p.Fits s a h.store.files) :
    store.table = h.store.table ∨
      a.waiting = [] ∧
        ((1 < s.batchSize ∧ ∃ keys, (∀ key, key ∈ keys ↔ key ∈ a.read.map Entry.key) ∧
            store.table = (RemovalOp.eraseKeys keys h.store.table).1) ∨
          h.store.table.toList = a.read ++ store.table.toList) := by
  cases hp with
  | remove ho =>
    obtain ⟨hbatch, hw, keys, hkeys, hf⟩ := hf
    rcases RemovalOp.table_step hf ho with htable | htable
    · exact .inl htable
    · exact .inr ⟨hw, .inl ⟨hbatch, keys, hkeys, htable⟩⟩
  | stop hx hflag => exact .inl (WalkOp.table_answer _ _ _)
  | drop hx hflag ho => exact .inl (WalkOp.table_answer _ _ _)
  | walkOn hx ho =>
    rcases WalkOp.table_step hf.1 ho with htable | ⟨rest, htable, hrest⟩
    · exact .inl htable
    · rcases hf.2 with hw | ⟨r, rfl⟩
      · -- the walk has kept nothing, so what is left is what it has not come to
        refine .inr ⟨hw, .inr ?_⟩
        rw [htable, hrest, List.nil_append]
      · cases ho
  | recountOn ho => exact .inl (RecountOp.table_step ho)
  | _ => exact .inl rfl

/-- What a pass removes it has read, or it is under the key of what it has read; and nothing waits
    any more then. -/
theorem removes (hp : Step s h p p' store) (hf : p.Fits s a h.store.files) {x : Entry}
    (hx : x ∈ h.store.table.toList) (hgone : x ∉ store.table.toList) :
    a.waiting = [] ∧ x.key ∈ a.read.map Entry.key ∧ (¬ 1 < s.batchSize → x ∈ a.read) := by
  rcases hp.table_cases hf with htable | ⟨hw, ⟨hbatch, keys, hkeys, htable⟩ | htable⟩
  · rw [htable] at hgone
    exact absurd hx hgone
  · -- a batch goes by its keys, whatever is under them by now
    have hkey : x.key ∈ keys := by
      by_contra hne
      rw [htable, RemovalOp.mem_eraseKeys_iff] at hgone
      exact hgone ⟨hx, fun hmem => absurd hmem hne⟩
    exact ⟨hw, (hkeys _).1 hkey, fun hsingle => absurd hbatch hsingle⟩
  · -- under the lock, what goes is what has been read
    rw [htable] at hx
    have hread := (List.mem_append.1 hx).resolve_right hgone
    exact ⟨hw, List.mem_map_of_mem hread, fun _ => hread⟩

/-- A pass puts nothing into the store. -/
theorem mem_of_mem (hp : Step s h p p' store) (hf : p.Fits s a h.store.files) {x : Entry}
    (hx : x ∈ store.table.toList) : x ∈ h.store.table.toList := by
  rcases hp.table_cases hf with htable | ⟨-, ⟨-, keys, -, htable⟩ | htable⟩
  · rwa [htable] at hx
  · rw [htable, RemovalOp.mem_eraseKeys_iff] at hx
    exact hx.1
  · rw [htable]
    exact List.mem_append_right _ hx

end Step

/-- A pass reads what is committed. -/
theorem Fits.mem_reads (hf : p.Fits s a h.store.files) {x : Entry} (hx : x ∈ p.reads s h) :
    x ∈ h.store.table.toList := by
  cases p with
  | starting =>
    obtain ⟨n, hn⟩ := reads_starting s h
    rw [hn] at hx
    exact List.mem_of_mem_take hx
  | walking op delivered dropped refused =>
    rcases hf.reads_walking with hnone | ⟨y, rest, -, hy, htable⟩
    · rw [hnone] at hx
      cases hx
    · rw [hy] at hx
      rw [List.mem_singleton.1 hx, htable]
      exact List.mem_append_right _ (List.mem_cons_self ..)
  | _ => cases hx

/-- What a pass reads it has not read before. -/
theorem Fits.nodup_reads (hf : p.Fits s a h.store.files) (hnd : (a.read.map Entry.key).Nodup)
    (now : Nat) : ((p.account s h now a).read.map Entry.key).Nodup := by
  cases p with
  | starting =>
    obtain ⟨n, hn⟩ := reads_starting s h
    show (([] ++ starting.reads s h).map Entry.key).Nodup
    rw [hn]
    exact h.store.table.nodup_keys.sublist ((List.take_sublist _ _).map _)
  | walking op delivered dropped refused =>
    rcases hf.reads_walking with hnone | ⟨y, rest, -, hy, htable⟩
    · rw [account_of_reads_nil _ hnone]
      exact hnd
    · have hsub : (a.read ++ [y]).Sublist h.store.table.toList := by
        rw [htable]
        exact (List.Sublist.refl _).append (List.singleton_sublist.2 (List.mem_cons_self ..))
      show ((a.read ++ (walking op delivered dropped refused).reads s h).map Entry.key).Nodup
      rw [hy]
      exact h.store.table.nodup_keys.sublist (hsub.map _)
  | _ =>
    rw [account_of_reads_nil _ rfl]
    exact hnd

/-- The account of a pass stays sound when the pass reads. -/
theorem Fits.sound (hf : p.Fits s a h.store.files) {history : List Occurrence}
    (hs : a.Sound s.cipher h.store.table (history.drop a.since)) :
    (p.account s h history.length a).Sound s.cipher h.store.table
      (history.drop (p.account s h history.length a).since) := by
  have hbefore : (p.before history.length a).Sound s.cipher h.store.table
      (history.drop (p.before history.length a).since) := by
    cases p with
    | starting => exact Account.sound_opened _ _ _ _
    | _ => exact hs
  exact hbefore.see (hf.nodup_reads hs.nodup _) fun x hx => hf.mem_reads hx

/-- What a pass has read it had read before, or it is in the store. -/
theorem Fits.mem_read (hf : p.Fits s a h.store.files) (now : Nat) {x : Entry}
    (hx : x ∈ (p.account s h now a).read) : x ∈ a.read ∨ x ∈ h.store.table.toList := by
  rcases List.mem_append.1 hx with hx | hx
  · left
    cases p with
    | starting => cases hx
    | _ => exact hx
  · exact .inr (hf.mem_reads hx)

/-- The events of a call are those of the entries that have waited longest. -/
theorem Fits.opens (hf : p.Fits s a f) {events : List Event} (hc : p.call? = some events) :
    Opens s.cipher (a.waiting.take events.length) events := by
  cases p with
  | delivering calls delivered dropped keys =>
    cases calls with
    | nil => cases hc
    | cons call calls =>
      cases hc
      have ho := hf.2.1
      rw [List.flatten_cons] at ho
      exact ho.take_left
  | offering op event delivered dropped =>
    cases hc
    obtain ⟨seen, x, -, -, -, hw, ho⟩ := hf
    rw [hw]
    show [s.cipher.openEvent x.value] = [.ok event]
    rw [ho]
  | _ => cases hc

/-! ### Answers -/

namespace Reply

variable {r : SinkAnswer} {events : List Event} {store' : Store}

/-- So does an answer of the sink. -/
theorem turn (hp : Reply store r events p p' store') (hf : p.Fits s a store.files) :
    store.files.Turn p.holds p'.holds store'.files := by
  cases hp with
  | take => exact WalkOp.turn_answer _ _ _
  | restore => exact WalkOp.turn_answer _ _ _
  | fall =>
    obtain ⟨seen, x, hx, -⟩ := hf
    show store.files.Turn (WalkOp.holds _) false _
    rw [WalkOp.holds_of_offered hx]
    exact .leave
  | _ => exact .stay rfl

/-- An answer commits nothing. -/
theorem table_eq (hp : Reply store r events p p' store') : store'.table = store.table := by
  cases hp with
  | take => exact WalkOp.table_answer _ _ _
  | restore => exact WalkOp.table_answer _ _ _
  | _ => rfl

end Reply

/-- The account of a pass after an answer for some events. -/
def answered (r : SinkAnswer) (events : List Event) (a : Account) : Account :=
  match r with
  | .accepted => a.accept events.length
  | _ => a

namespace Reply

variable {r : SinkAnswer} {events : List Event} {store' : Store}

/-- Only a pass that has called the sink gets an answer. -/
theorem call_eq (hp : Reply store r events p p' store') : p.call? = some events := by
  cases hp <;> rfl

/-- The events of the call are those of the entries that wait, from the first one on. -/
theorem opens (hp : Reply store r events p p' store') (hf : p.Fits s a f) :
    Opens s.cipher (a.waiting.take events.length) events :=
  hf.opens hp.call_eq

/-- An answer keeps the account of the pass up. -/
theorem fits (hp : Reply store r events p p' store') (hf : p.Fits s a store.files) :
    p'.Fits s (answered r events a) store'.files := by
  cases hp with
  | next more =>
    obtain ⟨hbatch, ho, hkeys⟩ := hf
    rw [List.flatten_cons] at ho
    exact ⟨hbatch, ho.drop_left, hkeys⟩
  | last =>
    obtain ⟨hbatch, ho, hkeys⟩ := hf
    rw [List.flatten_cons] at ho
    exact ⟨hbatch, ho.drop_left.eq_nil, hkeys⟩
  | refuse => trivial
  | die => trivial
  | take =>
    obtain ⟨seen, x, hx, hf, hread, hw, ho⟩ := hf
    refine ⟨?_, .inl ?_⟩
    · show WalkOp.Fits [] a.read _ _
      rw [hread]
      exact WalkOp.fits_delete hf hx
    · show a.waiting.drop 1 = []
      rw [hw]
      rfl
  | @restore e op event delivered dropped =>
    obtain ⟨seen, x, hx, -⟩ := hf
    obtain ⟨rest, visited, deleted, rfl⟩ := WalkOp.offered?_eq_some_iff.1 hx
    -- the walk is aborted, so nothing is asked of it any more
    exact ⟨trivial, .inr ⟨_, rfl⟩⟩
  | fall => trivial

/-- The account of a pass stays sound when the sink accepts, and the acceptance is recorded. -/
theorem sound (hp : Reply store .accepted events p p' store') (hf : p.Fits s a f) {t : Table}
    {history : List Occurrence} (hsince : a.since ≤ history.length)
    (hs : a.Sound s.cipher t (history.drop a.since)) :
    (a.accept events.length).Sound s.cipher t
      ((history ++ [Occurrence.accepted s.cipher (a.waiting.take events.length) events]).drop
        (a.accept events.length).since) := by
  rw [show (a.accept events.length).since = a.since from rfl,
    List.drop_append_of_le_length hsince]
  exact hs.accept (hp.opens hf)

end Reply

end Outbox.Pass
