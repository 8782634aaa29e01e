import Outbox.Proofs.Forwarder.Account

namespace Outbox

/-!
# Passes that nobody disturbs

A pass that nothing comes between, before a sink that accepts whatever it is given:

* `Pass.Alone` — the calls by which such a pass hands events over, what it comes to, and what it
  makes of the hub.
* `Pass.Alone.unique` — there is only one way for it to go.
* `Hub.Lone` — nothing goes wrong, nobody is to stop, and the lock is free or held by the pass.
* `Round.covering` — what a pass over some entries is to come to.
* `Pass.comes_of_batch`, `Pass.comes_of_single`, `Pass.comes_of_nothing` — this is what it comes to,
  with a batch size and without one.
-/

/-! ### One pass -/

namespace Pass

/-- A pass that nobody disturbs, before a sink that accepts: the calls to come, the result, and the
    hub in the end. -/
inductive Alone (s : Forwarder.Settings) :
    Pass → Hub → List (List Event) → Except Error Outcome → Hub → Prop
  | ended {r : Except Error Outcome} {h : Hub} : Alone s (.ended r) h [] r h
  | step {p p' : Pass} {h h' g : Hub} {calls : List (List Event)} {r : Except Error Outcome}
      (hp : p.step s h = some (p', h')) (next : Alone s p' h' calls r g) : Alone s p h calls r g
  | answer {p : Pass} {h g : Hub} {events : List Event} {calls : List (List Event)}
      {r : Except Error Outcome} (hc : p.call? = some events)
      (next : Alone s (p.answer .accepted h).1 (p.answer .accepted h).2 calls r g) :
      Alone s p h (events :: calls) r g

variable {s : Forwarder.Settings} {p : Pass} {h g g' : Hub} {calls calls' : List (List Event)}
  {r r' : Except Error Outcome}

/-- A pass that waits for the sink takes no step. -/
theorem step_of_call {events : List Event} (hc : p.call? = some events) : p.step s h = none := by
  cases p <;> first | rfl | cases hc

/-- There is only one way for such a pass to go. -/
theorem Alone.unique (hp : Alone s p h calls r g) (hp' : Alone s p h calls' r' g') :
    calls' = calls ∧ r' = r ∧ g' = g := by
  induction hp generalizing calls' r' g' with
  | ended =>
    cases hp' with
    | ended => exact ⟨rfl, rfl, rfl⟩
    | step hp next => cases hp
    | answer hc next => cases hc
  | step hp next ih =>
    cases hp' with
    | ended => cases hp
    | step hp₁ next₁ =>
      rw [hp] at hp₁
      cases hp₁
      exact ih next₁
    | answer hc next₁ =>
      rw [step_of_call hc] at hp
      cases hp
  | answer hc next ih =>
    cases hp' with
    | ended => cases hc
    | step hp next₁ =>
      rw [step_of_call hc] at hp
      cases hp
    | answer hc₁ next₁ =>
      rw [hc] at hc₁
      cases hc₁
      obtain ⟨rfl, rfl, rfl⟩ := ih next₁
      exact ⟨rfl, rfl, rfl⟩

end Pass

/-! ### What entries open to -/

namespace Cipher

/-- The events of the readable entries, in order. -/
def openAll (c : Cipher) (xs : List Entry) : List Event :=
  xs.filterMap fun x => (c.openEvent x.value).toOption

/-- How many entries cannot be read. -/
def unreadable (c : Cipher) (xs : List Entry) : Nat := xs.countP fun x => !c.reads x

variable {c : Cipher} {x : Entry} {xs : List Entry}

/-- The events of entries one after another. -/
theorem openAll_append (c : Cipher) (xs ys : List Entry) :
    c.openAll (xs ++ ys) = c.openAll xs ++ c.openAll ys := List.filterMap_append

/-- The unreadable ones among entries one after another. -/
theorem unreadable_append (c : Cipher) (xs ys : List Entry) :
    c.unreadable (xs ++ ys) = c.unreadable xs + c.unreadable ys := List.countP_append

/-- An entry that can be read gives its event. -/
theorem openAll_of_open {event : Event} (h : c.openEvent x.value = .ok event) :
    c.openAll (x :: xs) = event :: c.openAll xs :=
  List.filterMap_cons_some (by rw [h]; rfl)

/-- An entry that cannot be read gives none. -/
theorem openAll_of_error {fault : Error} (h : c.openEvent x.value = .error fault) :
    c.openAll (x :: xs) = c.openAll xs :=
  List.filterMap_cons_none (by rw [h]; rfl)

/-- An entry that can be read is not counted as unreadable. -/
theorem unreadable_of_open {event : Event} (h : c.openEvent x.value = .ok event) :
    c.unreadable (x :: xs) = c.unreadable xs :=
  List.countP_cons_of_neg (by rw [reads_of_open h]; exact Bool.false_ne_true)

/-- An entry that cannot be read is. -/
theorem unreadable_of_error {fault : Error} (h : c.openEvent x.value = .error fault) :
    c.unreadable (x :: xs) = c.unreadable xs + 1 :=
  List.countP_cons_of_pos (by rw [not_reads_of_open h]; rfl)

end Cipher

/-! ### Hubs in which nothing goes wrong -/

/-- Nothing goes wrong, nobody is to stop, the store is open and holds some entries, and the lock is
    free or held with a working copy. -/
structure Hub.Lone (style : SinkStyle) (t : Table) (w : Option Table) (h : Hub) : Prop where
  faults : h.faults = .none
  style : h.style = style
  down : h.flag = false
  isOpen : h.store.closed = false
  table : h.store.table = t
  writer : h.store.writer = w

namespace Hub.Lone

variable {style : SinkStyle} {t : Table} {w : Option Table} {h : Hub}

/-- Only the counters, the wake-ups, the commits and the journal are left open. -/
theorem exists_eq (hl : h.Lone style t w) :
    ∃ (counter : Int) (puts deletes failed mapSize : Nat) (wake : Wakeups) (commits : Commits)
      (journal : Journal),
      h = ⟨⟨t, w, counter, puts, deletes, failed, false, mapSize⟩, .none, style, false, wake,
        commits, journal⟩ := by
  obtain ⟨⟨table, writer, counter, puts, deletes, failed, closed, mapSize⟩, faults, style', flag,
    wake, commits, journal⟩ := h
  obtain ⟨rfl, rfl, rfl, rfl, rfl, rfl⟩ := hl
  exact ⟨_, _, _, _, _, _, _, _, rfl⟩

/-- A report does not disturb anything. -/
theorem report (hl : h.Lone style t w) (j : Journal) : (h.report j).Lone style t w :=
  ⟨hl.faults, hl.style, hl.down, hl.isOpen, hl.table, hl.writer⟩

end Hub.Lone

namespace Pass

/-- A pass that nobody disturbs comes to an end, and to a hub of a kind. -/
def Comes (s : Forwarder.Settings) (p : Pass) (h : Hub) (calls : List (List Event))
    (r : Except Error Outcome) (Q : Hub → Prop) : Prop :=
  ∃ g, Alone s p h calls r g ∧ Q g

variable {s : Forwarder.Settings} {p p' : Pass} {h h' : Hub} {calls : List (List Event)}
  {r : Except Error Outcome} {Q : Hub → Prop} {style : SinkStyle} {t w : Table}

/-- A pass that has ended has come to its end. -/
theorem Comes.ended (hq : Q h) : Comes s (.ended r) h [] r Q := ⟨h, .ended, hq⟩

/-- A pass comes to a hub of any kind that holds of where it comes to. -/
theorem Comes.mono {Q' : Hub → Prop} (hq : ∀ g, Q g → Q' g) (hp : Comes s p h calls r Q) :
    Comes s p h calls r Q' := by
  obtain ⟨g, hg, h⟩ := hp
  exact ⟨g, hg, hq g h⟩

/-- A pass comes to where it comes after its next step. -/
theorem Comes.step (hp : p.step s h = some (p', h')) (next : Comes s p' h' calls r Q) :
    Comes s p h calls r Q := by
  obtain ⟨g, hg, hq⟩ := next
  exact ⟨g, hg.step hp, hq⟩

/-- A pass comes to where it comes after an answer that accepts. -/
theorem Comes.answer {events : List Event} (hc : p.call? = some events)
    (next : Comes s (p.answer .accepted h).1 (p.answer .accepted h).2 calls r Q) :
    Comes s p h (events :: calls) r Q := by
  obtain ⟨g, hg, hq⟩ := next
  exact ⟨g, hg.answer hc, hq⟩

/-- A pass that has found nothing sets the counter right. -/
theorem comes_of_emptied (hl : h.Lone style t none) :
    Comes s .emptied h [] (.ok .empty) fun g => g.Lone style t none ∧ g.store.count = t.size := by
  obtain ⟨_, _, _, _, _, _, _, _, rfl⟩ := hl.exists_eq
  -- enter, lock, count, store, unlock, and conclude
  exact .step rfl <| .step rfl <| .step rfl <| .step rfl <| .step rfl <| .step rfl <|
    .step rfl <| .ended ⟨⟨rfl, rfl, rfl, rfl, rfl, rfl⟩, Store.count_of_eq rfl⟩

/-! ### Removing what has been taken over -/

/-- Whatever a removal has done, the pass commits it. -/
theorem comes_of_committing (hl : h.Lone style t (some w))
    (removed expected delivered dropped : Nat) :
    Comes s (.removing (.committing removed) expected delivered dropped) h []
      (.ok (.delivered delivered dropped)) (Hub.Lone style w none) := by
  obtain ⟨_, _, _, _, _, _, _, _, rfl⟩ := hl.exists_eq
  have hend : ∀ (n : Nat) (h : Hub), h.Lone style w none →
      Comes s (.removing (.done (.ok n)) expected delivered dropped) h []
        (.ok (.delivered delivered dropped)) (Hub.Lone style w none) := by
    intro n h hl
    refine .step rfl (.ended (.report ?_ _))
    split
    · exact hl.report _
    · exact hl
  cases removed with
  | zero => exact .step rfl (hend _ _ ⟨rfl, rfl, rfl, rfl, rfl, rfl⟩)
  | succ n => exact .step rfl <| .step rfl <| .step rfl (hend _ _ ⟨rfl, rfl, rfl, rfl, rfl, rfl⟩)

/-- A pass whose events have been taken over removes its keys. -/
theorem comes_of_clearing {keys : List Bytes} (hl : h.Lone style t none) (hk : keys ≠ [])
    (delivered dropped : Nat) :
    Comes s (.clearing delivered dropped keys) h [] (.ok (.delivered delivered dropped))
      (Hub.Lone style (RemovalOp.eraseKeys keys t).1 none) := by
  obtain ⟨_, _, _, _, _, _, _, _, rfl⟩ := hl.exists_eq
  obtain ⟨key, keys, rfl⟩ := List.exists_cons_of_ne_nil hk
  -- begin, enter, lock and erase
  exact .step rfl <| .step rfl <| .step rfl <| .step rfl <|
    comes_of_committing ⟨rfl, rfl, rfl, rfl, rfl, rfl⟩ _ _ _ _

/-- A pass hands its events over call by call. -/
theorem comes_of_delivering {keys : List Bytes} (hl : h.Lone style t none) (hk : keys ≠ [])
    (hc : calls ≠ []) (delivered dropped : Nat) :
    Comes s (.delivering calls delivered dropped keys) h calls (.ok (.delivered delivered dropped))
      (Hub.Lone style (RemovalOp.eraseKeys keys t).1 none) := by
  induction calls with
  | nil => exact absurd rfl hc
  | cons events calls ih =>
    refine .answer rfl ?_
    -- the answer to the last call lets the pass remove its keys
    cases calls with
    | nil => exact comes_of_clearing hl hk delivered dropped
    | cons more calls => exact ih (List.cons_ne_nil _ _)

/-! ### Walking over all entries -/

/-- A walk hands the readable entries over one by one and drops the others. -/
theorem comes_of_walking {rest : List Entry} {n : Nat} (hl : h.Lone style t (some w))
    (hw : w.toList = rest) (hsome : 0 < n + rest.length) (delivered dropped : Nat) :
    Comes s (.walking (.walking rest n n) delivered dropped false) h
      (SinkStyle.each.calls (s.cipher.openAll rest))
      (.ok (.delivered (delivered + (s.cipher.openAll rest).length)
        (dropped + s.cipher.unreadable rest)))
      (Hub.Lone style .empty none) := by
  induction rest generalizing h w n delivered dropped with
  | nil =>
    obtain ⟨_, _, _, _, _, _, _, _, rfl⟩ := hl.exists_eq
    obtain rfl : w = .empty := Table.ext_toList hw
    obtain ⟨n, rfl⟩ := Nat.exists_eq_add_one.2 hsome
    -- the walk ends, commits, lowers the count and raises the deletes
    exact .step rfl <| .step rfl <| .step rfl <| .step rfl <| .step rfl <|
      .ended ⟨rfl, rfl, rfl, rfl, rfl, rfl⟩
  | cons x rest ih =>
    have hw : w.toList = [] ++ x :: rest := hw
    have hw' : (w.erase x.key).toList = rest := Table.toList_erase_middle hw
    have hmore : 0 < n + 1 + rest.length := by omega
    -- the working copy after the entry has been deleted
    have hdel : Hub.Lone style t (some (w.erase x.key))
        { h with store := { h.store with writer := some (h.store.working.erase x.key) } } := by
      refine ⟨hl.faults, hl.style, hl.down, hl.isOpen, hl.table, ?_⟩
      show some (h.store.working.erase x.key) = _
      unfold Store.working
      rw [hl.writer]
      rfl
    have hdown : ¬ h.flag = true := by simp [hl.down]
    cases ho : s.cipher.openEvent x.value with
    | ok event =>
      have hstep : (walking (.walking (x :: rest) n n) delivered dropped false).step s h =
          some (offering (.walking (x :: rest) n n) event delivered dropped, h) := by
        show some (look _ _ _ _ _ _) = _
        unfold look
        rw [if_neg hdown, ho]
      have hrest := ih hdel hw' hmore (delivered + 1) dropped
      rw [Nat.add_assoc, Nat.add_comm 1] at hrest
      rw [Cipher.openAll_of_open ho, Cipher.unreadable_of_open ho]
      exact .step hstep (.answer rfl hrest)
    | error fault =>
      have hstep : (walking (.walking (x :: rest) n n) delivered dropped false).step s h =
          some (walking (.walking rest (n + 1) (n + 1)) delivered (dropped + 1) false,
            Hub.report { h with store := { h.store with
              writer := some (h.store.working.erase x.key) } }
              [.incident (.unreadableEntry x.key fault)]) := by
        show some (look _ _ _ _ _ _) = _
        unfold look
        rw [if_neg hdown, ho]
        rfl
      have hrest := ih (hdel.report [.incident (.unreadableEntry x.key fault)]) hw' hmore delivered
        (dropped + 1)
      rw [Nat.add_assoc, Nat.add_comm 1] at hrest
      rw [Cipher.openAll_of_error ho, Cipher.unreadable_of_error ho]
      exact .step hstep hrest

end Pass

/-! ### Batches -/

namespace RemovalOp

/-- Erasing keys leaves the entries with other keys in their places. -/
theorem toList_eraseKeys {keys : List Bytes} (hk : [] ∉ keys) (t : Table) :
    (eraseKeys keys t).1.toList = t.toList.filter fun e => e.key ∉ keys := by
  induction keys generalizing t with
  | nil => simp [eraseKeys]
  | cons k keys ih =>
    rw [List.mem_cons, not_or] at hk
    simp only [eraseKeys]
    rw [if_neg (Ne.symm hk.1)]
    split
    · show (eraseKeys keys (t.erase k)).1.toList = _
      rw [ih hk.2, Table.toList_erase, List.filter_filter]
      refine List.filter_congr fun x hx => ?_
      by_cases hxk : x.key = k <;> simp [hxk]
    · next hc =>
      -- there is nothing under the key
      rw [ih hk.2]
      refine List.filter_congr fun x hx => ?_
      have hne : x.key ≠ k := fun heq => hc (Table.contains_iff.2 ⟨x, hx, heq⟩)
      simp [hne]

/-- Erasing the keys of the first entries leaves the other entries. -/
theorem toList_eraseKeys_append {t : Table} {xs ys : List Entry} {keys : List Bytes}
    (ht : t.toList = xs ++ ys) (hk : [] ∉ keys)
    (hkeys : ∀ key, key ∈ keys ↔ key ∈ xs.map Entry.key) :
    (eraseKeys keys t).1.toList = ys := by
  have hnd := t.nodup_keys
  rw [ht, List.map_append] at hnd
  rw [toList_eraseKeys hk, ht, List.filter_append]
  have hxs : (xs.filter fun e => e.key ∉ keys) = [] := by
    refine List.filter_eq_nil_iff.2 fun x hx => ?_
    simpa using (hkeys _).2 (List.mem_map_of_mem hx)
  have hys : (ys.filter fun e => e.key ∉ keys) = ys := by
    refine List.filter_eq_self.2 fun y hy => ?_
    simpa using fun hin => List.disjoint_of_nodup_append hnd ((hkeys _).1 hin)
      (List.mem_map_of_mem hy)
  rw [hxs, hys, List.nil_append]

end RemovalOp

namespace Pass

variable {c : Cipher} {xs : List Entry}

/-- Sorting gives the events of the entries that can be read. -/
theorem openAll_eq_sort : c.openAll xs = (sort c xs).1.map Prod.snd := by
  induction xs with
  | nil => rfl
  | cons x xs ih =>
    cases ho : c.openEvent x.value with
    | ok event =>
      rw [Cipher.openAll_of_open ho, (sort_of_open xs ho).1, ih]
      rfl
    | error fault => rw [Cipher.openAll_of_error ho, (sort_of_error xs ho).1, ih]

/-- Sorting gives the keys of the entries that cannot be read. -/
theorem unreadable_eq_sort : c.unreadable xs = (sort c xs).2.1.length := by
  induction xs with
  | nil => rfl
  | cons x xs ih =>
    cases ho : c.openEvent x.value with
    | ok event => rw [Cipher.unreadable_of_open ho, (sort_of_open xs ho).2, ih]
    | error fault =>
      rw [Cipher.unreadable_of_error ho, (sort_of_error xs ho).2, ih]
      rfl

end Pass

/-! ### What a pass is to come to -/

/-- What came of a pass: the calls of the sink, the result, and the entries that were left. -/
structure Round where
  calls : List (List Event)
  result : Except Error Outcome
  left : List Entry

namespace Round

/-- A pass over some entries. -/
def covering (c : Cipher) (style : SinkStyle) (entries left : List Entry) : Round :=
  ⟨if (c.openAll entries).isEmpty then [] else style.calls (c.openAll entries),
    .ok (.delivered (c.openAll entries).length (c.unreadable entries)), left⟩

/-- The last one, which found nothing. -/
def last : Round := ⟨[], .ok .empty, []⟩

/-- How many entries a pass has dropped. -/
def dropped (r : Round) : Nat :=
  match r.result with
  | .ok (.delivered _ dropped) => dropped
  | _ => 0

end Round

namespace Pass

variable {s : Forwarder.Settings} {h : Hub} {style : SinkStyle} {t : Table}

/-- A pass that has scanned entries hands them over and removes their keys. -/
theorem comes_of_sorted {xs : List Entry} (hl : h.Lone style t none) (hsome : xs ≠ [])
    (ys : List Entry) :
    Comes s (scanned s.cipher style xs).1 h (Round.covering s.cipher style xs ys).calls
      (Round.covering s.cipher style xs ys).result
      (Hub.Lone style (RemovalOp.eraseKeys
        ((sort s.cipher xs).1.map Prod.fst ++ (sort s.cipher xs).2.1) t).1 none) := by
  have hne : (sort s.cipher xs).1.map Prod.fst ++ (sort s.cipher xs).2.1 ≠ [] := by
    obtain ⟨x, xs, rfl⟩ := List.exists_cons_of_ne_nil hsome
    exact List.ne_nil_of_mem (mem_keys_sort.2 List.mem_cons_self : x.key ∈ _)
  unfold scanned Round.covering
  rw [if_neg (by simpa using hsome), openAll_eq_sort, unreadable_eq_sort]
  dsimp only
  split
  · next hnone =>
    rw [List.isEmpty_iff.1 hnone]
    exact comes_of_clearing hl hne _ _
  · next hevents =>
    have hcalls : style.calls ((sort s.cipher xs).1.map Prod.snd) ≠ [] := by
      intro hnil
      have hflat := style.flatten_calls ((sort s.cipher xs).1.map Prod.snd)
      rw [hnil] at hflat
      exact hevents (by rw [← hflat]; rfl)
    exact comes_of_delivering hl hne hcalls _ _

/-- Removing the keys of the first entries of a table leaves the other entries, unless there is one
    without a key. -/
theorem toList_eraseKeys_sort {xs ys : List Entry} (c : Cipher) (ht : t.toList = xs ++ ys)
    (hkeys : ∀ x ∈ t.toList, x.key ≠ []) :
    (RemovalOp.eraseKeys ((sort c xs).1.map Prod.fst ++ (sort c xs).2.1) t).1.toList = ys := by
  refine RemovalOp.toList_eraseKeys_append ht ?_ fun key => mem_keys_sort
  -- the keys that are to be removed are those of the entries
  intro hin
  obtain ⟨x, hx, hxk⟩ := List.mem_map.1 (mem_keys_sort.1 hin)
  exact hkeys x (ht ▸ List.mem_append_left _ hx) hxk

/-- A pass that has scanned the first entries hands them over and removes them. -/
theorem comes_of_scanned {xs ys : List Entry} (hl : h.Lone style t none)
    (ht : t.toList = xs ++ ys) (hkeys : ∀ x ∈ t.toList, x.key ≠ []) (hsome : xs ≠ []) :
    Comes s (scanned s.cipher style xs).1 h (Round.covering s.cipher style xs ys).calls
      (Round.covering s.cipher style xs ys).result
      fun g => ∃ t' : Table, t'.toList = ys ∧ g.Lone style t' none :=
  (comes_of_sorted hl hsome ys).mono fun _ hg => ⟨_, toList_eraseKeys_sort s.cipher ht hkeys, hg⟩

/-- With a batch size, a pass begins with a scan. -/
theorem step_starting_of_batch (batch : 1 < s.batchSize) (hl : h.Lone style t none) :
    starting.step s h = some
      ((scanned s.cipher style (t.toList.take s.batchSize)).1,
        h.report (scanned s.cipher style (t.toList.take s.batchSize)).2) := by
  have hscan : h.faults.scan h.store s.batchSize = .ok (t.toList.take s.batchSize) := by
    rw [hl.faults, Faults.scan_none, ← hl.table]
    unfold Store.scan
    rw [if_neg (by simp [hl.isOpen])]
  simp only [step, if_pos batch, hscan, hl.style]

/-- It covers the first entries. -/
theorem comes_of_batch (batch : 1 < s.batchSize) (hl : h.Lone style t none)
    (hkeys : ∀ x ∈ t.toList, x.key ≠ []) (hsome : t.toList ≠ []) {r : Round}
    (hr : r = .covering s.cipher style (t.toList.take s.batchSize) (t.toList.drop s.batchSize)) :
    Comes s .starting h r.calls r.result
      fun g => ∃ t' : Table, t'.toList = r.left ∧ g.Lone style t' none := by
  subst hr
  have htake : t.toList.take s.batchSize ≠ [] := by
    rw [Ne, List.take_eq_nil_iff]
    rintro (hzero | hnil)
    · omega
    · exact hsome hnil
  exact .step (step_starting_of_batch batch hl)
    (comes_of_scanned (hl.report _) (List.take_append_drop _ _).symm hkeys htake)

/-- Without a batch size, a pass begins a walk under the lock. -/
theorem comes_of_walk {calls : List (List Event)} {r : Except Error Outcome} {Q : Hub → Prop}
    (single : ¬ 1 < s.batchSize) (hl : h.Lone style t none)
    (next : ∀ g : Hub, g.Lone style t (some t) →
      Comes s (.walking (.walking t.toList 0 0) 0 0 false) g calls r Q) :
    Comes s .starting h calls r Q := by
  obtain ⟨_, _, _, _, _, _, _, _, rfl⟩ := hl.exists_eq
  exact .step (if_neg single) <| .step rfl <| .step rfl <| next _ ⟨rfl, rfl, rfl, rfl, rfl, rfl⟩

/-- It covers all entries. -/
theorem comes_of_single (single : ¬ 1 < s.batchSize) (hl : h.Lone style t none)
    (hsome : t.toList ≠ []) {r : Round} (hr : r = .covering s.cipher .each t.toList []) :
    Comes s .starting h r.calls r.result (Hub.Lone style .empty none) := by
  subst hr
  refine comes_of_walk single hl fun g hg => ?_
  have hpos : 0 < 0 + t.toList.length := by
    have := List.length_pos_iff.2 hsome
    omega
  have hwalk := comes_of_walking (s := s) hg rfl hpos 0 0
  rw [Nat.zero_add, Nat.zero_add] at hwalk
  unfold Round.covering
  dsimp only
  split
  · next hnone =>
    rw [List.isEmpty_iff.1 hnone] at hwalk ⊢
    exact hwalk
  · exact hwalk

/-- A pass over nothing finds nothing. -/
theorem comes_of_nothing (hl : h.Lone style .empty none) :
    Comes s .starting h [] (.ok .empty) fun g => g.Lone style .empty none ∧ g.store.count = 0 := by
  by_cases batch : 1 < s.batchSize
  · have hstep := step_starting_of_batch batch hl
    rw [Table.toList_empty, List.take_nil] at hstep
    exact .step hstep (comes_of_emptied (hl.report _))
  · refine comes_of_walk batch hl fun g hg => ?_
    obtain ⟨_, _, _, _, _, _, _, _, rfl⟩ := hg.exists_eq
    -- the walk ends, commits nothing, and has visited nothing
    exact .step rfl <| .step rfl <| .step rfl <|
      comes_of_emptied ⟨rfl, rfl, rfl, rfl, rfl, rfl⟩

end Pass

end Outbox
