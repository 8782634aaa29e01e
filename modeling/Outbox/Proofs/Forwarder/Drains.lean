import Mathlib.Algebra.GroupWithZero.Nat
import Outbox.Proofs.Forwarder.Alone

namespace Outbox

/-!
# Pass after pass

Passes that nobody disturbs, before a sink that accepts whatever it is given:

* `Forwarder.Drains` — one pass after the other until one finds nothing, and what each comes to.
* `Forwarder.Settings.plan` — the passes that some entries take.
* `Forwarder.drains_plan` — the passes are these.
* `Forwarder.forwards_all` — so the batch size changes nothing of what is forwarded.
-/

namespace Forwarder

/-- Passes that nobody disturbs, one after the other, until one finds nothing: what came of each of
    them, and the hub in the end. -/
inductive Drains (s : Settings) : Hub → List Round → Hub → Prop
  | last {h g : Hub} {calls : List (List Event)}
      (hp : Pass.Alone s .starting h calls (.ok .empty) g) :
      Drains s h [⟨calls, .ok .empty, g.store.table.toList⟩] g
  | pass {h h' g : Hub} {calls : List (List Event)} {r : Except Error Outcome}
      {rounds : List Round} (hp : Pass.Alone s .starting h calls r h') (more : r ≠ .ok .empty)
      (rest : Drains s h' rounds g) :
      Drains s h (⟨calls, r, h'.store.table.toList⟩ :: rounds) g

variable {s : Settings} {h g g' : Hub} {style : SinkStyle} {t : Table} {rounds rounds' : List Round}

/-- There is only one way for them to go. -/
theorem Drains.unique (hd : Drains s h rounds g) (hd' : Drains s h rounds' g') :
    rounds' = rounds ∧ g' = g := by
  induction hd generalizing rounds' g' with
  | last hp =>
    cases hd' with
    | last hp' =>
      obtain ⟨rfl, -, rfl⟩ := hp.unique hp'
      exact ⟨rfl, rfl⟩
    | pass hp' more =>
      obtain ⟨-, hr, -⟩ := hp.unique hp'
      exact absurd hr more
  | pass hp more rest ih =>
    cases hd' with
    | last hp' =>
      obtain ⟨-, hr, -⟩ := hp.unique hp'
      exact absurd hr.symm more
    | pass hp' more' rest' =>
      obtain ⟨rfl, rfl, rfl⟩ := hp.unique hp'
      obtain ⟨rfl, rfl⟩ := ih rest'
      exact ⟨rfl, rfl⟩

/-- A pass that comes to something, and those that come after it. -/
theorem Drains.of_comes {r : Round} {Q : Hub → Prop}
    (hp : Pass.Comes s .starting h r.calls r.result
      fun g => ∃ t' : Table, t'.toList = r.left ∧ g.Lone style t' none)
    (more : r.result ≠ .ok .empty)
    (rest : ∀ (h' : Hub) (t' : Table), t'.toList = r.left → h'.Lone style t' none →
      ∃ g, Drains s h' rounds g ∧ Q g) :
    ∃ g, Drains s h (r :: rounds) g ∧ Q g := by
  obtain ⟨h', hp, t', ht', hl⟩ := hp
  obtain ⟨g, hd, hq⟩ := rest h' t' ht' hl
  refine ⟨g, ?_, hq⟩
  have hpass := hd.pass hp more
  rwa [hl.table, ht'] at hpass

/-! ### Which passes there are -/

/-- The passes that some entries take: with a batch size, one for each batch, else one for all. -/
def Settings.plan (s : Settings) (style : SinkStyle) (xs : List Entry) : List Round :=
  if 1 < s.batchSize then
    (List.range ((xs.length + s.batchSize - 1) / s.batchSize)).map fun i =>
      .covering s.cipher style ((xs.drop (i * s.batchSize)).take s.batchSize)
        (xs.drop ((i + 1) * s.batchSize))
  else if xs.isEmpty then [] else [.covering s.cipher .each xs []]

theorem plan_nil (s : Settings) (style : SinkStyle) : s.plan style [] = [] := by
  have hpos := s.batchSize_pos
  unfold Settings.plan
  split
  · rw [List.length_nil, Nat.zero_add, Nat.div_eq_of_lt (by omega)]
    rfl
  · rfl

theorem plan_of_single (single : ¬ 1 < s.batchSize) {xs : List Entry} (hsome : xs ≠ []) :
    s.plan style xs = [.covering s.cipher .each xs []] := by
  unfold Settings.plan
  rw [if_neg single, if_neg (by simpa using hsome)]

/-- The number of batches grows by one with a batch. -/
theorem batches_eq {n b : Nat} (hn : 0 < n) (hb : 0 < b) :
    (n + b - 1) / b = (n - b + b - 1) / b + 1 := by
  have hadd : (n + b - 1) / b = (n - 1) / b + 1 := by
    rw [show n + b - 1 = n - 1 + b by omega, Nat.add_div_right _ hb]
  rw [hadd]
  by_cases hle : b ≤ n
  · rw [Nat.sub_add_cancel hle]
  · rw [Nat.div_eq_of_lt (by omega), Nat.div_eq_of_lt (by omega)]

/-- The first batch, and the others. -/
theorem plan_of_batch (batch : 1 < s.batchSize) {xs : List Entry} (hsome : xs ≠ []) :
    s.plan style xs =
      .covering s.cipher style (xs.take s.batchSize) (xs.drop s.batchSize) ::
        s.plan style (xs.drop s.batchSize) := by
  unfold Settings.plan
  rw [if_pos batch, if_pos batch, List.length_drop,
    batches_eq (List.length_pos_iff.2 hsome) (by omega : 0 < s.batchSize),
    List.range_succ_eq_map, List.map_cons, List.map_map, Nat.zero_mul, List.drop_zero,
    Nat.zero_add, Nat.one_mul]
  refine congrArg _ (List.map_congr_left fun i _ => ?_)
  have hsucc : ∀ j, (j + 1) * s.batchSize = s.batchSize + j * s.batchSize := by
    intro j
    rw [Nat.succ_mul, Nat.add_comm]
  show Round.covering _ _ ((xs.drop ((i + 1) * _)).take _) (xs.drop ((i + 1 + 1) * _)) = _
  rw [List.drop_drop, List.drop_drop, hsucc (i + 1), hsucc i]

/-- Entries can be gone through batch by batch. -/
theorem batch_induction {P : List Entry → Prop} {b : Nat} (hb : 0 < b) (nil : P [])
    (batch : ∀ xs, xs ≠ [] → P (xs.drop b) → P xs) (xs : List Entry) : P xs := by
  induction hn : xs.length using Nat.strongRecOn generalizing xs with
  | ind n ih =>
    by_cases hsome : xs = []
    · exact hsome ▸ nil
    · refine batch xs hsome (ih _ ?_ _ rfl)
      have hpos := List.length_pos_iff.2 hsome
      rw [List.length_drop]
      omega

/-! ### What they hand over -/

theorem flatten_calls_covering (c : Cipher) (style : SinkStyle) (xs left : List Entry) :
    (Round.covering c style xs left).calls.flatten = c.openAll xs := by
  unfold Round.covering
  dsimp only
  split
  · next hnone =>
    rw [List.isEmpty_iff.1 hnone]
    rfl
  · exact style.flatten_calls _

/-- No call of a pass hands over more events than there are entries. -/
theorem length_call_covering {c : Cipher} {xs left : List Entry} {call : List Event}
    (hc : call ∈ (Round.covering c style xs left).calls) : call.length ≤ xs.length := by
  have hle : (c.openAll xs).length ≤ xs.length := List.length_filterMap_le _ _
  unfold Round.covering at hc
  dsimp only at hc
  split at hc
  · cases hc
  · next hsome =>
    cases style with
    | whole =>
      rw [List.mem_singleton.1 hc]
      exact hle
    | each =>
      obtain ⟨e, he, rfl⟩ := List.mem_map.1 hc
      exact Nat.le_trans (List.length_pos_of_mem he) hle

/-- Together the passes hand over what can be read, in order, and drop the rest. -/
theorem plan_hands_over (s : Settings) (style : SinkStyle) (xs : List Entry) :
    (s.plan style xs).flatMap (fun r => r.calls.flatten) = s.cipher.openAll xs ∧
      ((s.plan style xs).map Round.dropped).sum = s.cipher.unreadable xs := by
  by_cases batch : 1 < s.batchSize
  · induction xs using batch_induction (by omega : 0 < s.batchSize) with
    | nil =>
      rw [plan_nil]
      exact ⟨rfl, rfl⟩
    | batch xs hsome ih =>
      -- the first pass covers the first batch, and the others cover the rest
      obtain ⟨hcalls, hdropped⟩ := ih
      have hxs := List.take_append_drop s.batchSize xs
      rw [plan_of_batch batch hsome, List.flatMap_cons, List.map_cons, List.sum_cons, hcalls,
        hdropped, flatten_calls_covering]
      constructor
      · rw [← Cipher.openAll_append, hxs]
      · show s.cipher.unreadable _ + _ = _
        rw [← Cipher.unreadable_append, hxs]
  · by_cases hsome : xs = []
    · rw [hsome, plan_nil]
      exact ⟨rfl, rfl⟩
    · rw [plan_of_single batch hsome, List.flatMap_singleton, flatten_calls_covering]
      exact ⟨rfl, rfl⟩

/-! ### All passes -/

/-- Over an empty store there is one pass, which finds nothing. -/
theorem drains_nothing (hl : h.Lone style .empty none) :
    ∃ g, Drains s h [.last] g ∧ g.Lone style .empty none ∧ g.store.count = 0 := by
  obtain ⟨g, hp, hg⟩ := Pass.comes_of_nothing (s := s) hl
  have hlast := Drains.last hp
  rw [hg.1.table] at hlast
  exact ⟨g, hlast, hg⟩

/-- The passes come to what they are to come to, and leave nothing. -/
theorem drains_plan (s : Settings) (hl : h.Lone style t none)
    (hkeys : ∀ x ∈ t.toList, x.key ≠ []) :
    ∃ g, Drains s h (s.plan style t.toList ++ [.last]) g ∧
      g.Lone style .empty none ∧ g.store.count = 0 := by
  have hnothing : ∀ {h : Hub} {t : Table}, t.toList = [] → h.Lone style t none →
      ∃ g, Drains s h (s.plan style t.toList ++ [.last]) g ∧
        g.Lone style .empty none ∧ g.store.count = 0 := by
    intro h t ht hl
    obtain rfl : t = .empty := Table.ext_toList ht
    rw [Table.toList_empty, plan_nil]
    exact drains_nothing hl
  by_cases batch : 1 < s.batchSize
  · induction hxs : t.toList using batch_induction (by omega : 0 < s.batchSize)
      generalizing h t with
    | nil => exact hxs ▸ hnothing hxs hl
    | batch xs hsome ih =>
      subst hxs
      rw [plan_of_batch batch hsome]
      refine Drains.of_comes (Pass.comes_of_batch batch hl hkeys hsome rfl) nofun
        fun h' t' ht' hl' => ?_
      refine ih hl' (fun x hx => hkeys x ?_) ht'
      rw [ht'] at hx
      exact List.mem_of_mem_drop hx
  · by_cases hsome : t.toList = []
    · exact hnothing hsome hl
    · rw [plan_of_single batch hsome]
      have hpass := (Pass.comes_of_single batch hl hsome rfl).mono
        fun g hg => (⟨.empty, rfl, hg⟩ : ∃ t' : Table, t'.toList = [] ∧ g.Lone style t' none)
      refine Drains.of_comes hpass nofun fun h' t' ht' hl' => ?_
      obtain rfl : t' = .empty := Table.ext_toList ht'
      exact drains_nothing hl'

/-- With a batch size, each pass covers the next batch. -/
theorem plan_batches (batch : 1 < s.batchSize) (xs : List Entry) :
    (s.plan style xs).length = (xs.length + s.batchSize - 1) / s.batchSize ∧
      ∀ (i : Nat) (r : Round), (s.plan style xs)[i]? = some r →
        r = .covering s.cipher style ((xs.drop (i * s.batchSize)).take s.batchSize)
          (xs.drop ((i + 1) * s.batchSize)) ∧
        ∀ call ∈ r.calls, call.length ≤ s.batchSize := by
  unfold Settings.plan
  rw [if_pos batch]
  refine ⟨by rw [List.length_map, List.length_range], fun i r hr => ?_⟩
  rw [List.getElem?_map] at hr
  obtain ⟨k, hk, rfl⟩ := Option.map_eq_some_iff.1 hr
  obtain ⟨hlt, rfl⟩ := List.getElem?_eq_some_iff.1 hk
  rw [List.getElem_range]
  exact ⟨rfl, fun call hc => Nat.le_trans (length_call_covering hc) (List.length_take_le _ _)⟩

/-- Whatever is in the store, which takes no empty key, and whatever its counter says: passes that
    nobody disturbs, before a sink that accepts, come in just one way to a pass that finds nothing.
    Until then the sink has been given the events of the readable entries in the order of the keys,
    as many entries have been dropped as cannot be read, and nothing is left. With a batch size,
    each of the passes covers the next batch; else one pass covers all entries. -/
theorem forwards_all (s : Settings) (hl : h.Lone style t none)
    (hkeys : ∀ x ∈ t.toList, x.key ≠ []) :
    ∃ rounds g, Drains s h (rounds ++ [.last]) g ∧
      (∀ rounds' g', Drains s h rounds' g' → rounds' = rounds ++ [.last] ∧ g' = g) ∧
      rounds.flatMap (fun r => r.calls.flatten) = s.cipher.openAll t.toList ∧
      (rounds.map Round.dropped).sum = s.cipher.unreadable t.toList ∧
      g.store.table.toList = [] ∧ g.count = 0 ∧
      (1 < s.batchSize →
        rounds.length = (t.size + s.batchSize - 1) / s.batchSize ∧
        ∀ (i : Nat) (r : Round), rounds[i]? = some r →
          r = .covering s.cipher style ((t.toList.drop (i * s.batchSize)).take s.batchSize)
            (t.toList.drop ((i + 1) * s.batchSize)) ∧
          ∀ call ∈ r.calls, call.length ≤ s.batchSize) ∧
      (s.batchSize = 1 →
        rounds = if t.size = 0 then [] else [.covering s.cipher .each t.toList []]) := by
  obtain ⟨g, hd, hg, hzero⟩ := drains_plan s hl hkeys
  obtain ⟨hcalls, hdropped⟩ := plan_hands_over s style t.toList
  refine ⟨_, g, hd, fun _ _ hd' => hd.unique hd', hcalls, hdropped, ?_, ?_,
    fun batch => plan_batches batch t.toList, fun single => ?_⟩
  · rw [hg.table]
    rfl
  · show g.faults.count g.store = 0
    rw [hg.faults, Faults.count_none, hzero]
  · split
    · next hsize => rw [List.eq_nil_of_length_eq_zero hsize, plan_nil]
    · next hsize =>
      exact plan_of_single (by omega) fun hnil => hsize (List.length_eq_zero_iff.2 hnil)

/-- An event without headers. -/
def note : Event := ⟨[1], .empty⟩

/-- Entries of which the second cannot be read. -/
def mixed : Table :=
  let value := ((Cipher.plaintext.sealEvent (.ofNat 0) note).toOption).getD []
  ((Table.empty.insert [97] value).insert [98] []).insert [99] value

/-- An open store with these entries and a counter that is wrong. -/
def overCounted : Hub :=
  ⟨{ Store.ofTable mixed 64 with counter := 7 }, .none, .whole, false, .empty, .idle, []⟩

/-- Batches of two: the first one has an event and an unreadable entry. -/
theorem forwards_all_of_two :
    let s := Settings.of .plaintext 2 0
    (overCounted.Lone .whole mixed none ∧ (∀ x ∈ mixed.toList, x.key ≠ []) ∧ 1 < s.batchSize) ∧
    (s.cipher.openAll mixed.toList = [note, note] ∧ s.cipher.unreadable mixed.toList = 1) ∧
    ∃ rounds g, Drains s overCounted (rounds ++ [.last]) g ∧
      rounds.flatMap (fun r => r.calls.flatten) = s.cipher.openAll mixed.toList ∧
      (rounds.map Round.dropped).sum = s.cipher.unreadable mixed.toList ∧
      g.store.table.toList = [] ∧ g.count = 0 ∧ rounds.length = 2 := by
  intro s
  have hl : overCounted.Lone .whole mixed none := ⟨rfl, rfl, rfl, rfl, rfl, rfl⟩
  have hkeys : ∀ x ∈ mixed.toList, x.key ≠ [] := by decide +kernel
  have batch : 1 < s.batchSize := by decide
  obtain ⟨rounds, g, hd, -, hcalls, hdropped, hnone, hcount, hbatches, -⟩ :=
    forwards_all s hl hkeys
  exact ⟨⟨hl, hkeys, batch⟩, ⟨by decide +kernel, by decide +kernel⟩, rounds, g, hd, hcalls,
    hdropped, hnone, hcount, (hbatches batch).1.trans (by decide +kernel)⟩

end Forwarder

end Outbox
