import Outbox.Proofs.Lists
import Outbox.Proofs.Store.WorkingCopy

namespace Outbox

/-!
# The counter of a store

Any number of callers work with a store, and their steps come in any order:

* `StoreOp` — what a caller does; `StoreOp.Step` is its next step.
* `Traffic` — a store with what its callers do; `Traffic.Step` lets one of them take a step, or lets
  another one begin.
* `StoreOp.owed` — what a caller is about to subtract: a removal what it has committed, a put the
  key that it has counted and could not commit.
* `StoreOp.ahead` — by how much a caller has put the counter ahead of the committed entries: by what
  it owes, or by the key that it has counted and is about to commit.
* `StoreOp.Balances` — a step moves the counter and the entries together, up to what the caller is
  ahead by.
* `Traffic.Exact` — the counter is the number of committed entries and what the callers are ahead
  by.
* `Traffic.count_bounds` — so the counter never understates the entries, and no subtraction is cut
  short.

A recount overwrites the counter only while nobody has a subtraction to make.
-/

/-! ### Callers -/

/-- What a caller does with a store. -/
inductive StoreOp where
  | put (op : PutOp)
  | removal (op : RemovalOp)
  | walk (op : WalkOp)
  | recount (op : RecountOp)
  /-- A walk that its visitor has killed. -/
  | fallen

namespace StoreOp

/-- Whether a caller is about to take the first step. -/
def isFresh : StoreOp → Bool
  | put (.entering _ _) | removal (.entering _) | walk .entering | recount .entering => true
  | _ => false

/-- Whether a caller has taken the last step. -/
def isOver : StoreOp → Bool
  | put (.done _) | removal (.done _) | walk (.done _) | recount (.done _) | fallen => true
  | _ => false

/-- Whether a caller holds the lock. -/
def holds : StoreOp → Bool
  | put op => op.holds
  | removal op => op.holds
  | walk op => op.holds
  | recount op => op.holds
  | fallen => false

/-- What a caller is about to subtract from the counter: it has committed its removals, or failed to
    commit a key that it has counted. -/
def owed : StoreOp → Nat
  | put (.retracting isNew _) => if isNew then 1 else 0
  | removal (.releasing removed) => removed
  | walk (.releasing _ deleted) => deleted
  | _ => 0

/-- By how much a caller has put the counter ahead of the committed entries. -/
def ahead : StoreOp → Nat
  | put (.committing isNew) => if isNew then 1 else 0
  | op => op.owed

/-- Whether a caller is about to overwrite the counter. -/
def overwrites : StoreOp → Bool
  | recount (.storing _) => true
  | _ => false

/-- A caller's next step. Any commit may fail; a visitor may answer anything, or die. -/
inductive Step (s : Store) : StoreOp → StoreOp → Store → Prop
  | put {op op' : PutOp} {s' : Store} {failure : Option EngineFault}
      (h : op.step failure s = some (op', s')) : Step s (.put op) (.put op') s'
  | removal {op op' : RemovalOp} {s' : Store} {failure : Option EngineFault} {j : Journal}
      (h : op.step failure s = some (op', s', j)) : Step s (.removal op) (.removal op') s'
  | walk {op op' : WalkOp} {s' : Store} {failure : Option EngineFault}
      (h : op.step failure s = some (op', s')) : Step s (.walk op) (.walk op') s'
  | visit {op : WalkOp} {e : Entry} (he : op.offered? = some e) (v : Verdict) :
      Step s (.walk op) (.walk (op.answer v s).1) (op.answer v s).2
  | fall {op : WalkOp} {e : Entry} (he : op.offered? = some e) : Step s (.walk op) .fallen s.abort
  | recount {op op' : RecountOp} {s' : Store} (h : op.step s = some (op', s')) :
      Step s (.recount op) (.recount op') s'

/-- What a caller has made of the working copy, whatever it was asked to do. -/
def Fits (f : Files) : StoreOp → Prop
  | put op => ∃ key value, op.Fits key value f
  | removal op => ∃ keys, op.Fits keys f
  | walk op => ∃ kept seen, op.Fits kept seen f
  | recount op => op.Fits f
  | fallen => True

variable {s s' : Store} {f g : Files} {op op' : StoreOp}

/-- Who is about to take the first step has made nothing of the files. -/
theorem fits_of_isFresh (h : op.isFresh = true) : op.Fits f := by
  cases op with
  | put op => cases op with
    | entering key value => exact ⟨key, value, rfl, rfl⟩
    | _ => cases h
  | removal op => cases op with
    | entering keys => exact ⟨keys, rfl⟩
    | _ => cases h
  | walk op => cases op with
    | entering => exact ⟨[], [], rfl, rfl⟩
    | _ => cases h
  | recount op => cases op with
    | entering => trivial
    | _ => cases h
  | fallen => trivial

/-- Nor does it hold the lock. -/
theorem holds_of_isFresh (h : op.isFresh = true) : op.holds = false := by
  cases op with
  | put op => cases op <;> first | rfl | cases h
  | removal op => cases op <;> first | rfl | cases h
  | walk op => cases op <;> first | rfl | cases h
  | recount op => cases op <;> first | rfl | cases h
  | fallen => rfl

/-- Nor has it put the counter ahead. -/
theorem ahead_of_isFresh (h : op.isFresh = true) : op.ahead = 0 := by
  cases op with
  | put op => cases op <;> first | rfl | cases h
  | removal op => cases op <;> first | rfl | cases h
  | walk op => cases op <;> first | rfl | cases h
  | recount op => rfl
  | fallen => rfl

/-- Who has taken the last step has settled with the counter. -/
theorem ahead_of_isOver (h : op.isOver = true) : op.ahead = 0 := by
  cases op with
  | put op => cases op <;> first | rfl | cases h
  | removal op => cases op <;> first | rfl | cases h
  | walk op => cases op <;> first | rfl | cases h
  | recount op => rfl
  | fallen => rfl

/-- What a caller is about to subtract is part of what it is ahead by. -/
theorem owed_le_ahead : op.owed ≤ op.ahead := by
  unfold ahead
  split
  · exact Nat.zero_le _
  · exact Nat.le_refl _

/-- Only the holder of the lock has counted a key that is not committed. -/
theorem ahead_eq_owed (h : op.holds = false) : op.ahead = op.owed := by
  unfold ahead
  split
  · cases h
  · rfl

/-- Who is about to overwrite the counter holds the lock, and has not put it ahead. -/
theorem holds_of_overwrites (h : op.overwrites = true) : op.holds = true ∧ op.ahead = 0 := by
  cases op with
  | recount r => cases r <;> first | exact ⟨rfl, rfl⟩ | cases h
  | _ => cases h

/-- A step of a caller takes and frees the lock in turn. -/
theorem Step.turn (h : Step s op op' s') : s.files.Turn op.holds op'.holds s'.files := by
  cases h with
  | put h => exact PutOp.turn h
  | removal h => exact RemovalOp.turn h
  | walk h => exact WalkOp.turn h
  | visit he v => exact WalkOp.turn_answer v _ s
  | fall he =>
    obtain ⟨rest, visited, deleted, rfl⟩ := WalkOp.offered?_eq_some_iff.1 he
    exact .leave
  | recount h => exact RecountOp.turn h

/-- What a caller has made of the files is told by how far it has come, after every step. -/
theorem Step.fits (h : Step s op op' s') (hf : op.Fits s.files) : op'.Fits s'.files := by
  cases h with
  | put h =>
    obtain ⟨key, value, hf⟩ := hf
    exact ⟨key, value, PutOp.fits_step hf h⟩
  | removal h =>
    obtain ⟨keys, hf⟩ := hf
    exact ⟨keys, RemovalOp.fits_step hf h⟩
  | walk h =>
    obtain ⟨kept, seen, hf⟩ := hf
    exact ⟨kept, seen, WalkOp.fits_step hf h⟩
  | visit he v =>
    obtain ⟨kept, seen, hf⟩ := hf
    cases v with
    | delete => exact ⟨_, _, WalkOp.fits_delete hf he⟩
    | keep => exact ⟨_, _, WalkOp.fits_keep hf he⟩
    | stop => exact ⟨_, _, WalkOp.fits_stop hf he⟩
    | abort =>
      obtain ⟨rest, visited, deleted, rfl⟩ := WalkOp.offered?_eq_some_iff.1 he
      exact ⟨[], [], trivial⟩
  | fall he => trivial
  | recount h => exact RecountOp.fits_step hf h

/-- Whoever holds the lock has a working copy. -/
theorem writer_ne_none (hf : op.Fits f) (hh : op.holds = true) : f.writer ≠ none := by
  cases op with
  | put op => obtain ⟨key, value, hf⟩ := hf; exact PutOp.writer_ne_none hf hh
  | removal op => obtain ⟨keys, hf⟩ := hf; exact RemovalOp.writer_ne_none hf hh
  | walk op => obtain ⟨kept, seen, hf⟩ := hf; exact WalkOp.writer_ne_none hf hh
  | recount op => exact RecountOp.writer_ne_none hf hh
  | fallen => cases hh

/-- A step of somebody else does not touch what a caller has done. -/
theorem fits_of_turn {before after : Bool} (hf : op.Fits f) (ht : f.Turn before after g)
    (hb : op.holds = true → before = false) : op.Fits g := by
  cases op with
  | put op => obtain ⟨key, value, hf⟩ := hf; exact ⟨key, value, PutOp.fits_of_turn hf ht hb⟩
  | removal op => obtain ⟨keys, hf⟩ := hf; exact ⟨keys, RemovalOp.fits_of_turn hf ht hb⟩
  | walk op => obtain ⟨kept, seen, hf⟩ := hf; exact ⟨kept, seen, WalkOp.fits_of_turn hf ht hb⟩
  | recount op => exact RecountOp.fits_of_turn hf ht hb
  | fallen => trivial

/-! ### What a step does to the counter -/

/-- A put that is new makes one entry more, any other put none. -/
theorem size_of_put {key value : Bytes} {isNew : Bool}
    (hf : (PutOp.committing isNew).Fits key value s.files) :
    s.commit.table.size = s.table.size + if isNew then 1 else 0 := by
  obtain ⟨-, hw, rfl⟩ := hf
  show s.working.size = _
  rw [Store.working_eq hw, Table.size_insert]
  show _ = s.table.size + if (!s.table.contains key) = true then 1 else 0
  cases hc : s.table.contains key <;> simp [Store.files, hc]

/-- A removal that is committed makes the table smaller by what it tells. -/
theorem size_of_removal {keys : List Bytes} {removed : Nat}
    (hf : (RemovalOp.committing removed).Fits keys s.files) :
    s.commit.table.size + removed = s.table.size := by
  obtain ⟨hw, rfl⟩ := hf
  show s.working.size + _ = s.table.size
  rw [Store.working_eq hw]
  exact RemovalOp.size_eraseKeys keys s.table

/-- A walk that is committed makes the table smaller by what it has deleted. -/
theorem size_of_walk {kept seen : List Entry} {visited deleted : Nat}
    (hf : (WalkOp.committing visited deleted).Fits kept seen s.files) :
    s.commit.table.size + deleted = s.table.size := by
  obtain ⟨w, rest, hw, htable, hcopy, hcount⟩ := hf
  have hlength : s.table.toList.length = seen.length + rest.length := by
    rw [show s.table.toList = seen ++ rest from htable, List.length_append]
  show s.working.toList.length + deleted = s.table.toList.length
  rw [Store.working_eq hw, hcopy, List.length_append]
  omega

/-- Counter and entries move together, up to what the caller is ahead by. -/
def Balances (s s' : Store) (op op' : StoreOp) : Prop :=
  s'.counter + (s.table.size + op.ahead) = s.counter + (s'.table.size + op'.ahead)

/-- A put raises the counter before it commits, and lowers it again where it could not commit. -/
theorem balances_put {key value : Bytes} {op op' : PutOp} {failure : Option EngineFault}
    (hf : op.Fits key value s.files) (h : op.step failure s = some (op', s')) :
    Balances s s' (put op) (put op') := by
  cases PutOp.step_cases h with
  | countNew =>
    show s.counter + 1 + (s.table.size + (0 : Nat)) = s.counter + (s.table.size + (1 : Nat))
    omega
  | @commit isNew =>
    have hsize := size_of_put hf
    show s.counter + (s.table.size + (if isNew then 1 else 0 : Nat)) =
      s.counter + (s.commit.table.size + (0 : Nat))
    omega
  | retractNew =>
    show s.counter - 1 + (s.table.size + (1 : Nat)) = s.counter + (s.table.size + (0 : Nat))
    omega
  | _ => rfl

/-- A removal lowers the counter after it has committed. -/
theorem balances_removal {keys : List Bytes} {op op' : RemovalOp} {failure : Option EngineFault}
    {j : Journal} (hf : op.Fits keys s.files) (hle : (removal op).ahead ≤ s.count)
    (h : op.step failure s = some (op', s', j)) : Balances s s' (removal op) (removal op') := by
  cases RemovalOp.step_cases h with
  | commitNothing =>
    have hsize := size_of_removal hf
    show s.counter + (s.table.size + (0 : Nat)) = s.counter + (s.commit.table.size + (0 : Nat))
    omega
  | @commit removed =>
    have hsize := size_of_removal hf
    show s.counter + (s.table.size + (0 : Nat)) = s.counter + (s.commit.table.size + removed)
    omega
  | @release removed =>
    have hcounter := Store.counter_release (n := removed) hle
    show (s.release removed).counter + (s.table.size + removed) =
      s.counter + (s.table.size + (0 : Nat))
    omega
  | _ => rfl

/-- So does a walk. -/
theorem balances_walk {kept seen : List Entry} {op op' : WalkOp} {failure : Option EngineFault}
    (hf : op.Fits kept seen s.files) (hle : (walk op).ahead ≤ s.count)
    (h : op.step failure s = some (op', s')) : Balances s s' (walk op) (walk op') := by
  cases WalkOp.step_cases h with
  | commitNothing =>
    have hsize := size_of_walk hf
    show s.counter + (s.table.size + (0 : Nat)) = s.counter + (s.commit.table.size + (0 : Nat))
    omega
  | @commit visited deleted =>
    have hsize := size_of_walk hf
    show s.counter + (s.table.size + (0 : Nat)) = s.counter + (s.commit.table.size + deleted)
    omega
  | @release visited deleted =>
    have hcounter := Store.counter_release (n := deleted) hle
    show (s.release deleted).counter + (s.table.size + deleted) =
      s.counter + (s.table.size + (0 : Nat))
    omega
  | _ => rfl

/-- Every step balances. A subtraction needs the counter to be great enough, and a caller that
    overwrites the counter is left out. -/
theorem Step.balances (h : Step s op op' s') (hf : op.Fits s.files) (hle : op.ahead ≤ s.count)
    (hover : op.overwrites = false) : Balances s s' op op' := by
  cases h with
  | put h =>
    obtain ⟨key, value, hf⟩ := hf
    exact balances_put hf h
  | removal h =>
    obtain ⟨keys, hf⟩ := hf
    exact balances_removal hf hle h
  | walk h =>
    obtain ⟨kept, seen, hf⟩ := hf
    exact balances_walk hf hle h
  | visit he v =>
    obtain ⟨rest, visited, deleted, rfl⟩ := WalkOp.offered?_eq_some_iff.1 he
    cases v <;> rfl
  | fall he =>
    obtain ⟨rest, visited, deleted, rfl⟩ := WalkOp.offered?_eq_some_iff.1 he
    rfl
  | recount h =>
    cases RecountOp.step_cases h with
    | store => cases hover
    | _ => rfl

/-- A caller that overwrites the counter sets it to the number of committed entries. -/
theorem Step.recounts (h : Step s op op' s') (hf : op.Fits s.files) (hover : op.overwrites = true) :
    s'.table = s.table ∧ s'.counter = s.table.size ∧ op'.ahead = 0 := by
  cases h with
  | @recount r r' _ hr =>
    cases r with
    | storing actual =>
      obtain ⟨-, hactual⟩ := hf
      cases hr
      exact ⟨rfl, congrArg Nat.cast hactual, rfl⟩
    | _ => cases hover
  | _ => cases hover

/-- The counter stays ahead of the entries by what this caller and others have put it ahead, if
    nobody else has done so while it is overwritten. -/
theorem Step.counter_eq (h : Step s op op' s') (hf : op.Fits s.files) {rest : Nat}
    (heq : s.counter = ↑(s.table.size + (op.ahead + rest)))
    (hover : op.overwrites = true → rest = 0) :
    s'.counter = ↑(s'.table.size + (op'.ahead + rest)) := by
  cases ho : op.overwrites with
  | false =>
    have hcount := Store.count_of_eq heq
    have hbalances := h.balances hf (by omega) ho
    unfold Balances at hbalances
    omega
  | true =>
    obtain ⟨htable, hcounter, hahead⟩ := h.recounts hf ho
    rw [hcounter, htable, hahead, hover ho]
    rfl

/-- A counter that does not fall short of the entries does not come to do so. -/
theorem Step.size_le (h : Step s op op' s') (hf : op.Fits s.files)
    (hle : ↑(s.table.size + op.ahead) ≤ s.counter) :
    ↑(s'.table.size + op'.ahead) ≤ s'.counter := by
  cases ho : op.overwrites with
  | false =>
    have hcount := Store.count_of_eq (s := s) (n := s.counter.toNat) (by omega)
    have hbalances := h.balances hf (by omega) ho
    unfold Balances at hbalances
    omega
  | true =>
    obtain ⟨htable, hcounter, hahead⟩ := h.recounts hf ho
    rw [hcounter, htable, hahead]
    exact Int.le_refl _

end StoreOp

/-! ### A store with its callers -/

/-- A store, and what its callers do. -/
structure Traffic where
  store : Store
  ops : List StoreOp

namespace Traffic

/-- What happens next: another caller begins, one of them takes a step, or the store is closed. The
    counter is overwritten only while no caller has a subtraction to make. -/
inductive Step : Traffic → Traffic → Prop
  | begin {s : Store} {ops : List StoreOp} {op : StoreOp} (fresh : op.isFresh = true) :
      Step ⟨s, ops⟩ ⟨s, ops ++ [op]⟩
  | advance {s s' : Store} {ops : List StoreOp} {op op' : StoreOp} (i : Nat)
      (ho : ops[i]? = some op) (h : op.Step s op' s')
      (restricted : op.overwrites = true → ∀ o ∈ ops, o.owed = 0) :
      Step ⟨s, ops⟩ ⟨s', ops.set i op'⟩
  | close {s : Store} {ops : List StoreOp} : Step ⟨s, ops⟩ ⟨s.close, ops⟩

/-- What can come of a store that has been opened with some entries. -/
inductive Reachable (t : Table) (mapSize : Nat) : Traffic → Prop
  | opened : Reachable t mapSize ⟨.ofTable t mapSize, []⟩
  | step {x y : Traffic} (before : Reachable t mapSize x) (h : Step x y) : Reachable t mapSize y

/-- At most one caller holds the lock, each has made of the working copy what it is there for, and
    the counter is the number of committed entries and what the callers are ahead by. -/
structure Exact (x : Traffic) : Prop where
  exclusive : ∀ {i j : Nat} {a b : StoreOp}, x.ops[i]? = some a → x.ops[j]? = some b →
    a.holds = true → b.holds = true → i = j
  fits : ∀ {i : Nat} {op : StoreOp}, x.ops[i]? = some op → op.Fits x.store.files
  counter : x.store.counter = ↑(x.store.table.size + (x.ops.map StoreOp.ahead).sum)

/-- The count is the number of committed entries and what the callers are ahead by. -/
theorem Exact.count {x : Traffic} (hx : Exact x) :
    x.store.count = x.store.table.size + (x.ops.map StoreOp.ahead).sum :=
  Store.count_of_eq hx.counter

/-- What a caller is ahead by is part of what they all are ahead by. -/
theorem ahead_le_sum {ops : List StoreOp} {op : StoreOp} (h : op ∈ ops) :
    op.ahead ≤ (ops.map StoreOp.ahead).sum :=
  le_sum_map StoreOp.ahead h

section

variable {s s' : Store} {ops : List StoreOp} {op op' : StoreOp} {i : Nat}

/-- A caller that begins is ahead by nothing. -/
theorem Exact.begin (hx : Exact ⟨s, ops⟩) (fresh : op.isFresh = true) :
    Exact ⟨s, ops ++ [op]⟩ := by
  -- the new caller holds nothing and is ahead by nothing
  have hfree := StoreOp.holds_of_isFresh fresh
  refine ⟨?_, ?_, ?_⟩
  · intro i j a b ha hb hha hhb
    rcases getElem?_concat_cases ha with ha | ⟨-, rfl⟩
    · rcases getElem?_concat_cases hb with hb | ⟨-, rfl⟩
      · exact hx.exclusive ha hb hha hhb
      · rw [hfree] at hhb
        cases hhb
    · rw [hfree] at hha
      cases hha
  · intro j o h
    rcases getElem?_concat_cases h with h | ⟨-, rfl⟩
    · exact hx.fits h
    · exact StoreOp.fits_of_isFresh fresh
  · show s.counter = ↑(s.table.size + ((ops ++ [op]).map StoreOp.ahead).sum)
    rw [List.map_append, List.sum_append, List.map_singleton, List.sum_singleton,
      StoreOp.ahead_of_isFresh fresh]
    exact hx.counter

/-- The lock passes from caller to caller. -/
theorem Exact.exclusive_advance (hx : Exact ⟨s, ops⟩) (ho : ops[i]? = some op)
    (h : op.Step s op' s') {j k : Nat} {a b : StoreOp} (ha : (ops.set i op')[j]? = some a)
    (hb : (ops.set i op')[k]? = some b) (hha : a.holds = true) (hhb : b.holds = true) : j = k := by
  -- whoever holds the lock keeps others from taking it
  have hother : ∀ {l : Nat} {o : StoreOp}, l ≠ i → ops[l]? = some o → o.holds = true →
      op'.holds = true → False := by
    intro l o hl hlo hho hh
    rcases h.turn.free_of_holds hh with hbefore | hfree
    · exact hl (hx.exclusive hlo ho hho hbefore)
    · exact StoreOp.writer_ne_none (hx.fits hlo) hho hfree
  rcases getElem?_set_cases ha with ⟨hj, rfl⟩ | ⟨hj, hja⟩
  · rcases getElem?_set_cases hb with ⟨hk, -⟩ | ⟨hk, hkb⟩
    · rw [hj, hk]
    · exact (hother hk hkb hhb hha).elim
  · rcases getElem?_set_cases hb with ⟨-, rfl⟩ | ⟨hk, hkb⟩
    · exact (hother hj hja hha hhb).elim
    · exact hx.exclusive hja hkb hha hhb

/-- Each caller leaves what the others have done alone. -/
theorem Exact.fits_advance (hx : Exact ⟨s, ops⟩) (ho : ops[i]? = some op)
    (h : op.Step s op' s') {j : Nat} {o : StoreOp} (hj : (ops.set i op')[j]? = some o) :
    o.Fits s'.files := by
  rcases getElem?_set_cases hj with ⟨-, rfl⟩ | ⟨hne, hj⟩
  · exact h.fits (hx.fits ho)
  · refine StoreOp.fits_of_turn (hx.fits hj) h.turn fun hh => ?_
    by_contra hb
    exact hne (hx.exclusive hj ho hh (by simpa using hb))

/-- While the counter is being overwritten, nobody is ahead: puts that are about to commit need the
    lock, and subtractions that are due have been waited for. -/
theorem Exact.sum_eq_zero (hx : Exact ⟨s, ops⟩) (ho : ops[i]? = some op)
    (hover : op.overwrites = true) (hall : ∀ o ∈ ops, o.owed = 0) :
    (ops.map StoreOp.ahead).sum = 0 := by
  obtain ⟨hh, hahead⟩ := StoreOp.holds_of_overwrites hover
  rw [List.sum_eq_zero_iff_forall_eq_nat]
  intro n hn
  obtain ⟨o, hmem, rfl⟩ := List.mem_map.1 hn
  obtain ⟨j, hj⟩ := List.mem_iff_getElem?.1 hmem
  by_cases hji : j = i
  · subst hji
    rw [hj] at ho
    cases ho
    exact hahead
  · have hfree : o.holds = false := by
      by_contra hne
      exact hji (hx.exclusive hj ho (by simpa using hne) hh)
    -- without the lock, only a subtraction that is due can put a caller ahead
    rw [StoreOp.ahead_eq_owed hfree]
    exact hall o hmem

/-- A step of a caller changes the counter as it changes the table and what the caller is ahead
    by. -/
theorem Exact.counter_advance (hx : Exact ⟨s, ops⟩) (ho : ops[i]? = some op)
    (h : op.Step s op' s') (restricted : op.overwrites = true → ∀ o ∈ ops, o.owed = 0) :
    s'.counter = ↑(s'.table.size + ((ops.set i op').map StoreOp.ahead).sum) := by
  have hsum := sum_map_set StoreOp.ahead op' ho
  have hcounter : s.counter = ↑(s.table.size + (ops.map StoreOp.ahead).sum) := hx.counter
  -- by what the others are ahead
  obtain ⟨rest, hrest⟩ := Nat.exists_eq_add_of_le (ahead_le_sum (List.mem_of_getElem? ho))
  have hnone : op.overwrites = true → rest = 0 := by
    intro hover
    have hzero := hx.sum_eq_zero ho hover (restricted hover)
    omega
  have hafter := h.counter_eq (hx.fits ho) (by omega) hnone
  omega

end

/-- The steps of the callers keep this up. -/
theorem Exact.step {x y : Traffic} (hx : Exact x) (h : Step x y) : Exact y := by
  cases h with
  | begin fresh => exact hx.begin fresh
  | advance i ho h restricted =>
    exact ⟨hx.exclusive_advance ho h, hx.fits_advance ho h, hx.counter_advance ho h restricted⟩
  | close =>
    refine ⟨hx.exclusive, fun hi => ?_, hx.counter⟩
    exact StoreOp.fits_of_turn (hx.fits hi) (.stay (b := false) rfl) fun _ => rfl

/-- It holds throughout. -/
theorem Reachable.exact {t : Table} {mapSize : Nat} {x : Traffic} (h : Reachable t mapSize x) :
    Exact x := by
  induction h with
  | opened =>
    refine ⟨fun ha => ?_, fun ha => ?_, rfl⟩
    · cases ha
    · cases ha
  | step _ hstep ih => exact ih.step hstep

/-- The counter never understates the committed entries, no caller subtracts more than there is, and
    the counter is exact while nobody is at work. -/
theorem count_bounds {t : Table} {mapSize : Nat} {x : Traffic} (h : Reachable t mapSize x) :
    x.store.table.size ≤ x.store.count ∧
      (∀ op ∈ x.ops, op.owed ≤ x.store.count) ∧
      ((∀ op ∈ x.ops, op.isOver = true) → x.store.count = x.store.table.size) := by
  have hcount := h.exact.count
  refine ⟨by omega, fun op hop => ?_, fun hover => ?_⟩
  · calc op.owed ≤ op.ahead := StoreOp.owed_le_ahead
      _ ≤ (x.ops.map StoreOp.ahead).sum := ahead_le_sum hop
      _ ≤ x.store.count := by omega
  · have hzero : (x.ops.map StoreOp.ahead).sum = 0 := by
      rw [List.sum_eq_zero_iff_forall_eq_nat]
      intro n hn
      obtain ⟨op, hop, rfl⟩ := List.mem_map.1 hn
      exact StoreOp.ahead_of_isOver (hover op hop)
    omega

/-- A removal that has committed and not subtracted: one entry is counted, and there is none. -/
theorem count_bounds_of_removal :
    ∃ x, Reachable .empty 16 x ∧ x.store.count = 1 ∧ x.ops.map StoreOp.owed = [0, 1] ∧
      x.store.table.size ≤ x.store.count ∧ (∀ op ∈ x.ops, op.owed ≤ x.store.count) ∧
      ((∀ op ∈ x.ops, op.isOver = true) → x.store.count = x.store.table.size) := by
  have hput : StoreOp.isFresh (.put (.entering [1] [2])) = true := rfl
  have hremoval : StoreOp.isFresh (.removal (.entering [[1]])) = true := rfl
  -- the put, up to its commit
  have h₁ : Reachable .empty 16 _ := .step .opened (.begin hput)
  have h₂ := h₁.step (.advance 0 rfl (@StoreOp.Step.put _ _ _ _ none rfl) nofun)
  have h₃ := h₂.step (.advance 0 rfl (@StoreOp.Step.put _ _ _ _ none rfl) nofun)
  have h₄ := h₃.step (.advance 0 rfl (@StoreOp.Step.put _ _ _ _ none rfl) nofun)
  have h₅ := h₄.step (.advance 0 rfl (@StoreOp.Step.put _ _ _ _ none rfl) nofun)
  have h₆ := h₅.step (.advance 0 rfl (@StoreOp.Step.put _ _ _ _ none rfl) nofun)
  -- the removal, up to its commit
  have h₇ := h₆.step (.begin hremoval)
  have h₈ := h₇.step (.advance 1 rfl (@StoreOp.Step.removal _ _ _ _ none _ rfl) nofun)
  have h₉ := h₈.step (.advance 1 rfl (@StoreOp.Step.removal _ _ _ _ none _ rfl) nofun)
  have h₁₀ := h₉.step (.advance 1 rfl (@StoreOp.Step.removal _ _ _ _ none _ rfl) nofun)
  have h₁₁ := h₁₀.step (.advance 1 rfl (@StoreOp.Step.removal _ _ _ _ none _ rfl) nofun)
  exact ⟨_, h₁₁, rfl, rfl, count_bounds h₁₁⟩

end Traffic

end Outbox
