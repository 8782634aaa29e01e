import Outbox.Proofs.Life.Onlooker
import Outbox.Proofs.Life.LoopEnd

namespace Outbox

/-!
# The owner of a forwarder

Who holds the handle of a forwarder asks whether its thread has ended, or joins it for some time:

* `Owner`, `Owner.step` — the handle, a join that is under way, and what the handle has said so far.
* `owner` — the owner of the loop of a session.
* `Life.Exited` — the thread of a loop has ended; once it has, it stays so.
* `Owner.Informed` — a handle that is still attached has not failed to join; one that is detached
  has, or its thread has ended.
* `Life.exited_of_testimony` — what the handle says is true, unless an earlier join has failed.
* `Life.says_ended_while_running` — after a join that has failed, it says that a thread has ended
  that runs.
-/

/-! ### What an owner does -/

/-- What an owner can ask the handle. -/
inductive Query where
  /-- To wait for the end of the thread. -/
  | join
  /-- Whether the thread has ended. -/
  | isFinished
  deriving DecidableEq

/-- What the handle has said of its thread, and what it was asked. -/
structure Testimony where
  query : Query
  ended : Bool
  deriving DecidableEq

/-- How far a join has come. -/
inductive Joining where
  /-- Waits for the end of the thread until a deadline, for the given time. -/
  | waiting (timeout deadline : Nat)
  /-- Has seen whether the thread has ended; about to let go of it. -/
  | leaving (ended : Bool) (timeout : Nat)
  deriving DecidableEq

/-- Who holds the handle of a forwarder. -/
structure Owner where
  handle : Handle
  /-- The join that is under way. -/
  joining? : Option Joining
  /-- What the handle has said, the oldest first. -/
  told : List Testimony
  deriving DecidableEq

/-- What an owner does. -/
inductive Asking where
  /-- Begins to join at a time, for some time. -/
  | joins (now timeout : Nat)
  /-- The join looks at a time whether the thread has ended. -/
  | looks (now : Nat)
  /-- The wait of the join is broken off. -/
  | breaksOff
  /-- The join lets go of the thread and says whether it has ended. -/
  | concludes
  /-- The join is given up. -/
  | givesUp
  /-- Asks whether the thread has ended. -/
  | asks

namespace Owner

/-- Who has just been given the handle. -/
def new : Owner := ⟨⟨true⟩, none, []⟩

/-- A join is over. -/
def conclude (ended died : Bool) (timeout : Nat) (o : Owner) : Owner :=
  let (answer, handle, _) := o.handle.finish ended died timeout
  ⟨handle, none, o.told ++ [⟨.join, answer⟩]⟩

/-- What the owner does, unless it cannot be done; `ended` and `died` say how it stands with the
    thread. While it joins, it asks nothing else. -/
def step (ended died : Bool) (o : Owner) (a : Asking) : Option Owner :=
  match o.joining?, a with
  | none, .joins now timeout =>
    some (if o.handle.attached then { o with joining? := some (.waiting timeout (now + timeout)) }
      else o.conclude ended died timeout)
  | none, .asks => some { o with told := o.told ++ [⟨.isFinished, o.handle.isFinished ended⟩] }
  | some (.waiting timeout deadline), .looks now =>
    if ended || deadline ≤ now then some { o with joining? := some (.leaving ended timeout) }
    else none
  | some (.waiting timeout _), .breaksOff =>
    some { o with joining? := some (.leaving false timeout) }
  | some (.leaving seen timeout), .concludes => some (o.conclude seen died timeout)
  | some _, .givesUp => some { o with joining? := none }
  | _, _ => none

/-- What a step of an owner can be. -/
inductive Turn (ended : Bool) (o : Owner) : Owner → Prop
  | wait {timeout deadline : Nat} (hattached : o.handle.attached = true) :
      Turn ended o { o with joining? := some (.waiting timeout deadline) }
  | ask (hj : o.joining? = none) :
      Turn ended o { o with told := o.told ++ [⟨.isFinished, o.handle.isFinished ended⟩] }
  | look {seen : Bool} {timeout : Nat} (hj : o.joining? ≠ none)
      (hseen : seen = true → ended = true) :
      Turn ended o { o with joining? := some (.leaving seen timeout) }
  /-- The thread has been let go before. -/
  | again (hdetached : o.handle.attached = false) :
      Turn ended o ⟨o.handle, none, o.told ++ [⟨.join, true⟩]⟩
  | conclude {seen : Bool} {timeout : Nat} (hj : o.joining? = some (.leaving seen timeout))
      (hattached : o.handle.attached = true) :
      Turn ended o ⟨⟨false⟩, none, o.told ++ [⟨.join, seen⟩]⟩
  | giveUp : Turn ended o { o with joining? := none }

variable {ended died : Bool} {o o' : Owner} {a : Asking}

/-- A join on a handle that has let its thread go answers true. -/
theorem conclude_of_detached {timeout : Nat} (h : o.handle.attached = false) :
    o.conclude ended died timeout = ⟨o.handle, none, o.told ++ [⟨.join, true⟩]⟩ := by
  unfold conclude Handle.finish
  simp [h]

/-- A join on a handle that has its thread answers whether the thread has ended, and lets it go. -/
theorem conclude_of_attached {timeout : Nat} (h : o.handle.attached = true) :
    o.conclude ended died timeout = ⟨⟨false⟩, none, o.told ++ [⟨.join, ended⟩]⟩ := by
  unfold conclude Handle.finish
  cases ended <;> simp [h]

/-- A step of the owner is one of these. -/
theorem turn_of_step (hs : o.step ended died a = some o') : Turn ended o o' := by
  unfold step at hs
  split at hs
  · split at hs
    · next hattached =>
      cases hs
      exact .wait hattached
    · next hattached =>
      cases hs
      have hdetached : o.handle.attached = false := by simpa using hattached
      rw [conclude_of_detached hdetached]
      exact .again hdetached
  · next hj =>
    cases hs
    exact .ask hj
  · next timeout deadline now hj =>
    split at hs <;> cases hs
    exact .look (by rw [hj]; exact Option.some_ne_none _) id
  · next timeout deadline hj =>
    cases hs
    exact .look (by rw [hj]; exact Option.some_ne_none _) nofun
  · next seen timeout hj =>
    cases hs
    cases hattached : o.handle.attached with
    | true =>
      rw [conclude_of_attached hattached]
      exact .conclude hj hattached
    | false =>
      rw [conclude_of_detached hattached]
      exact .again hattached
  · cases hs
    exact .giveUp
  · cases hs

end Owner

/-- The owner of a loop that an actor runs in a session. -/
def owner (i n : Nat) : Onlooker Owner Asking where
  start := .new
  look l a o := (l.loop? i n).bind fun f => o.step f.hasEnded f.hasDied a

namespace Life

variable {t : Table} {l l' : Life} {m : Move} {i n : Nat} {f : Forwarder} {o o' : Owner}

/-! ### When the thread has ended -/

/-- The loop that an actor runs in a session has ended. -/
def Exited (l : Life) (i n : Nat) : Prop :=
  ∃ f, l.loop? i n = some f ∧ f.hasEnded = true

/-- The thread has exited when its loop has ended. -/
theorem exited_iff (hf : l.loop? i n = some f) : l.Exited i n ↔ f.hasEnded = true := by
  constructor
  · rintro ⟨g, hg, hended⟩
    obtain rfl := Option.some.inj (hf.symm.trans hg)
    exact hended
  · exact fun hended => ⟨f, hf, hended⟩

/-- Whatever happens, unless everything crashes, a thread that has ended stays so. -/
theorem Exited.move {allowed : Life → Move → Prop} (he : l.Exited i n) (hr : Reached allowed t l)
    (hm : l.move m = some l') (hc : m.isCrash = false) : l'.Exited i n := by
  obtain ⟨f, hf, hended⟩ := he
  obtain ⟨c, hi⟩ := loop?_eq_some_iff.1 hf
  obtain ⟨s, hs⟩ := hr.session_of_actor hi
  have hstands : l.Stands i n f c (s.over l.files).hub := ⟨hi, s, hs, rfl⟩
  obtain ⟨c', h', hl'⟩ := hstands.stays hended hm hc
  exact ⟨f, loop?_eq_some_iff.2 ⟨c', hl'.actor⟩, hended⟩

end Life

/-! ### What an owner knows -/

/-- How an owner stands with its thread: a join that is under way has not let go of it and has seen
    its end only if it has ended; a join has failed only where the thread has been let go, and the
    thread has been let go only where a join has failed or it has ended. -/
structure Owner.Informed (exited : Prop) (o : Owner) : Prop where
  joining : o.joining? ≠ none → o.handle.attached = true
  seen : ∀ timeout, o.joining? = some (.leaving true timeout) → exited
  attached : o.handle.attached = true → ⟨.join, false⟩ ∉ o.told
  detached : o.handle.attached = false → ⟨.join, false⟩ ∈ o.told ∨ exited

namespace Owner.Informed

variable {exited : Prop} {ended : Bool} {o o' : Owner}

/-- An owner who has asked nothing knows nothing. -/
theorem new : Informed exited .new := ⟨nofun, nofun, fun _ => List.not_mem_nil, nofun⟩

/-- What an owner knows stays right. -/
theorem mono {exited' : Prop} (ho : o.Informed exited) (h : exited → exited') :
    o.Informed exited' :=
  ⟨ho.joining, fun timeout hj => h (ho.seen timeout hj), ho.attached,
    fun hdetached => (ho.detached hdetached).imp_right h⟩

/-- The steps of the owner keep this up. -/
theorem turn (ho : o.Informed (ended = true)) (ht : Turn ended o o') :
    o'.Informed (ended = true) := by
  cases ht with
  | wait hattached => exact ⟨fun _ => hattached, nofun, ho.attached, ho.detached⟩
  | ask hj =>
    refine ⟨ho.joining, ho.seen, fun hattached hmem => ?_, fun hdetached => ?_⟩
    · rcases List.mem_append.1 hmem with hmem | hmem
      · exact ho.attached hattached hmem
      · cases List.mem_singleton.1 hmem
    · exact (ho.detached hdetached).imp_left (List.mem_append_left _)
  | look hj hseen =>
    refine ⟨fun _ => ho.joining hj, fun timeout heq => ?_, ho.attached, ho.detached⟩
    cases heq
    exact hseen rfl
  | again hdetached =>
    refine ⟨nofun, nofun, fun hattached => ?_, fun _ => ?_⟩
    · rw [hdetached] at hattached
      cases hattached
    · exact (ho.detached hdetached).imp_left (List.mem_append_left _)
  | @conclude seen timeout hj hattached =>
    -- the thread is let go in either case
    refine ⟨nofun, nofun, nofun, fun _ => ?_⟩
    cases seen with
    | true => exact .inr (ho.seen timeout hj)
    | false => exact .inl (List.mem_append_right _ (List.mem_singleton_self _))
  | giveUp => exact ⟨nofun, nofun, ho.attached, ho.detached⟩

end Owner.Informed

namespace Life

variable {t : Table} {l : Life} {i n : Nat} {a : Asking} {o o' : Owner} {x : Testimony}

/-- This holds throughout. -/
theorem Watched.informed (h : Watched (owner i n) t l o) : o.Informed (l.Exited i n) := by
  refine h.induct (P := fun l o => Owner.Informed (l.Exited i n) o) (fun l => .new)
    (fun hl ho hm hc => ho.mono fun he => he.move hl hm hc) fun {l a o o'} hl ho ha => ?_
  obtain ⟨f, hf, hstep⟩ := Option.bind_eq_some_iff.1 ha
  rw [exited_iff hf] at ho ⊢
  exact ho.turn (Owner.turn_of_step hstep)

/-- Whatever an owner has asked before, and however its thread ends: when the handle says that the
    thread has ended, it has, unless an earlier join has failed. After a join that has failed, the
    handle says so in any case. -/
theorem exited_of_testimony (h : Watched (owner i n) t l o)
    (ha : (owner i n).look l a o = some o') (hx : o'.told = o.told ++ [x]) :
    ∃ f, l.loop? i n = some f ∧
      (x.ended = true → f.hasEnded = true ∨ ⟨.join, false⟩ ∈ o.told) ∧
      (⟨.join, false⟩ ∈ o.told → x.ended = true) ∧
      (x.query = .isFinished → f.hasEnded = true → x.ended = true) := by
  obtain ⟨f, hf, hstep⟩ := Option.bind_eq_some_iff.1 ha
  have ho := h.informed
  rw [exited_iff hf] at ho
  refine ⟨f, hf, ?_⟩
  -- a step that says nothing is none of these
  have hsilent : o'.told ≠ o.told := by
    intro heq
    rw [heq] at hx
    exact absurd (congrArg List.length hx) (by simp)
  cases Owner.turn_of_step hstep with
  | ask hj =>
    obtain rfl : _ = x := List.singleton_inj.1 (List.append_cancel_left hx)
    unfold Handle.isFinished
    cases hattached : o.handle.attached with
    | true => simp [ho.attached hattached]
    | false => simpa using (ho.detached hattached).symm
  | again hdetached =>
    obtain rfl : _ = x := List.singleton_inj.1 (List.append_cancel_left hx)
    exact ⟨fun _ => (ho.detached hdetached).symm, fun _ => rfl, fun _ _ => rfl⟩
  | @conclude seen timeout hj hattached =>
    obtain rfl : _ = x := List.singleton_inj.1 (List.append_cancel_left hx)
    -- the first join that is not given up, so that none has failed
    have hnone := ho.attached hattached
    refine ⟨fun hseen => ?_, fun hmem => absurd hmem hnone, nofun⟩
    obtain rfl : seen = true := hseen
    exact .inl (ho.seen timeout hj)
  | _ => exact absurd rfl hsilent

/-- The owner of a loop asks whether its thread has ended, and joins it; the flag is raised
    meanwhile, and the loop reads it. -/
def joiningOnce : List (Move ⊕ Asking) :=
  (withLoop 1).map .inl ++ [.inr .asks, .inr (.joins 0 20), .inl (.raises 0),
    .inl (.acts 1 (.step 0)), .inl (.acts 1 (.step 0)), .inr (.looks 5)]

/-- A thread ends, and a join says so. -/
theorem exited_of_testimony_of_join :
    let l := ((owner 1 0).played .empty joiningOnce).1
    let o := ((owner 1 0).played .empty joiningOnce).2
    let o' : Owner := ⟨⟨false⟩, none, o.told ++ [⟨.join, true⟩]⟩
    (Watched (owner 1 0) .empty l o ∧ (owner 1 0).look l .concludes o = some o' ∧
      o.told = [⟨.isFinished, false⟩]) ∧
    ∃ f, l.loop? 1 0 = some f ∧ f.hasEnded = true := by
  intro l o o'
  have h : Watched (owner 1 0) .empty l o := Watched.played (by decide +kernel)
  have ha : (owner 1 0).look l .concludes o = some o' := by decide +kernel
  have htold : o.told = [⟨.isFinished, false⟩] := by decide +kernel
  obtain ⟨f, hf, htrue, -⟩ := exited_of_testimony (x := ⟨.join, true⟩) h ha rfl
  refine ⟨⟨h, ha, htold⟩, f, hf, (htrue rfl).resolve_right ?_⟩
  rw [htold]
  decide

/-- The owner of a loop joins it while the loop waits for the sink, and once more when this join has
    failed; in between it asks whether the thread has ended. -/
def joiningTwice : List (Move ⊕ Asking) :=
  (withLoop 1 ++ List.replicate 8 (Move.acts 1 (.step 0))).map .inl ++
    [.inr (.joins 0 20), .inr (.looks 20), .inr .concludes, .inr .asks, .inr (.joins 20 20)]

/-- Both answers after the first join say that the thread has ended, which waits for the sink. -/
theorem says_ended_while_running :
    let l := ((owner 1 0).played .empty joiningTwice).1
    let o := ((owner 1 0).played .empty joiningTwice).2
    Watched (owner 1 0) .empty l o ∧
      o.told = [⟨.join, false⟩, ⟨.isFinished, true⟩, ⟨.join, true⟩] ∧
      ∃ f, l.loop? 1 0 = some f ∧ f.hasEnded = false ∧ f.call? = some [letter] := by
  intro l o
  have h : Watched (owner 1 0) .empty l o := Watched.played (by decide +kernel)
  have htold : o.told = [⟨.join, false⟩, ⟨.isFinished, true⟩, ⟨.join, true⟩] := by decide +kernel
  have hloop : (l.loop? 1 0).map (fun f => (f.hasEnded, f.call?)) =
      some (false, some [letter]) := by
    decide +kernel
  obtain ⟨f, hf, heq⟩ := Option.map_eq_some_iff.1 hloop
  obtain ⟨hended, hcall⟩ := Prod.mk.inj heq
  exact ⟨h, htold, f, hf, hended, hcall⟩

end Life

end Outbox
