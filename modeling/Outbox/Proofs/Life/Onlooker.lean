import Outbox.Proofs.Life.Moves

namespace Outbox

/-!
# Those who look on

Somebody who reads what the sessions of a store share, or asks how it stands with one of their
threads, and changes nothing of it:

* `Onlooker` — how he begins, and what he makes of what he sees.
* `Life.Watched` — what a life and an onlooker can come to, in any order of moves and looks.
* `Life.Watched.induct` — what every move and every look keeps up.
* `Onlooker.play`, `Life.Watched.play` — moves and looks, one after another.
-/

/-- How an onlooker begins, and what he makes of a look, unless he cannot take it. -/
structure Onlooker (α β : Type) where
  start : α
  look : Life → β → α → Option α

variable {α β : Type} {o : Onlooker α β} {t : Table} {l l' : Life} {a a' : α}

/-- The moves of a life and the looks of an onlooker, one after another. A crash takes the onlooker
    away as well. -/
def Onlooker.play (o : Onlooker α β) : Life × α → List (Move ⊕ β) → Option (Life × α)
  | x, [] => some x
  | (l, a), .inl m :: rest =>
    (l.move m).bind fun l => o.play (l, if m.isCrash then o.start else a) rest
  | (l, a), .inr b :: rest => (o.look l b a).bind fun a => o.play (l, a) rest

/-- What they come to from the start, if they can be made. -/
def Onlooker.played (o : Onlooker α β) (t : Table) (steps : List (Move ⊕ β)) : Life × α :=
  (o.play (.new t, o.start) steps).getD (.new t, o.start)

namespace Life

/-- What can come of a life and an onlooker. -/
inductive Watched (o : Onlooker α β) (t : Table) : Life → α → Prop
  | new : Watched o t (.new t) o.start
  | move {l l' : Life} {a : α} {m : Move} (before : Watched o t l a) (hm : l.move m = some l') :
      Watched o t l' (if m.isCrash then o.start else a)
  | look {l : Life} {a a' : α} {b : β} (before : Watched o t l a)
      (hb : o.look l b a = some a') : Watched o t l a'

/-- The onlooker changes nothing of the life. -/
theorem Watched.reached (h : Watched o t l a) : Reached anyMove t l := by
  induction h with
  | new => exact .new
  | move _ hm ih => exact ih.move trivial hm
  | look _ _ ih => exact ih

/-- What holds of an onlooker who begins, and is kept up by every move and every look, holds. -/
theorem Watched.induct {P : Life → α → Prop} (h : Watched o t l a) (start : ∀ l, P l o.start)
    (move : ∀ {l l' : Life} {m : Move} {a : α}, Reached anyMove t l → P l a →
      l.move m = some l' → m.isCrash = false → P l' a)
    (look : ∀ {l : Life} {b : β} {a a' : α}, Reached anyMove t l → P l a →
      o.look l b a = some a' → P l a') : P l a := by
  induction h with
  | new => exact start _
  | @move l l' a m before hm ih =>
    cases hc : m.isCrash with
    | true => exact start _
    | false => exact move before.reached ih hm hc
  | look before hb ih => exact look before.reached ih hb

theorem Watched.play {steps : List (Move ⊕ β)} (h : Watched o t l a)
    (hp : o.play (l, a) steps = some (l', a')) : Watched o t l' a' := by
  induction steps generalizing l a with
  | nil =>
    cases hp
    exact h
  | cons x steps ih =>
    cases x with
    | inl m =>
      obtain ⟨l₁, hm, hp⟩ := Option.bind_eq_some_iff.1 hp
      exact ih (h.move hm) hp
    | inr b =>
      obtain ⟨a₁, hb, hp⟩ := Option.bind_eq_some_iff.1 hp
      exact ih (h.look hb) hp

theorem Watched.played {steps : List (Move ⊕ β)}
    (h : (o.play (.new t, o.start) steps).isSome = true) :
    Watched o t (o.played t steps).1 (o.played t steps).2 := by
  obtain ⟨x, hx⟩ := Option.isSome_iff_exists.1 h
  unfold Onlooker.played
  rw [hx]
  exact Watched.new.play hx

end Life

end Outbox
