import Outbox.Frame.Words
import Outbox.Proofs.Grammar

namespace Outbox.Frame

/-!
# The reader with words agrees with the frames

* `Tracks` — the course is at the place of a `Reader`, and has never been outside the frame.
* `Agrees`, `Agrees.bind` — a reading comes to the same answer as a `Reader`, without dying.
* `Reading.agrees_take`, `Reading.agrees_number`, `Reading.agrees_text`, `Reading.agrees_headers` —
  so does each step.
* `Reading.concludes_frame`, `stays_in_bounds` — reading a frame gives the answer of `decode`; the
  reader never leaves the frame, never dies and does no more than the length allows.
-/

/-! ### Steps that do not die -/

namespace Reading

section

variable {α β : Type} {m : Reading α} {g : α → Reading β} {a b : UInt64} {s : Course}

/-- What is done in two steps, of which the first may fail. -/
theorem on_bind : (m >>= g).on s =
    match m.on s with
    | (.ok x, s') => (g x).on s'
    | (.error e, s') => (.error e, s') := by
  unfold on ExceptT.run StateT.run Id.run
  simp only [bind, ExceptT.bind, ExceptT.mk, StateT.bind]
  rcases m s with ⟨e | x, s'⟩ <;> rfl

/-- What comes after something that has given a value. -/
theorem on_bind_of_ok {x : α} {s' : Course} (h : m.on s = (.ok x, s')) :
    (m >>= g).on s = (g x).on s' := by
  rw [on_bind, h]

/-- A difference that is not below zero is made. -/
theorem on_minus (h : b.toNat ≤ a.toNat) : (minus a b).on s = (.ok (a - b), s) := by
  unfold minus
  rw [if_pos (UInt64.le_iff_toNat_le.2 h)]
  rfl

/-- A sum that is a word is made. -/
theorem on_plus (h : a.toNat + b.toNat < UInt64.size) : (plus a b).on s = (.ok (a + b), s) := by
  unfold plus
  rw [if_pos h]
  rfl

/-- A slice that lies in the buffer is read. -/
theorem on_slice {buf : Buffer} (hab : a.toNat ≤ b.toNat) (hb : b.toNat ≤ buf.length.toNat) :
    (slice buf a b).on s = (.ok ((buf.bytes.take b.toNat).drop a.toNat), s) := by
  unfold slice
  rw [if_pos ⟨UInt64.le_iff_toNat_le.2 hab, UInt64.le_iff_toNat_le.2 hb⟩]
  rfl

/-- A byte that is there is read. -/
theorem on_index {bytes : Bytes} {i : Nat} (h : i < bytes.length) :
    (index bytes i).on s = (.ok bytes[i], s) := by
  unfold index
  rw [List.getElem?_eq_getElem h]
  rfl

/-- Indices up to the last one are those of bytes that are there. -/
theorem on_indices {bytes : Bytes} {i n : Nat} (h : i + n = bytes.length) :
    (indices bytes i n).on s = (.ok (bytes.drop i), s) := by
  induction n generalizing i with
  | zero =>
    rw [List.drop_eq_nil_of_le (by omega)]
    rfl
  | succ n ih =>
    have hi : i < bytes.length := by omega
    unfold indices
    rw [on_bind_of_ok (on_index hi), on_bind_of_ok (ih (by omega)), List.drop_eq_getElem_cons hi]
    rfl

end

end Reading

/-! ### At the same place -/

section

variable {buf : Buffer} {r r' : Reader buf.bytes.length} {s s' : Course}

/-- The reader has never been outside the buffer. -/
def Inside (buf : Buffer) (s : Course) : Prop := ∀ p ∈ s.places, p.toNat ≤ buf.bytes.length

/-- The course is at the place of a reader, and has never been outside the buffer. -/
structure Tracks (buf : Buffer) (r : Reader buf.bytes.length) (s : Course) : Prop where
  position : s.position.toNat = r.position
  rest : r.rest = buf.bytes.drop r.position
  inside : Inside buf s

/-- At the start of a frame, the two readers are at the same place. -/
theorem tracks_start (buf : Buffer) : Tracks buf (.start buf.bytes) .start := by
  refine ⟨rfl, rfl, ?_⟩
  intro p hp
  simp only [Course.start, List.mem_singleton] at hp
  simp [hp]

/-- Nothing but the place has changed. -/
structure Moves (s s' : Course) : Prop where
  announced : s'.announced = s.announced
  room : s'.room = s.room
  rounds : s'.rounds = s.rounds

/-- Nothing has moved but the place. -/
theorem Moves.refl (s : Course) : Moves s s := ⟨rfl, rfl, rfl⟩

/-- What is so in two steps is so. -/
theorem Moves.trans {s'' : Course} (h : Moves s s') (h' : Moves s' s'') : Moves s s'' :=
  ⟨h'.announced.trans h.announced, h'.room.trans h.room, h'.rounds.trans h.rounds⟩

/-- Of `count` headers in `left` bytes no more have been begun than are announced, and one more than
    fit at most. -/
structure Loops (count left : Nat) (s s' : Course) : Prop where
  announced : s'.announced = s.announced
  room : s'.room = s.room
  rounds_le_count : s'.rounds ≤ s.rounds + count
  rounds_le_left : s'.rounds ≤ s.rounds + left / 4 + 1

/-- A reading gives what a reader gives and comes to its place, or finds the fault that the reader
    finds; the course is as `P` says then. -/
inductive Agrees {α β : Type} (buf : Buffer) (view : α → β) (P : Course → Prop) :
    Except FrameFault (β × Reader buf.bytes.length) → Except Failure α × Course → Prop
  | ok {a : α} {r : Reader buf.bytes.length} {s : Course} :
    Tracks buf r s → P s → Agrees buf view P (.ok (view a, r)) (.ok a, s)
  | corrupt {fault : FrameFault} {s : Course} :
    Inside buf s → P s → Agrees buf view P (.error fault) (.error (.error (.corruptFrame fault)), s)

/-- Of the course, anything that follows may be said instead. -/
theorem Agrees.mono {α β : Type} {view : α → β} {P Q : Course → Prop}
    {x : Except FrameFault (β × Reader buf.bytes.length)} {out : Except Failure α × Course}
    (h : Agrees buf view P x out) (hPQ : ∀ {s}, P s → Q s) : Agrees buf view Q x out := by
  cases h with
  | ok hr hP => exact .ok hr (hPQ hP)
  | corrupt hs hP => exact .corrupt hs (hPQ hP)

/-- Steps one after another: what holds wherever the first one finds a fault, and of what is done
    after it, holds of the two. -/
theorem Agrees.bind {α β γ δ : Type} {view : α → β} {P : Course → Prop}
    {R : Except FrameFault δ → Except Failure γ × Course → Prop}
    {x : Except FrameFault (β × Reader buf.bytes.length)} {m : Reading α}
    {f : β × Reader buf.bytes.length → Except FrameFault δ} {g : α → Reading γ}
    (h : Agrees buf view P x (m.on s))
    (hfault : ∀ {fault s'}, Inside buf s' → P s' →
      R (.error fault) (.error (.error (.corruptFrame fault)), s'))
    (hstep : ∀ {a r s'}, x = .ok (view a, r) → Tracks buf r s' → P s' →
      R (f (view a, r)) ((g a).on s')) :
    R (x >>= f) ((m >>= g).on s) := by
  rw [Reading.on_bind]
  generalize m.on s = out at h
  cases h with
  | ok hr hP => exact hstep rfl hr hP
  | corrupt hs hP => exact hfault hs hP

/-! ### The steps of reading -/

/-- What a text takes up is at least the bytes of its length. -/
theorem Reader.remaining_text_le {t : String} (h : r.text = .ok (t, r')) :
    r'.remaining + 2 ≤ r.remaining := by
  obtain ⟨b, hb, hrest⟩ := text_eq h
  have htwo : 2 ≤ b.length := by
    cases hb with
    | intro hlength =>
      rw [List.length_append, hlength.1]
      omega
  rw [Reader.remaining_eq, Reader.remaining_eq, hrest, List.length_append]
  omega

namespace Reading

/-- The number of bytes that are left is no difference below zero. -/
theorem on_remaining (h : Tracks buf r s) :
    ∃ left, (remaining buf).on s = (.ok left, s) ∧ left.toNat = r.remaining := by
  have hwithin := r.within
  have hplace := h.position
  have hle : s.position.toNat ≤ buf.length.toNat := by
    rw [Buffer.toNat_length]
    omega
  refine ⟨buf.length - s.position, ?_, ?_⟩
  · show (minus buf.length s.position).on s = _
    exact on_minus hle
  · rw [UInt64.toNat_sub_of_le _ _ (UInt64.le_iff_toNat_le.2 hle), Buffer.toNat_length, hplace]
    rfl

/-- Bytes that are there are read, by sums that are words and a slice that lies in the buffer. -/
theorem agrees_take (h : Tracks buf r s) (length : UInt64) :
    Agrees buf id (Moves s) (r.take length.toNat) ((take buf length).on s) := by
  obtain ⟨left, hleft, heq⟩ := on_remaining h
  have hwithin := r.within
  have hplace := h.position
  have hrest := Reader.remaining_eq r
  unfold take Reader.take
  rw [on_bind_of_ok hleft]
  show Agrees buf id (Moves s) _ (Reading.on (if left < length then _ else _) s)
  by_cases hfits : length.toNat ≤ r.remaining
  · have hsum : s.position.toNat + length.toNat ≤ buf.bytes.length := by omega
    have hword : s.position.toNat + length.toNat < UInt64.size := by
      have := buf.length_lt
      rw [UInt64.size]
      omega
    have hplus : (s.position + length).toNat = s.position.toNat + length.toNat := by
      rw [UInt64.toNat_add]
      exact Nat.mod_eq_of_lt hword
    have hslice : (slice buf s.position (s.position + length)).on s =
        (.ok (r.rest.take length.toNat), s) := by
      rw [on_slice (by omega) (by rw [Buffer.toNat_length]; omega), hplus, hplace, h.rest,
        List.drop_take, Nat.add_sub_cancel_left]
    rw [dif_pos hfits, if_neg (by rw [UInt64.lt_iff_toNat_lt]; omega),
      on_bind_of_ok (on_plus hword), on_bind_of_ok hslice, on_bind_of_ok (on_plus hword)]
    refine .ok ⟨hplus.trans (by rw [hplace]), ?_, ?_⟩ ⟨rfl, rfl, rfl⟩
    · show r.rest.drop length.toNat = buf.bytes.drop (r.position + length.toNat)
      rw [h.rest, List.drop_drop]
    · intro p hp
      rcases List.mem_cons.1 hp with rfl | hp
      · omega
      · exact h.inside p hp
  · rw [dif_neg hfits, if_pos (by rw [UInt64.lt_iff_toNat_lt]; omega), Buffer.toNat_length, hplace]
    exact .corrupt h.inside (Moves.refl s)

/-- The bytes of a number are there once they have been read, and the number is a word. -/
theorem agrees_number (h : Tracks buf r s) {width : Nat} (hwidth : width ≤ 4) :
    Agrees buf UInt64.toNat (Moves s) (r.number width) ((number buf width).on s) := by
  have hword : (UInt64.ofNat width).toNat = width := UInt64.toNat_ofNat_of_lt (by
    show width < 2 ^ 64
    omega)
  have htake := agrees_take h (.ofNat width)
  rw [hword] at htake
  unfold number Reader.number
  refine htake.bind .corrupt ?_
  intro b r' s' hb hr' hmoves
  have hlength := (Reader.take_eq hb).1
  have hlt : ofBE b < 2 ^ 64 := by
    have hnumber : ofBE b < 256 ^ width := (isNumber_iff.2 ⟨hlength, rfl⟩).lt
    have hpow : 256 ^ width ≤ 256 ^ 4 := Nat.pow_le_pow_right (by decide) hwidth
    omega
  have hvalue : (UInt64.ofNat (ofBE b)).toNat = ofBE b := UInt64.toNat_ofNat_of_lt hlt
  rw [on_bind_of_ok (on_indices (by rw [Nat.zero_add]; exact hlength.symm))]
  have hok : Agrees buf UInt64.toNat (Moves s) (.ok ((UInt64.ofNat (ofBE b)).toNat, r'))
    (.ok (.ofNat (ofBE b)), s') := .ok hr' hmoves
  rwa [hvalue] at hok

/-- The bytes of a text are decoded once they have been read. -/
theorem agrees_text (h : Tracks buf r s) :
    Agrees buf id (Moves s) r.text ((text buf).on s) := by
  unfold text Reader.text
  refine (agrees_number h (by decide)).bind .corrupt ?_
  intro length r₁ s₁ _ hr₁ hmoves₁
  refine (agrees_take hr₁ length).bind (fun hs hmoves => .corrupt hs (hmoves₁.trans hmoves)) ?_
  intro b r₂ s₂ _ hr₂ hmoves₂
  cases hdecode : Utf8.decode b with
  | ok t =>
    simp only [id_eq, hdecode]
    exact .ok hr₂ (hmoves₁.trans hmoves₂)
  | error fault =>
    simp only [id_eq, hdecode]
    exact .corrupt hr₂.inside (hmoves₁.trans hmoves₂)

/-- Headers are read however many are announced: each one that has been read has taken up four bytes
    at least, and after the first one that has not, nothing is read any more. -/
theorem agrees_headers (h : Tracks buf r s) (count : Nat) (hs : Headers) :
    Agrees buf id (Loops count r.remaining s) (r.headers count hs)
      ((headers buf count hs).on s) := by
  induction count generalizing r s hs with
  | zero => exact .ok h ⟨rfl, rfl, by omega, by omega⟩
  | succ count ih =>
    have hbegun : Tracks buf r { s with rounds := s.rounds + 1 } := ⟨h.position, h.rest, h.inside⟩
    have hstop : ∀ {s' : Course}, Moves { s with rounds := s.rounds + 1 } s' →
        Loops (count + 1) r.remaining s s' := by
      rintro s' ⟨hannounced, hroom, hrounds⟩
      have hrounds : s'.rounds = s.rounds + 1 := hrounds
      exact ⟨hannounced, hroom, by omega, by omega⟩
    unfold headers Reader.headers
    refine (agrees_text hbegun).bind (fun hin hmoves => .corrupt hin (hstop hmoves)) ?_
    intro name r₁ s₁ hname hr₁ hmoves₁
    refine (agrees_text hr₁).bind
      (fun hin hmoves => .corrupt hin (hstop (hmoves₁.trans hmoves))) ?_
    intro value r₂ s₂ hvalue hr₂ hmoves₂
    have hname := Reader.remaining_text_le hname
    have hvalue := Reader.remaining_text_le hvalue
    obtain ⟨hannounced, hroom, hrounds⟩ := hmoves₁.trans hmoves₂
    have hrounds : s₂.rounds = s.rounds + 1 := hrounds
    refine (ih hr₂ (hs.add (name, value))).mono ?_
    rintro s' ⟨hannounced', hroom', hcount, hleft⟩
    exact ⟨hannounced'.trans hannounced, hroom'.trans hroom, by omega, by omega⟩

end Reading

/-! ### The frame -/

/-- What has been begun and what room has been made is within what is announced and what is left;
    before that is known there is nothing of either. -/
structure Bounded (buf : Buffer) (s : Course) : Prop where
  none : s.announced = none → s.rounds = 0 ∧ s.room = 0
  some : ∀ count left, s.announced = some (count, left) →
    s.rounds ≤ min count.toNat (left.toNat / 4 + 1) ∧
      s.room.toNat = min count.toNat (left.toNat / 4) ∧ left.toNat ≤ buf.bytes.length

/-- A reading of a whole frame gives the event of the frame or finds its fault, and has kept in
    bounds. -/
structure Concludes (buf : Buffer) (x : Except FrameFault Event)
    (out : Except Failure Event × Course) : Prop where
  answer : out.1 = x.mapError fun fault => .error (.corruptFrame fault)
  inside : Inside buf out.2
  bounded : Bounded buf out.2

/-- A fault concludes the reading of a frame, within the bounds. -/
theorem Concludes.of_corrupt {fault : FrameFault} (hin : Inside buf s) (hs : Bounded buf s) :
    Concludes buf (.error fault) (.error (.error (.corruptFrame fault)), s) :=
  ⟨rfl, hin, hs⟩

/-- Before the number of headers is known, nothing has been begun and no room made. -/
theorem Bounded.of_moves (h : Moves .start s) : Bounded buf s := by
  obtain ⟨hannounced, hroom, hrounds⟩ := h
  constructor
  · exact fun _ => ⟨hrounds, hroom⟩
  · intro count left hsome
    rw [hannounced] at hsome
    cases hsome

/-- The course after room has been made for headers. -/
def Course.reserved (s : Course) (count left : UInt64) : Course :=
  { s with announced := some (count, left), room := min count (left / 4) }

/-- Having read headers, the reader has begun no more than are announced and fit. -/
theorem Bounded.of_loops {count left : UInt64} (hrounds : s.rounds = 0)
    (hleft : left.toNat ≤ buf.bytes.length)
    (h : Loops count.toNat left.toNat (s.reserved count left) s') : Bounded buf s' := by
  obtain ⟨hannounced, hroom, hcount, hfour⟩ := h
  have hnone : (s.reserved count left).rounds = 0 := hrounds
  have hmin : s'.room.toNat = min count.toNat (left.toNat / 4) := by
    rw [hroom]
    show (min count (left / 4)).toNat = _
    rw [UInt64.toNat_min, UInt64.toNat_div]
    rfl
  constructor
  · intro h
    rw [hannounced] at h
    cases h
  · intro count' left' h
    rw [hannounced] at h
    cases h
    exact ⟨by omega, hmin, hleft⟩

namespace Reading

/-- Making room changes nothing but the course. -/
theorem on_reserve {count left : UInt64} :
    (reserve count left).on s = (.ok .empty, s.reserved count left) := rfl

/-- A frame is read as it is, and its headers are begun in bounds. -/
theorem concludes_frame (buf : Buffer) :
    Concludes buf (decode buf.bytes) ((frame buf).on .start) := by
  unfold frame decode
  have hstart := tracks_start buf
  refine (agrees_number hstart (by decide)).bind
    (fun hin hmoves => .of_corrupt hin (.of_moves hmoves)) ?_
  intro length r₁ s₁ _ hr₁ hmoves₁
  refine (agrees_take hr₁ length).bind
    (fun hin hmoves => .of_corrupt hin (.of_moves (hmoves₁.trans hmoves))) ?_
  intro body r₂ s₂ _ hr₂ hmoves₂
  refine (agrees_number hr₂ (by decide)).bind
    (fun hin hmoves => .of_corrupt hin (.of_moves ((hmoves₁.trans hmoves₂).trans hmoves))) ?_
  intro count r₃ s₃ _ hr₃ hmoves₃
  obtain ⟨left, hleft, heq⟩ := on_remaining hr₃
  rw [on_bind_of_ok hleft, on_bind_of_ok on_reserve]
  have hr₄ : Tracks buf r₃ (s₃.reserved count left) := ⟨hr₃.position, hr₃.rest, hr₃.inside⟩
  -- no round was made before the headers, and what is left bounds the rounds they make
  have hbounded : ∀ {s}, Loops count.toNat r₃.remaining (s₃.reserved count left) s →
      Bounded buf s := by
    have hrounds : s₃.rounds = 0 := ((hmoves₁.trans hmoves₂).trans hmoves₃).rounds
    have hwithin : r₃.remaining ≤ buf.bytes.length := Nat.sub_le _ _
    rw [← heq] at hwithin ⊢
    intro s hloops
    exact .of_loops hrounds hwithin hloops
  refine (agrees_headers hr₄ count.toNat .empty).bind
    (fun hin hloops => .of_corrupt hin (hbounded hloops)) ?_
  intro hs r₅ s₅ _ hr₅ hloops
  obtain ⟨rest, hrest, heq⟩ := on_remaining hr₅
  rw [on_bind_of_ok hrest]
  show Concludes buf (if r₅.remaining ≠ 0 then _ else _) (Reading.on (if rest ≠ 0 then _ else _) s₅)
  have hbounded' := hbounded hloops
  rw [← heq]
  by_cases hend : rest = 0
  · rw [if_neg (not_not_intro hend), if_neg (by rw [hend]; decide)]
    exact ⟨rfl, hr₅.inside, hbounded'⟩
  · have hpos : rest.toNat ≠ 0 := fun h => hend (UInt64.toNat_inj.1 h)
    rw [if_pos hend, if_pos hpos]
    exact .of_corrupt hr₅.inside hbounded'

end Reading

end

/-- Reading a frame with words gives the event of the frame or the fault that is found in it, and
    the reader never dies: every difference and sum is a word, and every slice and index lies in the
    bytes. It is never outside the frame. Whatever number of headers is announced, no more of them
    are begun than that, and one more at most than the bytes that are left could hold at four bytes
    each; the room that is made for them is for as many as are announced and could be there, which
    is at most a quarter of the frame's length. -/
theorem stays_in_bounds (buf : Buffer) :
    let out := (Reading.frame buf).on .start
    (out.1 = (decode buf.bytes).mapError fun fault => .error (.corruptFrame fault)) ∧
    ((∃ e, out.1 = .ok e) ∨ ∃ fault, out.1 = .error (.error (.corruptFrame fault))) ∧
    (∀ p ∈ out.2.places, p.toNat ≤ buf.bytes.length) ∧
    (out.2.announced = none → out.2.rounds = 0 ∧ out.2.room = 0) ∧
    (∀ count left, out.2.announced = some (count, left) → left.toNat ≤ buf.bytes.length ∧
      out.2.rounds ≤ left.toNat / 4 + 1 ∧ out.2.rounds ≤ count.toNat ∧
      out.2.room.toNat = min count.toNat (left.toNat / 4)) ∧
    out.2.room.toNat ≤ buf.bytes.length / 4 := by
  intro out
  have hconcludes : Concludes buf (decode buf.bytes) out := Reading.concludes_frame buf
  obtain ⟨hanswer, hinside, hnone, hsome⟩ := hconcludes
  refine ⟨hanswer, ?_, hinside, hnone, ?_, ?_⟩
  · rw [hanswer]
    cases decode buf.bytes with
    | ok e => exact .inl ⟨e, rfl⟩
    | error fault => exact .inr ⟨fault, rfl⟩
  · intro count left h
    obtain ⟨hrounds, hroom, hlength⟩ := hsome count left h
    exact ⟨hlength, by omega, by omega, hroom⟩
  · cases h : out.2.announced with
    | none =>
      rw [(hnone h).2]
      exact Nat.zero_le _
    | some announced =>
      obtain ⟨-, hroom, hlength⟩ := hsome announced.1 announced.2 h
      omega

-- as many headers as can be announced, and four bytes, which the first one takes up
example :
    let buf : Buffer := ⟨[0, 0, 0, 0, 255, 255, 255, 255, 0, 0, 0, 0], by decide⟩
    let out := (Reading.frame buf).on .start
    out.1 = .error (.error (.corruptFrame (.outOfBounds 2 12 12))) ∧
      out.2 = ⟨12, [12, 12, 10, 10, 8, 4, 4, 0], some (4294967295, 4), 1, 2⟩ := by
  decide +kernel

end Outbox.Frame
