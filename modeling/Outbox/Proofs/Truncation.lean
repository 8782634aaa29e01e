import Outbox.Proofs.Grammar

namespace Outbox.Frame

/-!
# Frames show where they end

What comes of a frame whose last bytes are cut off, or that is followed by others:

* `Reader.Cut` — a reader of the cut frame at the place of a reader of the whole one.
* `Stops` — a field of the whole frame is told to run past the end of the cut one.
* `Reader.Follows`, `Reader.Follows.bind` — the reader of the cut frame gets what the other one gets
  or stops there.
* `Reader.take_cut`, `Reader.text_cut`, `Reader.headers_cut` — so does every step of reading.
* `self_delimiting` — neither a part of a frame nor more than a frame is read.
-/

/-- A field of a frame with `whole` bytes is told to run past the end of the first `size` of
    them. -/
def Stops {α : Type} (whole size : Nat) (x : Except FrameFault α) : Prop :=
  ∃ length offset, x = .error (.outOfBounds length offset size) ∧ offset ≤ size ∧
    size < offset + length ∧ offset + length ≤ whole

namespace Reader

variable {whole size n width count : Nat} {cut : Bytes} {r r' : Reader whole} {q : Reader size}

/-- A reader of a frame whose last bytes have been cut off, at the place of one of the whole
    frame. -/
structure Cut (cut : Bytes) (r : Reader whole) (q : Reader size) : Prop where
  position : q.position = r.position
  rest : r.rest = q.rest ++ cut

/-- Where the reader of the whole frame gets something and comes to a place, the other one does so
    too, unless it stops. -/
def Follows {α : Type} (cut : Bytes) (a : α) (r : Reader whole)
    (x : Except FrameFault (α × Reader size)) : Prop :=
  (∃ q, x = .ok (a, q) ∧ Cut cut r q) ∨ Stops whole size x

section

variable {α β : Type} {a : α} {x : Except FrameFault (α × Reader size)}
  {f : α × Reader size → Except FrameFault β} {P : Except FrameFault β → Prop}

/-- What holds wherever the reader of the cut frame stops, and of what it does from the place of the
    other one, holds of what it does after a step. -/
theorem Follows.bind (h : Follows cut a r x) (hstops : ∀ {y}, Stops whole size y → P y)
    (hf : ∀ {q}, Cut cut r q → P (f (a, q))) : P (x >>= f) := by
  rcases h with ⟨q, rfl, hq⟩ | ⟨length, offset, rfl, hbounds⟩
  · exact hf hq
  · exact hstops ⟨length, offset, rfl, hbounds⟩

end

/-- Bytes that are there are the same bytes; those that are not run past the end. -/
theorem take_cut {b : Bytes} (hq : Cut cut r q) (h : r.take n = .ok (b, r')) :
    Follows cut b r' (q.take n) := by
  unfold take at h
  split at h
  · next hle =>
    cases h
    rw [remaining_eq] at hle
    by_cases hfits : n ≤ q.rest.length
    · -- the field ends before the cut
      refine .inl ⟨⟨q.position + n, q.rest.drop n, ?_⟩, ?_, congrArg (· + n) hq.position, ?_⟩
      · have := q.within
        rw [List.length_drop]
        omega
      · unfold take
        rw [dif_pos (by rwa [remaining_eq]), hq.rest, List.take_append_of_le_length hfits]
      · show r.rest.drop n = _
        rw [hq.rest, List.drop_append_of_le_length hfits]
    · have hwhole := r.within
      have hwithin := q.within
      have hplace := hq.position
      refine .inr ⟨n, q.position, ?_, by omega, by omega, by omega⟩
      unfold take
      rw [dif_neg (by rwa [remaining_eq])]
  · cases h

theorem number_cut (hq : Cut cut r q) (h : r.number width = .ok (n, r')) :
    Follows cut n r' (q.number width) := by
  obtain ⟨⟨b, r₁⟩, htake, h⟩ := exists_of_bind h
  cases h
  exact (take_cut hq htake).bind .inr fun hq₁ => .inl ⟨_, rfl, hq₁⟩

/-- The bytes of a text are looked at only when all of them are there, so that the cut leaves no
    text that is not UTF-8. -/
theorem text_cut {s : String} (hq : Cut cut r q) (h : r.text = .ok (s, r')) :
    Follows cut s r' q.text := by
  obtain ⟨⟨length, r₁⟩, hnumber, h⟩ := exists_of_bind h
  obtain ⟨⟨b, r₂⟩, htake, h⟩ := exists_of_bind h
  refine (number_cut hq hnumber).bind .inr fun hq₁ => ?_
  refine (take_cut hq₁ htake).bind .inr fun hq₂ => ?_
  dsimp only at h ⊢
  split at h
  · cases h
    exact .inl ⟨_, rfl, hq₂⟩
  · cases h

theorem headers_cut {hs hs' : Headers} (hq : Cut cut r q) (h : r.headers count hs = .ok (hs', r')) :
    Follows cut hs' r' (q.headers count hs) := by
  -- along the count, as the headers are read
  induction count generalizing hs r q with
  | zero =>
    cases h
    exact .inl ⟨q, rfl, hq⟩
  | succ count ih =>
    obtain ⟨⟨name, r₁⟩, hname, h⟩ := exists_of_bind h
    obtain ⟨⟨value, r₂⟩, hvalue, h⟩ := exists_of_bind h
    refine (text_cut hq hname).bind .inr fun hq₁ => ?_
    exact (text_cut hq₁ hvalue).bind .inr fun hq₂ => ih hq₂ h

end Reader

/-- A frame whose last bytes are cut off is told to be too short for one of its fields. -/
theorem stops_of_cut {front cut : Bytes} {e : Event} (hcut : cut ≠ [])
    (h : decode (front ++ cut) = .ok e) :
    Stops (front ++ cut).length front.length (decode front) := by
  obtain ⟨⟨length, r₁⟩, hlength, h⟩ := exists_of_bind h
  obtain ⟨⟨body, r₂⟩, hbody, h⟩ := exists_of_bind h
  obtain ⟨⟨count, r₃⟩, hcount, h⟩ := exists_of_bind h
  obtain ⟨⟨headers, r₄⟩, hheaders, h⟩ := exists_of_bind h
  have hstart : Reader.Cut cut (Reader.start (front ++ cut)) (Reader.start front) := ⟨rfl, rfl⟩
  refine (Reader.number_cut hstart hlength).bind id fun hq₁ => ?_
  refine (Reader.take_cut hq₁ hbody).bind id fun hq₂ => ?_
  refine (Reader.number_cut hq₂ hcount).bind id fun hq₃ => ?_
  refine (Reader.headers_cut hq₃ hheaders).bind id fun hq₄ => ?_
  -- had it come to the end, nothing would have been cut off
  by_cases hend : r₄.remaining ≠ 0
  · simp only [if_pos hend] at h
    cases h
  · rw [Reader.remaining_eq, hq₄.rest, List.length_append, not_not, Nat.add_eq_zero_iff] at hend
    exact absurd (List.eq_nil_of_length_eq_zero hend.2) hcut

/-- A frame shows where it ends. A strict part from its start is corrupt: some field of the frame,
    at a place within the part, is told to run past the end of the part, and never anything else. A
    frame that is followed by other bytes is corrupt too, and told to be followed by so many. -/
theorem self_delimiting {frame : Bytes} {e : Event} (h : decode frame = .ok e) :
    (∀ front, front <+: frame → front ≠ frame →
      ∃ length offset,
        Cipher.plaintext.openEvent front =
          .error (.corruptFrame (.outOfBounds length offset front.length)) ∧
        decode front = .error (.outOfBounds length offset front.length) ∧
        (FrameFault.outOfBounds length offset front.length).message =
          s!"length {length} at offset {offset} exceeds frame of {front.length} bytes" ∧
        offset ≤ front.length ∧ front.length < offset + length ∧ offset + length ≤ frame.length) ∧
    ∀ extra, extra ≠ [] →
      Cipher.plaintext.openEvent (frame ++ extra) =
        .error (.corruptFrame (.trailing extra.length)) ∧
      decode (frame ++ extra) = .error (.trailing extra.length) ∧
      (FrameFault.trailing extra.length).message =
        s!"{extra.length} trailing bytes after headers" := by
  constructor
  · rintro front ⟨cut, rfl⟩ hstrict
    have hcut : cut ≠ [] := by
      rintro rfl
      exact hstrict (List.append_nil front).symm
    obtain ⟨length, offset, hread, hplace, hpast, hfits⟩ := stops_of_cut hcut h
    exact ⟨length, offset, Cipher.openEvent_of_corrupt hread, hread, rfl, hplace, hpast, hfits⟩
  · intro extra hextra
    obtain ⟨pairs, hframe, -⟩ := isFrame_of_decode h
    have hread : decode (frame ++ extra) = .error (.trailing extra.length) := by
      rw [decode_append (encode_eq_ok_iff.2 hframe : encode ⟨e.body, ⟨pairs⟩⟩ = .ok frame),
        if_neg hextra]
    exact ⟨Cipher.openEvent_of_corrupt hread, hread, rfl⟩

/-- A frame with one header, cut within a character of its value, or followed by one byte. -/
theorem self_delimiting_of_accent :
    let frame : Bytes := [0, 0, 0, 1, 7, 0, 0, 0, 1, 0, 1, 97, 0, 2, 195, 169]
    let front : Bytes := [0, 0, 0, 1, 7, 0, 0, 0, 1, 0, 1, 97, 0, 2, 195]
    (decode frame = .ok ⟨[7], .ofList [("a", "é")]⟩ ∧ front <+: frame ∧ front ≠ frame) ∧
    (∃ length offset, decode front = .error (.outOfBounds length offset 15) ∧ offset ≤ 15 ∧
      15 < offset + length ∧ offset + length ≤ 16) ∧
    Cipher.plaintext.openEvent (frame ++ [0]) = .error (.corruptFrame (.trailing 1)) := by
  intro frame front
  have hread : decode frame = .ok ⟨[7], .ofList [("a", "é")]⟩ := by decide +kernel
  have hprefix : front <+: frame := ⟨[169], rfl⟩
  have hstrict : front ≠ frame := by decide
  obtain ⟨hcut, hextra⟩ := self_delimiting hread
  obtain ⟨length, offset, -, hfront, -, hbounds⟩ := hcut front hprefix hstrict
  exact ⟨⟨hread, hprefix, hstrict⟩, ⟨length, offset, hfront, hbounds⟩,
    (hextra [0] (List.cons_ne_nil _ _)).1⟩

end Outbox.Frame
