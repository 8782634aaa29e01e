import Outbox.Frame
import Outbox.Proofs.Text.Utf8

namespace Outbox.Frame

/-!
# Frames there and back

* `Reader.take_append`, `Reader.text_append`, `Reader.headers_append` — what has been written is
  read, and what comes after it is still to be read.
* `decode_append`, `decode_encode` — the event of a frame is the one that has been written, with its
  headers inserted one after another; bytes that follow the frame are told to be too many.
-/

/-! ### Writing -/

/-- What is written for a text is its length and its bytes. -/
theorem encodeText_eq {s : String} {b : Bytes} (h : encodeText s = .ok b) :
    (Utf8.encode s).length < 65536 ∧ b = be16 (Utf8.encode s).length ++ Utf8.encode s := by
  unfold encodeText at h
  dsimp only at h
  split at h
  · next hlt =>
    cases h
    exact ⟨hlt, rfl⟩
  · cases h

/-- What is written for headers is what is written for their names and values. -/
theorem encodeHeaders_cons {name value : String} {rest : List (String × String)} {b : Bytes}
    (h : encodeHeaders ((name, value) :: rest) = .ok b) :
    ∃ n v r, encodeText name = .ok n ∧ encodeText value = .ok v ∧ encodeHeaders rest = .ok r ∧
      b = n ++ (v ++ r) := by
  unfold encodeHeaders at h
  cases hn : encodeText name with
  | error fault =>
    rw [hn] at h
    cases h
  | ok n =>
    cases hv : encodeText value with
    | error fault =>
      rw [hn, hv] at h
      cases h
    | ok v =>
      cases hr : encodeHeaders rest with
      | error fault =>
        rw [hn, hv, hr] at h
        cases h
      | ok r =>
        rw [hn, hv, hr] at h
        cases h
        exact ⟨n, v, r, rfl, rfl, rfl, rfl⟩

/-- What is written for an event. -/
theorem encode_eq {e : Event} {frame : Bytes} (h : encode e = .ok frame) :
    e.body.length < 4294967296 ∧ e.headers.size < 4294967296 ∧ ∃ b,
      encodeHeaders e.headers.toList = .ok b ∧
        frame = be32 e.body.length ++ (e.body ++ (be32 e.headers.size ++ b)) := by
  unfold encode at h
  dsimp only at h
  split at h
  · cases h
  · next hbody =>
    split at h
    · cases h
    · next hcount =>
      cases hb : encodeHeaders e.headers.toList with
      | error fault =>
        rw [hb] at h
        cases h
      | ok b =>
        rw [hb] at h
        cases h
        exact ⟨by omega, by omega, b, rfl, rfl⟩

/-! ### Reading -/

namespace Reader

variable {size : Nat} {r : Reader size} {rest : Bytes}

/-- The bytes that come next are read, and the reader stands behind them. -/
theorem take_append {b : Bytes} (h : r.rest = b ++ rest) :
    ∃ r' : Reader size, r.take b.length = .ok (b, r') ∧ r'.rest = rest := by
  have hle : b.length ≤ r.remaining := by
    rw [remaining_eq, h, List.length_append]
    omega
  have hbytes : r.rest.take b.length = b := by
    rw [h, List.take_left]
  have hrest : r.rest.drop b.length = rest := by
    rw [h, List.drop_left]
  unfold take
  rw [dif_pos hle, hbytes]
  exact ⟨_, rfl, hrest⟩

/-- A number that has been written in so many bytes is read. -/
theorem number_append {b : Bytes} {n : Nat} (hn : ofBE b = n) (h : r.rest = b ++ rest) :
    ∃ r' : Reader size, r.number b.length = .ok (n, r') ∧ r'.rest = rest := by
  obtain ⟨r', htake, hrest⟩ := take_append h
  refine ⟨r', ?_, hrest⟩
  unfold number
  rw [htake]
  show Except.ok (ofBE b, r') = _
  rw [hn]

/-- A text that has been written is read. -/
theorem text_append {s : String} {b : Bytes} (hs : encodeText s = .ok b) (h : r.rest = b ++ rest) :
    ∃ r' : Reader size, r.text = .ok (s, r') ∧ r'.rest = rest := by
  obtain ⟨hlt, rfl⟩ := encodeText_eq hs
  rw [List.append_assoc] at h
  obtain ⟨r₁, hnumber, h₁⟩ := number_append (ofBE_be16 hlt) h
  obtain ⟨r₂, htake, h₂⟩ := take_append h₁
  refine ⟨r₂, ?_, h₂⟩
  unfold text
  rw [length_be16] at hnumber
  rw [hnumber]
  show (r₁.take _ >>= _) = _
  rw [htake]
  dsimp only [bind, Except.bind]
  rw [Utf8.decode_encode]
  rfl

/-- Headers that have been written are read, and inserted one after another. -/
theorem headers_append {pairs : List (String × String)} {b : Bytes} {hs : Headers}
    (hb : encodeHeaders pairs = .ok b) (h : r.rest = b ++ rest) :
    ∃ r' : Reader size, r.headers pairs.length hs = .ok (pairs.foldl Headers.add hs, r') ∧
      r'.rest = rest := by
  induction pairs generalizing r b hs with
  | nil =>
    cases hb
    exact ⟨r, rfl, h⟩
  | cons pair pairs ih =>
    obtain ⟨name, value⟩ := pair
    obtain ⟨n, v, w, hn, hv, hw, rfl⟩ := encodeHeaders_cons hb
    rw [List.append_assoc, List.append_assoc] at h
    obtain ⟨r₁, hname, h₁⟩ := text_append hn h
    obtain ⟨r₂, hvalue, h₂⟩ := text_append hv h₁
    obtain ⟨r₃, hrest, h₃⟩ := ih hw h₂
    refine ⟨r₃, ?_, h₃⟩
    show (r.text >>= _) = _
    rw [hname]
    show (r₁.text >>= _) = _
    rw [hvalue]
    exact hrest

end Reader

/-- The event of a frame is the one that has been written, with its headers inserted one after
    another; bytes that follow the frame are told to be too many. -/
theorem decode_append {e : Event} {frame : Bytes} (h : encode e = .ok frame) (extra : Bytes) :
    decode (frame ++ extra) = if extra = [] then .ok ⟨e.body, .ofList e.headers.toList⟩
      else .error (.trailing extra.length) := by
  obtain ⟨hbody, hcount, b, hb, hframe⟩ := encode_eq h
  -- length, body, count and headers are read one after another, each from where the last one ends
  have hstart : (Reader.start (frame ++ extra)).rest =
      be32 e.body.length ++ (e.body ++ (be32 e.headers.size ++ (b ++ extra))) := by
    show frame ++ extra = _
    rw [hframe]
    simp only [List.append_assoc]
  obtain ⟨r₁, hlength, h₁⟩ := Reader.number_append (ofBE_be32 hbody) hstart
  obtain ⟨r₂, htake, h₂⟩ := Reader.take_append h₁
  obtain ⟨r₃, hnumber, h₃⟩ := Reader.number_append (ofBE_be32 hcount) h₂
  obtain ⟨r₄, hheaders, h₄⟩ := Reader.headers_append hb h₃
  rw [length_be32] at hlength hnumber
  unfold decode
  rw [hlength]
  show (r₁.take _ >>= _) = _
  rw [htake]
  show (r₂.number 4 >>= _) = _
  rw [hnumber]
  show (r₃.headers e.headers.size .empty >>= _) = _
  rw [show e.headers.size = e.headers.toList.length from rfl, hheaders]
  -- what follows is left to be read
  have hend : r₄.remaining = extra.length := by
    rw [Reader.remaining_eq, h₄]
  show (if r₄.remaining ≠ 0 then _ else _) = _
  rw [hend]
  by_cases hnil : extra = []
  · rw [if_pos hnil, if_neg (not_not_intro (List.length_eq_zero_iff.2 hnil))]
    rfl
  · rw [if_neg hnil, if_pos (mt List.length_eq_zero_iff.1 hnil)]
    rfl

/-- The event of a frame is the one that has been written, with its headers inserted one after
    another. -/
theorem decode_encode {e : Event} {frame : Bytes} (h : encode e = .ok frame) :
    decode frame = .ok ⟨e.body, .ofList e.headers.toList⟩ := by
  have hread := decode_append h []
  rwa [List.append_nil, if_pos rfl] at hread

end Outbox.Frame
