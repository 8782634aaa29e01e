import Outbox.Proofs.Envelope

namespace Outbox

/-!
# Which events have a frame

A frame has four bytes for the length of the body and for the number of headers, and two bytes for
the length of a name or a value:

* `Event.misfit?` — why an event has no frame, read off its lengths alone.
* `encodeHeaders_of_fit`, `encodeHeaders_of_misfit` — headers are written unless a name or a value
  is too long, and then the first such one is told.
* `encode_of_misfit`, `encode_of_fit` — the same for events.
* `decode_undoes_encode` — an event has a frame if and only if its lengths fit, and the frame is
  read as the event with its headers inserted one after another.
-/

/-- A name or value that is too long for its field. -/
def Headers.isTooLong (text : String) : Bool := 65535 < text.utf8ByteSize

/-- The names and values in the order in which they are written. -/
def Headers.texts (pairs : List (String × String)) : List String :=
  pairs.flatMap fun pair => [pair.1, pair.2]

@[simp] theorem Headers.texts_cons (pair : String × String) (pairs : List (String × String)) :
    texts (pair :: pairs) = pair.1 :: pair.2 :: texts pairs := rfl

/-- Why an event has no frame: its body is too long, it has too many headers, or one of its names
    and values is too long. -/
def Event.misfit? (e : Event) : Option EncodeFault :=
  if 4294967296 ≤ e.body.length then some (.bodyTooLarge e.body.length)
  else if 4294967296 ≤ e.headers.size then some .tooManyHeaders
  else ((Headers.texts e.headers.toList).find? Headers.isTooLong).map fun text =>
    .fieldTooLong text.utf8ByteSize

/-- The number of bytes that are written for a header. -/
def Headers.width (pair : String × String) : Nat :=
  4 + pair.1.utf8ByteSize + pair.2.utf8ByteSize

namespace Frame

open Headers

/-! ### Headers -/

/-- A text that is not too long is written with its length. -/
theorem encodeText_of_fit {s : String} (h : isTooLong s = false) :
    ∃ b, encodeText s = .ok b ∧ b.length = 2 + s.utf8ByteSize := by
  have hle : s.utf8ByteSize ≤ 65535 := by simpa [isTooLong] using h
  have hlt : (Utf8.encode s).length < 65536 := by
    rw [Utf8.length_encode]
    omega
  refine ⟨be16 (Utf8.encode s).length ++ Utf8.encode s, ?_, ?_⟩
  · simp [encodeText, hlt]
  · simp [Utf8.length_encode]

/-- A text that is too long is refused. -/
theorem encodeText_of_misfit {s : String} (h : isTooLong s = true) :
    encodeText s = .error (.fieldTooLong s.utf8ByteSize) := by
  have hlong : 65535 < s.utf8ByteSize := by simpa [isTooLong] using h
  have hge : ¬ s.utf8ByteSize < 65536 := by omega
  simp [encodeText, Utf8.length_encode, hge]

/-- Headers whose names and values are not too long are written. -/
theorem encodeHeaders_of_fit {pairs : List (String × String)}
    (h : ∀ text ∈ texts pairs, isTooLong text = false) :
    ∃ b, encodeHeaders pairs = .ok b ∧ b.length = (pairs.map width).sum := by
  induction pairs with
  | nil => exact ⟨[], rfl, rfl⟩
  | cons pair pairs ih =>
    obtain ⟨name, value⟩ := pair
    have hfit : isTooLong name = false ∧ isTooLong value = false ∧
        ∀ text ∈ texts pairs, isTooLong text = false := by
      simpa using h
    obtain ⟨n, hn, hnlen⟩ := encodeText_of_fit hfit.1
    obtain ⟨v, hv, hvlen⟩ := encodeText_of_fit hfit.2.1
    obtain ⟨b, hb, hblen⟩ := ih hfit.2.2
    refine ⟨n ++ (v ++ b), ?_, ?_⟩
    · rw [encodeHeaders, hn, hv, hb]
      rfl
    · simp only [List.length_append, List.map_cons, List.sum_cons, width]
      omega

/-- Of names and values that are too long the first one is told. -/
theorem encodeHeaders_of_misfit {pairs : List (String × String)} {s : String}
    (h : (texts pairs).find? isTooLong = some s) :
    encodeHeaders pairs = .error (.fieldTooLong s.utf8ByteSize) := by
  induction pairs with
  | nil => simp [texts] at h
  | cons pair pairs ih =>
    obtain ⟨name, value⟩ := pair
    rw [texts_cons, List.find?_cons] at h
    rw [encodeHeaders]
    -- the name comes before the value, and both before the headers that follow
    by_cases hname : isTooLong name = true
    · simp only [hname, Option.some.injEq] at h
      rw [encodeText_of_misfit hname, h]
      rfl
    · obtain ⟨n, hn, -⟩ := encodeText_of_fit (Bool.eq_false_iff.2 hname)
      simp only [hname, List.find?_cons] at h
      rw [hn]
      by_cases hvalue : isTooLong value = true
      · simp only [hvalue, Option.some.injEq] at h
        show (encodeText value >>= _) = _
        rw [encodeText_of_misfit hvalue, h]
        rfl
      · obtain ⟨v, hv, -⟩ := encodeText_of_fit (Bool.eq_false_iff.2 hvalue)
        simp only [hvalue] at h
        show (encodeText value >>= _) = _
        rw [hv]
        show (encodeHeaders pairs >>= _) = _
        rw [ih h]
        rfl

/-! ### Events -/

/-- An event that does not fit is refused, and told why. -/
theorem encode_of_misfit {e : Event} {fault : EncodeFault} (h : e.misfit? = some fault) :
    encode e = .error fault := by
  unfold Event.misfit? at h
  unfold encode
  dsimp only
  by_cases hbody : 4294967296 ≤ e.body.length
  · rw [if_pos hbody] at h
    rw [if_pos hbody, Option.some.inj h]
  · rw [if_neg hbody] at h
    rw [if_neg hbody]
    by_cases hcount : 4294967296 ≤ e.headers.size
    · rw [if_pos hcount] at h
      rw [if_pos hcount, Option.some.inj h]
    · rw [if_neg hcount, Option.map_eq_some_iff] at h
      obtain ⟨s, hs, rfl⟩ := h
      rw [if_neg hcount, encodeHeaders_of_misfit hs]
      rfl

/-- What it means that nothing is in the way of a frame. -/
theorem misfit_eq_none_iff {e : Event} :
    e.misfit? = none ↔ e.body.length < 4294967296 ∧ e.headers.size < 4294967296 ∧
      ∀ text ∈ texts e.headers.toList, isTooLong text = false := by
  unfold Event.misfit?
  by_cases hbody : 4294967296 ≤ e.body.length
  · have hbody' : ¬ e.body.length < 4294967296 := by omega
    simp [hbody, hbody']
  · have hbody' : e.body.length < 4294967296 := by omega
    by_cases hcount : 4294967296 ≤ e.headers.size
    · have hcount' : ¬ e.headers.size < 4294967296 := by omega
      simp [hbody, hcount, hcount']
    · have hcount' : e.headers.size < 4294967296 := by omega
      simp [hbody, hcount, hbody', hcount']

/-- An event that fits has a frame, with so many bytes. -/
theorem encode_of_fit {e : Event} (h : e.misfit? = none) :
    ∃ frame, encode e = .ok frame ∧
      frame.length = 8 + e.body.length + (e.headers.toList.map width).sum := by
  obtain ⟨hbody, hcount, htexts⟩ := misfit_eq_none_iff.1 h
  obtain ⟨b, hb, hlen⟩ := encodeHeaders_of_fit htexts
  refine ⟨be32 e.body.length ++ (e.body ++ (be32 e.headers.size ++ b)), ?_, ?_⟩
  · unfold encode
    dsimp only
    rw [if_neg (Nat.not_le.2 hbody), if_neg (Nat.not_le.2 hcount), hb]
    rfl
  · simp only [List.length_append, length_be32, hlen]
    omega

/-- No text is too long if and only if no name and no value is. -/
theorem forall_texts_iff {pairs : List (String × String)} :
    (∀ text ∈ texts pairs, isTooLong text = false) ↔
      ∀ pair ∈ pairs, pair.1.utf8ByteSize ≤ 65535 ∧ pair.2.utf8ByteSize ≤ 65535 := by
  induction pairs with
  | nil => simp [texts]
  | cons pair pairs ih =>
    simp only [texts_cons, List.forall_mem_cons, ih]
    simp [isTooLong, and_assoc]

/-- An event has a frame if and only if its lengths fit, and is told which one does not. The frame
    has room for exactly what the event consists of. It is read as the event with its headers
    inserted one after another: each name once, where it came first, with the last of its values.
    That is the event itself if and only if its names are different. -/
theorem decode_undoes_encode (e : Event) :
    ((∃ frame, encode e = .ok frame) ↔
      e.body.length < 4294967296 ∧ e.headers.size < 4294967296 ∧ ∀ pair ∈ e.headers.toList,
        pair.1.utf8ByteSize ≤ 65535 ∧ pair.2.utf8ByteSize ≤ 65535) ∧
    match encode e with
    | .error fault => e.misfit? = some fault
    | .ok frame =>
      frame.length = 8 + e.body.length + (e.headers.toList.map fun pair =>
        4 + pair.1.utf8ByteSize + pair.2.utf8ByteSize).sum ∧
      ∃ e', decode frame = .ok e' ∧ e'.body = e.body ∧
        e'.headers = .ofList e.headers.toList ∧
        e'.headers.names = e.headers.names.eraseDups ∧
        (∀ name, e'.headers.get? name = e.headers.toList.reverse.lookup name) ∧
        (e' = e ↔ e.headers.names.Nodup) := by
  rw [← forall_texts_iff, ← misfit_eq_none_iff]
  cases hfit : e.misfit? with
  | some fault =>
    rw [encode_of_misfit hfit]
    simp
  | none =>
    obtain ⟨frame, hframe, hlen⟩ := encode_of_fit hfit
    refine ⟨⟨fun _ => rfl, fun _ => ⟨frame, hframe⟩⟩, ?_⟩
    rw [hframe]
    refine ⟨hlen, e.restored, decode_encode hframe, rfl, rfl, names_ofList _, get?_ofList _, ?_⟩
    exact Event.restored_eq_iff

end Frame

end Outbox
