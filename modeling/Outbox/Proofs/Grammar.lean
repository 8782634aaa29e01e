import Mathlib.Data.Nat.Digits.Defs
import Outbox.Proofs.RoundTrip

namespace Outbox.Frame

/-!
# The grammar of frames

What a frame is, said without reading or writing one:

* `IsNumber`, `IsText`, `IsFields`, `IsFrame` — the bytes that stand for a number, a text, headers
  and a whole frame.
* `encodeText_eq_ok_iff`, `encodeHeaders_eq_ok_iff`, `encode_eq_ok_iff` — what is written is what
  the grammar says.
* `IsFrame.unique` — bytes are a frame in one way at most.
* `Reader.text_eq`, `Reader.headers_eq`, `isFrame_of_decode` — what is read is what the grammar
  says.
* `accepts_frames` — so exactly the frames are read, each as what it stands for, and it is written
  again as it was unless it names a header twice.
-/

/-! ### The grammar -/

/-- The bytes of a number: `width` digits to the base 256, the most significant first. -/
def IsNumber (width n : Nat) (b : Bytes) : Prop :=
  b.length = width ∧ Nat.ofDigits 256 (b.reverse.map UInt8.toNat) = n

/-- The bytes of a text: how many bytes it has, as a number of two bytes, and its UTF-8. -/
inductive IsText : String → Bytes → Prop
  | intro {s : String} {length : Bytes} :
    IsNumber 2 s.utf8ByteSize length →
    IsText s (length ++ s.toList.flatMap String.utf8EncodeChar)

/-- The bytes of headers: names and values in turn. -/
inductive IsFields : List (String × String) → Bytes → Prop
  | nil : IsFields [] []
  | cons {name value : String} {pairs : List (String × String)} {n v b : Bytes} :
    IsText name n → IsText value v → IsFields pairs b →
    IsFields ((name, value) :: pairs) (n ++ (v ++ b))

/-- The bytes of a frame: the length of the body as a number of four bytes, the body, the number of
    headers as a number of four bytes, and the headers. -/
inductive IsFrame : Bytes → List (String × String) → Bytes → Prop
  | intro {body length count b : Bytes} {pairs : List (String × String)} :
    IsNumber 4 body.length length → IsNumber 4 pairs.length count → IsFields pairs b →
    IsFrame body pairs (length ++ (body ++ (count ++ b)))

/-! ### Numbers -/

section Numbers

variable {width n : Nat} {b b' : Bytes}

/-- Bytes are read from the most significant one on, as digits are. -/
theorem ofDigits_eq_ofBE (b : Bytes) : Nat.ofDigits 256 (b.reverse.map UInt8.toNat) = ofBE b := by
  induction b using List.reverseRecOn with
  | nil => rfl
  | append_singleton b x ih =>
    rw [List.reverse_concat, List.map_cons, Nat.ofDigits_cons, ih, ofBE, ofBE, List.foldl_concat]
    ring

/-- Bytes are a number when they are as many as its width and are read as it. -/
theorem isNumber_iff : IsNumber width n b ↔ b.length = width ∧ ofBE b = n := by
  rw [IsNumber, ofDigits_eq_ofBE]

/-- Each byte is a digit to the base 256. -/
theorem digit_lt (d : Nat) (h : d ∈ b.reverse.map UInt8.toNat) : d < 256 := by
  obtain ⟨x, -, rfl⟩ := List.mem_map.1 h
  exact x.toNat_lt

/-- A number is below the power of its width. -/
theorem IsNumber.lt (h : IsNumber width n b) : n < 256 ^ width := by
  obtain ⟨rfl, rfl⟩ := h
  have hlt := Nat.ofDigits_lt_base_pow_length (by decide) (digit_lt (b := b))
  rwa [List.length_map, List.length_reverse] at hlt

/-- A number has one spelling of a given width. -/
theorem IsNumber.unique (h : IsNumber width n b) (h' : IsNumber width n b') : b = b' := by
  have hdigits : b.reverse.map UInt8.toNat = b'.reverse.map UInt8.toNat := by
    refine Nat.ofDigits_inj_of_len_eq (by decide : 1 < 256) ?_ digit_lt digit_lt
      (h.2.trans h'.2.symm)
    rw [List.length_map, List.length_map, List.length_reverse, List.length_reverse, h.1, h'.1]
  have hinj : Function.Injective UInt8.toNat := fun _ _ => UInt8.toNat_inj.1
  exact List.reverse_injective (List.map_injective_iff.2 hinj hdigits)

/-- Two bytes are a number below 65536. -/
theorem isNumber_two_iff : IsNumber 2 n b ↔ n < 65536 ∧ b = be16 n := by
  constructor
  · intro h
    have hlt : n < 65536 := h.lt
    exact ⟨hlt, h.unique (isNumber_iff.2 ⟨length_be16 n, ofBE_be16 hlt⟩)⟩
  · rintro ⟨hlt, rfl⟩
    exact isNumber_iff.2 ⟨length_be16 n, ofBE_be16 hlt⟩

/-- Four bytes are a number below 4294967296. -/
theorem isNumber_four_iff : IsNumber 4 n b ↔ n < 4294967296 ∧ b = be32 n := by
  constructor
  · intro h
    have hlt : n < 4294967296 := h.lt
    exact ⟨hlt, h.unique (isNumber_iff.2 ⟨length_be32 n, ofBE_be32 hlt⟩)⟩
  · rintro ⟨hlt, rfl⟩
    exact isNumber_iff.2 ⟨length_be32 n, ofBE_be32 hlt⟩

end Numbers

/-! ### What is written -/

/-- The bytes of a text are those of its characters. -/
theorem flatMap_utf8EncodeChar (s : String) :
    s.toList.flatMap String.utf8EncodeChar = Utf8.encode s := by
  rw [Utf8.encode, show Utf8.encodeChar = String.utf8EncodeChar from funext Utf8.encodeChar_eq]

/-- Bytes are a text when they are its length and its bytes. -/
theorem isText_iff {s : String} {b : Bytes} :
    IsText s b ↔ (Utf8.encode s).length < 65536 ∧
      b = be16 (Utf8.encode s).length ++ Utf8.encode s := by
  rw [Utf8.length_encode]
  constructor
  · rintro ⟨hlength⟩
    obtain ⟨hlt, rfl⟩ := isNumber_two_iff.1 hlength
    exact ⟨hlt, by rw [flatMap_utf8EncodeChar]⟩
  · rintro ⟨hlt, rfl⟩
    rw [← flatMap_utf8EncodeChar]
    exact .intro (isNumber_two_iff.2 ⟨hlt, rfl⟩)

/-- A text is written as the bytes that are it. -/
theorem encodeText_eq_ok_iff {s : String} {b : Bytes} : encodeText s = .ok b ↔ IsText s b := by
  rw [isText_iff]
  constructor
  · exact encodeText_eq
  · rintro ⟨hlt, rfl⟩
    unfold encodeText
    dsimp only
    rw [if_pos hlt]

/-- Headers are written as the bytes that are their fields. -/
theorem encodeHeaders_eq_ok_iff {pairs : List (String × String)} {b : Bytes} :
    encodeHeaders pairs = .ok b ↔ IsFields pairs b := by
  constructor
  · intro h
    induction pairs generalizing b with
    | nil =>
      cases h
      exact .nil
    | cons pair pairs ih =>
      obtain ⟨name, value⟩ := pair
      obtain ⟨n, v, r, hn, hv, hr, rfl⟩ := encodeHeaders_cons h
      exact .cons (encodeText_eq_ok_iff.1 hn) (encodeText_eq_ok_iff.1 hv) (ih hr)
  · intro h
    induction h with
    | nil => rfl
    | cons hn hv _ ih =>
      rw [encodeHeaders, encodeText_eq_ok_iff.2 hn, encodeText_eq_ok_iff.2 hv, ih]
      rfl

/-- The frame of an event is the one that the grammar gives to its body and headers. -/
theorem encode_eq_ok_iff {e : Event} {frame : Bytes} :
    encode e = .ok frame ↔ IsFrame e.body e.headers.toList frame := by
  constructor
  · intro h
    obtain ⟨hbody, hcount, b, hb, rfl⟩ := encode_eq h
    exact .intro (isNumber_four_iff.2 ⟨hbody, rfl⟩) (isNumber_four_iff.2 ⟨hcount, rfl⟩)
      (encodeHeaders_eq_ok_iff.1 hb)
  · generalize hpairs : e.headers.toList = pairs
    generalize hbytes : e.body = body
    rintro ⟨hlength, hcount, hfields⟩
    subst hpairs hbytes
    obtain ⟨hbody, rfl⟩ := isNumber_four_iff.1 hlength
    obtain ⟨hsize, rfl⟩ := isNumber_four_iff.1 hcount
    unfold encode
    dsimp only
    rw [if_neg (Nat.not_le.2 hbody), if_neg (show ¬ 4294967296 ≤ e.headers.size from
      Nat.not_le.2 hsize), encodeHeaders_eq_ok_iff.2 hfields]
    rfl

/-! ### One way to read -/

/-- Where two texts stand at the start of the same bytes they are one text. -/
theorem IsText.unique {s s' : String} {b b' t t' : Bytes} (h : IsText s b) (h' : IsText s' b')
    (heq : b ++ t = b' ++ t') : s = s' ∧ t = t' := by
  obtain ⟨hlt, rfl⟩ := isText_iff.1 h
  obtain ⟨hlt', rfl⟩ := isText_iff.1 h'
  rw [List.append_assoc, List.append_assoc] at heq
  obtain ⟨hlength, hrest⟩ := List.append_inj heq rfl
  have hsize : (Utf8.encode s).length = (Utf8.encode s').length := by
    rw [← ofBE_be16 hlt, hlength, ofBE_be16 hlt']
  obtain ⟨htext, ht⟩ := List.append_inj hrest hsize
  exact ⟨Utf8.encode_injective htext, ht⟩

/-- Where as many headers stand in the same bytes they are the same headers. -/
theorem IsFields.unique {pairs pairs' : List (String × String)} {b : Bytes} (h : IsFields pairs b)
    (h' : IsFields pairs' b) (hcount : pairs.length = pairs'.length) : pairs = pairs' := by
  induction h generalizing pairs' with
  | nil => exact (List.eq_nil_of_length_eq_zero hcount.symm).symm
  | @cons name value pairs n v b hn hv _ ih =>
    generalize hbytes : n ++ (v ++ b) = bytes at h'
    cases h' with
    | nil => simp at hcount
    | cons hn' hv' hrest' =>
      obtain ⟨rfl, hbytes⟩ := hn.unique hn' hbytes
      obtain ⟨rfl, rfl⟩ := hv.unique hv' hbytes
      rw [ih hrest' (Nat.succ.inj hcount)]

/-- Bytes are a frame in one way at most. -/
theorem IsFrame.unique {body body' frame : Bytes} {pairs pairs' : List (String × String)}
    (h : IsFrame body pairs frame) (h' : IsFrame body' pairs' frame) :
    body = body' ∧ pairs = pairs' := by
  cases h with
  | @intro length count b _ hlength hcount hfields =>
    generalize hframe : length ++ (body ++ (count ++ b)) = frame at h'
    cases h' with
    | @intro length' count' b' _ hlength' hcount' hfields' =>
      obtain ⟨rfl, hrest⟩ := List.append_inj hframe (hlength.1.trans hlength'.1.symm)
      obtain ⟨rfl, hrest'⟩ := List.append_inj hrest (hlength.2.symm.trans hlength'.2)
      obtain ⟨rfl, rfl⟩ := List.append_inj hrest' (hcount.1.trans hcount'.1.symm)
      exact ⟨rfl, hfields.unique hfields' (hcount.2.symm.trans hcount'.2)⟩

/-! ### What is read -/

/-- Steps one after another succeed only if the first one does, and the second one from there. -/
theorem exists_of_bind {ε α β : Type} {x : Except ε α} {f : α → Except ε β} {b : β}
    (h : x >>= f = .ok b) : ∃ a, x = .ok a ∧ f a = .ok b := by
  cases x with
  | error fault => cases h
  | ok a => exact ⟨a, rfl, h⟩

namespace Reader

variable {size : Nat} {r r' : Reader size}

/-- The bytes that are read come next, and the reader stands behind them. -/
theorem take_eq {b : Bytes} {n : Nat} (h : r.take n = .ok (b, r')) :
    b.length = n ∧ r.rest = b ++ r'.rest := by
  unfold take at h
  split at h
  · next hle =>
    cases h
    rw [remaining_eq] at hle
    exact ⟨List.length_take_of_le hle, (List.take_append_drop n r.rest).symm⟩
  · cases h

/-- The bytes of the number that is read come next. -/
theorem number_eq {width n : Nat} (h : r.number width = .ok (n, r')) :
    ∃ b, IsNumber width n b ∧ r.rest = b ++ r'.rest := by
  obtain ⟨⟨b, r₁⟩, htake, h⟩ := exists_of_bind h
  cases h
  obtain ⟨hlength, hrest⟩ := take_eq htake
  exact ⟨b, isNumber_iff.2 ⟨hlength, rfl⟩, hrest⟩

/-- The bytes of the text that is read come next. -/
theorem text_eq {s : String} (h : r.text = .ok (s, r')) :
    ∃ b, IsText s b ∧ r.rest = b ++ r'.rest := by
  obtain ⟨⟨n, r₁⟩, hnumber, h⟩ := exists_of_bind h
  obtain ⟨⟨b, r₂⟩, htake, h⟩ := exists_of_bind h
  dsimp only at h
  split at h
  · next s' hdecode =>
    cases h
    obtain ⟨length, hlength, hrest⟩ := number_eq hnumber
    obtain ⟨rfl, hrest₁⟩ := take_eq htake
    obtain rfl := Utf8.eq_encode_of_decode hdecode
    refine ⟨length ++ Utf8.encode s, ?_, by rw [hrest, hrest₁, List.append_assoc]⟩
    rw [Utf8.length_encode] at hlength
    rw [← flatMap_utf8EncodeChar]
    exact .intro hlength
  · cases h

/-- The bytes of the headers that are read come next, and they have been inserted in order. -/
theorem headers_eq {count : Nat} {hs hs' : Headers} (h : r.headers count hs = .ok (hs', r')) :
    ∃ pairs b, IsFields pairs b ∧ pairs.length = count ∧ hs' = pairs.foldl Headers.add hs ∧
      r.rest = b ++ r'.rest := by
  -- along the count, as the headers are read
  induction count generalizing hs r with
  | zero =>
    cases h
    exact ⟨[], [], .nil, rfl, rfl, rfl⟩
  | succ count ih =>
    obtain ⟨⟨name, r₁⟩, hname, h⟩ := exists_of_bind h
    obtain ⟨⟨value, r₂⟩, hvalue, h⟩ := exists_of_bind h
    obtain ⟨pairs, b, hfields, rfl, rfl, hrest⟩ := ih h
    obtain ⟨n, hn, hrest₁⟩ := text_eq hname
    obtain ⟨v, hv, hrest₂⟩ := text_eq hvalue
    refine ⟨(name, value) :: pairs, n ++ (v ++ b), .cons hn hv hfields, rfl, rfl, ?_⟩
    rw [hrest₁, hrest₂, hrest, List.append_assoc, List.append_assoc]

end Reader

/-- What is read is a frame, and the event is its body with its headers inserted in order. -/
theorem isFrame_of_decode {frame : Bytes} {e : Event} (h : decode frame = .ok e) :
    ∃ pairs, IsFrame e.body pairs frame ∧ e.headers = .ofList pairs := by
  obtain ⟨⟨length, r₁⟩, hlength, h⟩ := exists_of_bind h
  obtain ⟨⟨body, r₂⟩, hbody, h⟩ := exists_of_bind h
  obtain ⟨⟨count, r₃⟩, hcount, h⟩ := exists_of_bind h
  obtain ⟨⟨headers, r₄⟩, hheaders, h⟩ := exists_of_bind h
  by_cases hend : r₄.remaining ≠ 0
  · simp only [if_pos hend] at h
    cases h
  · simp only [if_neg hend] at h
    cases h
    -- nothing is left behind the headers
    have hnil : r₄.rest = [] := by
      rw [Reader.remaining_eq, not_not] at hend
      exact List.eq_nil_of_length_eq_zero hend
    obtain ⟨l, hl, h₁⟩ := Reader.number_eq hlength
    obtain ⟨rfl, h₂⟩ := Reader.take_eq hbody
    obtain ⟨c, hc, h₃⟩ := Reader.number_eq hcount
    obtain ⟨pairs, b, hfields, rfl, rfl, h₄⟩ := Reader.headers_eq hheaders
    have hframe : frame = l ++ (body ++ (c ++ b)) := by
      rw [hnil, List.append_nil] at h₄
      rw [← h₄, ← h₃, ← h₂]
      exact h₁
    have hparts := IsFrame.intro hl hc hfields
    rw [← hframe] at hparts
    exact ⟨pairs, hparts, rfl⟩

/-- A frame is read as its body with its headers inserted in order. -/
theorem decode_of_isFrame {body frame : Bytes} {pairs : List (String × String)}
    (h : IsFrame body pairs frame) : decode frame = .ok ⟨body, .ofList pairs⟩ :=
  decode_encode (encode_eq_ok_iff.2 h : encode ⟨body, ⟨pairs⟩⟩ = .ok frame)

/-- What can be read is a frame, and its headers are those that its fields insert. -/
theorem decode_eq_ok_iff {frame : Bytes} {e : Event} :
    decode frame = .ok e ↔ ∃ pairs, IsFrame e.body pairs frame ∧ e.headers = .ofList pairs := by
  constructor
  · exact isFrame_of_decode
  · rintro ⟨pairs, hframe, hheaders⟩
    rw [decode_of_isFrame hframe, ← hheaders]

/-! ### Written again -/

/-- An event that can be written fits into a frame. -/
theorem misfit_of_encode {e : Event} {frame : Bytes} (h : encode e = .ok frame) :
    e.misfit? = none := by
  cases hfit : e.misfit? with
  | none => rfl
  | some fault =>
    rw [encode_of_misfit hfit] at h
    cases h

/-- What has been read fits into a frame: it is no more than what stands in the frame that it has
    been read from. -/
theorem encode_of_isFrame {body frame : Bytes} {pairs : List (String × String)}
    (h : IsFrame body pairs frame) : ∃ frame', encode ⟨body, .ofList pairs⟩ = .ok frame' := by
  have hframe : encode ⟨body, ⟨pairs⟩⟩ = .ok frame := encode_eq_ok_iff.2 h
  obtain ⟨hbody, hcount, htexts⟩ := misfit_eq_none_iff.1 (misfit_of_encode hframe)
  have hsize : (Headers.ofList pairs).size < 4294967296 :=
    Nat.lt_of_le_of_lt (Headers.size_ofList_le pairs) hcount
  have hfits := forall_texts_iff.1 htexts
  have htexts' := forall_texts_iff.2 fun pair hpair => hfits pair (Headers.mem_of_mem_ofList hpair)
  obtain ⟨frame', hframe', -⟩ := encode_of_fit (e := ⟨body, .ofList pairs⟩)
    (misfit_eq_none_iff.2 ⟨hbody, hsize, htexts'⟩)
  exact ⟨frame', hframe'⟩

/-- What is written again is the frame that has been read if and only if no two headers there have
    one name. -/
theorem encode_ofList_iff {body frame frame' : Bytes} {pairs : List (String × String)}
    (h : IsFrame body pairs frame) (h' : encode ⟨body, .ofList pairs⟩ = .ok frame') :
    frame' = frame ↔ (pairs.map Prod.fst).Nodup := by
  constructor
  · -- the one frame has been read and written with the same pairs, which inserting leaves apart
    rintro rfl
    obtain ⟨-, hpairs⟩ := h.unique (encode_eq_ok_iff.1 h')
    have hnodup := Headers.nodup_names_ofList pairs
    rwa [Headers.names, ← hpairs] at hnodup
  · intro hnodup
    have hsame : Headers.ofList pairs = ⟨pairs⟩ := Headers.ofList_toList (h := ⟨pairs⟩) hnodup
    rw [hsame, (encode_eq_ok_iff.2 h : encode ⟨body, ⟨pairs⟩⟩ = .ok frame)] at h'
    exact (Except.ok.inj h').symm

/-- Exactly the frames are read, and each is read as its body with its headers inserted in order;
    bytes are a frame in one way at most, and all others are told to be corrupt. An event that has
    been read is written again, as a frame that is read as the same event. That is the frame it has
    been read from if and only if no two headers there have one name. -/
theorem accepts_frames (frame : Bytes) :
    (∀ e, decode frame = .ok e ↔
      ∃ pairs, IsFrame e.body pairs frame ∧ e.headers = .ofList pairs) ∧
    match decode frame with
    | .error fault =>
      (¬ ∃ body pairs, IsFrame body pairs frame) ∧
      Cipher.plaintext.openEvent frame = .error (.corruptFrame fault)
    | .ok e =>
      (∃! parts : Bytes × List (String × String), IsFrame parts.1 parts.2 frame) ∧
      ∃ pairs, IsFrame e.body pairs frame ∧
        ∃ frame', encode e = .ok frame' ∧ decode frame' = .ok e ∧
          (frame' = frame ↔ (pairs.map Prod.fst).Nodup) := by
  refine ⟨fun e => decode_eq_ok_iff, ?_⟩
  cases hread : decode frame with
  | error fault =>
    refine ⟨?_, ?_⟩
    · rintro ⟨body, pairs, hframe⟩
      rw [decode_of_isFrame hframe] at hread
      cases hread
    · unfold Cipher.openEvent
      rw [Cipher.decrypt_plaintext]
      dsimp only
      rw [hread]
  | ok e =>
    obtain ⟨body, headers⟩ := e
    obtain ⟨pairs, hframe, rfl⟩ := isFrame_of_decode hread
    refine ⟨⟨(body, pairs), hframe, ?_⟩, pairs, hframe, ?_⟩
    · rintro ⟨body', pairs'⟩ hframe'
      obtain ⟨rfl, rfl⟩ := hframe'.unique hframe
      rfl
    · obtain ⟨frame', hwritten⟩ := encode_of_isFrame hframe
      refine ⟨frame', hwritten, ?_, encode_ofList_iff hframe hwritten⟩
      have hrestored := Event.restored_eq (e := ⟨body, .ofList pairs⟩)
        (Headers.nodup_names_ofList pairs)
      rw [decode_encode hwritten]
      exact congrArg Except.ok hrestored

end Outbox.Frame
