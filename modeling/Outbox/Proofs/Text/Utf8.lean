import Mathlib.Data.List.Basic
import Mathlib.Tactic.SplitIfs
import Outbox.Text.Utf8

namespace Outbox.Utf8

/-!
# UTF-8 there and back

* `next_encodeChar` — the bytes of a character start with that character.
* `pieces_encode` — the pieces of an encoded text are its characters.
* `decode_encode` — an encoded text is decoded to itself.
* `encode_injective` — so different texts have different bytes.
* `eq_of_next` — a character is read only where its bytes stand.
* `decode_eq_ok_iff` — so bytes are decoded to a text if and only if they are its bytes.
* `length_encode` — how many bytes a text has.
-/

/-! ### One character -/

theorem toNat_byte {n : Nat} (h : n < 256) : (UInt8.ofNat n).toNat = n :=
  UInt8.toNat_ofNat_of_lt h

/-- A byte in range adds six bits to a character that is being read. -/
theorem continueChar_cons {owed n seen : Nat} {lo hi : UInt8} {rest : Bytes}
    (hlo : lo.toNat ≤ 128 + n % 64) (hhi : 128 + n % 64 ≤ hi.toNat) :
    continueChar (owed + 1) (n / 64) seen lo hi (UInt8.ofNat (128 + n % 64) :: rest) =
      continueChar owed n (seen + 1) 0x80 0xBF rest := by
  have hb : (UInt8.ofNat (128 + n % 64)).toNat = 128 + n % 64 := toNat_byte (by omega)
  have hle : (lo ≤ UInt8.ofNat (128 + n % 64) && UInt8.ofNat (128 + n % 64) ≤ hi) = true := by
    rw [Bool.and_eq_true, decide_eq_true_eq, decide_eq_true_eq, UInt8.le_iff_toNat_le,
      UInt8.le_iff_toNat_le, hb]
    exact ⟨hlo, hhi⟩
  rw [continueChar, if_pos hle, hb, show n / 64 * 64 + (128 + n % 64) % 64 = n by omega]

/-- A byte after which no range is special. -/
theorem continueChar_cons' {owed n seen : Nat} {rest : Bytes} :
    continueChar (owed + 1) (n / 64) seen 0x80 0xBF (UInt8.ofNat (128 + n % 64) :: rest) =
      continueChar owed n (seen + 1) 0x80 0xBF rest := by
  refine continueChar_cons ?_ ?_
  · show 128 ≤ _
    omega
  · show _ ≤ 191
    omega

/-- A lead byte announces what follows it. -/
theorem next_of_lead {n : Nat} {rest : Bytes} {owed bits : Nat} {lo hi : UInt8} (hlo : 128 ≤ n)
    (hhi : n < 256) (hl : lead (UInt8.ofNat n) = some (owed, bits, lo, hi)) :
    next (UInt8.ofNat n :: rest) = continueChar owed bits 1 lo hi rest := by
  have hlt : ¬ UInt8.ofNat n < 0x80 := by
    rw [UInt8.lt_iff_toNat_lt, toNat_byte hhi]
    show ¬ n < 128
    omega
  rw [next, if_neg hlt, hl]

/-- The lead byte of a character of two bytes. -/
theorem lead_two {k : Nat} (hlo : 2 ≤ k) (hhi : k < 32) :
    lead (UInt8.ofNat (0xC0 + k)) = some (1, k, 0x80, 0xBF) := by
  unfold lead
  rw [toNat_byte (by omega)]
  dsimp only
  rw [if_neg (by omega), if_pos (by omega), Nat.add_sub_cancel_left]

/-- The lead byte of a character of three bytes; the first one of the range and the one of the
    surrogates leave less room for the next byte. -/
theorem lead_three {k : Nat} (hk : k < 16) :
    ∃ lo hi : UInt8, lead (UInt8.ofNat (0xE0 + k)) = some (2, k, lo, hi) ∧
      (lo.toNat ≤ if k = 0 then 160 else 128) ∧ (if k = 13 then 159 else 191) ≤ hi.toNat := by
  unfold lead
  rw [toNat_byte (by omega)]
  dsimp only
  rw [if_neg (by omega), if_neg (by omega)]
  by_cases h₀ : k = 0
  · subst h₀
    exact ⟨_, _, rfl, by decide, by decide⟩
  · rw [if_neg (by omega)]
    by_cases h₁ : k = 13
    · subst h₁
      exact ⟨_, _, rfl, by decide, by decide⟩
    · rw [if_neg (by omega), if_pos (by omega), Nat.add_sub_cancel_left]
      refine ⟨_, _, rfl, ?_, ?_⟩
      · rw [if_neg h₀]
        decide
      · rw [if_neg h₁]
        decide

/-- The lead byte of a character of four bytes; the first one and the last one of the range leave
    less room for the next byte. -/
theorem lead_four {k : Nat} (hk : k < 5) :
    ∃ lo hi : UInt8, lead (UInt8.ofNat (0xF0 + k)) = some (3, k, lo, hi) ∧
      (lo.toNat ≤ if k = 0 then 144 else 128) ∧ (if k = 4 then 143 else 191) ≤ hi.toNat := by
  obtain rfl | rfl | rfl | rfl | rfl : k = 0 ∨ k = 1 ∨ k = 2 ∨ k = 3 ∨ k = 4 := by omega
  all_goals exact ⟨_, _, rfl, by decide, by decide⟩

/-- The bytes of a character are read as that character. -/
theorem next_encodeChar (c : Char) (rest : Bytes) : next (encodeChar c ++ rest) = .char c rest := by
  have hvalid : c.toNat < 0xD800 ∨ (0xDFFF < c.toNat ∧ c.toNat < 0x110000) := c.valid
  have hc : Char.ofNat c.toNat = c := Char.ofNat_toNat c
  unfold encodeChar
  generalize c.toNat = n at *
  subst hc
  dsimp only
  -- one, two, three or four bytes, by the size of the number
  split
  · have hb : (UInt8.ofNat n).toNat = n := toNat_byte (by omega)
    have hlt : UInt8.ofNat n < 0x80 := by
      rw [UInt8.lt_iff_toNat_lt, hb]
      assumption
    rw [List.singleton_append, next, if_pos hlt, hb]
  · split
    · rw [List.cons_append, next_of_lead (by omega) (by omega) (lead_two (by omega) (by omega)),
        List.singleton_append, continueChar_cons']
      rfl
    · split
      · obtain ⟨lo, hi, hl, hlo, hhi⟩ := lead_three (k := n / 4096) (by omega)
        -- six bits at a time
        have hdiv : n / 4096 = n / 64 / 64 := by omega
        rw [List.cons_append, next_of_lead (by omega) (by omega) hl, hdiv, List.cons_append,
          List.singleton_append, continueChar_cons, continueChar_cons']
        · rfl
        · split at hlo <;> omega
        · split at hhi <;> omega
      · obtain ⟨lo, hi, hl, hlo, hhi⟩ := lead_four (k := n / 262144) (by omega)
        have hdiv : n / 262144 = n / 64 / 64 / 64 := by omega
        have hdiv' : n / 4096 = n / 64 / 64 := by omega
        rw [List.cons_append, next_of_lead (by omega) (by omega) hl, hdiv, hdiv', List.cons_append,
          List.cons_append, List.singleton_append, continueChar_cons, continueChar_cons',
          continueChar_cons']
        · rfl
        · split at hlo <;> omega
        · split at hhi <;> omega

/-! ### Texts -/

/-- The pieces of an encoded text are its characters. -/
theorem pieces_flatMap (cs : List Char) : pieces (cs.flatMap encodeChar) = cs.map .char := by
  induction cs with
  | nil =>
    rw [List.flatMap_nil, pieces]
    rfl
  | cons c cs ih =>
    rw [List.flatMap_cons, pieces]
    split
    · next h => rw [next_encodeChar] at h; cases h
    · next c' rest h =>
      rw [next_encodeChar] at h
      cases h
      rw [ih, List.map_cons]
    · next h => rw [next_encodeChar] at h; cases h
    · next h => rw [next_encodeChar] at h; cases h

theorem decodePieces_map_char (offset : Nat) (cs : List Char) :
    decodePieces offset (cs.map .char) = .ok cs := by
  induction cs generalizing offset with
  | nil => rfl
  | cons c cs ih =>
    rw [List.map_cons, decodePieces, ih]
    rfl

/-- An encoded text is decoded to itself. -/
theorem decode_encode (s : String) : decode (encode s) = .ok s := by
  unfold decode encode
  rw [pieces_flatMap, decodePieces_map_char]
  show Except.ok (String.ofList s.toList) = _
  rw [String.ofList_toList]

theorem encode_injective {s t : String} (h : encode s = encode t) : s = t := by
  have hs := decode_encode s
  rw [h, decode_encode] at hs
  exact (Except.ok.inj hs).symm

/-! ### What is read has been written -/

/-- A byte in the range of those that follow a lead byte adds six bits. -/
theorem continueChar_succ {owed acc seen : Nat} {lo hi : UInt8} {b rest : Bytes} {c : Char}
    (hlo : 128 ≤ lo.toNat) (hhi : hi.toNat ≤ 191)
    (h : continueChar (owed + 1) acc seen lo hi b = .char c rest) :
    ∃ k < 64, ∃ t, b = UInt8.ofNat (128 + k) :: t ∧ lo.toNat ≤ 128 + k ∧ 128 + k ≤ hi.toNat ∧
      continueChar owed (acc * 64 + k) (seen + 1) 0x80 0xBF t = .char c rest := by
  cases b with
  | nil => cases h
  | cons x t =>
    rw [continueChar] at h
    split at h
    · next hrange =>
      rw [Bool.and_eq_true, decide_eq_true_eq, decide_eq_true_eq, UInt8.le_iff_toNat_le,
        UInt8.le_iff_toNat_le] at hrange
      have hx : 128 + x.toNat % 64 = x.toNat := by omega
      refine ⟨x.toNat % 64, by omega, t, ?_, by omega, by omega, h⟩
      rw [hx, UInt8.ofNat_toNat]
    · cases h

/-- A lead byte of two, three or four bytes: it leaves out the characters that fewer bytes have
    room for, the surrogates, and what is out of range. -/
theorem lead_cases {n : Nat} {lo hi : UInt8} {owed bits : Nat} (hn : n < 256)
    (h : lead (UInt8.ofNat n) = some (owed, bits, lo, hi)) :
    128 ≤ lo.toNat ∧ hi.toNat ≤ 191 ∧
      ((owed = 1 ∧ n = 0xC0 + bits ∧ 2 ≤ bits ∧ bits < 32) ∨
       (owed = 2 ∧ n = 0xE0 + bits ∧ bits < 16 ∧ (bits = 0 → 160 ≤ lo.toNat) ∧
          (bits = 13 → hi.toNat ≤ 159)) ∨
       (owed = 3 ∧ n = 0xF0 + bits ∧ bits < 5 ∧ (bits = 0 → 144 ≤ lo.toNat) ∧
          (bits = 4 → hi.toNat ≤ 143))) := by
  have h80 : (0x80 : UInt8).toNat = 128 := rfl
  have h90 : (0x90 : UInt8).toNat = 144 := rfl
  have hA0 : (0xA0 : UInt8).toNat = 160 := rfl
  have h8F : (0x8F : UInt8).toNat = 143 := rfl
  have h9F : (0x9F : UInt8).toNat = 159 := rfl
  have hBF : (0xBF : UInt8).toNat = 191 := rfl
  unfold lead at h
  rw [toNat_byte hn] at h
  dsimp only at h
  -- one case for each range of lead bytes
  split_ifs at h
  all_goals
    simp only [Option.some.injEq, Prod.mk.injEq] at h
    obtain ⟨rfl, rfl, rfl, rfl⟩ := h
    simp only [h80, h90, hA0, h8F, h9F, hBF, true_and, forall_const]
    omega

/-- A number that is no surrogate and in range is that of a character. -/
theorem toNat_char {n : Nat} (h : n < 0xD800 ∨ 0xDFFF < n ∧ n < 0x110000) :
    (Char.ofNat n).toNat = n := by
  rw [Char.ofNat, dif_pos h]
  rfl

/-- The character that is read is the one whose bytes stand there. -/
theorem eq_of_next {b rest : Bytes} {c : Char} (h : next b = .char c rest) :
    b = encodeChar c ++ rest := by
  cases b with
  | nil => cases h
  | cons x t =>
    have hx : UInt8.ofNat x.toNat = x := UInt8.ofNat_toNat
    have hx' : x.toNat < 256 := x.toNat_lt
    rw [next] at h
    split at h
    · next hlt =>
      rw [UInt8.lt_iff_toNat_lt] at hlt
      change x.toNat < 128 at hlt
      cases h
      unfold encodeChar
      rw [toNat_char (by omega)]
      dsimp only
      rw [if_pos (by omega), hx, List.singleton_append]
    · split at h
      · cases h
      · next owed bits lo hi hlead =>
        rw [← hx] at hlead ⊢
        generalize x.toNat = n at *
        -- the first byte owes one, two or three more, each of which adds six bits
        obtain ⟨hlo, hhi, ⟨rfl, rfl, h₁, h₂⟩ | ⟨rfl, rfl, h₁, h₂, h₃⟩ | ⟨rfl, rfl, h₁, h₂, h₃⟩⟩ :=
          lead_cases hx' hlead
        · obtain ⟨k, hk, t, rfl, -, -, h⟩ := continueChar_succ hlo hhi h
          cases h
          unfold encodeChar
          rw [toNat_char (by omega)]
          dsimp only
          rw [if_neg (by omega), if_pos (by omega), show (bits * 64 + k) / 64 = bits by omega,
            show (bits * 64 + k) % 64 = k by omega]
          rfl
        · obtain ⟨k, hk, t, rfl, hklo, hkhi, h⟩ := continueChar_succ hlo hhi h
          obtain ⟨k', hk', t, rfl, -, -, h⟩ := continueChar_succ (by decide) (by decide) h
          cases h
          unfold encodeChar
          rw [toNat_char (by omega)]
          dsimp only
          rw [if_neg (by omega), if_neg (by omega), if_pos (by omega),
            show ((bits * 64 + k) * 64 + k') / 4096 = bits by omega,
            show ((bits * 64 + k) * 64 + k') / 64 % 64 = k by omega,
            show ((bits * 64 + k) * 64 + k') % 64 = k' by omega]
          rfl
        · obtain ⟨k, hk, t, rfl, hklo, hkhi, h⟩ := continueChar_succ hlo hhi h
          obtain ⟨k', hk', t, rfl, -, -, h⟩ := continueChar_succ (by decide) (by decide) h
          obtain ⟨k'', hk'', t, rfl, -, -, h⟩ := continueChar_succ (by decide) (by decide) h
          cases h
          unfold encodeChar
          rw [toNat_char (by omega)]
          dsimp only
          rw [if_neg (by omega), if_neg (by omega), if_neg (by omega),
            show (((bits * 64 + k) * 64 + k') * 64 + k'') / 262144 = bits by omega,
            show (((bits * 64 + k) * 64 + k') * 64 + k'') / 4096 % 64 = k by omega,
            show (((bits * 64 + k) * 64 + k') * 64 + k'') / 64 % 64 = k' by omega,
            show (((bits * 64 + k) * 64 + k') * 64 + k'') % 64 = k'' by omega]
          rfl

theorem continueChar_ne_done {owed acc seen : Nat} {lo hi : UInt8} {b : Bytes} :
    continueChar owed acc seen lo hi b ≠ .done := by
  induction owed generalizing acc seen lo hi b with
  | zero => simp [continueChar]
  | succ owed ih =>
    cases b with
    | nil => simp [continueChar]
    | cons x t =>
      rw [continueChar]
      split
      · exact ih
      · simp

/-- Nothing is read where there is nothing. -/
theorem eq_nil_of_next {b : Bytes} (h : next b = .done) : b = [] := by
  cases b with
  | nil => rfl
  | cons x t =>
    rw [next] at h
    split at h
    · cases h
    · split at h
      · cases h
      · exact absurd h continueChar_ne_done

/-- Pieces without a broken sequence are the characters of the bytes. -/
theorem eq_of_decodePieces {b : Bytes} {offset : Nat} {cs : List Char}
    (h : decodePieces offset (pieces b) = .ok cs) : b = cs.flatMap encodeChar := by
  induction b using pieces.induct generalizing offset cs with
  | case1 b hb =>
    rw [pieces, hb] at h
    cases h
    rw [eq_nil_of_next hb, List.flatMap_nil]
  | case2 b c rest hb ih =>
    rw [pieces, hb] at h
    cases hrest : decodePieces (offset + (encodeChar c).length) (pieces rest) with
    | error fault =>
      simp only [decodePieces, hrest] at h
      cases h
    | ok cs' =>
      simp only [decodePieces, hrest] at h
      cases h
      rw [List.flatMap_cons, ← ih hrest]
      exact eq_of_next hb
  | case3 b n hb ih =>
    rw [pieces, hb] at h
    cases h
  | case4 b hb =>
    rw [pieces, hb] at h
    cases h

theorem eq_encode_of_decode {b : Bytes} {s : String} (h : decode b = .ok s) : b = encode s := by
  unfold decode at h
  cases hcs : decodePieces 0 (pieces b) with
  | error fault =>
    rw [hcs] at h
    cases h
  | ok cs =>
    rw [hcs] at h
    cases h
    rw [encode, String.toList_ofList]
    exact eq_of_decodePieces hcs

/-- Bytes are decoded to a text if and only if they are its bytes. -/
theorem decode_eq_ok_iff {b : Bytes} {s : String} : decode b = .ok s ↔ b = encode s := by
  constructor
  · exact eq_encode_of_decode
  · rintro rfl
    exact decode_encode s

/-! ### Lengths -/

/-- The bytes of a character are those that the standard gives it. -/
theorem encodeChar_eq (c : Char) : encodeChar c = String.utf8EncodeChar c := by
  have hvalid : c.toNat < 0xD800 ∨ (0xDFFF < c.toNat ∧ c.toNat < 0x110000) := c.valid
  unfold encodeChar String.utf8EncodeChar
  rw [show c.val.toNat = c.toNat from rfl]
  generalize c.toNat = n at *
  dsimp only
  by_cases h₁ : n < 0x80
  · rw [if_pos h₁, if_pos (Nat.le_of_lt_succ h₁)]
  · rw [if_neg h₁, if_neg (by omega : ¬ n ≤ 0x7f)]
    by_cases h₂ : n < 0x800
    · rw [if_pos h₂, if_pos (Nat.le_of_lt_succ h₂), Nat.mod_eq_of_lt (by omega : n / 64 < 0x20),
        Nat.add_comm (n / 64), Nat.add_comm (n % 0x40)]
    · rw [if_neg h₂, if_neg (by omega : ¬ n ≤ 0x7ff)]
      by_cases h₃ : n < 0x10000
      · rw [if_pos h₃, if_pos (Nat.le_of_lt_succ h₃),
          Nat.mod_eq_of_lt (by omega : n / 4096 < 0x10), Nat.add_comm (n / 4096),
          Nat.add_comm (n / 64 % 0x40), Nat.add_comm (n % 0x40)]
      · rw [if_neg h₃, if_neg (by omega : ¬ n ≤ 0xffff),
          Nat.mod_eq_of_lt (by omega : n / 262144 < 0x08), Nat.add_comm (n / 262144),
          Nat.add_comm (n / 4096 % 0x40), Nat.add_comm (n / 64 % 0x40), Nat.add_comm (n % 0x40)]

/-- A text has as many bytes as it takes in memory. -/
theorem length_encode (s : String) : (encode s).length = s.utf8ByteSize := by
  have hsize : s.utf8ByteSize = s.toList.utf8Encode.size := by
    rw [String.utf8Encode_toList, String.size_toByteArray]
  have hchars : encodeChar = String.utf8EncodeChar := funext encodeChar_eq
  rw [hsize, encode, hchars, List.utf8Encode, List.size_toByteArray]

end Outbox.Utf8
