import Mathlib.Data.List.Basic
import Outbox.Cipher

namespace Outbox

/-!
# Encrypted values there and back

* `ChaCha20.apply_apply` — data that is combined with the key stream twice is as before.
* `Sealed.recover?_make` — what has been sealed is recovered.
* `Cipher.decrypt_encrypt` — the frame of the value that is stored for a frame is that frame.
* `Cipher.encrypt_eq`, `Cipher.length_encrypt` — what a stored value consists of.
* `Cipher.eq_of_encrypt_eq`, `Cipher.decrypt_of_short` — it holds its nonce, and no value is
  shorter.
-/

/-! ### The key stream -/

/-- A byte that is combined with a byte of the key stream twice is as before. -/
theorem ChaCha20.zipWith_xor_cancel {data stream : Bytes} (h : data.length ≤ stream.length) :
    (data.zipWith (· ^^^ ·) stream).zipWith (· ^^^ ·) stream = data := by
  induction data generalizing stream with
  | nil => rfl
  | cons x data ih =>
    cases stream with
    | nil => exact absurd h (Nat.not_succ_le_zero _)
    | cons y stream =>
      simp only [List.zipWith_cons_cons]
      rw [ih (Nat.le_of_succ_le_succ h), UInt8.xor_assoc, UInt8.xor_self, UInt8.xor_zero]

namespace ChaCha20

variable {key nonce data : Bytes} {number : Nat}

theorem apply_nil : apply key nonce number [] = [] := by
  rw [apply, dif_pos rfl]

/-- The first chunk of data is combined with the block of the number, the rest with the next
    ones. -/
theorem apply_eq (data : Bytes) :
    apply key nonce number data =
      (data.take 64).zipWith (· ^^^ ·) (block key nonce number) ++
        apply key nonce (number + 1) (data.drop 64) := by
  by_cases h : data = []
  · subst h
    rw [apply_nil, List.take_nil, List.drop_nil, apply_nil]
    rfl
  · rw [apply, dif_neg h]

@[simp] theorem length_apply (data : Bytes) :
    (apply key nonce number data).length = data.length := by
  induction number, data using apply.induct with
  | case1 number => rw [apply_nil]
  | case2 number data h ih =>
    rw [apply_eq, List.length_append, List.length_zipWith, length_block, ih, List.length_take,
      List.length_drop]
    omega

/-- The first chunk of what `apply` gives comes from the first chunk of the data, and what comes
    after it from the rest. -/
theorem take_apply (key nonce : Bytes) (number : Nat) (data : Bytes) :
    (apply key nonce number data).take 64 =
        (data.take 64).zipWith (· ^^^ ·) (block key nonce number) ∧
      (apply key nonce number data).drop 64 = apply key nonce (number + 1) (data.drop 64) := by
  have hlen : ((data.take 64).zipWith (· ^^^ ·) (block key nonce number)).length =
      min 64 data.length := by
    rw [List.length_zipWith, length_block, List.length_take]
    omega
  rw [apply_eq data]
  by_cases hlong : 64 ≤ data.length
  · have hfull := hlen.trans (Nat.min_eq_left hlong)
    exact ⟨List.take_left' hfull, List.drop_left' hfull⟩
  · -- nothing comes after the first chunk
    rw [List.drop_eq_nil_of_le (by omega), apply_nil, List.append_nil]
    exact ⟨List.take_of_length_le (by omega), List.drop_eq_nil_of_le (by omega)⟩

/-- Applying the key stream twice gives the data back. -/
theorem apply_apply (data : Bytes) :
    apply key nonce number (apply key nonce number data) = data := by
  induction number, data using apply.induct with
  | case1 number => rw [apply_nil, apply_nil]
  | case2 number data h ih =>
    have hblock : (data.take 64).length ≤ (block key nonce number).length := by
      rw [length_block, List.length_take]
      exact Nat.min_le_left _ _
    obtain ⟨htake, hdrop⟩ := take_apply key nonce number data
    rw [apply_eq (apply key nonce number data), htake, hdrop, zipWith_xor_cancel hblock, ih,
      List.take_append_drop]

end ChaCha20

/-! ### Sealed values -/

namespace Sealed

variable (key nonce plain : Bytes)

theorem length_make : (make key nonce plain).length = plain.length + 16 := by
  simp [make, tag]

/-- What has been sealed is recovered. -/
theorem recover?_make : recover? key nonce (make key nonce plain) = some plain := by
  have hlen : (make key nonce plain).length - 16 = (ChaCha20.apply key nonce 1 plain).length := by
    rw [length_make, Nat.add_sub_cancel, ChaCha20.length_apply]
  have hlong : ¬ (make key nonce plain).length < 16 := by
    rw [length_make]
    omega
  -- the bytes before the last sixteen are those that the tag has been made for
  unfold recover?
  dsimp only
  rw [if_neg hlong, hlen]
  unfold make
  dsimp only
  rw [List.take_left, List.drop_left, if_pos rfl, ChaCha20.apply_apply]

/-- Nothing is recovered from less than a tag. -/
theorem recover?_of_short {b : Bytes} (h : b.length < 16) : recover? key nonce b = none := by
  unfold recover?
  dsimp only
  rw [if_pos h]

end Sealed

namespace Cipher

/-- The frame of the value that is stored for a frame is that frame. -/
theorem decrypt_encrypt (c : Cipher) (nonce : Nonce) (plain : Bytes) :
    c.decrypt (c.encrypt nonce plain) = .ok plain := by
  unfold decrypt encrypt
  cases c.key? with
  | none => rfl
  | some key =>
    dsimp only
    have hsize : nonce.bytes.length = Nonce.size := nonce.length_bytes
    rw [if_neg (by rw [List.length_append]; omega), List.take_left' hsize, List.drop_left' hsize,
      Sealed.recover?_make]

variable {key key' : SecretKey} {nonce nonce' : Nonce} {plain plain' stored : Bytes}

/-- What is stored under a key is the nonce and what has been sealed with it. -/
theorem encrypt_eq :
    encrypt ⟨some key⟩ nonce plain = nonce.bytes ++ Sealed.make key.bytes nonce.bytes plain := rfl

theorem length_encrypt : (encrypt ⟨some key⟩ nonce plain).length = plain.length + 28 := by
  rw [encrypt_eq, List.length_append, nonce.length_bytes, Sealed.length_make]
  omega

/-- Values that are stored with different nonces are different. -/
theorem eq_of_encrypt_eq
    (h : encrypt ⟨some key⟩ nonce plain = encrypt ⟨some key'⟩ nonce' plain') : nonce = nonce' := by
  rw [encrypt_eq, encrypt_eq] at h
  have hbytes := (List.append_inj h (nonce.length_bytes.trans nonce'.length_bytes.symm)).1
  cases nonce
  cases nonce'
  cases hbytes
  rfl

/-- A value with no room for a nonce and a tag has not been stored under a key. -/
theorem decrypt_of_short (h : stored.length < 28) :
    decrypt ⟨some key⟩ stored =
      .error (if stored.length < 12 then .shorterThanNonce stored.length else .unauthentic) := by
  unfold decrypt
  dsimp only
  by_cases hnonce : stored.length < 12
  · rw [if_pos hnonce, if_pos (show stored.length < Nonce.size from hnonce)]
  · have hrest : (stored.drop Nonce.size).length < 16 := by
      rw [List.length_drop, Nonce.size]
      omega
    rw [if_neg hnonce, if_neg (show ¬ stored.length < Nonce.size from hnonce),
      Sealed.recover?_of_short _ _ hrest]

end Cipher

end Outbox
