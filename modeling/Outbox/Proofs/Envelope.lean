import Outbox.Envelope
import Outbox.Proofs.Cipher
import Outbox.Proofs.Frame
import Outbox.Proofs.Headers

namespace Outbox

/-!
# Stored values there and back

* `Event.restored` — an event as it comes out of the store; no other event, if its headers have
  different names.
* `Cipher.openEvent_of_sealEvent` — the value that an event is stored as opens to the event.
* `Cipher.openEvent_of_cipher`, `Cipher.openEvent_of_corrupt` — the faults of the two layers.
* `Cipher.seals_and_recovers` — what a key does to stored values, whatever they hold.
-/

/-- An event with its headers inserted one after another, as it comes out of the store. -/
def Event.restored (e : Event) : Event := ⟨e.body, .ofList e.headers.toList⟩

/-- An event whose headers have different names comes out as it is. -/
theorem Event.restored_eq {e : Event} (h : e.headers.names.Nodup) : e.restored = e := by
  unfold restored
  rw [Headers.ofList_toList h]

/-- No other event comes out as it is. -/
theorem Event.restored_eq_iff {e : Event} : e.restored = e ↔ e.headers.names.Nodup := by
  rw [← Headers.ofList_toList_iff]
  constructor
  · intro h
    exact congrArg Event.headers h
  · intro h
    unfold restored
    rw [h]

/-- A value that cannot be decrypted is told to be so. -/
theorem Cipher.openEvent_of_cipher {c : Cipher} {b : Bytes} {fault : CipherFault}
    (h : c.decrypt b = .error fault) : c.openEvent b = .error (.cipher fault) := by
  unfold openEvent
  rw [h]

/-- Without a key, the fault of a frame is told as it is. -/
theorem Cipher.openEvent_of_corrupt {b : Bytes} {fault : FrameFault}
    (h : Frame.decode b = .error fault) : plaintext.openEvent b = .error (.corruptFrame fault) := by
  unfold openEvent
  rw [decrypt_plaintext]
  dsimp only
  rw [h]

/-- The value that an event is stored as opens to the event under the same cipher. -/
theorem Cipher.openEvent_of_sealEvent {c : Cipher} {nonce : Nonce} {e : Event} {value : Bytes}
    (h : c.sealEvent nonce e = .ok value) : c.openEvent value = .ok e.restored := by
  unfold sealEvent at h
  cases hframe : Frame.encode e with
  | error fault =>
    rw [hframe] at h
    cases h
  | ok frame =>
    rw [hframe] at h
    cases h
    unfold openEvent
    rw [decrypt_encrypt]
    dsimp only
    rw [Frame.decode_encode hframe]
    rfl

/-- What is stored under a key is never what was to be stored: it is the nonce and sixteen bytes
    more than that, and under the same key it is decrypted to that. Whatever else is stored with
    another nonce, under any key, is different from it. A value of less than 28 bytes is refused.
    Without a key all bytes are stored and read as they are. -/
theorem Cipher.seals_and_recovers (key : SecretKey) (nonce : Nonce) (plain : Bytes) :
    (decrypt ⟨some key⟩ (encrypt ⟨some key⟩ nonce plain) = .ok plain ∧
      (∃ rest, encrypt ⟨some key⟩ nonce plain = nonce.bytes ++ rest ∧
        rest.length = plain.length + 16) ∧
      (encrypt ⟨some key⟩ nonce plain).length = plain.length + 28 ∧
      encrypt ⟨some key⟩ nonce plain ≠ plain) ∧
    (∀ key' nonce' plain', nonce' ≠ nonce →
      encrypt ⟨some key'⟩ nonce' plain' ≠ encrypt ⟨some key⟩ nonce plain) ∧
    (∀ stored : Bytes, stored.length < 28 →
      ∃ fault, decrypt ⟨some key⟩ stored = .error fault ∧
        openEvent ⟨some key⟩ stored = .error (.cipher fault) ∧
        fault = if stored.length < 12 then .shorterThanNonce stored.length else .unauthentic) ∧
    ∀ b, plaintext.encrypt nonce b = b ∧ plaintext.decrypt b = .ok b := by
  refine ⟨⟨decrypt_encrypt _ nonce plain, ⟨_, encrypt_eq, Sealed.length_make _ _ _⟩,
    length_encrypt, ?_⟩, ?_, ?_, ?_⟩
  · intro heq
    have hlength := congrArg List.length heq
    rw [length_encrypt] at hlength
    omega
  · intro key' nonce' plain' hne heq
    exact hne (eq_of_encrypt_eq heq)
  · intro stored hshort
    have hread : decrypt ⟨some key⟩ stored = _ := decrypt_of_short hshort
    exact ⟨_, hread, openEvent_of_cipher hread, rfl⟩
  · exact fun b => ⟨encrypt_plaintext nonce b, decrypt_plaintext b⟩

end Outbox
