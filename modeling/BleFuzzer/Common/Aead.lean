import BleFuzzer.Common.Bytes

/-!
# Authenticated encryption

An AEAD with fixed key, nonce and tag lengths, as a structure that carries its laws. Libraries offer
it in two shapes: with a detached tag that is checked after the decryption, and with the tag at the
end of the tagged text. `Aead.decryptTagged_append` connects the two.
-/

namespace BleFuzzer

/-- Authenticated encryption with associated data. The laws hold for keys and nonces of the right
length; nothing is said about other ones. -/
structure Aead (keyLen nonceLen tagLen : ℕ) where
  encrypt : (key nonce aad plain : Bytes) → Bytes
  tag : (key nonce aad plain : Bytes) → Bytes
  decrypt : (key nonce aad cipher : Bytes) → Bytes
  verify : (key nonce aad cipher mac : Bytes) → Bool
  encrypt_length : ∀ key nonce aad plain, key.length = keyLen → nonce.length = nonceLen →
    (encrypt key nonce aad plain).length = plain.length
  tag_length : ∀ key nonce aad plain, key.length = keyLen → nonce.length = nonceLen →
    (tag key nonce aad plain).length = tagLen
  decrypt_length : ∀ key nonce aad cipher, key.length = keyLen → nonce.length = nonceLen →
    (decrypt key nonce aad cipher).length = cipher.length
  decrypt_encrypt : ∀ key nonce aad plain, key.length = keyLen → nonce.length = nonceLen →
    decrypt key nonce aad (encrypt key nonce aad plain) = plain
  verify_tag : ∀ key nonce aad plain, key.length = keyLen → nonce.length = nonceLen →
    verify key nonce aad (encrypt key nonce aad plain) (tag key nonce aad plain) = true
  length_of_verify : ∀ key nonce aad cipher mac, verify key nonce aad cipher mac = true →
    mac.length = tagLen

namespace Aead

variable {keyLen nonceLen tagLen : ℕ} (A : Aead keyLen nonceLen tagLen)
  {key nonce : Bytes} (aad : Bytes)

/-- Encrypt and append the tag. -/
def encryptTagged (key nonce aad plain : Bytes) : Bytes :=
  A.encrypt key nonce aad plain ++ A.tag key nonce aad plain

/-- Check the tag at the end of a tagged text and decrypt what comes before it. -/
def decryptTagged (key nonce aad tagged : Bytes) : Option Bytes :=
  let cipher := tagged.take (tagged.length - tagLen)
  let mac := tagged.drop (tagged.length - tagLen)
  if A.verify key nonce aad cipher mac then some (A.decrypt key nonce aad cipher) else none

/-- The tag is added to the length. -/
theorem encryptTagged_length (hkey : key.length = keyLen) (hnonce : nonce.length = nonceLen)
    (plain : Bytes) : (A.encryptTagged key nonce aad plain).length = plain.length + tagLen := by
  rw [encryptTagged, List.length_append, A.encrypt_length _ _ _ _ hkey hnonce,
    A.tag_length _ _ _ _ hkey hnonce]

/-- Decrypting a cipher text with its tag behind it is verification followed by decryption. -/
theorem decryptTagged_append (cipher mac : Bytes) (hmac : mac.length = tagLen) :
    A.decryptTagged key nonce aad (cipher ++ mac) =
      if A.verify key nonce aad cipher mac then some (A.decrypt key nonce aad cipher) else none := by
  have hsplit : (cipher ++ mac).length - tagLen = cipher.length := by
    rw [List.length_append, hmac, Nat.add_sub_cancel]
  simp only [decryptTagged, hsplit, List.take_left, List.drop_left]

/-- **Tagged decryption undoes tagged encryption.** -/
theorem decryptTagged_encryptTagged (hkey : key.length = keyLen) (hnonce : nonce.length = nonceLen)
    (plain : Bytes) :
    A.decryptTagged key nonce aad (A.encryptTagged key nonce aad plain) = some plain := by
  rw [encryptTagged, A.decryptTagged_append _ _ _ (A.tag_length _ _ _ _ hkey hnonce),
    A.verify_tag _ _ _ _ hkey hnonce, if_pos rfl, A.decrypt_encrypt _ _ _ _ hkey hnonce]

/-- What is decrypted is shorter than the tagged text by the tag. -/
theorem length_of_decryptTagged (hkey : key.length = keyLen) (hnonce : nonce.length = nonceLen)
    {tagged plain : Bytes} (h : A.decryptTagged key nonce aad tagged = some plain) :
    tagged.length = plain.length + tagLen := by
  rw [decryptTagged] at h
  split at h
  case isFalse => cases h
  case isTrue hverify =>
    have hmac := A.length_of_verify _ _ _ _ _ hverify
    obtain rfl := Option.some.inj h
    rw [A.decrypt_length _ _ _ _ hkey hnonce, List.length_take]
    rw [List.length_drop] at hmac
    omega

/-- The laws have a model: no secrecy, and the byte sum of everything as the tag. -/
def byteSumTag (keyLen nonceLen tagLen : ℕ) : Aead keyLen nonceLen tagLen where
  encrypt _ _ _ plain := plain
  tag key nonce aad plain := leBytes tagLen (byteSum (key ++ nonce ++ aad ++ plain))
  decrypt _ _ _ cipher := cipher
  verify key nonce aad cipher mac :=
    decide (mac = leBytes tagLen (byteSum (key ++ nonce ++ aad ++ cipher)))
  encrypt_length _ _ _ _ _ _ := rfl
  tag_length _ _ _ _ _ _ := leBytes_length _ _
  decrypt_length _ _ _ _ _ _ := rfl
  decrypt_encrypt _ _ _ _ _ _ := rfl
  verify_tag _ _ _ _ _ _ := decide_eq_true rfl
  length_of_verify _ _ _ _ _ h := by rw [of_decide_eq_true h, leBytes_length]

end Aead

end BleFuzzer
