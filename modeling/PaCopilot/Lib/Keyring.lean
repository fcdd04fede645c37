/-
Ciphers with a ring of keys: a text is encrypted under the first key, and a token is decrypted with
any of them. So a key can be replaced by another one in steps, between which all that was encrypted
can still be read.

Whoever encrypts draws something; two tokens of one text need not be equal. What a token tells
without the key does not matter here.
-/
import Mathlib.Data.List.Basic

set_option autoImplicit false

namespace PaCopilot.Keyring

/-- A cipher that knows the tokens of a key from all others. -/
structure Cipher (Key Text Token : Type) where
  encrypt : Key → ℕ → Text → Token
  decrypt : Key → Token → Option Text
  decrypt_encrypt : ∀ key draw text, decrypt key (encrypt key draw text) = some text
  decrypt_other : ∀ key key' draw text, key ≠ key' → decrypt key' (encrypt key draw text) = none

/-- The keys of a process, the one that it encrypts with first. -/
structure Keychain (Key : Type) where
  primary : Key
  previous : List Key

def Keychain.keys {Key : Type} (chain : Keychain Key) : List Key := chain.primary :: chain.previous

variable {Key Text Token : Type} (cipher : Cipher Key Text Token)

/-- What the first key that fits makes of a token. -/
def decryptWith (keys : List Key) (token : Token) : Option Text :=
  keys.findSome? fun key => cipher.decrypt key token

/-- The same text under the first key of the ring, where some key fits. -/
def rotate (chain : Keychain Key) (draw : ℕ) (token : Token) : Option Token :=
  (decryptWith cipher chain.keys token).map (cipher.encrypt chain.primary draw)

variable {cipher} {keys : List Key} {key : Key} {draw : ℕ} {text : Text}

/-- A key reads its own tokens, wherever it stands in the ring. -/
theorem decryptWith_encrypt (h : key ∈ keys) :
    decryptWith cipher keys (cipher.encrypt key draw text) = some text := by
  induction keys with
  | nil => exact absurd h List.not_mem_nil
  | cons first rest ih =>
    rw [decryptWith, List.findSome?_cons]
    by_cases hfirst : key = first
    · rw [← hfirst, cipher.decrypt_encrypt]
    · rw [cipher.decrypt_other key first draw text hfirst]
      exact ih ((List.mem_cons.mp h).resolve_left hfirst)

/-- What is read of a token is what was encrypted. -/
theorem decryptWith_eq {text' : Text}
    (h : decryptWith cipher keys (cipher.encrypt key draw text) = some text') : text' = text := by
  obtain ⟨key', -, hkey⟩ := List.exists_of_findSome?_eq_some h
  by_cases heq : key = key'
  · rw [← heq, cipher.decrypt_encrypt] at hkey
    exact (Option.some.inj hkey).symm
  · rw [cipher.decrypt_other key key' draw text heq] at hkey
    cases hkey

/-- A rotated token is of the same text, under the first key. -/
theorem rotate_encrypt {chain : Keychain Key} {draw' : ℕ} {token : Token}
    (h : rotate cipher chain draw' (cipher.encrypt key draw text) = some token) :
    token = cipher.encrypt chain.primary draw' text := by
  obtain ⟨text', hopen, rfl⟩ := Option.map_eq_some_iff.mp h
  rw [decryptWith_eq hopen]

/-- What is rotated is under the first key. -/
theorem rotate_eq_some {chain : Keychain Key} {token token' : Token}
    (h : rotate cipher chain draw token = some token') :
    ∃ text, token' = cipher.encrypt chain.primary draw text := by
  obtain ⟨text, -, rfl⟩ := Option.map_eq_some_iff.mp h
  exact ⟨text, rfl⟩

end PaCopilot.Keyring
