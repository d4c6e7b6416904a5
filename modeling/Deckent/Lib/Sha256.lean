import Mathlib.Data.BitVec
import Mathlib.Data.List.Basic

/-!
# SHA-256

The digest of a list of bytes, and its text in lower-case hexadecimal digits.
-/

namespace Deckent

namespace Sha256

abbrev Word := BitVec 32

structure State where
  a : Word
  b : Word
  c : Word
  d : Word
  e : Word
  f : Word
  g : Word
  h : Word
  deriving DecidableEq

def initial : State :=
  ⟨0x6a09e667, 0xbb67ae85, 0x3c6ef372, 0xa54ff53a, 0x510e527f, 0x9b05688c, 0x1f83d9ab, 0x5be0cd19⟩

def roundConstants : List Word :=
  [0x428a2f98, 0x71374491, 0xb5c0fbcf, 0xe9b5dba5, 0x3956c25b, 0x59f111f1, 0x923f82a4, 0xab1c5ed5,
    0xd807aa98, 0x12835b01, 0x243185be, 0x550c7dc3, 0x72be5d74, 0x80deb1fe, 0x9bdc06a7, 0xc19bf174,
    0xe49b69c1, 0xefbe4786, 0x0fc19dc6, 0x240ca1cc, 0x2de92c6f, 0x4a7484aa, 0x5cb0a9dc, 0x76f988da,
    0x983e5152, 0xa831c66d, 0xb00327c8, 0xbf597fc7, 0xc6e00bf3, 0xd5a79147, 0x06ca6351, 0x14292967,
    0x27b70a85, 0x2e1b2138, 0x4d2c6dfc, 0x53380d13, 0x650a7354, 0x766a0abb, 0x81c2c92e, 0x92722c85,
    0xa2bfe8a1, 0xa81a664b, 0xc24b8b70, 0xc76c51a3, 0xd192e819, 0xd6990624, 0xf40e3585, 0x106aa070,
    0x19a4c116, 0x1e376c08, 0x2748774c, 0x34b0bcb5, 0x391c0cb3, 0x4ed8aa4a, 0x5b9cca4f, 0x682e6ff3,
    0x748f82ee, 0x78a5636f, 0x84c87814, 0x8cc70208, 0x90befffa, 0xa4506ceb, 0xbef9a3f7, 0xc67178f2]

def choose (x y z : Word) : Word := (x &&& y) ^^^ (~~~x &&& z)

def majority (x y z : Word) : Word := (x &&& y) ^^^ (x &&& z) ^^^ (y &&& z)

def bigSigma0 (x : Word) : Word := x.rotateRight 2 ^^^ x.rotateRight 13 ^^^ x.rotateRight 22

def bigSigma1 (x : Word) : Word := x.rotateRight 6 ^^^ x.rotateRight 11 ^^^ x.rotateRight 25

def smallSigma0 (x : Word) : Word := x.rotateRight 7 ^^^ x.rotateRight 18 ^^^ (x >>> 3)

def smallSigma1 (x : Word) : Word := x.rotateRight 17 ^^^ x.rotateRight 19 ^^^ (x >>> 10)

def round (state : State) (constant word : Word) : State :=
  let first := state.h + bigSigma1 state.e + choose state.e state.f state.g + constant + word
  let second := bigSigma0 state.a + majority state.a state.b state.c
  ⟨first + second, state.a, state.b, state.c, state.d + first, state.e, state.f, state.g⟩

def nextWord (window : List Word) : Word :=
  smallSigma1 (window.getD 14 0) + window.getD 9 0 + smallSigma0 (window.getD 1 0) + window.getD 0 0

def rounds : List Word → List Word → State → State
  | [], _, state => state
  | constant :: constants, window, state =>
      rounds constants (window.tail ++ [nextWord window]) (round state constant (window.headD 0))

def State.add (left right : State) : State :=
  ⟨left.a + right.a, left.b + right.b, left.c + right.c, left.d + right.d, left.e + right.e,
    left.f + right.f, left.g + right.g, left.h + right.h⟩

def wordsOf : List UInt8 → List Word
  | w :: x :: y :: z :: rest =>
      (BitVec.ofNat 32 (((w.toNat * 256 + x.toNat) * 256 + y.toNat) * 256 + z.toNat)) :: wordsOf rest
  | _ => []

def compress : Nat → List Word → State → State
  | 0, _, state => state
  | blocks + 1, words, state =>
      compress blocks (words.drop 16) (state.add (rounds roundConstants (words.take 16) state))

def bigEndian : Nat → Nat → List UInt8
  | 0, _ => []
  | width + 1, value => bigEndian width (value / 256) ++ [UInt8.ofNat (value % 256)]

def padding (length : Nat) : List UInt8 :=
  0x80 :: List.replicate ((119 - length % 64) % 64) 0 ++ bigEndian 8 (8 * length)

def digest (message : List UInt8) : State :=
  let words := wordsOf (message ++ padding message.length)
  compress (words.length / 16) words initial

def hexDigit (value : Nat) : Char :=
  if value < 10 then Char.ofNat (48 + value) else Char.ofNat (87 + value)

def hexDigits : Nat → Nat → List Char
  | 0, _ => []
  | width + 1, value => hexDigits width (value / 16) ++ [hexDigit (value % 16)]

def State.words (state : State) : List Word :=
  [state.a, state.b, state.c, state.d, state.e, state.f, state.g, state.h]

def State.hex (state : State) : String :=
  String.ofList (state.words.flatMap fun word => hexDigits 8 word.toNat)

/-- The bytes of a digest. -/
def State.bytes (state : State) : List UInt8 := state.words.flatMap fun word => bigEndian 4 word.toNat

def keyedDigest (key message : List UInt8) : State :=
  let block := key ++ List.replicate (64 - key.length) 0
  digest (block.map (· ^^^ 0x5C) ++ (digest (block.map (· ^^^ 0x36) ++ message)).bytes)

end Sha256

def sha256Hex (text : String) : String := (Sha256.digest text.toUTF8.toList).hex

def utf8Bytes (text : String) : List UInt8 := text.toList.flatMap String.utf8EncodeChar

def hmacSha256Hex (key text : String) : String :=
  (Sha256.keyedDigest (utf8Bytes key) (utf8Bytes text)).hex

def isLowerHexDigit (c : Char) : Bool := c.isDigit || ('a' ≤ c && c ≤ 'f')

/-- `/^[a-f0-9]{64}$/u`. -/
def isSha256Text (text : String) : Bool := text.length = 64 && text.toList.all isLowerHexDigit

theorem isLowerHexDigit_hexDigit :
    ∀ value < 16, isLowerHexDigit (Sha256.hexDigit value) = true := by
  decide

theorem length_hexDigits (width value : Nat) : (Sha256.hexDigits width value).length = width := by
  induction width generalizing value with
  | zero => rfl
  | succ width ih => rw [Sha256.hexDigits, List.length_append, ih, List.length_singleton]

theorem all_hexDigits (width value : Nat) :
    (Sha256.hexDigits width value).all isLowerHexDigit = true := by
  induction width generalizing value with
  | zero => rfl
  | succ width ih =>
      have hlast := isLowerHexDigit_hexDigit _ (Nat.mod_lt value (by decide : 0 < 16))
      rw [Sha256.hexDigits, List.all_append, ih]
      simpa using hlast

theorem isSha256Text_hex (state : Sha256.State) : isSha256Text state.hex = true := by
  have hlength : ∀ words : List Sha256.Word,
      (words.flatMap fun word => Sha256.hexDigits 8 word.toNat).length = 8 * words.length := by
    intro words
    simp [length_hexDigits, Nat.mul_comm]
  unfold isSha256Text Sha256.State.hex
  rw [String.length_ofList, String.toList_ofList, hlength, Bool.and_eq_true]
  refine ⟨rfl, ?_⟩
  rw [List.all_flatMap, List.all_eq_true]
  intro word _
  exact all_hexDigits 8 word.toNat

@[simp]
theorem isSha256Text_sha256Hex (text : String) : isSha256Text (sha256Hex text) = true :=
  isSha256Text_hex _

@[simp]
theorem isSha256Text_hmacSha256Hex (key text : String) : isSha256Text (hmacSha256Hex key text) = true :=
  isSha256Text_hex _

example : sha256Hex "abc" = "ba7816bf8f01cfea414140de5dae2223b00361a396177a9cb410ff61f20015ad" := by
  decide +kernel

example : hmacSha256Hex "Jefe" "what do ya want for nothing?" =
    "5bdcc146bf60754e6a042426089575c75a003f089d2739839dec58b964ec3843" := by
  decide +kernel

end Deckent
