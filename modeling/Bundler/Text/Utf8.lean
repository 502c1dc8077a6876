import Bundler.Text.Hex

/-!
# UTF-8

Decoding of bytes into characters and back. A byte sequence that is not UTF-8 is refused with the
offset of the first byte of the first bad character and the reason it is bad.

Names of files may hold bytes that are not UTF-8. In texts such bytes are written by characters that
are set aside for them, the stand-ins, and a text that holds one has no encoding.
-/

namespace Bundler.Text.Utf8

/-- Why a character cannot be decoded. -/
inductive Reason where
  /-- The first byte starts no character. -/
  | startByte
  /-- A later byte is none that may follow the ones before it. -/
  | continuationByte
  /-- The bytes end inside the character. -/
  | endOfData
  deriving DecidableEq, Repr

/-- The wording of a reason. -/
def Reason.message : Reason → String
  | .startByte => "invalid start byte"
  | .continuationByte => "invalid continuation byte"
  | .endOfData => "unexpected end of data"

/-- The place and the reason of the first bad character. -/
structure Fault where
  offset : Nat
  reason : Reason
  deriving DecidableEq, Repr

/-- How a character starts: the payload of its first byte, the least and the greatest second byte
and the number of bytes after the first. -/
structure Lead where
  payload : Nat
  low : Nat
  high : Nat
  tail : Nat

/-- What a first byte of at least `0x80` announces. The bounds on the second byte leave out the
overlong forms, the surrogates and what lies beyond U+10FFFF. -/
def lead? (b : Nat) : Option Lead :=
  if b < 0xC2 then none
  else if b < 0xE0 then some ⟨b - 0xC0, 0x80, 0xBF, 1⟩
  else if b = 0xE0 then some ⟨0, 0xA0, 0xBF, 2⟩
  else if b = 0xED then some ⟨0xD, 0x80, 0x9F, 2⟩
  else if b < 0xF0 then some ⟨b - 0xE0, 0x80, 0xBF, 2⟩
  else if b = 0xF0 then some ⟨0, 0x90, 0xBF, 3⟩
  else if b < 0xF4 then some ⟨b - 0xF0, 0x80, 0xBF, 3⟩
  else if b = 0xF4 then some ⟨4, 0x80, 0x8F, 3⟩
  else none

/-- Read `n` bytes of a character whose value so far is `acc`; the first lies between `low` and
`high`, the others are any continuation bytes. -/
def tail (low high : Nat) : Nat → Nat → List UInt8 → Except Reason (Nat × List UInt8)
  | 0, acc, bytes => .ok (acc, bytes)
  | _ + 1, _, [] => .error .endOfData
  | n + 1, acc, b :: bytes =>
    if low ≤ b.toNat ∧ b.toNat ≤ high then
      tail 0x80 0xBF n (acc * 64 + (b.toNat - 0x80)) bytes
    else .error .continuationByte

/-- Reading the rest of a character uses up bytes, never adds any. -/
theorem tail_length {low high n acc : Nat} {bytes : List UInt8} {r : Nat × List UInt8}
    (h : tail low high n acc bytes = .ok r) : r.2.length ≤ bytes.length := by
  induction n generalizing low high acc bytes with
  | zero => simp [tail] at h; simp [← h]
  | succ n ih =>
    cases bytes with
    | nil => simp [tail] at h
    | cons b bytes =>
      simp only [tail] at h
      split at h
      · have := ih h; simp; omega
      · simp at h

/-- The first character of `b :: bytes` and the bytes behind it. -/
def decodeChar (b : UInt8) (bytes : List UInt8) : Except Reason (Char × List UInt8) :=
  if b.toNat < 0x80 then .ok (Char.ofNat b.toNat, bytes)
  else match lead? b.toNat with
    | none => .error .startByte
    | some l => (tail l.low l.high l.tail l.payload bytes).map fun r => (Char.ofNat r.1, r.2)

theorem decodeChar_length {b : UInt8} {bytes : List UInt8} {r : Char × List UInt8}
    (h : decodeChar b bytes = .ok r) : r.2.length ≤ bytes.length := by
  simp only [decodeChar] at h
  split at h
  · cases h; exact Nat.le_refl _
  · split at h
    · simp at h
    · next l _ =>
      cases ht : tail l.low l.high l.tail l.payload bytes with
      | error e => rw [ht] at h; simp [Except.map] at h
      | ok p =>
        rw [ht] at h
        simp only [Except.map, Except.ok.injEq] at h
        subst h
        exact tail_length ht

/-- Decode the last ones of `total` bytes. -/
def decodeFrom (total : Nat) (bytes : List UInt8) : Except Fault (List Char) :=
  match bytes with
  | [] => .ok []
  | b :: bytes =>
    match h : decodeChar b bytes with
    | .error reason => .error ⟨total - (bytes.length + 1), reason⟩
    | .ok (c, rest) =>
      have : rest.length ≤ bytes.length := decodeChar_length h
      match decodeFrom total rest with
      | .error fault => .error fault
      | .ok cs => .ok (c :: cs)
termination_by bytes.length

/-- The characters that `bytes` encode. -/
def decode (bytes : ByteArray) : Except Fault (List Char) := decodeFrom bytes.size bytes.toList

/-! ### Encoding -/

/-- Where a text has no encoding: the byte that the first stand-in is for, its index and that of the
last stand-in in a row with it. -/
structure EncodeFault where
  byte : Nat
  first : Nat
  last : Nat
  deriving DecidableEq, Repr

/-- The wording of a fault. -/
def EncodeFault.message (fault : EncodeFault) : String :=
  "'utf-8' codec can't encode "
    ++ (if fault.first = fault.last then
        "character '\\udc" ++ String.ofList (hexDigits 2 fault.byte) ++ "' in position "
          ++ toString fault.first
      else
        "characters in position " ++ toString fault.first ++ "-" ++ toString fault.last)
    ++ ": surrogates not allowed"

/-- The bytes of a text. The stand-in at index `i` is for the byte `0x80 + i`. -/
def encode (standIns : List Char) (text : String) : Except EncodeFault ByteArray :=
  match text.toList.findIdx? standIns.contains with
  | none => .ok text.toUTF8
  | some first =>
    let rest := text.toList.drop first
    .error {
      byte := 0x80 + (rest.head?.elim 0 standIns.idxOf)
      first
      last := first + (rest.takeWhile standIns.contains).length - 1 }

end Bundler.Text.Utf8
