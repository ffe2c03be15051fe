/-!
UTF-8 with replacement.

`decode` reads any bytes: every maximal run of bytes that starts a character without completing it
counts as one replacement character, and so does every byte that can start none. The decoder is a
machine over single bytes, so what it has written up to a character boundary does not depend on
the bytes that follow. `encode` writes characters; decoding takes it back.
-/

namespace SuiteAtlas.Text.Utf8

/-- A character under construction: the next byte must lie between `low` and `high`, and `owed`
more bytes follow it. -/
structure Pending where
  owed : Nat
  low : Nat
  high : Nat
  value : Nat
  deriving DecidableEq, Repr

def replacement : Char := '\ufffd'

/-- The character that `b` starts: it stands alone, needs more bytes, or cannot be started. -/
def first (b : Nat) : Sum Char Pending :=
  if b < 0x80 then .inl (Char.ofNat b)
  else if b < 0xc2 then .inl replacement
  else if b < 0xe0 then .inr ⟨0, 0x80, 0xbf, b - 0xc0⟩
  else if b = 0xe0 then .inr ⟨1, 0xa0, 0xbf, 0⟩
  else if b = 0xed then .inr ⟨1, 0x80, 0x9f, 0xd⟩
  else if b < 0xf0 then .inr ⟨1, 0x80, 0xbf, b - 0xe0⟩
  else if b = 0xf0 then .inr ⟨2, 0x90, 0xbf, 0⟩
  else if b < 0xf4 then .inr ⟨2, 0x80, 0xbf, b - 0xf0⟩
  else if b = 0xf4 then .inr ⟨2, 0x80, 0x8f, 4⟩
  else .inl replacement

def begin (b : Nat) : List Char × Option Pending :=
  match first b with
  | .inl c => ([c], none)
  | .inr p => ([], some p)

/-- One byte: the characters that it completes, and what is under construction after it. -/
def step (state : Option Pending) (b : Nat) : List Char × Option Pending :=
  match state with
  | none => begin b
  | some p =>
    if p.low ≤ b ∧ b ≤ p.high then
      let value := p.value * 64 + (b - 0x80)
      match p.owed with
      | 0 => ([Char.ofNat value], none)
      | owed + 1 => ([], some ⟨owed, 0x80, 0xbf, value⟩)
    else
      let (out, next) := begin b
      (replacement :: out, next)

/-- At the end a character under construction counts as one replacement. -/
def finish : Option Pending → List Char
  | none => []
  | some _ => [replacement]

def decodeFrom (state : Option Pending) : List UInt8 → List Char
  | [] => finish state
  | b :: rest =>
    let (out, next) := step state b.toNat
    out ++ decodeFrom next rest

def decode (bytes : List UInt8) : List Char :=
  decodeFrom none bytes

def encodeChar (c : Char) : List UInt8 :=
  let n := c.toNat
  let tail (shift : Nat) : UInt8 := UInt8.ofNat (0x80 + n / shift % 64)
  if n < 0x80 then [UInt8.ofNat n]
  else if n < 0x800 then [UInt8.ofNat (0xc0 + n / 64), tail 1]
  else if n < 0x10000 then [UInt8.ofNat (0xe0 + n / 4096), tail 64, tail 1]
  else [UInt8.ofNat (0xf0 + n / 262144), tail 4096, tail 64, tail 1]

def encode (text : List Char) : List UInt8 :=
  text.flatMap encodeChar

end SuiteAtlas.Text.Utf8
