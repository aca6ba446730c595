import UrlHarvest.Text.Basic

namespace UrlHarvest.Text.Utf8

-- A sequence that has begun: the value read so far, how many bytes are still due, and the range
-- that the next of them has to be in.
structure Unfinished where
  value : Nat
  due : Nat
  low : Nat
  high : Nat
deriving Repr, DecidableEq

inductive Lead
  | scalar (c : Char)
  | opens (sequence : Unfinished)
  | stray

-- The second byte is restricted after E0, ED, F0 and F4, which keeps out overlong forms,
-- surrogates and values past the last code point.
def lead (byte : Nat) : Lead :=
  if byte < 0x80 then .scalar (Char.ofNat byte)
  else if byte < 0xC2 then .stray
  else if byte < 0xE0 then .opens ⟨byte - 0xC0, 1, 0x80, 0xBF⟩
  else if byte < 0xF0 then
    .opens ⟨byte - 0xE0, 2, if byte = 0xE0 then 0xA0 else 0x80, if byte = 0xED then 0x9F else 0xBF⟩
  else if byte < 0xF5 then
    .opens ⟨byte - 0xF0, 3, if byte = 0xF0 then 0x90 else 0x80, if byte = 0xF4 then 0x8F else 0xBF⟩
  else .stray

def replacement : Char := '\uFFFD'

-- The text read so far is kept in reverse.
structure Reader where
  open? : Option Unfinished := none
  read : Text := []

def Reader.start (reader : Reader) (byte : Nat) : Reader :=
  match lead byte with
  | .scalar c => ⟨none, c :: reader.read⟩
  | .opens sequence => ⟨some sequence, reader.read⟩
  | .stray => ⟨none, replacement :: reader.read⟩

-- A byte that cannot continue the open sequence ends it with one replacement sign and is then
-- looked at afresh.
def Reader.step (reader : Reader) (byte : UInt8) : Reader :=
  match reader.open? with
  | none => reader.start byte.toNat
  | some sequence =>
    if sequence.low ≤ byte.toNat && byte.toNat ≤ sequence.high then
      let value := 64 * sequence.value + (byte.toNat - 0x80)
      if sequence.due = 1 then ⟨none, Char.ofNat value :: reader.read⟩
      else ⟨some ⟨value, sequence.due - 1, 0x80, 0xBF⟩, reader.read⟩
    else Reader.start ⟨none, replacement :: reader.read⟩ byte.toNat

def Reader.finish (reader : Reader) : Text :=
  match reader.open? with
  | none => reader.read.reverse
  | some _ => (replacement :: reader.read).reverse

-- Every longest piece that begins a sequence and is not continued reads as one replacement sign.
def decode (bytes : List UInt8) : Text :=
  (bytes.foldl Reader.step {}).finish

def encode (text : Text) : List UInt8 :=
  text.flatMap String.utf8EncodeChar

end UrlHarvest.Text.Utf8
