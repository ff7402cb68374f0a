/-!
# UTF-8

Bytes and characters.  Decoding runs over the bytes once and gives, in order, each character and a
mark for each longest run of bytes that starts a character and cannot be completed.  From that
reading come the strict decoding, which refuses any such run, and the lenient one, which writes the
replacement character for it.
-/

namespace TableGate.Text.Utf8

def encode (text : String) : List UInt8 := text.toList.flatMap String.utf8EncodeChar

/-- A character of which the first bytes have been read: how many bytes are still owed, the bounds
of the next one, and the bits read so far. -/
structure Pending where
  owed : Nat
  low : Nat
  high : Nat
  code : Nat
deriving Repr

/-- What a byte that stands between characters begins: a finished character, an unfinished one, or
none at all. -/
inductive Beginning
  | complete (c : Char)
  | pending (rest : Pending)
  | invalid
deriving Repr

/-- What the byte begins, by the table of well-formed sequences. -/
def beginning (byte : Nat) : Beginning :=
  if byte < 0x80 then .complete (Char.ofNat byte)
  else if 0xC2 ≤ byte ∧ byte ≤ 0xDF then .pending ⟨1, 0x80, 0xBF, byte - 0xC0⟩
  else if byte = 0xE0 then .pending ⟨2, 0xA0, 0xBF, 0⟩
  else if byte = 0xED then .pending ⟨2, 0x80, 0x9F, 0xD⟩
  else if 0xE1 ≤ byte ∧ byte ≤ 0xEF then .pending ⟨2, 0x80, 0xBF, byte - 0xE0⟩
  else if byte = 0xF0 then .pending ⟨3, 0x90, 0xBF, 0⟩
  else if 0xF1 ≤ byte ∧ byte ≤ 0xF3 then .pending ⟨3, 0x80, 0xBF, byte - 0xF0⟩
  else if byte = 0xF4 then .pending ⟨3, 0x80, 0x8F, 4⟩
  else .invalid

/-- The reading of the bytes, after those of an unfinished character: characters, and `none` for
each run of bytes that makes no character. -/
def readFrom : Option Pending → List UInt8 → List (Option Char)
  | none, [] => []
  | some _, [] => [none]
  | none, byte :: rest =>
      match beginning byte.toNat with
      | .complete c => some c :: readFrom none rest
      | .pending pending => readFrom (some pending) rest
      | .invalid => none :: readFrom none rest
  | some pending, byte :: rest =>
      if pending.low ≤ byte.toNat ∧ byte.toNat ≤ pending.high then
        let code := pending.code * 64 + (byte.toNat - 0x80)
        if pending.owed ≤ 1 then some (Char.ofNat code) :: readFrom none rest
        else readFrom (some ⟨pending.owed - 1, 0x80, 0xBF, code⟩) rest
      else
        match beginning byte.toNat with
        | .complete c => none :: some c :: readFrom none rest
        | .pending next => none :: readFrom (some next) rest
        | .invalid => none :: none :: readFrom none rest

/-- The text that the bytes encode, if they encode one. -/
def decode? (bytes : List UInt8) : Option String :=
  ((readFrom none bytes).mapM id).map String.ofList

/-- The text that the bytes encode, with U+FFFD for each run of bytes that makes no character. -/
def decodeLenient (bytes : List UInt8) : String :=
  String.ofList ((readFrom none bytes).map (·.getD (Char.ofNat 0xFFFD)))

end TableGate.Text.Utf8
