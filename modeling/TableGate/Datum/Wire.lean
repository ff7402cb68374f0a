import TableGate.Datum.Basic
import TableGate.Text.Utf8

/-!
# The binary form of bound values

A bound value is sent as the number of its type and its bytes; the null value has no bytes.  Null
and text are sent without a type, so that the store infers it.
-/

namespace TableGate

/-- A parameter as it is sent: the number of its type, zero for an unspecified one, and its
bytes. -/
structure Wire where
  oid : Nat
  bytes : Option (List UInt8)
deriving DecidableEq, Repr

/-- The lowest `size` bytes of a number, in network order. -/
def bigEndian : Nat → Nat → List UInt8
  | 0, _ => []
  | size + 1, value => UInt8.ofNat (value / Nat.pow 256 size) :: bigEndian size value

/-- A signed number in two's complement, in network order. -/
def twosComplement (size : Nat) (value : Int) : List UInt8 :=
  bigEndian size (value % (Nat.pow 256 size : Nat)).toNat

namespace Datum

def oid : Datum → Nat
  | .null | .text _ => 0
  | .bool _ => 16
  | .integer _ => 20
  | .double _ => 701
  | .uuid _ => 2950
  | .timestamp _ => 1184
  | .date _ => 1082
  | .json _ => 3802

def bytes : Datum → Option (List UInt8)
  | .null => none
  | .bool value => some [if value then 1 else 0]
  | .integer value => some (twosComplement 8 value)
  | .double value => some (bigEndian 8 value.bits)
  | .text value => some (Text.Utf8.encode value)
  | .uuid value => some value.bytes
  | .timestamp value => some (twosComplement 8 value.microsSince2000)
  | .date value => some (twosComplement 4 value.daysSince2000)
  | .json value => some (1 :: Text.Utf8.encode value.text)

def wire (value : Datum) : Wire := ⟨value.oid, value.bytes⟩

end Datum

end TableGate
