import TableGate.Datum.Wire
import TableGate.Proofs.Number.Rounding
import TableGate.Proofs.Text.Bytes
import TableGate.Proofs.Text.Name

/-!
# Reading bound values back

What a store reads in the bytes of a parameter that is bound to a number: a signed integer, a double
or the numeral of a text, by the type that it is sent with (`Wire.integer?`).  An integer of 64 bits
is read back as itself (`Datum.integer?_integer`), the numeral of any integer as that integer
(`Datum.integer?_text`), and a double as the integer that it is, if it is one
(`Datum.integer?_double`).
-/

namespace TableGate

/-! ### Bytes -/

/-- The number that bytes in network order make up. -/
def ofBigEndian (bytes : List UInt8) : Nat :=
  bytes.foldl (fun total byte => total * 256 + byte.toNat) 0

/-- The bytes of a number are read back into what fits in them, after the number so far. -/
theorem foldl_bigEndian (size value total : Nat) :
    (bigEndian size value).foldl (fun total byte => total * 256 + byte.toNat) total =
      total * 256 ^ size + value % 256 ^ size := by
  induction size generalizing total with
  | zero => simp [bigEndian, Nat.mod_one]
  | succ size ih =>
      have byte : (UInt8.ofNat (value / 256 ^ size)).toNat = value / 256 ^ size % 256 :=
        UInt8.toNat_ofNat'
      rw [bigEndian, List.foldl_cons, ih, Nat.pow_eq, byte, Nat.pow_succ, Nat.mod_mul,
        Nat.add_mul, Nat.mul_assoc, Nat.mul_comm 256, Nat.add_assoc,
        Nat.add_comm (value % 256 ^ size), Nat.mul_comm (value / 256 ^ size % 256)]

/-- The lowest bytes of a number are read back as what is left of it. -/
theorem ofBigEndian_bigEndian (size value : Nat) :
    ofBigEndian (bigEndian size value) = value % 256 ^ size := by
  rw [ofBigEndian, foldl_bigEndian, Nat.zero_mul, Nat.zero_add]

/-- The signed number of a word of `size` bytes in two's complement. -/
def ofTwosComplement (size : Nat) (bytes : List UInt8) : Int :=
  Int.bmod (ofBigEndian bytes) (256 ^ size)

/-- An integer is read back from its two's complement where it fits. -/
theorem ofTwosComplement_twosComplement {size : Nat} {value : Int}
    (least : -(256 ^ size : Nat) ≤ 2 * value) (most : 2 * value < (256 ^ size : Nat)) :
    ofTwosComplement size (twosComplement size value) = value := by
  have positive : 0 < 256 ^ size := Nat.pow_pos (by decide)
  rw [ofTwosComplement, twosComplement, ofBigEndian_bigEndian, Nat.pow_eq]
  generalize 256 ^ size = word at *
  have natural : 0 ≤ value % (word : Int) := Int.emod_nonneg _ (by omega)
  have below : value % (word : Int) < word := Int.emod_lt_of_pos _ (by omega)
  have small : (value % (word : Int)).toNat < word := by omega
  rw [Nat.mod_eq_of_lt small, Int.toNat_of_nonneg natural, Int.emod_bmod]
  exact Int.bmod_eq_of_le (by omega) (by omega)

/-! ### Doubles -/

namespace Double

/-- The finite double of 64 bits: the sign, then the rank. -/
def ofBits? (bits : Nat) : Option Double :=
  if finite : bits % 2 ^ 63 < 2047 * Nat.pow 2 52 then
    some ⟨decide (2 ^ 63 ≤ bits), bits % 2 ^ 63, finite⟩
  else none

/-- A double is read back from its bits. -/
theorem ofBits?_bits (number : Double) : ofBits? number.bits = some number := by
  obtain ⟨negative, rank, finite⟩ := number
  have small : rank < 2 ^ 63 := Nat.lt_trans finite (by decide)
  have sign : decide (2 ^ 63 ≤ bits ⟨negative, rank, finite⟩) = negative := by
    cases negative
    · simpa [bits] using small
    · simp [bits]
  have magnitude : bits ⟨negative, rank, finite⟩ % 2 ^ 63 = rank := by
    cases negative <;> simp [bits] <;> omega
  simp only [ofBits?, sign, magnitude, finite, ↓reduceDIte]

/-- A double has 64 bits. -/
theorem bits_lt (number : Double) : number.bits < 2 ^ 64 := by
  obtain ⟨negative, rank, finite⟩ := number
  have small : rank < 2 ^ 63 := Nat.lt_trans finite (by decide)
  cases negative <;> simp [bits] <;> omega

/-- The integer that a double is, if it is one. -/
def integer? (number : Double) : Option Int :=
  if unitsPerOne ∣ number.units then
    some (if number.negative then -(number.units / unitsPerOne : Nat)
      else (number.units / unitsPerOne : Nat))
  else none

/-- A double that is a whole number of ones is read as that integer. -/
theorem integer?_of_units {number : Double} {n : Nat} (units : number.units = n * unitsPerOne) :
    number.integer? = some (if number.negative then -(n : Int) else n) := by
  rw [integer?, units, if_pos (Nat.dvd_mul_left _ _), Nat.mul_div_cancel _ unitsPerOne_pos]

end Double

/-! ### Texts -/

/-- Characters of ASCII are read back from their bytes. -/
theorem Text.Utf8.readFrom_ascii {letters : List Char} (ascii : ∀ c ∈ letters, c.toNat < 0x80) :
    readFrom none (letters.flatMap String.utf8EncodeChar) = letters.map some := by
  induction letters with
  | nil => rfl
  | cons c rest ih =>
      obtain ⟨small, others⟩ := List.forall_mem_cons.mp ascii
      have byte : (UInt8.ofNat c.toNat).toNat = c.toNat :=
        UInt8.toNat_ofNat_of_lt' (Nat.lt_trans small (by decide))
      rw [List.flatMap_cons, Text.utf8EncodeChar_of_ascii small, List.singleton_append, readFrom,
        byte, beginning, if_pos small, Char.ofNat_toNat, ih others, List.map_cons]

/-- A text in ASCII is decoded as it was encoded. -/
theorem Text.Utf8.decode?_ascii {text : String} (ascii : ∀ c ∈ text.toList, c.toNat < 0x80) :
    decode? (encode text) = some text := by
  have read : (text.toList.map some).mapM id = some text.toList := by
    rw [List.mapM_map]
    exact List.mapM_pure.trans (congrArg some (List.map_id _))
  rw [decode?, encode, readFrom_ascii ascii, read, Option.map_some, String.ofList_toList]

/-- The integer that a text is a decimal numeral of. -/
def Text.integer? : List Char → Option Int
  | '-' :: digits => (natural? digits).map fun (value : Nat) => -(value : Int)
  | digits => (natural? digits).map Int.ofNat

/-- An integer is written in ASCII. -/
theorem Json.Number.ascii_text {value : Int} {c : Char}
    (among : c ∈ (Json.Number.integer value).text) : c.toNat < 0x80 := by
  have digit {n : Nat} (among : c ∈ Text.digits n) : c.toNat < 0x80 :=
    Text.ascii_of_isDigit (Nat.isDigit_of_mem_toDigits (by decide) (by decide) among)
  rw [Json.Number.text] at among
  split at among
  · rcases List.mem_cons.mp among with rfl | among
    · decide
    · exact digit among
  · exact digit among

/-- The numeral of an integer stands for it. -/
theorem Text.integer?_number (value : Int) :
    Text.integer? (Json.Number.integer value).text = some value := by
  rw [Json.Number.text]
  split
  · next negative =>
      have size : -(value.natAbs : Int) = value := by omega
      rw [Text.integer?, natural?_digits, Option.map_some, size]
  · next natural =>
      have size : Int.ofNat value.natAbs = value := Int.natAbs_of_nonneg (Int.not_lt.mp natural)
      have unsigned (rest : List Char) : Text.digits value.natAbs ≠ '-' :: rest := by
        intro shape
        have shown : '-' ∈ Text.digits value.natAbs := shape ▸ List.mem_cons_self
        exact absurd (Nat.isDigit_of_mem_toDigits (by decide) (by decide) shown) (by decide)
      rw [Text.integer?.eq_2 _ fun rest shape => unsigned rest shape, natural?_digits,
        Option.map_some, size]

/-! ### Parameters -/

/-- The integer that a store reads in a parameter of a numeric type or in an untyped one. -/
def Wire.integer? : Wire → Option Int
  | ⟨20, some bytes⟩ => some (ofTwosComplement 8 bytes)
  | ⟨701, some bytes⟩ => (Double.ofBits? (ofBigEndian bytes)).bind Double.integer?
  | ⟨0, some bytes⟩ => (Text.Utf8.decode? bytes).bind fun text => Text.integer? text.toList
  | _ => none

namespace Datum

/-- A 64-bit integer is stored as itself. -/
theorem integer?_integer {value : Int} (least : -2 ^ 63 ≤ value) (most : value < 2 ^ 63) :
    (Datum.integer value).wire.integer? = some value :=
  congrArg some (ofTwosComplement_twosComplement (by omega) (by omega))

/-- An integer that is bound as a text is stored as itself, whatever its size. -/
theorem integer?_text (value : Int) :
    (Datum.text (String.ofList (Json.Number.integer value).text)).wire.integer? = some value := by
  have ascii : ∀ c ∈ (String.ofList (Json.Number.integer value).text).toList, c.toNat < 0x80 := by
    rw [String.toList_ofList]
    exact fun c among => Json.Number.ascii_text among
  change (Text.Utf8.decode? (Text.Utf8.encode _)).bind _ = some value
  rw [Text.Utf8.decode?_ascii ascii, Option.bind_some, String.toList_ofList, Text.integer?_number]

/-- A double is stored as the integer that it is, if it is one. -/
theorem integer?_double (value : Double) : (Datum.double value).wire.integer? = value.integer? := by
  have bits : ofBigEndian (bigEndian 8 value.bits) = value.bits := by
    rw [ofBigEndian_bigEndian]
    exact Nat.mod_eq_of_lt value.bits_lt
  change (Double.ofBits? (ofBigEndian (bigEndian 8 value.bits))).bind Double.integer? = _
  rw [bits, Double.ofBits?_bits]
  rfl

end Datum

end TableGate
