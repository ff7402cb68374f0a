import TableGate.Text.Utf8

/-!
# Bytes of a text

The bytes of a text are those of its characters, one after another: a character of ASCII is one
byte, its number, and all bytes of any other character are above those of ASCII.  A text can be cut
between two bytes only where both of them begin a character or end the text (`slice?`).
-/

namespace TableGate.Text

open Utf8 (encode)

variable {c : Char} {byte : UInt8}

/-- A character of ASCII is one byte, its number. -/
theorem utf8EncodeChar_of_ascii (ascii : c.toNat < 0x80) :
    String.utf8EncodeChar c = [UInt8.ofNat c.toNat] :=
  if_pos (Nat.le_of_lt_succ ascii)

/-- All bytes of a character beyond ASCII are beyond ASCII. -/
theorem le_of_mem_utf8EncodeChar (long : 0x80 ≤ c.toNat)
    (member : byte ∈ String.utf8EncodeChar c) : 0x80 ≤ byte.toNat := by
  have above : ¬ c.val.toNat ≤ 127 := Nat.not_le.mpr long
  unfold String.utf8EncodeChar at member
  simp only [if_neg above] at member
  split at member
  · simp only [List.mem_cons, List.not_mem_nil, or_false] at member
    rcases member with rfl | rfl
    all_goals
      rw [UInt8.toNat_ofNat']
      omega
  · split at member
    · simp only [List.mem_cons, List.not_mem_nil, or_false] at member
      rcases member with rfl | rfl | rfl
      all_goals
        rw [UInt8.toNat_ofNat']
        omega
    · simp only [List.mem_cons, List.not_mem_nil, or_false] at member
      rcases member with rfl | rfl | rfl | rfl
      all_goals
        rw [UInt8.toNat_ofNat']
        omega

/-- A byte of ASCII is in the bytes of a character only where the character is in ASCII itself. -/
theorem eq_of_mem_utf8EncodeChar (member : byte ∈ String.utf8EncodeChar c)
    (ascii : byte.toNat < 0x80) : byte.toNat = c.toNat := by
  by_cases long : 0x80 ≤ c.toNat
  · exact absurd (le_of_mem_utf8EncodeChar long member) (Nat.not_le.mpr ascii)
  · have short : c.toNat < 0x80 := Nat.lt_of_not_le long
    rw [utf8EncodeChar_of_ascii short, List.mem_singleton] at member
    rw [member]
    exact UInt8.toNat_ofNat_of_lt' (Nat.lt_trans short (by decide))

/-! ### Bytes part by part -/

/-- The bytes of a text are those of its parts. -/
theorem encode_append (before after : String) :
    encode (before ++ after) = encode before ++ encode after := by
  rw [encode, String.toList_append, List.flatMap_append]
  rfl

/-- The bytes of a text begin with those of its first character. -/
theorem encode_cons (c : Char) (rest : List Char) :
    encode (String.ofList (c :: rest)) =
      String.utf8EncodeChar c ++ encode (String.ofList rest) := by
  rw [encode, encode, String.toList_ofList, String.toList_ofList, List.flatMap_cons]

/-- The size of a text counts the size of its first character. -/
theorem utf8ByteSize_cons (c : Char) (rest : List Char) :
    (String.ofList (c :: rest)).utf8ByteSize = c.utf8Size + (String.ofList rest).utf8ByteSize := by
  rw [String.ofList_cons, String.utf8ByteSize_append, String.utf8ByteSize_singleton]

/-- The size of a text is the number of its bytes. -/
theorem length_encode (text : String) : (encode text).length = text.utf8ByteSize := by
  have letters (list : List Char) :
      (encode (String.ofList list)).length = (String.ofList list).utf8ByteSize := by
    induction list with
    | nil => rfl
    | cons c rest ih =>
        rw [encode_cons, utf8ByteSize_cons, List.length_append, String.length_utf8EncodeChar, ih]
  have whole := letters text.toList
  rwa [String.ofList_toList] at whole

/-- After the bytes of the first part come those of the second. -/
theorem drop_encode (before after : String) :
    (encode (before ++ after)).drop before.utf8ByteSize = encode after := by
  rw [encode_append, ← length_encode, List.drop_left]

/-- A text in ASCII has a byte for each character. -/
theorem utf8ByteSize_ofList {letters : List Char} (ascii : ∀ c ∈ letters, c.toNat < 0x80) :
    (String.ofList letters).utf8ByteSize = letters.length := by
  induction letters with
  | nil => rfl
  | cons c rest ih =>
      obtain ⟨small, others⟩ := List.forall_mem_cons.mp ascii
      have one : c.utf8Size = 1 := Char.utf8Size_eq_one_iff.mpr (Nat.le_of_lt_succ small)
      rw [utf8ByteSize_cons, one, ih others, List.length_cons, Nat.add_comm]

/-- A text has at least as many bytes as characters. -/
theorem length_le_utf8ByteSize (text : String) : text.toList.length ≤ text.utf8ByteSize := by
  have letters (list : List Char) : list.length ≤ (String.ofList list).utf8ByteSize := by
    induction list with
    | nil => exact Nat.zero_le _
    | cons c rest ih =>
        have one := c.utf8Size_pos
        rw [utf8ByteSize_cons, List.length_cons]
        omega
  have whole := letters text.toList
  rwa [String.ofList_toList] at whole

/-! ### Cutting -/

/-- The part of a text between two of its bytes; none where one of them is inside a character. -/
def slice? (text : String) (first last : Nat) : Option String :=
  if between : String.Pos.Raw.IsValid text ⟨first⟩ ∧ String.Pos.Raw.IsValid text ⟨last⟩ then
    some (String.extract ⟨⟨first⟩, between.1⟩ ⟨⟨last⟩, between.2⟩)
  else none

/-- A part of a text is cut out between the bytes where it begins and ends. -/
theorem slice?_append (before middle after : String) :
    slice? (before ++ middle ++ after) before.utf8ByteSize
      (before.utf8ByteSize + middle.utf8ByteSize) = some middle := by
  have begins : String.Pos.Raw.IsValid (before ++ middle ++ after) ⟨before.utf8ByteSize⟩ :=
    String.Pos.Raw.isValid_iff_exists_append.mpr
      ⟨before, middle ++ after, String.append_assoc, rfl⟩
  have ends : String.Pos.Raw.IsValid (before ++ middle ++ after)
      ⟨before.utf8ByteSize + middle.utf8ByteSize⟩ :=
    String.Pos.Raw.isValid_iff_exists_append.mpr
      ⟨before ++ middle, after, rfl, by rw [← String.utf8ByteSize_append]; rfl⟩
  have joined : (before ++ middle).toByteArray.size =
      before.utf8ByteSize + middle.utf8ByteSize := by
    rw [String.size_toByteArray, String.utf8ByteSize_append]
  rw [slice?, dif_pos ⟨begins, ends⟩, Option.some.injEq, ← String.toByteArray_inj,
    String.toByteArray_extract]
  simp only [String.toByteArray_append (s := before ++ middle), ← joined,
    ByteArray.extract_append_size_left]
  rw [String.toByteArray_append]
  exact ByteArray.extract_append_eq_right String.size_toByteArray.symm ByteArray.size_append

end TableGate.Text
