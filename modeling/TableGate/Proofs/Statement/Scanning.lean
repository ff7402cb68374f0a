import TableGate.Proofs.Statement.Placeholder
import TableGate.Proofs.Text.Bytes

/-!
# Scanning the bytes of a text

The placeholders of a text can be found byte by byte: a scan goes through the bytes, cuts out the
digits after each dollar sign and goes on after them (`Draft.scanFrom`).  No byte of a longer
character is a dollar sign or a digit, so the scan cuts between characters only and finds what is
found character by character (`Draft.scanFrom_eq`).  The main theorem is `Draft.placeholders_exact`.
-/

namespace TableGate

open Text (naturalBelow? wordBound slice?)
open Text.Utf8 (encode)

/-! ### Bytes of digits -/

namespace Text

/-- The bytes of the decimal digits. -/
def isDigitByte (byte : UInt8) : Bool := '0'.toNat ≤ byte.toNat && byte.toNat ≤ '9'.toNat

theorem isDigitByte_of_isDigit {c : Char} (digit : c.isDigit = true) :
    String.utf8EncodeChar c = [UInt8.ofNat c.toNat] ∧
      isDigitByte (UInt8.ofNat c.toNat) = true := by
  obtain ⟨low, high⟩ := Char.isDigit_iff_toNat.mp digit
  have ascii : c.toNat < 0x80 := Nat.lt_of_le_of_lt high (by decide)
  have value : (UInt8.ofNat c.toNat).toNat = c.toNat :=
    UInt8.toNat_ofNat_of_lt' (Nat.lt_trans ascii (by decide))
  refine ⟨utf8EncodeChar_of_ascii ascii, ?_⟩
  rw [isDigitByte, value, decide_eq_true low, decide_eq_true high]
  rfl

/-- The bytes of other characters are no bytes of digits. -/
theorem isDigit_of_isDigitByte {c : Char} {byte : UInt8}
    (member : byte ∈ String.utf8EncodeChar c) (digit : isDigitByte byte = true) :
    c.isDigit = true := by
  rw [isDigitByte, Bool.and_eq_true, decide_eq_true_eq, decide_eq_true_eq] at digit
  have ascii : byte.toNat < 0x80 := Nat.lt_of_le_of_lt digit.2 (by decide)
  rw [eq_of_mem_utf8EncodeChar member ascii] at digit
  exact Char.isDigit_iff_toNat.mpr digit

/-- The digits at the start of a text are found in its bytes. -/
theorem takeWhile_encode (letters : List Char) :
    (encode (String.ofList letters)).takeWhile isDigitByte =
      encode (String.ofList (letters.takeWhile Char.isDigit)) := by
  induction letters with
  | nil => rfl
  | cons c rest ih =>
      rw [encode_cons, List.takeWhile_cons]
      split
      · next digit =>
          obtain ⟨alone, byte⟩ := isDigitByte_of_isDigit digit
          rw [encode_cons, alone, List.singleton_append, List.takeWhile_cons_of_pos byte, ih,
            List.singleton_append]
      · next other =>
          have sized : 0 < (String.utf8EncodeChar c).length := by
            rw [String.length_utf8EncodeChar]
            exact c.utf8Size_pos
          obtain ⟨first, more, shape⟩ := List.exists_cons_of_length_pos sized
          have member : first ∈ String.utf8EncodeChar c := shape ▸ List.mem_cons_self
          have plain : ¬ isDigitByte first = true := mt (isDigit_of_isDigitByte member) other
          rw [shape, List.cons_append, List.takeWhile_cons_of_neg plain]
          rfl

end Text

namespace Draft

/-! ### The scan -/

/-- The scan of a text from a byte on: the numbers it finds, or nothing where it would have to cut
the text inside a character. -/
def scanFrom (text : String) (start : Nat) : Option (List Nat) :=
  match shape : (encode text).drop start with
  | [] => some []
  | byte :: rest =>
      if byte = 0x24 then do
        let stop := start + 1 + (rest.takeWhile Text.isDigitByte).length
        let digits ← slice? text (start + 1) stop
        let later ← scanFrom text stop
        return (naturalBelow? wordBound digits.toList).toList ++ later
      else scanFrom text (start + 1)
termination_by (encode text).length - start
decreasing_by
  all_goals
    have remaining := congrArg List.length shape
    rw [List.length_drop, List.length_cons] at remaining
    omega

variable {text : String} {start : Nat} {byte : UInt8} {bytes rest : List UInt8}

theorem scanFrom_end (ended : (encode text).drop start = []) : scanFrom text start = some [] := by
  rw [scanFrom]
  split
  · rfl
  · next shape => exact absurd (ended.symm.trans shape) (List.cons_ne_nil _ _).symm

theorem scanFrom_dollar {stop : Nat} {digits : String}
    (shape : (encode text).drop start = 0x24 :: rest)
    (run : start + 1 + (rest.takeWhile Text.isDigitByte).length = stop)
    (cut : slice? text (start + 1) stop = some digits) :
    scanFrom text start =
      (scanFrom text stop).map ((naturalBelow? wordBound digits.toList).toList ++ ·) := by
  rw [scanFrom]
  split
  · next ended => exact absurd (shape.symm.trans ended) (List.cons_ne_nil _ _)
  · next first more found =>
      obtain ⟨rfl, rfl⟩ := List.cons.inj (shape.symm.trans found)
      rw [if_pos rfl]
      simp only [run, cut]
      cases scanFrom text stop <;> rfl

theorem scanFrom_other (shape : (encode text).drop start = byte :: rest) (other : byte ≠ 0x24) :
    scanFrom text start = scanFrom text (start + 1) := by
  rw [scanFrom]
  split
  · next ended => exact absurd (shape.symm.trans ended) (List.cons_ne_nil _ _)
  · next first more found =>
      obtain ⟨rfl, rfl⟩ := List.cons.inj (shape.symm.trans found)
      rw [if_neg other]

/-- Bytes that are no dollar signs are passed one by one. -/
theorem scanFrom_skip (shape : (encode text).drop start = bytes ++ rest) (plain : 0x24 ∉ bytes) :
    scanFrom text start = scanFrom text (start + bytes.length) := by
  induction bytes generalizing start with
  | nil => rfl
  | cons byte more ih =>
      obtain ⟨other, later⟩ := not_or.mp (mt List.mem_cons.mpr plain)
      have next : (encode text).drop (start + 1) = more ++ rest := by
        rw [← List.drop_drop, shape]
        rfl
      rw [scanFrom_other shape (Ne.symm other), ih next later, List.length_cons, Nat.add_assoc,
        Nat.add_comm 1]

/-- No other character has the byte of the dollar sign. -/
theorem dollar_not_mem_bytes {c : Char} (other : c ≠ '$') :
    (0x24 : UInt8) ∉ String.utf8EncodeChar c := by
  intro member
  have same : '$'.toNat = c.toNat := Text.eq_of_mem_utf8EncodeChar member (by decide)
  exact other (Char.toNat_inj.mp same.symm)

/-- After a dollar sign, the scan cuts out the run of digits and goes on behind it. -/
theorem scanFrom_run (before : String) {run later : List Char}
    (digits : ∀ c ∈ run, c.isDigit = true) (settled : Settled later) :
    scanFrom (before ++ String.ofList ('$' :: (run ++ later))) before.utf8ByteSize =
      (scanFrom (before ++ "$" ++ String.ofList run ++ String.ofList later)
        (before ++ "$" ++ String.ofList run).utf8ByteSize).map
          ((naturalBelow? wordBound run).toList ++ ·) := by
  have whole : before ++ String.ofList ('$' :: (run ++ later)) =
      before ++ "$" ++ String.ofList run ++ String.ofList later := by
    rw [String.ofList_cons, String.ofList_append, ← String.append_assoc, ← String.append_assoc]
    rfl
  have begins : (before ++ "$").utf8ByteSize = before.utf8ByteSize + 1 :=
    String.utf8ByteSize_append
  have ends : (before ++ "$" ++ String.ofList run).utf8ByteSize =
      (before ++ "$").utf8ByteSize + (String.ofList run).utf8ByteSize :=
    String.utf8ByteSize_append
  have bytes : (encode (before ++ String.ofList ('$' :: (run ++ later)))).drop
      before.utf8ByteSize = 0x24 :: encode (String.ofList (run ++ later)) := by
    rw [Text.drop_encode, Text.encode_cons]
    rfl
  have found : before.utf8ByteSize + 1 +
      ((encode (String.ofList (run ++ later))).takeWhile Text.isDigitByte).length =
        (before ++ "$" ++ String.ofList run).utf8ByteSize := by
    rw [Text.takeWhile_encode, takeWhile_isDigit digits settled, Text.length_encode, ends, begins]
  have cut : slice? (before ++ String.ofList ('$' :: (run ++ later))) (before.utf8ByteSize + 1)
      (before ++ "$" ++ String.ofList run).utf8ByteSize = some (String.ofList run) := by
    rw [whole, ← begins, ends, Text.slice?_append]
  rw [scanFrom_dollar bytes found cut, whole, String.toList_ofList]

theorem placeholdersIn_append_of_absent {front : List Char} (absent : '$' ∉ front)
    (back : List Char) : placeholdersIn (front ++ back) = placeholdersIn back := by
  rw [placeholdersIn_eq, dollarRuns_append_of_absent absent, ← placeholdersIn_eq]

/-- The number that a run of digits stands for is found before those in what comes later. -/
theorem placeholdersIn_run {run later : List Char} (digits : ∀ c ∈ run, c.isDigit = true)
    (settled : Settled later) :
    placeholdersIn ('$' :: (run ++ later)) =
      (naturalBelow? wordBound run).toList ++ placeholdersIn later := by
  have absent : '$' ∉ run := fun member => absurd (digits '$' member) (by decide)
  rw [placeholdersIn, if_pos rfl, takeWhile_isDigit digits settled,
    placeholdersIn_append_of_absent absent]

/-- Every text begins with a run of digits, which may be empty. -/
theorem exists_run (text : List Char) : ∃ run later, text = run ++ later ∧
    (∀ c ∈ run, c.isDigit = true) ∧ Settled later := by
  refine ⟨text.takeWhile Char.isDigit, text.dropWhile Char.isDigit,
    List.takeWhile_append_dropWhile.symm, fun c => List.mem_takeWhile_imp, fun c begins => ?_⟩
  have stops := List.head?_dropWhile_not Char.isDigit text
  rw [begins] at stops
  exact stops

/-- Where the scan stands at the start of a character, it finds what is found in the characters that
are left. -/
theorem scanFrom_eq (before : String) (rest : List Char) :
    scanFrom (before ++ String.ofList rest) before.utf8ByteSize = some (placeholdersIn rest) := by
  generalize size : rest.length = length
  induction length using Nat.strong_induction_on generalizing before rest with
  | _ length ih =>
      have bytes := Text.drop_encode before (String.ofList rest)
      cases rest with
      | nil => exact scanFrom_end bytes
      | cons c more =>
          by_cases dollar : c = '$'
          · obtain ⟨run, later, rfl, digits, settled⟩ := exists_run more
            have fewer : later.length < length := by
              rw [← size, List.length_cons, List.length_append]
              omega
            rw [dollar, scanFrom_run before digits settled, ih _ fewer _ later rfl,
              placeholdersIn_run digits settled]
            rfl
          · rw [Text.encode_cons] at bytes
            have passed := scanFrom_skip bytes (dollar_not_mem_bytes dollar)
            have begins : (before ++ String.singleton c).utf8ByteSize =
                before.utf8ByteSize + (String.utf8EncodeChar c).length := by
              rw [String.utf8ByteSize_append, String.utf8ByteSize_singleton,
                String.length_utf8EncodeChar]
            have fewer : more.length < length := size ▸ Nat.lt_succ_self _
            rw [passed, ← begins, String.ofList_cons, ← String.append_assoc,
              ih _ fewer _ more rfl, placeholdersIn, if_neg dollar]

/-! ### Texts with marks -/

/-- A dollar sign without digits marks nothing: the text could be without it. -/
theorem placeholdersIn_stray {after : List Char} (settled : Settled after) (before : List Char) :
    placeholdersIn (before ++ '$' :: after) = placeholdersIn (before ++ after) := by
  induction before with
  | nil => exact @placeholdersIn_run [] after (List.forall_mem_nil _) settled
  | cons c rest ih =>
      have ended : after.takeWhile Char.isDigit = [] :=
        @takeWhile_isDigit [] after (List.forall_mem_nil _) settled
      have run : (rest ++ '$' :: after).takeWhile Char.isDigit =
          (rest ++ after).takeWhile Char.isDigit := by
        rw [List.takeWhile_append, List.takeWhile_append, ended]
        rfl
      rw [List.cons_append, List.cons_append, placeholdersIn, placeholdersIn, run, ih]

/-- A text in which placeholders alternate with other parts. -/
def marked (first : List Char) (parts : List (Nat × List Char)) : List Char :=
  first ++ parts.flatMap fun (number, part) => (Sql.placeholder number).toList ++ part

/-- A part that can stand after the placeholder of a 64-bit number. -/
structure Separates (part : Nat × List Char) : Prop where
  bounded : part.1 < wordBound
  unmarked : '$' ∉ part.2
  settled : Settled part.2

theorem settled_marked {first : List Char} (settled : Settled first)
    (parts : List (Nat × List Char)) : Settled (marked first parts) := by
  cases first with
  | cons c rest => exact settled
  | nil =>
      cases parts with
      | nil => exact settled_nil
      | cons part later =>
          rw [marked, List.nil_append, List.flatMap_cons, List.append_assoc]
          exact @Sql.Token.settled (.value .null) nofun part.1 _

/-- The numbers of the placeholders are found one after another. -/
theorem placeholdersIn_marked {first : List Char} {parts : List (Nat × List Char)}
    (absent : '$' ∉ first) (separated : ∀ part ∈ parts, Separates part) :
    placeholdersIn (marked first parts) = parts.map Prod.fst := by
  induction parts generalizing first with
  | nil => exact placeholdersIn_append_of_absent absent []
  | cons part rest ih =>
      obtain ⟨number, text⟩ := part
      obtain ⟨bounded, unmarked, settled⟩ := separated _ List.mem_cons_self
      have later := ih unmarked fun other member => separated other (List.mem_cons_of_mem _ member)
      have shape : marked first ((number, text) :: rest) =
          first ++ '$' :: (Text.digits number ++ marked text rest) := by
        simp [marked, Sql.placeholder]
      rw [shape, placeholdersIn_append_of_absent absent,
        placeholdersIn_run (fun c member => Sql.isDigit_of_mem_digits member)
          (settled_marked settled rest), Text.naturalBelow?_digits bounded, later]
      rfl

/-- A draft is complete exactly where its placeholders are the positions of its values, in whatever
order. -/
theorem isComplete_iff {draft : Draft} :
    draft.isComplete = true ↔ draft.placeholders.Perm (List.range' 1 draft.values.length) := by
  rw [isComplete, beq_iff_eq]
  constructor
  · intro sorted
    rw [← sorted]
    exact (List.mergeSort_perm _ _).symm
  · intro permuted
    have ordered : draft.placeholders.mergeSort.Pairwise
        fun left right => decide (left ≤ right) = true :=
      List.pairwise_mergeSort (by simp; omega) (by simp; omega) _
    have counted : (List.range' 1 draft.values.length).Pairwise
        fun left right => decide (left ≤ right) = true :=
      List.Pairwise.imp (fun less => decide_eq_true (Nat.le_of_lt less)) List.pairwise_lt_range'
    refine List.Perm.eq_of_pairwise (fun left right _ _ below above => ?_) ordered counted
      ((List.mergeSort_perm _ _).trans permuted)
    exact Nat.le_antisymm (of_decide_eq_true below) (of_decide_eq_true above)

/-- **The placeholders of a text are found exactly.**  A scan of its bytes goes through every text
and cuts it between characters only.  A dollar sign that no digit follows counts for
nothing.  Where placeholders of 64-bit numbers alternate with parts that have no dollar sign and
begin with no digit, the numbers are found in their order, and the draft is complete where they are
the positions of its values in some order. -/
theorem placeholders_exact (draft : Draft) :
    scanFrom draft.text 0 = some draft.placeholders ∧
      (∀ before after, draft.text.toList = before ++ '$' :: after → Settled after →
        draft.placeholders = placeholdersIn (before ++ after)) ∧
      ∀ first parts, draft.text.toList = marked first parts → '$' ∉ first →
        (∀ part ∈ parts, Separates part) →
          draft.placeholders = parts.map Prod.fst ∧
            (draft.isComplete = true ↔
              (parts.map Prod.fst).Perm (List.range' 1 draft.values.length)) := by
  refine ⟨?_, fun before after shape settled => ?_, fun first parts shape absent separated => ?_⟩
  · have scanned := scanFrom_eq "" draft.text.toList
    rwa [String.ofList_toList, String.empty_append] at scanned
  · rw [placeholders, shape, placeholdersIn_stray settled]
  · have found : draft.placeholders = parts.map Prod.fst := by
      rw [placeholders, shape, placeholdersIn_marked absent separated]
    exact ⟨found, found ▸ isComplete_iff⟩

/-- A draft with its values in another order than their placeholders. -/
def swappedDraft : Draft := ⟨"größe = $2, \"Straße\" = $1", [.bool true, .null]⟩

theorem placeholders_exact_swapped :
    scanFrom swappedDraft.text 0 = some [2, 1] ∧ swappedDraft.isComplete = true := by
  have shape : swappedDraft.text.toList =
      marked "größe = ".toList [(2, ", \"Straße\" = ".toList), (1, [])] := by decide
  have separated : ∀ part ∈ [(2, ", \"Straße\" = ".toList), (1, [])], Separates part := by
    simp only [List.forall_mem_cons]
    refine ⟨⟨by decide, by decide, ?_⟩, ⟨by decide, by decide, settled_nil⟩, List.forall_mem_nil _⟩
    intro c begins
    cases begins
    decide
  obtain ⟨scanned, -, exact⟩ := placeholders_exact swappedDraft
  obtain ⟨found, complete⟩ := exact _ _ shape (by decide) separated
  rw [found] at scanned
  exact ⟨scanned, complete.mpr (by decide)⟩

end Draft

end TableGate
