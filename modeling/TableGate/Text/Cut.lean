/-!
# Trimming and cutting a text

The ways a request's text is taken apart: free of the blanks at its ends, cut at the first mark or
at the commas that stand outside quotes and parentheses, and free of one enclosing pair of
characters.
Blanks are trimmed to nothing (`trim_of_isBlankText`), and the pieces of a cut, put together again,
are the text that was cut.
-/

namespace TableGate.Text

/-! ### Blanks -/

/-- A character with the Unicode property `White_Space`. -/
def isBlank (c : Char) : Bool :=
  let code := c.toNat
  (0x09 ≤ code && code ≤ 0x0D) || code == 0x20 || code == 0x85 || code == 0xA0 ||
    code == 0x1680 || (0x2000 ≤ code && code ≤ 0x200A) || code == 0x2028 || code == 0x2029 ||
    code == 0x202F || code == 0x205F || code == 0x3000

def trimStart (text : List Char) : List Char := text.dropWhile isBlank

def trimEnd (text : List Char) : List Char := (text.reverse.dropWhile isBlank).reverse

/-- The text without the blanks at either end. -/
def trim (text : List Char) : List Char := trimEnd (trimStart text)

/-- A text of blanks only, the empty text included. -/
def isBlankText (text : List Char) : Bool := text.all isBlank

/-- A text of blanks is trimmed to nothing. -/
theorem trim_of_isBlankText {text : List Char} (blank : isBlankText text = true) :
    trim text = [] := by
  have dropped : trimStart text = [] := by
    induction text with
    | nil => rfl
    | cons c rest ih =>
        simp only [isBlankText, List.all_cons, Bool.and_eq_true] at blank
        simpa [trimStart, List.dropWhile_cons, blank.1] using ih blank.2
  simp [trim, dropped, trimEnd]

/-! ### Cuts -/

/-- What stands before and after the first `mark`, if there is one. -/
def cutAt (mark : Char) : List Char → Option (List Char × List Char)
  | [] => none
  | c :: rest =>
      if c = mark then some ([], rest)
      else (cutAt mark rest).map fun (before, after) => (c :: before, after)

/-- The text between an opening and a closing character, if it is enclosed by them. -/
def inner? (opening closing : Char) : List Char → Option (List Char)
  | [] => none
  | c :: rest =>
      if c = opening ∧ rest.getLast? = some closing then some rest.dropLast else none

/-- Free of one enclosing pair of characters, or unchanged where there is none. -/
def inner (opening closing : Char) (text : List Char) : List Char :=
  (inner? opening closing text).getD text

/-- Where a scan stands: inside double quotes or not, and how many parentheses are open.
The depth is negative where more have been closed than opened. -/
structure Nesting where
  quoted : Bool := false
  depth : Int := 0
deriving DecidableEq, Repr

namespace Nesting

/-- Outside quotes and parentheses. -/
def isTop (nesting : Nesting) : Bool := !nesting.quoted && nesting.depth == 0

/-- Where the scan stands after one more character: parentheses count outside quotes only. -/
def step (nesting : Nesting) (c : Char) : Nesting :=
  if c = '"' then { nesting with quoted := !nesting.quoted }
  else if nesting.quoted then nesting
  else if c = '(' then { nesting with depth := nesting.depth + 1 }
  else if c = ')' then { nesting with depth := nesting.depth - 1 }
  else nesting

end Nesting

/-- The pieces between the commas at the top, of a text that starts where `nesting` says. -/
def topPiecesFrom (nesting : Nesting) : List Char → List (List Char)
  | [] => [[]]
  | c :: rest =>
      if c = ',' ∧ nesting.isTop = true then [] :: topPiecesFrom nesting rest
      else (topPiecesFrom (nesting.step c) rest).modifyHead (List.cons c)

/-- The pieces between the commas outside quotes and parentheses, blank ones included. -/
def topPieces (text : List Char) : List (List Char) := topPiecesFrom {} text

/-- The pieces between the commas outside quotes and parentheses, blank ones left out. -/
def splitTopLevel (text : List Char) : List (List Char) :=
  (topPieces text).filter fun piece => !isBlankText piece

/-- A text is never cut into no pieces at all. -/
theorem topPiecesFrom_ne_nil (nesting : Nesting) (text : List Char) :
    topPiecesFrom nesting text ≠ [] := by
  induction text generalizing nesting with
  | nil => simp [topPiecesFrom]
  | cons c rest ih =>
      rw [topPiecesFrom]
      split
      · simp
      · intro empty
        have length := congrArg List.length empty
        rw [List.length_modifyHead] at length
        exact ih _ (List.length_eq_zero_iff.mp length)

/-- Joining the pieces with commas gives the text back. -/
theorem intercalate_topPiecesFrom (nesting : Nesting) (text : List Char) :
    [','].intercalate (topPiecesFrom nesting text) = text := by
  induction text generalizing nesting with
  | nil => simp [topPiecesFrom, List.intercalate]
  | cons c rest ih =>
      rw [topPiecesFrom]
      split
      · next comma =>
          have joined := ih nesting
          have present := topPiecesFrom_ne_nil nesting rest
          cases pieces : topPiecesFrom nesting rest with
          | nil => exact absurd pieces present
          | cons piece more => simp_all [List.intercalate]
      · have joined := ih (nesting.step c)
        have present := topPiecesFrom_ne_nil (nesting.step c) rest
        match pieces : topPiecesFrom (nesting.step c) rest with
        | [] => exact absurd pieces present
        | [piece] => simp_all [List.intercalate]
        | piece :: next :: more => simp_all [List.intercalate]

/-- The text before the first mark, the mark and the text after it are the text that was cut. -/
theorem eq_of_cutAt {mark : Char} {text before after : List Char}
    (cut : cutAt mark text = some (before, after)) : text = before ++ mark :: after := by
  induction text generalizing before with
  | nil => simp [cutAt] at cut
  | cons c rest ih =>
      rw [cutAt] at cut
      split at cut
      · next same => simp_all
      · obtain ⟨⟨front, back⟩, inner, shape⟩ := Option.map_eq_some_iff.mp cut
        simp only [Prod.mk.injEq] at shape
        obtain ⟨rfl, rfl⟩ := shape
        simp [ih inner]

end TableGate.Text
