import TableGate.Json.Printer

/-!
# The text of a value, part by part

A value is written after whatever stands before it (`write_eq`), so the text of an object is made
of the texts of its members (`text_object`).
-/

namespace TableGate.Json

/-- Characters that are pushed one by one come after the text so far. -/
theorem foldl_push (letters : List Char) (before : String) :
    letters.foldl String.push before = before ++ String.ofList letters := by
  induction letters generalizing before with
  | nil => simp
  | cons c rest ih =>
      rw [List.foldl_cons, ih, String.push_eq_append, String.append_assoc, String.ofList_cons]

/-- The text of a quoted text. -/
def quote (written : String) : String :=
  "\"" ++ String.ofList (written.toList.flatMap escape) ++ "\""

/-- A text is printed after what is there. -/
theorem writeText_eq (before written : String) :
    writeText before written = before ++ quote written := by
  have escaped (letters : List Char) (start : String) :
      letters.foldl (fun written c => (escape c).foldl String.push written) start =
        start ++ String.ofList (letters.flatMap escape) := by
    induction letters generalizing start with
    | nil => simp
    | cons c rest ih =>
        rw [List.foldl_cons, ih, foldl_push, List.flatMap_cons, String.ofList_append,
          String.append_assoc]
  unfold writeText
  rw [escaped, String.push_eq_append, String.push_eq_append, quote]
  simp only [String.append_assoc]
  rfl

mutual

/-- A value is written after what stands before it. -/
theorem write_eq (before : String) (value : Json) : write before value = before ++ text value := by
  cases value with
  | null => simp [text, write]
  | bool flag => simp [text, write]
  | number number => simp [text, write]
  | string written => simp [text, write, writeText_eq]
  | array items =>
      cases items with
      | nil => simp [text, write]
      | cons item rest =>
          simp only [text, write]
          rw [writeItems_eq (write (before.push '[') item), write_eq (before.push '['),
            writeItems_eq (write ("".push '[') item), write_eq ("".push '[')]
          simp only [String.push_eq_append, String.append_assoc, String.empty_append]
  | object members =>
      cases members with
      | nil => simp only [text, write, String.push_eq_append, String.append_assoc,
          String.empty_append]
      | cons member rest =>
          obtain ⟨name, value⟩ := member
          simp only [text, write]
          rw [writeMembers_eq (write ((writeText (before.push '\x7b') name).push ':') value),
            write_eq ((writeText (before.push '\x7b') name).push ':'),
            writeMembers_eq (write ((writeText ("".push '\x7b') name).push ':') value),
            write_eq ((writeText ("".push '\x7b') name).push ':')]
          simp only [writeText_eq, String.push_eq_append, String.append_assoc, String.empty_append]

/-- Items are printed after what is there. -/
theorem writeItems_eq (before : String) (items : List Json) :
    writeItems before items = before ++ writeItems "" items := by
  cases items with
  | nil => simp [writeItems]
  | cons item rest =>
      simp only [writeItems]
      rw [writeItems_eq (write (before.push ',') item), write_eq (before.push ','),
        writeItems_eq (write ("".push ',') item), write_eq ("".push ',')]
      simp only [String.push_eq_append, String.append_assoc, String.empty_append]

/-- Members are printed after what is there. -/
theorem writeMembers_eq (before : String) (members : List (String × Json)) :
    writeMembers before members = before ++ writeMembers "" members := by
  cases members with
  | nil => simp [writeMembers]
  | cons member rest =>
      obtain ⟨name, value⟩ := member
      simp only [writeMembers]
      rw [writeMembers_eq (write ((writeText (before.push ',') name).push ':') value),
        write_eq ((writeText (before.push ',') name).push ':'),
        writeMembers_eq (write ((writeText ("".push ',') name).push ':') value),
        write_eq ((writeText ("".push ',') name).push ':')]
      simp only [writeText_eq, String.push_eq_append, String.append_assoc, String.empty_append]

end

/-- The text of a member of an object. -/
def memberText (member : String × Json) : String := quote member.1 ++ ":" ++ member.2.text

theorem writeMembers_cons (member : String × Json) (rest : List (String × Json)) :
    writeMembers "" (member :: rest) = "," ++ memberText member ++ writeMembers "" rest := by
  obtain ⟨name, value⟩ := member
  rw [writeMembers, writeMembers_eq, write_eq, writeText_eq]
  simp only [memberText, String.push_eq_append, String.append_assoc, String.empty_append]
  rfl

/-- The text of an object is made of the texts of its members. -/
theorem text_object (members : List (String × Json)) :
    (Json.object members).text = "\x7b" ++ ",".intercalate (members.map memberText) ++ "\x7d" := by
  have further (rest : List (String × Json)) (first : String) :
      first ++ writeMembers "" rest = ",".intercalate (first :: rest.map memberText) := by
    induction rest generalizing first with
    | nil => simp [writeMembers]
    | cons member rest ih =>
        rw [writeMembers_cons, List.map_cons, String.intercalate_cons_cons, ← ih]
        simp only [String.append_assoc]
  cases members with
  | nil => rfl
  | cons member rest =>
      obtain ⟨name, value⟩ := member
      rw [List.map_cons, ← further, text, write, writeMembers_eq, write_eq, writeText_eq]
      simp only [memberText, String.push_eq_append, String.append_assoc, String.empty_append]
      rfl

end TableGate.Json
