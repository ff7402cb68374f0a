import TableGate.Http.Message
import TableGate.Proofs.Json.Printing

/-!
# The texts of envelopes

What a client can tell from the body of an answer: data and errors are never spelled alike
(`not_carries_of_data`), and the text of an error spells its own code and no other
(`carries_ofError`, `code_eq_of_carries`).
-/

namespace TableGate

open Json (escape quote)

/-- A text that is quoted as it is. -/
def Json.IsBare (written : String) : Prop := ∀ c ∈ written.toList, escape c = [c]

/-- A text is bare where each of its characters is its own escape. -/
theorem Json.isBare_of_all {written : String}
    (plain : (written.toList.all fun c => decide (escape c = [c])) = true) : IsBare written :=
  fun c member => of_decide_eq_true (List.all_eq_true.mp plain c member)

/-- Characters that are their own escapes are printed as they are. -/
theorem Json.flatMap_escape {letters : List Char} (bare : ∀ c ∈ letters, escape c = [c]) :
    letters.flatMap escape = letters := by
  induction letters with
  | nil => rfl
  | cons c rest ih =>
      rw [List.flatMap_cons, bare c List.mem_cons_self,
        ih fun d member => bare d (List.mem_cons_of_mem _ member)]
      rfl

/-- A bare text is printed as it is, between quotes. -/
theorem Json.quote_of_isBare {written : String} (bare : IsBare written) :
    quote written = "\"" ++ written ++ "\"" := by
  rw [quote, flatMap_escape bare, String.ofList_toList]

theorem Json.quote_of_all {written : String}
    (plain : (written.toList.all fun c => decide (escape c = [c])) = true) :
    quote written = "\"" ++ written ++ "\"" :=
  quote_of_isBare (isBare_of_all plain)

/-- A bare text has no quote in it. -/
theorem Json.not_mem_of_isBare {written : String} (bare : IsBare written) :
    '"' ∉ written.toList :=
  fun member => absurd (bare _ member) (by decide)

/-- The codes that name errors to clients need no escapes. -/
theorem Error.isBare_code (error : Error) : Json.IsBare error.code := by
  have violated (code : String) : Json.IsBare (violation code).2 := by
    unfold violation
    repeat' split
    all_goals exact Json.isBare_of_all (by decide)
  unfold code statusAndCode
  split
  case h_8 code text => exact violated code
  all_goals exact Json.isBare_of_all (by decide)

namespace Http

/-- An envelope is printed as its data and its error, in this order. -/
theorem Envelope.text_value (envelope : Envelope) :
    envelope.value.text =
      "\x7b\"data\":" ++ envelope.data.text ++ ",\"error\":" ++ envelope.error.text ++ "\x7d" := by
  have sorted : envelope.value = .object [("data", envelope.data), ("error", envelope.error)] := by
    have order : Json.isBefore "data" "error" = true := by decide
    simp [Envelope.value, Json.ofMembers, Json.sortMembers, Json.insertMember, order]
  have data : quote "data" = "\"data\"" := Json.quote_of_all (by decide)
  have error : quote "error" = "\"error\"" := Json.quote_of_all (by decide)
  rw [sorted, Json.text_object]
  simp only [List.map_cons, List.map_nil, Json.memberText, data, error,
    String.intercalate_cons_cons, String.intercalate_singleton, String.append_assoc]
  rfl

/-- The report of an error: its code and its message. -/
def report (code message : String) : Json :=
  .ofMembers [("code", .string code), ("message", .string message)]

/-- An error is printed as its code and its message, in this order. -/
theorem text_report (code message : String) :
    (report code message).text =
      "\x7b\"code\":" ++ quote code ++ ",\"message\":" ++ quote message ++ "\x7d" := by
  have sorted : report code message =
      .object [("code", .string code), ("message", .string message)] := by
    have order : Json.isBefore "code" "message" = true := by decide
    simp [report, Json.ofMembers, Json.sortMembers, Json.insertMember, order]
  have first : quote "code" = "\"code\"" := Json.quote_of_all (by decide)
  have second : quote "message" = "\"message\"" := Json.quote_of_all (by decide)
  have quoted (written : String) : (Json.string written).text = quote written := by
    rw [Json.text, Json.write, Json.writeText_eq, String.empty_append]
  rw [sorted, Json.text_object]
  simp only [List.map_cons, List.map_nil, Json.memberText, first, second, quoted,
    String.intercalate_cons_cons, String.intercalate_singleton, String.append_assoc]
  rfl

/-- The body of a response reports an error under the given code. -/
def Response.Carries (response : Response) (code : String) : Prop :=
  ∃ message, response.body = (Envelope.value ⟨.null, report code message⟩).text

/-- The response to an error carries its code. -/
theorem carries_ofError (error : Error) : (Response.ofError error).Carries error.code :=
  ⟨error.message, rfl⟩

/-- An error is reported under its own code only. -/
theorem code_eq_of_carries {error : Error} {code : String} (bare : Json.IsBare code)
    (carries : (Response.ofError error).Carries code) : code = error.code := by
  obtain ⟨message, same⟩ := carries
  change (Envelope.value ⟨.null, report error.code error.message⟩).text = _ at same
  simp only [Envelope.text_value, text_report, Json.quote_of_isBare bare,
    Json.quote_of_isBare error.isBare_code] at same
  have letters := congrArg String.toList same
  simp only [String.toList_append, List.append_assoc, List.append_cancel_left_eq] at letters
  -- no code has a quotation mark, so each ends at the first one
  have upTo {written : String} (plain : Json.IsBare written) (rest : List Char) :
      (written.toList ++ '"' :: rest).takeWhile (· != '"') = written.toList := by
    rw [List.takeWhile_append_of_pos, List.takeWhile_cons_of_neg (by decide), List.append_nil]
    intro c member
    exact bne_iff_ne.mpr fun same => Json.not_mem_of_isBare plain (same ▸ member)
  have read := congrArg (List.takeWhile (· != '"')) letters
  change ((error.code.toList ++ '"' :: _).takeWhile _) =
    ((code.toList ++ '"' :: _).takeWhile _) at read
  rw [upTo error.isBare_code, upTo bare] at read
  exact (String.toList_injective read).symm

/-- Data are never spelled like an error. -/
theorem not_carries_of_data {data : Json} {status : Nat} {code : String} :
    ¬ (Envelope.respond ⟨data, .null⟩ status).Carries code := by
  rintro ⟨message, same⟩
  change (Envelope.value ⟨data, .null⟩).text = _ at same
  simp only [Envelope.text_value, text_report] at same
  -- data end with `null` and a brace, an error with two braces
  have letters := congrArg (fun written => written.toList.reverse.take 2) same
  simp [quote, Json.text, Json.write] at letters

end Http

end TableGate
