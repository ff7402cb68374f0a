import TableGate.Error
import TableGate.Datum.Basic

/-!
# Accepting a list

Compilation goes through lists whose items are accepted, left out or refused.  The first refusal
ends it; the values that the items accepted before have bound stay bound, so a refusal carries them.
The main fact is `acceptAll_append`: a list is accepted part by part.
-/

namespace TableGate.Compile

/-- Why a list is refused, with the values bound by what was accepted before. -/
structure Refusal where
  error : Error
  bound : List Datum
deriving Repr

def Refusal.of (error : Error) : Refusal := ⟨error, []⟩

/-- The outcome of compiling a part of a request. -/
abbrev Outcome (α : Type) := Except Refusal α

/-- The outcome of a check that binds no values. -/
def Outcome.ofCheck {α : Type} (check : Except Error α) : Outcome α := check.mapError .of

@[simp] theorem Outcome.ofCheck_ok {α : Type} (value : α) :
    Outcome.ofCheck (.ok value) = .ok value := rfl

@[simp] theorem Outcome.ofCheck_error {α : Type} (error : Error) :
    (Outcome.ofCheck (.error error) : Outcome α) = .error (.of error) := rfl

/-- The outcome without the values bound before a refusal. -/
def Outcome.toExcept {α : Type} (outcome : Outcome α) : Except Error α :=
  outcome.mapError Refusal.error

@[simp] theorem Outcome.toExcept_ok {α : Type} (value : α) :
    Outcome.toExcept (.ok value) = .ok value := rfl

@[simp] theorem Outcome.toExcept_error {α : Type} (refusal : Refusal) :
    Outcome.toExcept (.error refusal : Outcome α) = .error refusal.error := rfl

/-- The outcome after some values have been bound. -/
def Outcome.after {α : Type} (bound : List Datum) (outcome : Outcome α) : Outcome α :=
  outcome.mapError fun refusal => { refusal with bound := bound ++ refusal.bound }

@[simp] theorem Outcome.after_ok {α : Type} (bound : List Datum) (value : α) :
    Outcome.after bound (.ok value) = .ok value := rfl

@[simp] theorem Outcome.after_error {α : Type} (bound : List Datum) (refusal : Refusal) :
    (Outcome.after bound (.error refusal) : Outcome α) =
      .error { refusal with bound := bound ++ refusal.bound } := rfl

/-- What the items are accepted as, in order, unless one of them is refused. -/
def acceptAll {α β : Type} (values : β → List Datum) (accept : α → Outcome (Option β)) :
    List α → Outcome (List β)
  | [] => .ok []
  | item :: rest =>
      match accept item with
      | .error refusal => .error refusal
      | .ok none => acceptAll values accept rest
      | .ok (some accepted) =>
          (Outcome.after (values accepted) (acceptAll values accept rest)).map (accepted :: ·)

/-- A list is accepted part by part; a refusal in the second part carries what the first has
bound. -/
theorem acceptAll_append {α β : Type} (values : β → List Datum)
    (accept : α → Outcome (Option β)) (left right : List α) :
    acceptAll values accept (left ++ right) =
      match acceptAll values accept left with
      | .error refusal => .error refusal
      | .ok accepted =>
          (Outcome.after (accepted.flatMap values) (acceptAll values accept right)).map
            (accepted ++ ·) := by
  induction left with
  | nil =>
      simp only [List.nil_append, acceptAll, List.flatMap_nil]
      cases acceptAll values accept right <;> rfl
  | cons item rest ih =>
      simp only [List.cons_append, acceptAll]
      cases accept item with
      | error refusal => rfl
      | ok found =>
          cases found with
          | none => exact ih
          | some accepted =>
              simp only [ih]
              cases acceptAll values accept rest with
              | error refusal => rfl
              | ok more =>
                  simp only [Outcome.after_ok, Except.map, List.flatMap_cons]
                  cases acceptAll values accept right <;> simp

end TableGate.Compile
