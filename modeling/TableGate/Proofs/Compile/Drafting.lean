import TableGate.Draft
import TableGate.Filter
import TableGate.Proofs.Statement.Layout

/-!
# Drafting part by part

Fragments that are placed together number their placeholders as if one part were placed after the
other (`Draft.place_append`).  So filters may be rendered one by one (`Draft.render_eq_place`), and
the alternatives of a group are those renderings, with `OR` between them (`Draft.place_anyOf`).
-/

namespace TableGate.Draft

open Sql (Condition Fragment)

variable {draft : Draft} {table : Option Ident}

@[simp]
theorem bind_nil (draft : Draft) : draft.bind [] = draft := by
  rw [bind, List.append_nil]

theorem bind_bind (draft : Draft) (first second : List Datum) :
    (draft.bind first).bind second = draft.bind (first ++ second) := by
  rw [bind, bind, bind, List.append_assoc]

theorem next_bind (draft : Draft) (values : List Datum) :
    (draft.bind values).next = draft.next + values.length := by
  rw [next, next, bind, List.length_append, Nat.add_right_comm]

/-- Write a fragment: its text with the numbers that are next, and the draft with its values. -/
def write (draft : Draft) (fragment : Fragment) : String × Draft :=
  (fragment.text draft.next, draft.bind fragment.values)

/-- Write a fragment, if there is one. -/
def writeAny (draft : Draft) : Option Fragment → Option String × Draft
  | some fragment => (some (draft.write fragment).1, (draft.write fragment).2)
  | none => (none, draft)

/-- A fragment that binds nothing leaves the draft as it is. -/
theorem write_of_values (draft : Draft) {fragment : Fragment} (unbound : fragment.values = []) :
    draft.write fragment = (fragment.text draft.next, draft) := by
  rw [write, unbound, bind_nil]

/-- The second of two fragments is written where the first one leaves the draft. -/
theorem write_append (draft : Draft) (left right : Fragment) :
    draft.write (left ++ right) =
      ((draft.write left).1 ++ ((draft.write left).2.write right).1,
        ((draft.write left).2.write right).2) := by
  simp only [write, Fragment.text_append, Fragment.values_append, bind_bind, next_bind]

@[simp]
theorem place_nil (draft : Draft) : draft.place [] = (draft, []) := by
  rw [place, List.flatMap_nil, bind_nil]
  rfl

/-- Fragments in a row are written one after another. -/
theorem place_cons (draft : Draft) (fragment : Fragment) (rest : List Fragment) :
    draft.place (fragment :: rest) =
      (((draft.write fragment).2.place rest).1,
        (draft.write fragment).1 :: ((draft.write fragment).2.place rest).2) := by
  simp only [place, write, List.flatMap_cons, Fragment.texts, bind_bind, next_bind]

/-- The second part of some fragments is placed where the first part leaves the draft. -/
theorem place_append (draft : Draft) (left right : List Fragment) :
    draft.place (left ++ right) =
      (((draft.place left).1.place right).1,
        (draft.place left).2 ++ ((draft.place left).1.place right).2) := by
  simp only [place, bind_bind, List.flatMap_append, Fragment.texts_append, next_bind]

section

variable {α : Type} {drafted : Draft} {fragments : α → List Fragment} {outcome : Compile.Outcome α}
  {accepted : α} {texts : List String} {error : Error}

/-- A compilation that succeeds places its fragments. -/
theorem afterOutcome_eq_ok :
    draft.afterOutcome fragments outcome = (drafted, .ok (accepted, texts)) ↔
      outcome = .ok accepted ∧ draft.place (fragments accepted) = (drafted, texts) := by
  cases outcome with
  | error refusal => simp [afterOutcome]
  | ok found =>
      simp only [afterOutcome, Except.ok.injEq, Prod.ext_iff]
      constructor
      · rintro ⟨rfl, rfl, rfl⟩
        exact ⟨rfl, rfl, rfl⟩
      · rintro ⟨rfl, rfl, rfl⟩
        exact ⟨rfl, rfl, rfl⟩

theorem afterOutcome_eq_error :
    (draft.afterOutcome fragments outcome).2 = .error error ↔
      outcome.toExcept = .error error := by
  cases outcome with
  | error refusal => simp [afterOutcome]
  | ok found => simp [afterOutcome]

end

/-- Render filters one after another, each where those before it leave the draft. -/
def render (table : Option Ident) (draft : Draft) : List Filter → Draft × List String
  | [] => (draft, [])
  | filter :: rest =>
      let (placed, texts) := draft.place [(filter.predicate table).tokens]
      let (rendered, others) := placed.render table rest
      (rendered, texts ++ others)

theorem render_eq_place (table : Option Ident) (draft : Draft) (filters : List Filter) :
    draft.render table filters =
      draft.place (filters.map fun filter => (filter.predicate table).tokens) := by
  induction filters generalizing draft with
  | nil => exact (place_nil draft).symm
  | cons filter rest ih =>
      have parts := place_append draft [(filter.predicate table).tokens]
        (rest.map fun filter => (filter.predicate table).tokens)
      rw [← ih] at parts
      exact parts.symm

/-- The alternatives of a group are the filters rendered one after another. -/
theorem place_anyOf (table : Option Ident) (draft : Draft) (filters : List Filter) :
    draft.place [(Condition.anyOf (filters.map (Filter.predicate table))).tokens] =
      ((draft.render table filters).1,
        ["(" ++ " OR ".intercalate (draft.render table filters).2 ++ ")"]) := by
  rw [render_eq_place, place, List.flatMap_singleton, Fragment.texts, Fragment.texts,
    Condition.tokens, Fragment.values_enclosed, Fragment.values_intercalate, Fragment.text_enclosed,
    Fragment.text_intercalate, List.map_map]
  rfl

end TableGate.Draft
