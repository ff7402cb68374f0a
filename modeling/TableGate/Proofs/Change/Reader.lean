import Mathlib
import TableGate.Change.Feed

/-!
# A reader of a log

Deliveries account for a list of events where each event is handed over or is one of those announced
as missed (`Delivery.Covers`).  A reader reads on in a log that grows, of which only the latest
events are kept for it.  What it is given accounts for the part of the log that it is past
(`Reader.covers_read`), and after a notice it goes on with the oldest event that is kept
(`Reader.due_after_lagged`).
-/

namespace TableGate

/-! ### What deliveries account for -/

namespace Delivery

/-- The event that is handed over, if there is one. -/
def event? : Delivery → Option ChangeEvent
  | .event change => some change
  | _ => none

/-- How many events are announced as missed. -/
def missed : Delivery → Nat
  | .lagged count => count
  | _ => 0

/-- How many events a receiver is past after the delivery that it was not past before. -/
def span : Delivery → Nat
  | .event _ => 1
  | .lagged count => count
  | _ => 0

/-- Deliveries account for a list of events, in order: each event is handed over, or is one of as
many as the notice in its place announces. -/
inductive Covers : List Delivery → List ChangeEvent → Prop
  | nil : Covers [] []
  | event {rest : List Delivery} {passed : List ChangeEvent} (change : ChangeEvent)
      (covers : Covers rest passed) : Covers (.event change :: rest) (change :: passed)
  | empty {rest : List Delivery} {passed : List ChangeEvent} (covers : Covers rest passed) :
      Covers (.empty :: rest) passed
  | lagged {rest : List Delivery} {passed : List ChangeEvent} (skipped : List ChangeEvent)
      (covers : Covers rest passed) : Covers (.lagged skipped.length :: rest) (skipped ++ passed)

variable {deliveries : List Delivery} {passed : List ChangeEvent}

/-- The events handed over are among those accounted for, in their order. -/
theorem Covers.sublist (covers : Covers deliveries passed) :
    (deliveries.filterMap event?).Sublist passed := by
  induction covers with
  | nil => exact .slnil
  | event change covers ih => exact ih.cons_cons change
  | empty covers ih => exact ih
  | lagged skipped covers ih => exact ih.trans (List.sublist_append_right skipped _)

/-- The events accounted for are those handed over and those announced as missed. -/
theorem Covers.length (covers : Covers deliveries passed) :
    (deliveries.filterMap event?).length + (deliveries.map missed).sum = passed.length := by
  induction covers with
  | nil => rfl
  | event change covers ih =>
      simp only [List.filterMap_cons, event?, List.map_cons, missed, List.length_cons, ← ih,
        List.sum_cons]
      omega
  | empty covers ih =>
      simp only [List.filterMap_cons, event?, List.map_cons, missed, List.sum_cons, ← ih]
      omega
  | lagged skipped covers ih =>
      simp only [List.filterMap_cons, event?, List.map_cons, missed, List.sum_cons,
        List.length_append, ← ih]
      omega

end Delivery

/-! ### A reader of a log -/

/-- What happens to a reader: its log grows, or it reads on. -/
inductive Turn
  | publish (events : List ChangeEvent)
  | receive

def Turn.events : Turn → List ChangeEvent
  | .publish events => events
  | .receive => []

/-- A reader: how many of the latest events are kept for it, the log, and how much of the log it is
past. -/
structure Reader where
  kept : Nat
  log : List ChangeEvent := []
  passed : Nat := 0

namespace Reader

/-- What a reader is given when it reads on. -/
def due (reader : Reader) : Delivery :=
  if reader.passed + reader.kept < reader.log.length then
    .lagged (reader.log.length - reader.kept - reader.passed)
  else
    match reader.log[reader.passed]? with
    | none => .empty
    | some event => .event event

/-- The reader after a turn. -/
def after (reader : Reader) : Turn → Reader
  | .publish events => { reader with log := reader.log ++ events }
  | .receive => { reader with passed := reader.passed + reader.due.span }

/-- What a turn gives to the reader. -/
def gets (reader : Reader) : Turn → List Delivery
  | .publish _ => []
  | .receive => [reader.due]

/-- All that a reader is given in its turns. -/
def read : Reader → List Turn → List Delivery
  | _, [] => []
  | reader, turn :: rest => reader.gets turn ++ (reader.after turn).read rest

def afterAll (reader : Reader) (turns : List Turn) : Reader := turns.foldl after reader

variable {reader : Reader}

theorem log_afterAll (reader : Reader) (turns : List Turn) :
    (reader.afterAll turns).log = reader.log ++ turns.flatMap Turn.events := by
  induction turns generalizing reader with
  | nil => exact (List.append_nil _).symm
  | cons turn rest ih =>
      change ((reader.after turn).afterAll rest).log = _
      rw [ih, List.flatMap_cons, ← List.append_assoc]
      cases turn with
      | publish events => rfl
      | receive => simp [after, Turn.events]

theorem kept_afterAll (reader : Reader) (turns : List Turn) :
    (reader.afterAll turns).kept = reader.kept := by
  induction turns generalizing reader with
  | nil => rfl
  | cons turn rest ih =>
      change ((reader.after turn).afterAll rest).kept = _
      rw [ih]
      cases turn <;> rfl

/-- Reading on accounts for the next events of the log, and no further than its end. -/
theorem due_covers (within : reader.passed ≤ reader.log.length) :
    reader.passed + reader.due.span ≤ reader.log.length ∧
      ∀ {rest : List Delivery} {passed : List ChangeEvent}, Delivery.Covers rest passed →
        Delivery.Covers (reader.due :: rest)
          ((reader.log.drop reader.passed).take reader.due.span ++ passed) := by
  unfold due
  split
  · next behind =>
      refine ⟨by simp only [Delivery.span]; omega, fun covers => ?_⟩
      have count : ((reader.log.drop reader.passed).take
          (reader.log.length - reader.kept - reader.passed)).length =
            reader.log.length - reader.kept - reader.passed := by
        simp only [List.length_take, List.length_drop]
        omega
      have lagged := Delivery.Covers.lagged ((reader.log.drop reader.passed).take
        (reader.log.length - reader.kept - reader.passed)) covers
      rwa [count] at lagged
  · split
    · exact ⟨within, fun covers => covers.empty⟩
    · next event found =>
        obtain ⟨present, rfl⟩ := List.getElem?_eq_some_iff.mp found
        refine ⟨present, fun covers => ?_⟩
        rw [List.drop_eq_getElem_cons present]
        exact covers.event _

/-- A reader is given the part of the log that it passes, apart from what it is told to have
missed. -/
theorem covers_read (reader : Reader) (turns : List Turn)
    (within : reader.passed ≤ reader.log.length) :
    ∃ passed, Delivery.Covers (reader.read turns) passed ∧
      (reader.afterAll turns).log.take (reader.afterAll turns).passed =
        reader.log.take reader.passed ++ passed ∧
      (reader.afterAll turns).passed ≤ (reader.afterAll turns).log.length := by
  induction turns generalizing reader with
  | nil => exact ⟨[], .nil, (List.append_nil _).symm, within⟩
  | cons turn rest ih =>
      cases turn with
      | publish events =>
          have longer : (reader.after (.publish events)).passed ≤
              (reader.after (.publish events)).log.length := by
            simp only [after, List.length_append]
            omega
          obtain ⟨passed, covers, part, inside⟩ := ih _ longer
          refine ⟨passed, covers, part.trans ?_, inside⟩
          simp only [after, List.take_append_of_le_length within]
      | receive =>
          obtain ⟨further, step⟩ := due_covers within
          obtain ⟨passed, covers, part, inside⟩ := ih (reader.after .receive) further
          refine ⟨_, step covers, part.trans ?_, inside⟩
          simp only [after, List.take_add, List.append_assoc]

/-- A reader with nothing left to read is past the whole log. -/
theorem passed_of_empty (within : reader.passed ≤ reader.log.length) (empty : reader.due = .empty) :
    reader.passed = reader.log.length := by
  unfold due at empty
  split at empty
  · exact absurd empty nofun
  · split at empty
    · next missing => exact Nat.le_antisymm within (List.getElem?_eq_none_iff.mp missing)
    · exact absurd empty nofun

/-- A reader that has been told what it missed is given the oldest event that is kept. -/
theorem due_after_lagged {missed : Nat} (positive : 0 < reader.kept)
    (lagged : reader.due = .lagged missed) :
    reader.kept < reader.log.length ∧
      ∃ event, reader.log[reader.log.length - reader.kept]? = some event ∧
        (reader.after .receive).due = .event event := by
  have span : reader.due.span = missed := by rw [lagged]; rfl
  unfold due at lagged
  split at lagged
  · next behind =>
      obtain rfl : reader.log.length - reader.kept - reader.passed = missed :=
        Delivery.lagged.inj lagged
      have position : (reader.after .receive).passed = reader.log.length - reader.kept := by
        change reader.passed + reader.due.span = _
        omega
      have inside : reader.log.length - reader.kept < reader.log.length := by omega
      refine ⟨by omega, _, List.getElem?_eq_getElem inside, ?_⟩
      have log : (reader.after .receive).log = reader.log := rfl
      have kept : (reader.after .receive).kept = reader.kept := rfl
      unfold due
      rw [position, log, kept, if_neg (by omega), List.getElem?_eq_getElem inside]
  · split at lagged <;> exact absurd lagged nofun

end Reader

end TableGate
