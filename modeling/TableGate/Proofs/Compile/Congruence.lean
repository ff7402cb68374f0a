import TableGate.Proofs.Compile.Outcome

/-!
# Congruence of compilations

Two compilations that agree step by step, each step seen through a view of its result, agree in the
end: they fail alike, or their results have one view (`bind_congr_of_map`).  Lists are accepted
alike if their items have the same shapes (`acceptAll_congr_of_map`), whatever is left out of them
(`acceptAll_congr_of_filterMap`).
-/

namespace TableGate

/-! ### Steps -/

section

variable {ε α β γ δ σ : Type} {view : α → γ} {result : β → δ}

/-- Steps that give the same view go on to the same view of the result. -/
theorem bind_congr_of_map {first second : Except ε α} {next other : α → Except ε β}
    (heads : first.map view = second.map view)
    (tails : ∀ left right, view left = view right →
      (next left).map result = (other right).map result) :
    (first >>= next).map result = (second >>= other).map result := by
  cases first with
  | error error =>
      cases second with
      | error cause =>
          cases heads
          rfl
      | ok right => exact absurd heads nofun
  | ok left =>
      cases second with
      | error cause => exact absurd heads nofun
      | ok right => exact tails left right (Except.ok.inj heads)

/-- Steps that give the same view give the same view of what is made of their results. -/
theorem map_congr_of_map {first second : Except ε α} {make : α → β}
    (heads : first.map view = second.map view)
    (tails : ∀ left right, view left = view right → result (make left) = result (make right)) :
    (first.map make).map result = (second.map make).map result := by
  have made (step : Except ε α) : step.map make = step >>= fun value => .ok (make value) := by
    cases step <;> rfl
  rw [made, made]
  exact bind_congr_of_map heads fun left right same => congrArg Except.ok (tails left right same)

/-- Steps that are refused alike before they give the same view are alike. -/
theorem guard_congr_of_map {refused barred : Prop} [Decidable refused] [Decidable barred]
    {error : ε} {first second : Except ε α} {result : α → δ} (checks : refused ↔ barred)
    (nexts : first.map result = second.map result) :
    Except.map result (do if refused then throw error
                          first) =
      Except.map result (do if barred then throw error
                            second) := by
  by_cases check : refused
  · simp only [check, checks.mp check, ↓reduceIte]
    rfl
  · have passed : ¬ barred := fun barred => check (checks.mpr barred)
    simpa only [check, passed, ↓reduceIte] using nexts

/-- Lists of items of the same shapes give the same views if items of one shape do. -/
theorem mapM_congr_of_map {shape : σ → γ} {step other : σ → Except ε β} {left right : List σ}
    (shapes : left.map shape = right.map shape)
    (steps : ∀ first second, shape first = shape second →
      (step first).map result = (other second).map result) :
    (left.mapM step).map (List.map result) = (right.mapM other).map (List.map result) := by
  induction left generalizing right with
  | nil =>
      cases right with
      | nil => rfl
      | cons item rest => exact absurd shapes nofun
  | cons item rest ih =>
      cases right with
      | nil => exact absurd shapes nofun
      | cons second others =>
          obtain ⟨first, later⟩ := List.cons.inj shapes
          rw [List.mapM_cons, List.mapM_cons]
          refine bind_congr_of_map (steps item second first) fun kept found same => ?_
          refine bind_congr_of_map (ih later) fun more several alike => ?_
          change Except.ok ((kept :: more).map result) = Except.ok ((found :: several).map result)
          rw [List.map_cons, List.map_cons, same, alike]

end

/-! ### Lists -/

namespace Compile

section

variable {α β γ : Type} {values : β → List Datum} {accept other : α → Outcome (Option β)}
  {items : List α}

theorem Outcome.toExcept_map {change : α → β} (outcome : Outcome α) :
    Outcome.toExcept (outcome.map change) = outcome.toExcept.map change := by
  cases outcome <;> rfl

theorem Outcome.toExcept_ofCheck (check : Except Error α) : (ofCheck check).toExcept = check := by
  cases check <;> rfl

/-- Apart from the values that are bound on the way, a list is accepted item by item. -/
theorem toExcept_acceptAll :
    (acceptAll values accept items).toExcept =
      (items.mapM fun item => (accept item).toExcept).map (List.filterMap id) := by
  induction items with
  | nil => rfl
  | cons item rest ih =>
      rw [List.mapM_cons, acceptAll]
      cases accept item with
      | error refusal => rfl
      | ok found =>
          cases found with
          | none =>
              change Outcome.toExcept (acceptAll values accept rest) = _
              rw [ih]
              cases rest.mapM fun item => (accept item).toExcept <;> rfl
          | some accepted =>
              have inner : Outcome.toExcept ((Outcome.after (values accepted)
                  (acceptAll values accept rest)).map (accepted :: ·)) =
                    (acceptAll values accept rest).toExcept.map (accepted :: ·) := by
                cases acceptAll values accept rest <;> rfl
              change Outcome.toExcept (Except.map (accepted :: ·) (Outcome.after _ _)) = _
              rw [inner, ih]
              cases rest.mapM fun item => (accept item).toExcept <;> rfl

/-- A list is accepted by checks where each item passes its own. -/
theorem toExcept_acceptAll_of_check (values : β → List Datum) (check : α → Except Error β)
    (items : List α) :
    (acceptAll values (fun item => (Outcome.ofCheck (check item)).map some) items).toExcept =
      items.mapM check := by
  induction items with
  | nil => rfl
  | cons item rest ih =>
      rw [List.mapM_cons, ← ih, acceptAll]
      cases check item with
      | error error => rfl
      | ok found =>
          change Outcome.toExcept (Except.map (found :: ·) (Outcome.after (values found) _)) = _
          cases acceptAll values _ rest <;> rfl

/-- Lists of items of the same shapes are accepted alike if items of one shape are. -/
theorem acceptAll_congr_of_map (values : β → List Datum) {σ : Type} {shape : α → σ}
    {view : β → γ} {left right : List α}
    (shapes : left.map shape = right.map shape)
    (steps : ∀ first second, shape first = shape second →
      (accept first).toExcept.map (Option.map view) =
        (other second).toExcept.map (Option.map view)) :
    (acceptAll values accept left).toExcept.map (List.map view) =
      (acceptAll values other right).toExcept.map (List.map view) := by
  rw [toExcept_acceptAll, toExcept_acceptAll]
  have stepwise := mapM_congr_of_map shapes steps
  have reduced (found : Except Error (List (Option β))) :
      (found.map (List.filterMap id)).map (List.map view) =
        (found.map (List.map (Option.map view))).map (List.filterMap id) := by
    cases found with
    | error error => rfl
    | ok kept =>
        change Except.ok ((kept.filterMap id).map view) =
          Except.ok ((kept.map (Option.map view)).filterMap id)
        rw [List.map_filterMap, List.filterMap_map]
        rfl
  rw [reduced, reduced, stepwise]

/-- Items that are left out make no difference. -/
theorem acceptAll_filter {kept : α → Bool}
    (skipped : ∀ item, kept item = false → accept item = .ok none) :
    acceptAll values accept (items.filter kept) = acceptAll values accept items := by
  induction items with
  | nil => rfl
  | cons item rest ih =>
      cases decision : kept item with
      | false =>
          rw [List.filter_cons_of_neg (by simp [decision]), ih]
          simp only [acceptAll, skipped item decision]
      | true =>
          rw [List.filter_cons_of_pos decision]
          simp only [acceptAll, ih]

/-- Lists whose items with a shape have the same shapes are accepted alike if items without one are
left out. -/
theorem acceptAll_congr_of_filterMap (values : β → List Datum) {σ : Type}
    {shape? : α → Option σ} {view : β → γ} {left right : List α}
    (shapes : left.filterMap shape? = right.filterMap shape?)
    (skipped : ∀ item, shape? item = none → accept item = .ok none)
    (steps : ∀ first second, shape? first = shape? second →
      (accept first).toExcept.map (Option.map view) =
        (accept second).toExcept.map (Option.map view)) :
    (acceptAll values accept left).toExcept.map (List.map view) =
      (acceptAll values accept right).toExcept.map (List.map view) := by
  have skips (item : α) (shapeless : (shape? item).isSome = false) : accept item = .ok none :=
    skipped item (Option.isNone_iff_eq_none.mp (Option.isSome_eq_false_iff.mp shapeless))
  have kept (items : List α) :
      (items.filter fun item => (shape? item).isSome).map shape? =
        (items.filterMap shape?).map some := by
    induction items with
    | nil => rfl
    | cons item rest ih =>
        cases shape : shape? item with
        | none => simpa [shape] using ih
        | some found => simpa [shape] using ih
  have same : (left.filter fun item => (shape? item).isSome).map shape? =
      (right.filter fun item => (shape? item).isSome).map shape? := by
    rw [kept, kept, shapes]
  have filtered := acceptAll_congr_of_map values same steps
  rw [acceptAll_filter skips, acceptAll_filter skips] at filtered
  exact filtered

end

end Compile

end TableGate
