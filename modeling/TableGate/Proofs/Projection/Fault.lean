import TableGate.Proofs.Compile.Outcome

/-!
# Faults of projections

A projection that cannot be read is refused for its shape or for a name that is no identifier, and
for nothing else (`Projection.failsAs_parse`).
-/

namespace TableGate

/-- A fault of a projection. -/
def Error.IsOfProjection (error : Error) : Prop :=
  (∃ reason, error = .invalidProjection reason) ∨ ∃ name, error = .invalidIdentifier name

/-- Every fault of a projection is answered as a bad request. -/
theorem Error.IsOfProjection.status {error : Error} (fault : error.IsOfProjection) :
    error.status = 400 := by
  rcases fault with ⟨reason, rfl⟩ | ⟨name, rfl⟩ <;> rfl

/-- What is wrong with the shape of a projection is a fault of it. -/
theorem ProjectionFault.isOfProjection (fault : ProjectionFault) : fault.error.IsOfProjection :=
  .inl ⟨fault.reason, rfl⟩

/-- Whatever goes wrong, the error is of one kind. -/
def FailsAs {α : Type} (kind : Error → Prop) (outcome : Except Error α) : Prop :=
  ∀ error, outcome = .error error → kind error

namespace FailsAs

variable {α β : Type} {kind : Error → Prop}

/-- What succeeds has no error at all. -/
theorem ok (value : α) : FailsAs kind (.ok value) := nofun

/-- A failure is of the kind of its error. -/
theorem error {error : Error} (fits : kind error) :
    FailsAs kind (.error error : Except Error α) := by
  rintro other same
  cases same
  exact fits

/-- Steps in a row fail as each of them does. -/
theorem bind {first : Except Error α} {next : α → Except Error β} (one : FailsAs kind first)
    (other : ∀ value, FailsAs kind (next value)) : FailsAs kind (first >>= next) := by
  intro error failed
  rcases bind_eq_error.mp failed with early | ⟨value, -, late⟩
  · exact one error early
  · exact other value error late

/-- A step over a list fails as it does on an item. -/
theorem mapM {step : α → Except Error β} (each : ∀ item, FailsAs kind (step item))
    (items : List α) : FailsAs kind (items.mapM step) := by
  induction items with
  | nil => exact ok []
  | cons item rest ih =>
      rw [List.mapM_cons]
      exact (each item).bind fun _ => ih.bind fun _ => ok _

/-- A fold fails as its step does, whatever it has gathered so far. -/
theorem foldlM {step : β → α → Except Error β}
    (each : ∀ value item, FailsAs kind (step value item)) (items : List α) (start : β) :
    FailsAs kind (items.foldlM step start) := by
  induction items generalizing start with
  | nil => exact ok start
  | cons item rest ih =>
      rw [List.foldlM_cons]
      exact (each start item).bind fun _ => ih _

end FailsAs

/-- A text that is no identifier is refused for its name. -/
theorem Ident.failsAs_read (text : String) : FailsAs Error.IsOfProjection (Ident.read text) := by
  unfold Ident.read
  split
  · exact .ok _
  · exact .error (.inr ⟨text, rfl⟩)

namespace Relation

/-- The head of a relation is refused for one of its names only. -/
theorem failsAs_parseHead (head : List Char) : FailsAs Error.IsOfProjection (parseHead head) := by
  unfold parseHead
  split
  · exact (Ident.failsAs_read _).bind fun _ => (Ident.failsAs_read _).bind fun _ => .ok _
  · exact (Ident.failsAs_read _).bind fun _ => .ok _

/-- The fields of a relation are refused for one of their names only. -/
theorem failsAs_parseFields (names : List (List Char)) :
    FailsAs Error.IsOfProjection (parseFields names) := by
  unfold parseFields
  split
  · exact .ok _
  · intro error failed
    exact FailsAs.mapM (fun _ => Ident.failsAs_read _) names error (map_eq_error.mp failed)

/-- A relation is refused for its shape or for one of its names. -/
theorem failsAs_parse (token head rest : List Char) :
    FailsAs Error.IsOfProjection (Relation.parse token head rest) := by
  unfold Relation.parse
  split
  · refine (failsAs_parseHead head).bind fun named => ?_
    dsimp only
    split
    · exact .error (ProjectionFault.isOfProjection _)
    · exact (failsAs_parseFields _).bind fun _ => .ok _
  · exact .error (ProjectionFault.isOfProjection _)

end Relation

namespace Projection

/-- A term is refused for its shape, for a name, or for an alias that was used before. -/
theorem failsAs_addToken (projection : Projection) (token : List Char) :
    FailsAs Error.IsOfProjection (projection.addToken token) := by
  unfold addToken
  split
  · exact .ok _
  · split
    · refine (Relation.failsAs_parse _ _ _).bind fun relation => ?_
      dsimp only
      split
      · exact .error (ProjectionFault.isOfProjection _)
      · exact .ok _
    · exact (Ident.failsAs_read _).bind fun _ => .ok _

/-- A text whose parentheses are not balanced is refused for its shape. -/
theorem failsAs_ofChars (text : List Char) : FailsAs Error.IsOfProjection (ofChars text) := by
  unfold ofChars
  split
  · exact .foldlM failsAs_addToken _ _
  · exact .error (ProjectionFault.isOfProjection _)

/-- A projection that cannot be read has one of the faults of projections. -/
theorem failsAs_parse (select : Option String) :
    FailsAs Error.IsOfProjection (Projection.parse select) := failsAs_ofChars _

end Projection

end TableGate
