import TableGate.Json.Value

/-!
# Records

A record is the body of a write for one row: its fields in increasing order of their names, each
name once.  Every object of a JSON body is one, which `sortMembers_sorted` shows.
-/

namespace TableGate

namespace Json

theorem charsBefore_trans {left middle right : List Char} (first : charsBefore left middle = true)
    (second : charsBefore middle right = true) : charsBefore left right = true := by
  induction left generalizing middle right with
  | nil =>
      cases right with
      | nil => cases middle <;> simp [charsBefore] at second
      | cons d rights => rfl
  | cons c lefts ih =>
      cases middle with
      | nil => simp [charsBefore] at first
      | cons e middles =>
          cases right with
          | nil => simp [charsBefore] at second
          | cons d rights =>
              simp only [charsBefore, Bool.or_eq_true, Bool.and_eq_true, decide_eq_true_eq,
                beq_iff_eq] at first second ⊢
              rcases first with less | ⟨rfl, inner⟩
              · rcases second with more | ⟨rfl, -⟩
                · exact .inl (Nat.lt_trans less more)
                · exact .inl less
              · rcases second with more | ⟨rfl, others⟩
                · exact .inl more
                · exact .inr ⟨rfl, ih inner others⟩

/-- Of two different names, one comes before the other. -/
theorem charsBefore_of_ne {left right : List Char} (different : left ≠ right)
    (notBefore : charsBefore left right = false) : charsBefore right left = true := by
  induction left generalizing right with
  | nil =>
      cases right with
      | nil => exact absurd rfl different
      | cons d rights => simp [charsBefore] at notBefore
  | cons c lefts ih =>
      cases right with
      | nil => rfl
      | cons d rights =>
          simp only [charsBefore, Bool.or_eq_false_iff, Bool.and_eq_false_iff,
            decide_eq_false_iff_not, Nat.not_lt, beq_eq_false_iff_ne] at notBefore
          simp only [charsBefore, Bool.or_eq_true, Bool.and_eq_true, decide_eq_true_eq, beq_iff_eq]
          by_cases same : c = d
          · subst same
            have inner := notBefore.2.resolve_left fun apart => apart rfl
            exact .inr ⟨rfl, ih (fun equal => different (by rw [equal])) inner⟩
          · have apart : d.toNat ≠ c.toNat := fun equal => same (Char.toNat_inj.mp equal.symm)
            exact .inl (by omega)

theorem isBefore_trans {left middle right : String} (first : isBefore left middle = true)
    (second : isBefore middle right = true) : isBefore left right = true :=
  charsBefore_trans first second

theorem isBefore_of_ne {left right : String} (different : left ≠ right)
    (notBefore : ¬ isBefore left right = true) : isBefore right left = true :=
  charsBefore_of_ne (fun same => different (String.toList_injective same))
    ((Bool.not_eq_true _).mp notBefore)

/-- Putting a member in its place adds nothing else. -/
theorem mem_of_mem_insertMember {α : Type} {member other : String × α}
    {members : List (String × α)} (among : other ∈ insertMember member members) :
    other = member ∨ other ∈ members := by
  induction members with
  | nil => simpa [insertMember] using among
  | cons present rest ih =>
      rw [insertMember] at among
      split at among
      · simpa using among
      · split at among
        · exact .inr among
        · rcases List.mem_cons.mp among with rfl | among
          · simp
          · exact (ih among).imp_right (List.mem_cons_of_mem _)

/-- The names of sorted members stay sorted when a member is put in its place. -/
theorem insertMember_sorted {α : Type} (member : String × α) {members : List (String × α)}
    (sorted : members.Pairwise fun left right => isBefore left.1 right.1) :
    (insertMember member members).Pairwise fun left right => isBefore left.1 right.1 := by
  induction members with
  | nil => simp [insertMember]
  | cons present rest ih =>
      obtain ⟨least, inner⟩ := List.pairwise_cons.mp sorted
      rw [insertMember]
      split
      · next smaller =>
          refine List.pairwise_cons.mpr ⟨?_, sorted⟩
          intro other among
          rcases List.mem_cons.mp among with rfl | among
          · exact smaller
          · exact isBefore_trans smaller (least other among)
      · split
        · exact sorted
        · next notSmaller different =>
            refine List.pairwise_cons.mpr ⟨?_, ih inner⟩
            intro other among
            rcases mem_of_mem_insertMember among with rfl | among
            · exact isBefore_of_ne different notSmaller
            · exact least other among

/-- Sorted members are in increasing order of their names. -/
theorem sortMembers_sorted {α : Type} (members : List (String × α)) :
    (sortMembers members).Pairwise fun left right => isBefore left.1 right.1 := by
  induction members with
  | nil => simp [sortMembers]
  | cons member rest ih => exact insertMember_sorted member ih

end Json

structure Record where
  fields : List (String × Json)
  sorted : fields.Pairwise fun left right => Json.isBefore left.1 right.1

namespace Record

/-- The record with the given fields; of repeated names the last one counts. -/
def ofFields (fields : List (String × Json)) : Record :=
  ⟨Json.sortMembers fields, Json.sortMembers_sorted fields⟩

end Record

end TableGate
