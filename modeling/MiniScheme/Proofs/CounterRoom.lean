import MiniScheme.Proofs.FreshDeclarations

/-! # Room for fresh names

Where the counter of a supply is a machine word, it may run over before all names are drawn. It passes each
reserved name once at most and goes on by one for each name that is drawn. So there is room for the names if
that many numbers are left behind the next one, and then renaming has a result. -/

namespace MiniScheme

namespace NameSupply

variable {before after : NameSupply} {count : Nat}

/-- Whether the counter of a supply stays a word of 64 bits while so many names are drawn, even if it passes
every reserved name. -/
def HasRoom (supply : NameSupply) (count : Nat) : Prop :=
  supply.next + supply.reserved.toFinset.card + count < UInt64.size

instance (supply : NameSupply) (count : Nat) : Decidable (supply.HasRoom count) :=
  inferInstanceAs (Decidable (_ < _))

/-- If there is room for so many names, a counter that comes no further than by drawing them stays a word. -/
theorem HasRoom.next_lt (room : before.HasRoom count) (reaches : after.reach ≤ before.reach + count) :
    after.next < UInt64.size :=
  calc
    after.next ≤ after.reach := Nat.le_add_right _ _
    _ ≤ before.reach + count := reaches
    _ ≤ before.next + before.reserved.toFinset.card + count :=
      Nat.add_le_add_right before.reach_le_card count
    _ < UInt64.size := room

/-- With more reserved names, the counter comes further. -/
theorem reach_mono (next : before.next = after.next) (reserved : before.reserved ⊆ after.reserved) :
    before.reach ≤ after.reach := by
  rw [reach, reach, next]
  refine Nat.add_le_add_left (Finset.card_le_card fun name isAhead => ?_) _
  obtain ⟨isReserved, notPassed⟩ := mem_ahead.1 isAhead
  exact mem_ahead.2 ⟨reserved isReserved, next ▸ notPassed⟩

/-- With so many more reserved names, the counter comes further by as much at most. -/
theorem reach_reserve_le (supply : NameSupply) (names : List String) :
    (supply.reserve names).reach ≤ supply.reach + names.length := by
  have within : (supply.reserve names).ahead ⊆ supply.ahead ∪ names.toFinset := by
    intro name isAhead
    obtain ⟨isReserved, notPassed⟩ := mem_ahead.1 isAhead
    rw [Finset.mem_union, List.mem_toFinset, or_comm]
    exact (List.mem_append.1 isReserved).imp_right fun before => mem_ahead.2 ⟨before, notPassed⟩
  have fewer : (supply.reserve names).ahead.card ≤ supply.ahead.card + names.length :=
    calc
      (supply.reserve names).ahead.card ≤ (supply.ahead ∪ names.toFinset).card := Finset.card_le_card within
      _ ≤ supply.ahead.card + names.toFinset.card := Finset.card_union_le _ _
      _ ≤ supply.ahead.card + names.length := Nat.add_le_add_left (List.toFinset_card_le names) _
  rw [reach, reach, Nat.add_assoc]
  exact Nat.add_le_add_left fewer supply.next

/-- An action has a result if it leaves a counter that is a word. -/
theorem exists_inWord {α : Type} {action : StateM NameSupply α} {supply : NameSupply}
    (fits : (action.run supply).2.next < UInt64.size) :
    ∃ result after, inWord action supply = some (result, after) :=
  ⟨_, _, inWord_eq_some_iff.2 ⟨rfl, fits⟩⟩

/-- The result of an action is the one without a bound. -/
theorem result_eq_of_inWord {α : Type} {action : StateM NameSupply α} {supply : NameSupply} {result : α}
    (found : inWord action supply = some (result, after)) : (action.run supply).1 = result :=
  congrArg Prod.fst (inWord_eq_some_iff.1 found).1

end NameSupply

/-- Renaming apart mentions only names that are reserved then. -/
theorem Expr.allNamesAll_renameApart_subset (exprs : List Expr) (supply : NameSupply) :
    allNamesAll ((renameApart exprs).run supply).1 ⊆ ((renameApart exprs).run supply).2.reserved := by
  rw [allNamesAll_eq_flatMap]
  exact flatMap_subset_iff.2 (renamedApart_renameApart id exprs supply).mentioned

/-- The number of declarations in a program. -/
def Program.declarations (program : Program) : Nat :=
  (Expr.boundNamesAll program.forms).length

/-- Renaming a program has a result if there is room for a name for each declaration in it, with the names of
the program reserved. -/
theorem Program.exists_inWord_renameWith {program : Program} {supply : NameSupply}
    (room : (supply.reserve (Expr.allNamesAll program.forms)).HasRoom program.declarations) :
    ∃ renamed after, NameSupply.inWord program.renameWith supply = some (renamed, after) :=
  NameSupply.exists_inWord
    (room.next_lt (Expr.declaresFresh_renameApart program.forms supply).draws.reach_le)

end MiniScheme
