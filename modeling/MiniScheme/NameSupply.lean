/-! # Fresh names

A name supply hands out names of the form `base__N`. Its counter only grows, and a name that is reserved
is skipped, so it never hands out a reserved name, and what it hands out becomes reserved. The counter is a
number without a bound here; `NameSupply.inWord` tells what is left where it is a machine word. -/

namespace MiniScheme

/-- A source of fresh names. -/
structure NameSupply where
  /-- The number to try next. -/
  next : Nat
  /-- The names that must not be handed out. -/
  reserved : List String
  deriving DecidableEq, Repr

/-- The name with the given base and number. -/
def numberedName (base : String) (number : Nat) : String :=
  base ++ "__" ++ toString number

namespace NameSupply

/-- The supply with no reserved name that numbers from the given number. -/
def startingAt (start : Nat) : NameSupply :=
  { next := start, reserved := [] }

/-- The supply with no reserved name that numbers from 1. -/
def initial : NameSupply :=
  startingAt 1

/-- Reserves names. -/
def reserve (supply : NameSupply) (names : List String) : NameSupply :=
  { supply with reserved := names ++ supply.reserved }

/-- The first number from the given one on whose name is not reserved, looking past at most the given
count of reserved names. -/
def firstUnreserved (base : String) (reserved : List String) : Nat → Nat → Nat
  | 0, number => number
  | count + 1, number =>
      if numberedName base number ∈ reserved then
        firstUnreserved base reserved count (number + 1)
      else number

/-- Hands out a fresh name. Among one more candidates than there are reserved names, some candidate is
not reserved, so the search needs to look past no more than all reserved names. -/
def fresh (base : String) : StateM NameSupply String := fun supply =>
  let number := firstUnreserved base supply.reserved supply.reserved.length supply.next
  let name := numberedName base number
  (name, { next := number + 1, reserved := name :: supply.reserved })

/-- What an action gives where the counter is a word of 64 bits: nothing if the counter runs over. As it is
never set back, it has run over on the way if and only if the last number is no such word. -/
def inWord {α : Type} (action : StateM NameSupply α) (supply : NameSupply) : Option (α × NameSupply) :=
  let outcome := action.run supply
  if outcome.2.next < UInt64.size then some outcome else none

/-- An action gives something exactly if the last number is a word, and then what it gives without a bound. -/
theorem inWord_eq_some_iff {α : Type} {action : StateM NameSupply α} {supply : NameSupply}
    {outcome : α × NameSupply} :
    inWord action supply = some outcome ↔ action.run supply = outcome ∧ outcome.2.next < UInt64.size := by
  rw [inWord]
  split
  · rename_i fits
    constructor
    · rintro ⟨⟩
      exact ⟨rfl, fits⟩
    · rintro ⟨rfl, -⟩
      rfl
  · rename_i exceeds
    refine iff_of_false nofun ?_
    rintro ⟨rfl, fits⟩
    exact exceeds fits

end NameSupply

end MiniScheme
