import Mathlib.Order.Bounds.Defs
import MiniScheme.Proofs.FreshNames

/-! # The search for a fresh name

`NameSupply.fresh` looks past no more candidates than there are reserved names. The search that it stands
for has no such bound: `Search` tries one candidate after the other until one is not reserved, and counts in
a machine word. It ends at the least number that is free, since the candidates are distinct and only finitely
many names are reserved, and so it hands out what `NameSupply.fresh` does. The same is true of one search after
the other, as long as the count does not come to its limit. -/

namespace MiniScheme

namespace NameSupply

/-- A search of a supply for a fresh name: how many candidates it tries, which name it hands out and which
supply it leaves. After each candidate it counts on, and a count that reaches the limit starts again at 0. -/
inductive Search (limit : Nat) (base : String) : NameSupply → Nat → String → NameSupply → Prop where
  /-- A candidate that is not reserved is handed out and becomes reserved. -/
  | found {supply : NameSupply} (free : numberedName base supply.next ∉ supply.reserved) :
      Search limit base supply 1 (numberedName base supply.next)
        { next := (supply.next + 1) % limit
          reserved := numberedName base supply.next :: supply.reserved }
  /-- After a reserved candidate the search goes on with the next number. -/
  | passed {supply after : NameSupply} {attempts : Nat} {name : String}
      (taken : numberedName base supply.next ∈ supply.reserved)
      (further : Search limit base { supply with next := (supply.next + 1) % limit } attempts name after) :
      Search limit base supply (attempts + 1) name after

namespace Search

variable {limit attempts others : Nat} {base name other : String} {supply after last : NameSupply}

/-- A search can end in one way only. -/
theorem unique (search : Search limit base supply attempts name after)
    (again : Search limit base supply others other last) :
    others = attempts ∧ (other, last) = (name, after) := by
  induction search generalizing others with
  | found free =>
      cases again with
      | found _ => exact ⟨rfl, rfl⟩
      | passed taken _ => exact absurd taken free
  | passed taken _ ih =>
      cases again with
      | found free => exact absurd taken free
      | passed _ further =>
          obtain ⟨same, result⟩ := ih further
          exact ⟨congrArg Nat.succ same, result⟩

/-- A search passes reserved candidates and ends at the first that is not reserved, as long as the count stays
below the limit. -/
theorem of_reserved {count : Nat}
    (taken : ∀ candidate, supply.next ≤ candidate → candidate < supply.next + count →
      numberedName base candidate ∈ supply.reserved)
    (free : numberedName base (supply.next + count) ∉ supply.reserved)
    (room : supply.next + count + 1 < limit) :
    Search limit base supply (count + 1) (numberedName base (supply.next + count))
      { next := supply.next + count + 1
        reserved := numberedName base (supply.next + count) :: supply.reserved } := by
  -- By induction on the number of reserved candidates in front.
  induction count generalizing supply with
  | zero =>
      have ended : Search limit base supply 1 _ _ := .found free
      rw [Nat.mod_eq_of_lt room] at ended
      exact ended
  | succ count ih =>
      have counted : (supply.next + 1) % limit = supply.next + 1 := Nat.mod_eq_of_lt (by omega)
      have shifted : supply.next + (count + 1) = supply.next + 1 + count := by omega
      rw [shifted] at taken free room ⊢
      have first : numberedName base supply.next ∈ supply.reserved :=
        taken _ (Nat.le_refl _) (by omega)
      refine .passed first ?_
      rw [counted]
      exact @ih { supply with next := supply.next + 1 }
        (fun candidate atLeast => taken candidate (Nat.le_of_succ_le atLeast)) free room

end Search

/-- The search for a fresh name ends, in one way only. It tries at most one candidate more than there are
reserved names, hands out the name with the least number from the counter on that is not reserved, and leaves
the counter behind this number. The name becomes reserved and nothing else does. The counter is far enough
below the limit if that many candidates do not reach it. -/
theorem fresh_takes_least_number (limit : Nat) (base : String) (supply : NameSupply)
    (room : supply.next + supply.reserved.toFinset.card + 1 < limit) :
    ∃ attempts number, attempts ≤ supply.reserved.toFinset.card + 1 ∧
      supply.next + attempts = number + 1 ∧
      IsLeast {candidate | supply.next ≤ candidate ∧ numberedName base candidate ∉ supply.reserved} number ∧
      (fresh base).run supply = (numberedName base number,
        { next := number + 1, reserved := numberedName base number :: supply.reserved }) ∧
      ∀ tried name after, Search limit base supply tried name after ↔
        tried = attempts ∧ (name, after) = (fresh base).run supply := by
  obtain ⟨count, run, taken, free⟩ := fresh_spec base supply
  have least : IsLeast {candidate | supply.next ≤ candidate ∧ numberedName base candidate ∉ supply.reserved}
      (supply.next + count) := by
    refine ⟨⟨Nat.le_add_right _ _, free⟩, ?_⟩
    rintro candidate ⟨atLeast, notTaken⟩
    exact Nat.le_of_not_lt fun below => notTaken (taken candidate atLeast below)
  have few : count ≤ supply.reserved.toFinset.card := count_le_card_reserved taken
  have search : Search limit base supply (count + 1) _ _ := .of_reserved taken free (by omega)
  refine ⟨count + 1, supply.next + count, Nat.succ_le_succ few, rfl, least, run, fun tried name after => ?_⟩
  rw [run]
  constructor
  · exact search.unique
  · rintro ⟨rfl, result⟩
    obtain ⟨rfl, rfl⟩ := Prod.mk.inj result
    exact search

/-- Names that end in digits themselves or are listed twice do not mislead the search, and a reserved name
behind the one that it finds does not count. -/
theorem fresh_takes_least_number_numbered :
    let supply : NameSupply :=
      { next := 9, reserved := ["x__1__9", "x__1__10", "x__1__9", "x__11", "x__1__12"] }
    supply.next + supply.reserved.toFinset.card + 1 < UInt64.size ∧
      ∀ tried name after, Search UInt64.size "x__1" supply tried name after ↔
        tried = 3 ∧ (name, after) = ("x__1__11", { next := 12, reserved := "x__1__11" :: supply.reserved }) := by
  intro supply
  have room : supply.next + supply.reserved.toFinset.card + 1 < UInt64.size := by decide
  have result : (fresh "x__1").run supply =
      ("x__1__11", { next := 12, reserved := "x__1__11" :: supply.reserved }) :=
    Prod.ext (by decide) (by decide)
  obtain ⟨attempts, number, -, counted, -, run, search⟩ := fresh_takes_least_number UInt64.size "x__1" supply room
  have last : number + 1 = 12 := congrArg (fun outcome => outcome.2.next) (run.symm.trans result)
  obtain rfl : attempts = 3 := by
    rw [last] at counted
    exact Nat.add_left_cancel counted
  rw [result] at search
  exact ⟨room, search⟩

/-! ## Searches one after the other -/

/-- Searches for a fresh name for each of some names, in their order: which names they hand out and which supply
they leave. -/
inductive Searches (limit : Nat) : NameSupply → List String → List String → NameSupply → Prop where
  /-- There is nothing to search for. -/
  | nil (supply : NameSupply) : Searches limit supply [] [] supply
  /-- The search for the first name comes before the others. -/
  | cons {supply between after : NameSupply} {base name : String} {bases names : List String} {attempts : Nat}
      (search : Search limit base supply attempts name between)
      (further : Searches limit between bases names after) :
      Searches limit supply (base :: bases) (name :: names) after

section Searches

variable {limit : Nat} {supply after last : NameSupply} {bases names others : List String}

/-- Searches can end in one way only. -/
theorem Searches.unique (searches : Searches limit supply bases names after)
    (again : Searches limit supply bases others last) : (others, last) = (names, after) := by
  induction searches generalizing others with
  | nil => cases again with | nil => rfl
  | cons search _ ih =>
      cases again with
      | cons searchAgain further =>
          obtain ⟨rfl, rfl⟩ := Prod.mk.inj (search.unique searchAgain).2
          obtain ⟨rfl, rfl⟩ := Prod.mk.inj (ih further)
          rfl

/-- A search hands out the fresh name if the counter stays below the limit. -/
theorem exists_search_fresh {base : String} (fits : ((fresh base).run supply).2.next < limit) :
    ∃ attempts, Search limit base supply attempts ((fresh base).run supply).1 ((fresh base).run supply).2 := by
  obtain ⟨count, run, taken, free⟩ := fresh_spec base supply
  rw [run] at fits ⊢
  exact ⟨count + 1, .of_reserved taken free fits⟩

/-- Searches hand out the fresh names if the counter stays below the limit, as it does on the way if it is below
the limit in the end. -/
theorem searches_of_mapM_fresh (drawn : (bases.mapM fresh).run supply = (names, after))
    (fits : after.next < limit) : Searches limit supply bases names after := by
  induction bases generalizing supply names with
  | nil =>
      obtain ⟨rfl, rfl⟩ := Prod.mk.inj drawn
      exact .nil supply
  | cons base bases ih =>
      rw [run_mapM_cons] at drawn
      obtain ⟨rfl, rfl⟩ := Prod.mk.inj drawn
      have first := Nat.lt_of_le_of_lt (next_le_mapM_fresh bases _) fits
      obtain ⟨attempts, search⟩ := exists_search_fresh first
      exact .cons search (ih rfl)

end Searches

end NameSupply

end MiniScheme
