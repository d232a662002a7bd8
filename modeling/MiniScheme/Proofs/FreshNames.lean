import Mathlib.Data.Finset.Card
import Mathlib.Data.List.DropRight
import MiniScheme.NameSupply

/-! # Fresh names are fresh

A name that a supply hands out is the first candidate that is not reserved, and it is reserved after. Names
handed out one after the other are therefore distinct, which is what renaming needs. The counter passes each
reserved name once at most, so there is a bound for the number that it comes to. -/

namespace MiniScheme

/-- What stands in the second of two related lists is related to something in the first. -/
theorem exists_mem_of_forall₂ {α β : Type} {related : α → β → Prop} {items : List α} {others : List β}
    (all : List.Forall₂ related items others) {other : β} (member : other ∈ others) :
    ∃ item ∈ items, related item other := by
  induction all with
  | nil => cases member
  | cons first _ ih =>
      rcases List.mem_cons.1 member with rfl | later
      · exact ⟨_, List.mem_cons_self, first⟩
      · obtain ⟨item, isItem, relates⟩ := ih later
        exact ⟨item, List.mem_cons_of_mem _ isItem, relates⟩

/-- A numbered name ends in two underscores and the digits of the number. -/
theorem toList_numberedName (base : String) (number : Nat) :
    (numberedName base number).toList = base.toList ++ ['_', '_'] ++ Nat.toDigits 10 number := by
  rw [numberedName, String.toList_append, String.toList_append, ← Nat.toList_repr]
  rfl

/-- The two underscores of a numbered name stand in it. -/
theorem underscore_mem_numberedName (base : String) (number : Nat) :
    '_' ∈ (numberedName base number).toList := by
  rw [toList_numberedName]
  simp

/-- A numbered name differs from every text without an underscore. -/
theorem numberedName_ne {base other : String} {number : Nat} (without : '_' ∉ other.toList) :
    numberedName base number ≠ other := by
  intro same
  rw [← same] at without
  exact without (underscore_mem_numberedName base number)

/-- The number that a name ends in, or 0 if it does not end in a digit. -/
def endNumber (name : String) : Nat :=
  Nat.ofDigitChars 10 (name.toList.rtakeWhile Char.isDigit) 0

/-- A numbered name ends in its number, whatever the base ends in. -/
@[simp] theorem endNumber_numberedName (base : String) (number : Nat) :
    endNumber (numberedName base number) = number := by
  have digits : ∀ c ∈ (Nat.toDigits 10 number).reverse, c.isDigit = true := fun c member =>
    Nat.isDigit_of_mem_toDigits (by decide) (by decide) (List.mem_reverse.1 member)
  have last : (numberedName base number).toList.rtakeWhile Char.isDigit = Nat.toDigits 10 number := by
    rw [toList_numberedName, List.rtakeWhile, List.reverse_append, List.takeWhile_append_of_pos digits,
      List.reverse_append]
    simp
  rw [endNumber, last, Nat.ofDigitChars_ten_toDigits]

/-- Names of one base with different numbers are different. -/
theorem numberedName_inj {base : String} {number other : Nat} :
    numberedName base number = numberedName base other ↔ number = other := by
  refine ⟨fun same => ?_, congrArg _⟩
  rw [← endNumber_numberedName base number, same, endNumber_numberedName]

namespace NameSupply

/-- The search goes upwards and passes reserved names only, and it stops short of its bound only at a name that
is not reserved. -/
theorem firstUnreserved_spec (base : String) (reserved : List String) (count number : Nat) :
    let found := firstUnreserved base reserved count number
    number ≤ found ∧
      (∀ candidate, number ≤ candidate → candidate < found → numberedName base candidate ∈ reserved) ∧
      (found < number + count → numberedName base found ∉ reserved) := by
  -- By induction on the number of candidates that the search may still look past.
  induction count generalizing number with
  | zero =>
      exact ⟨Nat.le_refl number, fun _ atLeast below => absurd atLeast (Nat.not_le_of_lt below),
        fun below => absurd below (Nat.lt_irrefl number)⟩
  | succ count ih =>
      rw [firstUnreserved]
      by_cases first : numberedName base number ∈ reserved
      · obtain ⟨upwards, passed, stopped⟩ := ih (number + 1)
        rw [if_pos first]
        refine ⟨Nat.le_of_succ_le upwards, fun candidate atLeast below => ?_, fun below => ?_⟩
        · rcases Nat.eq_or_lt_of_le atLeast with rfl | further
          · exact first
          · exact passed candidate further below
        · exact stopped (by omega)
      · rw [if_neg first]
        exact ⟨Nat.le_refl number, fun _ atLeast below => absurd atLeast (Nat.not_le_of_lt below),
          fun _ => first⟩

/-- The names of a base with so many numbers from a first one on. -/
def candidates (base : String) (first count : Nat) : Finset String :=
  ((List.range' first count).map (numberedName base)).toFinset

/-- A candidate is a name with a number in the stretch. -/
theorem mem_candidates {base name : String} {first count : Nat} :
    name ∈ candidates base first count ↔
      ∃ number, first ≤ number ∧ number < first + count ∧ numberedName base number = name := by
  rw [candidates, List.mem_toFinset, List.mem_map]
  simp only [List.mem_range'_1, and_assoc]

/-- Different numbers give different names, so there are as many candidates as numbers. -/
theorem card_candidates (base : String) (first count : Nat) : (candidates base first count).card = count := by
  have distinct : ((List.range' first count).map (numberedName base)).Nodup :=
    List.Nodup.map (fun _ _ => numberedName_inj.1) List.nodup_range'
  rw [candidates, List.toFinset_card_of_nodup distinct, List.length_map, List.length_range']

/-- Numbers that lie one after the other and whose names are all reserved are no more than the reserved
names. -/
theorem count_le_card_reserved {base : String} {reserved : List String} {first count : Nat}
    (taken : ∀ candidate, first ≤ candidate → candidate < first + count →
      numberedName base candidate ∈ reserved) :
    count ≤ reserved.toFinset.card := by
  rw [← card_candidates base first count]
  refine Finset.card_le_card fun name member => ?_
  obtain ⟨number, atLeast, below, rfl⟩ := mem_candidates.1 member
  exact List.mem_toFinset.2 (taken number atLeast below)

/-- Some candidate of the search is not reserved: there are more candidates than reserved names. -/
theorem firstUnreserved_notMem (base : String) (reserved : List String) (number : Nat) :
    numberedName base (firstUnreserved base reserved reserved.length number) ∉ reserved := by
  obtain ⟨-, passed, stopped⟩ := firstUnreserved_spec base reserved reserved.length number
  intro taken
  -- If the last candidate is reserved, then the search went up to its bound and all candidates are.
  have bound := Nat.le_of_not_lt fun short => stopped short taken
  have allTaken : ∀ candidate, number ≤ candidate → candidate < number + (reserved.length + 1) →
      numberedName base candidate ∈ reserved := by
    intro candidate atLeast below
    rcases Nat.eq_or_lt_of_le (Nat.le_trans (Nat.le_of_lt_succ below) bound) with rfl | before
    · exact taken
    · exact passed candidate atLeast before
  exact absurd (List.toFinset_card_le reserved) (Nat.not_le_of_lt (count_le_card_reserved allTaken))

/-- A fresh name has the first number from the counter on whose name is not reserved. It is reserved, and the
counter is left behind this number. -/
theorem fresh_spec (base : String) (supply : NameSupply) :
    ∃ count, (fresh base).run supply = (numberedName base (supply.next + count),
        { next := supply.next + count + 1
          reserved := numberedName base (supply.next + count) :: supply.reserved }) ∧
      (∀ candidate, supply.next ≤ candidate → candidate < supply.next + count →
        numberedName base candidate ∈ supply.reserved) ∧
      numberedName base (supply.next + count) ∉ supply.reserved := by
  obtain ⟨upwards, taken, -⟩ := firstUnreserved_spec base supply.reserved supply.reserved.length supply.next
  have free := firstUnreserved_notMem base supply.reserved supply.next
  obtain ⟨count, found⟩ := Nat.exists_eq_add_of_le upwards
  rw [found] at taken free
  refine ⟨count, ?_, taken, free⟩
  rw [← found]
  rfl

/-- A fresh name is not reserved. -/
theorem fresh_notMem (base : String) (supply : NameSupply) :
    ((fresh base).run supply).1 ∉ supply.reserved :=
  firstUnreserved_notMem base supply.reserved supply.next

/-- Handing out a name reserves it and nothing else. -/
theorem fresh_reserved (base : String) (supply : NameSupply) :
    ((fresh base).run supply).2.reserved = ((fresh base).run supply).1 :: supply.reserved := rfl

/-! ## How far the counter comes -/

/-- The reserved names that end in a number which the counter has not passed. -/
def ahead (supply : NameSupply) : Finset String :=
  supply.reserved.toFinset.filter fun name => supply.next ≤ endNumber name

/-- The number that the counter comes to at most by passing reserved names. -/
def reach (supply : NameSupply) : Nat :=
  supply.next + supply.ahead.card

/-- A reserved name ahead of the counter ends in a number that is not passed. -/
theorem mem_ahead {supply : NameSupply} {name : String} :
    name ∈ supply.ahead ↔ name ∈ supply.reserved ∧ supply.next ≤ endNumber name := by
  rw [ahead, Finset.mem_filter, List.mem_toFinset]

/-- The counter passes all reserved names at most. -/
theorem reach_le_card (supply : NameSupply) :
    supply.reach ≤ supply.next + supply.reserved.toFinset.card :=
  Nat.add_le_add_left (Finset.card_filter_le _ _) _

/-- For a fresh name the counter passes reserved names, which are not ahead any more, and goes on by one. -/
theorem reach_fresh_le (base : String) (supply : NameSupply) :
    ((fresh base).run supply).2.reach ≤ supply.reach + 1 := by
  obtain ⟨count, run, taken, -⟩ := fresh_spec base supply
  rw [run]
  let after : NameSupply :=
    { next := supply.next + count + 1
      reserved := numberedName base (supply.next + count) :: supply.reserved }
  let passed := candidates base supply.next count
  have apart : Disjoint passed after.ahead := by
    refine Finset.disjoint_left.2 fun name isPassed isAhead => ?_
    obtain ⟨number, -, below, rfl⟩ := mem_candidates.1 isPassed
    have notPassed : after.next ≤ number := endNumber_numberedName base number ▸ (mem_ahead.1 isAhead).2
    exact absurd (Nat.lt_of_succ_le notPassed) (Nat.lt_asymm below)
  have within : passed ∪ after.ahead ⊆ supply.ahead := by
    refine Finset.union_subset (fun name isPassed => ?_) fun name isAhead => ?_
    · obtain ⟨number, atLeast, below, rfl⟩ := mem_candidates.1 isPassed
      rw [mem_ahead, endNumber_numberedName]
      exact ⟨taken number atLeast below, atLeast⟩
    · obtain ⟨isReserved, notPassed⟩ := mem_ahead.1 isAhead
      rcases List.mem_cons.1 isReserved with rfl | before
      -- The name that is handed out has the last number that is passed.
      · rw [endNumber_numberedName] at notPassed
        exact absurd notPassed (Nat.not_succ_le_self _)
      · exact mem_ahead.2 ⟨before, Nat.le_trans (Nat.le_add_right supply.next (count + 1)) notPassed⟩
  have fewer : count + after.ahead.card ≤ supply.ahead.card := by
    rw [← card_candidates base supply.next count, ← Finset.card_union_of_disjoint apart]
    exact Finset.card_le_card within
  calc
    after.reach = supply.next + (count + after.ahead.card) + 1 := by
      rw [reach, Nat.add_right_comm, Nat.add_assoc supply.next]
    _ ≤ supply.reach + 1 := Nat.succ_le_succ (Nat.add_le_add_left fewer supply.next)

/-! ## Drawing names one after the other -/

/-- Names drawn from one supply that becomes another, in place of so many old ones. -/
structure Draws (before : NameSupply) (count : Nat) (names : List String) (after : NameSupply) :
    Prop where
  /-- There are as many names as needed. -/
  length_eq : names.length = count
  /-- The names are distinct. -/
  nodup : names.Nodup
  /-- None of the names was reserved. -/
  unreserved : ∀ name ∈ names, name ∉ before.reserved
  /-- The names become reserved, and nothing else does. -/
  mem_reserved : ∀ name, name ∈ after.reserved ↔ name ∈ names ∨ name ∈ before.reserved
  /-- The counter comes no further than by passing reserved names and going on by one for each drawn name. -/
  reach_le : after.reach ≤ before.reach + count

namespace Draws

variable {before between after : NameSupply} {count more : Nat} {names others : List String}

/-- Drawing no names changes nothing. -/
theorem nil (supply : NameSupply) : Draws supply 0 [] supply where
  length_eq := rfl
  nodup := List.nodup_nil
  unreserved := by simp
  mem_reserved := by simp
  reach_le := Nat.le_refl _

/-- Names that are drawn after others are none of these, which were reserved in between. -/
theorem append (first : Draws before count names between) (second : Draws between more others after) :
    Draws before (count + more) (names ++ others) after where
  length_eq := by rw [List.length_append, first.length_eq, second.length_eq]
  nodup := by
    refine first.nodup.append second.nodup (List.disjoint_left.2 fun name drawn again => ?_)
    exact second.unreserved name again ((first.mem_reserved name).2 (.inl drawn))
  unreserved := by
    refine List.forall_mem_append.2 ⟨first.unreserved, fun name drawn reserved => ?_⟩
    exact second.unreserved name drawn ((first.mem_reserved name).2 (.inr reserved))
  mem_reserved := by
    intro name
    rw [second.mem_reserved, first.mem_reserved, List.mem_append, or_left_comm, or_assoc]
  reach_le := by
    rw [← Nat.add_assoc]
    exact Nat.le_trans second.reach_le (Nat.add_le_add_right first.reach_le more)

/-- It does not matter in which order the names are listed. -/
theorem perm (draws : Draws before count names after) (same : names.Perm others) :
    Draws before count others after where
  length_eq := by rw [← same.length_eq, draws.length_eq]
  nodup := same.nodup_iff.1 draws.nodup
  unreserved := fun name drawn => draws.unreserved name (same.mem_iff.2 drawn)
  mem_reserved := by
    intro name
    rw [draws.mem_reserved, same.mem_iff]
  reach_le := draws.reach_le

end Draws

/-- One fresh name. -/
theorem draws_fresh (base : String) (supply : NameSupply) :
    Draws supply 1 [((fresh base).run supply).1] ((fresh base).run supply).2 where
  length_eq := rfl
  nodup := List.nodup_singleton _
  unreserved := List.forall_mem_singleton.2 (fresh_notMem base supply)
  mem_reserved := by
    intro name
    rw [fresh_reserved, List.mem_cons, List.mem_singleton]
  reach_le := reach_fresh_le base supply

/-- What is drawn for the first item of a list is drawn before what is drawn for the others. -/
theorem run_mapM_cons {α β : Type} (draw : α → StateM NameSupply β) (item : α) (items : List α)
    (supply : NameSupply) :
    ((item :: items).mapM draw).run supply =
      (((draw item).run supply).1 :: ((items.mapM draw).run ((draw item).run supply).2).1,
        ((items.mapM draw).run ((draw item).run supply).2).2) := by
  rw [List.mapM_cons]
  rfl

/-- Fresh names for the names of a list. -/
theorem draws_mapM_fresh (bases : List String) (supply : NameSupply) :
    Draws supply bases.length ((bases.mapM fresh).run supply).1
      ((bases.mapM fresh).run supply).2 := by
  induction bases generalizing supply with
  | nil => exact .nil supply
  | cons base bases ih =>
      rw [run_mapM_cons, List.length_cons, Nat.add_comm]
      exact (draws_fresh base supply).append (ih _)

/-- The counter goes on with each fresh name. -/
theorem next_lt_fresh (base : String) (supply : NameSupply) :
    supply.next < ((fresh base).run supply).2.next := by
  obtain ⟨count, run, -⟩ := fresh_spec base supply
  rw [run]
  exact Nat.lt_succ_of_le (Nat.le_add_right supply.next count)

/-- The counter is not set back. -/
theorem next_le_mapM_fresh (bases : List String) (supply : NameSupply) :
    supply.next ≤ ((bases.mapM fresh).run supply).2.next := by
  induction bases generalizing supply with
  | nil => exact Nat.le_refl _
  | cons base bases ih =>
      rw [run_mapM_cons]
      exact Nat.le_trans (Nat.le_of_lt (next_lt_fresh base supply)) (ih _)

/-- Whether a name is another one with a number. -/
def Numbers (base name : String) : Prop :=
  ∃ number, name = numberedName base number

/-- Each fresh name is the name it is drawn for, with a number. -/
theorem numbers_mapM_fresh (bases : List String) (supply : NameSupply) :
    List.Forall₂ Numbers bases ((bases.mapM fresh).run supply).1 := by
  induction bases generalizing supply with
  | nil => exact .nil
  | cons base bases ih =>
      rw [run_mapM_cons]
      exact .cons ⟨_, rfl⟩ (ih _)

/-- Fresh names are the names they are drawn for, with numbers. -/
theorem exists_numberedName_of_mem_mapM_fresh {bases : List String} {supply : NameSupply}
    {name : String} (drawn : name ∈ ((bases.mapM fresh).run supply).1) :
    ∃ base ∈ bases, ∃ number, name = numberedName base number :=
  exists_mem_of_forall₂ (numbers_mapM_fresh bases supply) drawn

end NameSupply

end MiniScheme
