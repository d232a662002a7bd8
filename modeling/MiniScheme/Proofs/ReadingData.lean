import MiniScheme.Proofs.Legible
import MiniScheme.Proofs.NumberText
import MiniScheme.Proofs.Written

/-! # Reading data back

Legible data are laid out in written forms that denote the data again. What is written for a number that
is not finite is read as a symbol with the same text. A chain of pairs is written as a list, and a dot in
that list is where the chain ends in something other than the empty list. -/

namespace MiniScheme

namespace Value

/-- The written form of a value that is not a pair; of a pair it is the brackets alone. -/
def writtenAtom : Value → Written
  | .number value => .word (numberText value)
  | .bool value => .word (boolText value)
  | .string value => .literal value
  | .symbol name => .word name
  | .nil => .bracketed []
  | .cons _ _ => .bracketed []
  | .prim op => .word op.keyword
  | .closure params body => .word (Value.closure params body).text

mutual

/-- The written form of a value. -/
def written : Value → Written
  | .cons car cdr => .bracketed (car.written :: cdr.writtenTail)
  | atom => atom.writtenAtom

/-- The written forms that follow the first in the brackets of a pair with this second component. -/
def writtenTail : Value → List Written
  | .cons car cdr => car.written :: cdr.writtenTail
  | .nil => []
  | atom => [.word ".", atom.writtenAtom]

end

/-- The text of a value is that of its written form. -/
theorem text_written (value : Value) :
    value.written.text = value.text ∧ value.writtenTail.map Written.text = value.tailTexts := by
  induction value with
  | cons car cdr ihCar ihCdr =>
      have tail : (Value.cons car cdr).writtenTail.map Written.text =
          (Value.cons car cdr).tailTexts := by
        rw [writtenTail, tailTexts, List.map_cons, ihCar.1, ihCdr.2]
      refine ⟨?_, tail⟩
      rw [written, Written.text, Written.texts_eq_map, text, List.map_cons, ihCar.1, ihCdr.2]
  | nil => exact ⟨rfl, rfl⟩
  | number | bool | string | symbol | prim | closure => exact ⟨rfl, rfl⟩

/-- The numbers in a value. -/
def numbers : Value → List Float
  | .number value => [value]
  | .cons car cdr => car.numbers ++ cdr.numbers
  | _ => []

/-- A value as it is read back: numbers that are not finite become symbols. -/
def reread : Value → Value
  | .number value => ofWord (numberText value)
  | .cons car cdr => .cons car.reread cdr.reread
  | value => value

/-- A truth value is written as a word. -/
theorem isWord_boolText (value : Bool) : IsWord (boolText value) := by
  cases value <;> decide

/-- Legible data scan. -/
theorem Legible.scannable {value : Value} (legible : value.Legible)
    (readsBack : ∀ number ∈ value.numbers, ReadsBack number) :
    value.written.Scannable ∧ ∀ form ∈ value.writtenTail, form.Scannable := by
  have dotted {atom : Written} (scannable : atom.Scannable) :
      ∀ form ∈ [.word ".", atom], form.Scannable :=
    List.forall_mem_cons.2 ⟨.word (by decide), List.forall_mem_singleton.2 scannable⟩
  induction legible with
  | number value =>
      have scannable : (Value.number value).written.Scannable :=
        .word (readsBack value (List.mem_singleton_self value)).isWord
      exact ⟨scannable, dotted scannable⟩
  | bool value => exact ⟨.word (isWord_boolText value), dotted (.word (isWord_boolText value))⟩
  | string value => exact ⟨.literal value, dotted (.literal value)⟩
  | symbol isWord => exact ⟨.word isWord, dotted (.word isWord)⟩
  | nil => exact ⟨.bracketed (by simp), by simp [writtenTail]⟩
  | cons noDot first second ihFirst ihSecond =>
      rw [numbers, List.forall_mem_append] at readsBack
      have items := List.forall_mem_cons.2 ⟨(ihFirst readsBack.1).1, (ihSecond readsBack.2).2⟩
      exact ⟨.bracketed items, items⟩

/-- What is written for legible data is a dot for the symbol that consists of a dot only. -/
theorem Legible.isDot_written {value : Value} (legible : value.Legible) (noDot : value ≠ .symbol ".")
    (readsBack : ∀ number ∈ value.numbers, ReadsBack number) :
    value.written.toSExpr.isDot = false := by
  cases legible with
  | number value =>
      -- A dot alone is no numeral, as it has no digit.
      have ne : numberText value ≠ "." :=
        (readsBack value (List.mem_singleton_self value)).numberText_ne rfl (by decide)
      exact beq_eq_false_iff_ne.2 ne
  | bool value => cases value <;> decide
  | string | nil | cons => rfl
  | symbol =>
      rename_i name isWord isName
      have ne : name ≠ "." := fun same => noDot (congrArg Value.symbol same)
      exact beq_eq_false_iff_ne.2 ne

/-- In what is written for the rest of a chain the first dot stands before the last part. -/
theorem Legible.dotBeforeLast_writtenTail {value : Value} (legible : value.Legible)
    (readsBack : ∀ number ∈ value.numbers, ReadsBack number) :
    DotBeforeLast (value.writtenTail.map Written.toSExpr) := by
  have dotted (atom : Written) : DotBeforeLast ([.word ".", atom].map Written.toSExpr) := by
    intro position found
    have here : position = 0 := (Option.some.inj found).symm
    rw [here]
    rfl
  induction legible with
  | number | bool | string | symbol => exact dotted _
  | nil => simp [DotBeforeLast, writtenTail]
  -- The first part is no dot, so the first dot is that of the rest, one position further on.
  | cons noDot first second ihFirst ihSecond =>
      rw [numbers, List.forall_mem_append] at readsBack
      intro position found
      rw [writtenTail, List.map_cons, List.findIdx?_cons,
        first.isDot_written noDot readsBack.1] at found
      obtain ⟨before, further, rfl⟩ := Option.map_eq_some_iff.1 found
      have length := ihSecond readsBack.2 before further
      rw [writtenTail, List.map_cons, List.length_cons, ← length, Nat.add_right_comm]

/-- Parts that start with no dot, and of which the others have their first dot before the last, misplace
no dot. -/
theorem misplacesDot_cons {item : SExpr} {items : List SExpr} (noDot : item.isDot = false)
    (dots : DotBeforeLast items) : SExpr.misplacesDot (item :: items) = false := by
  rw [SExpr.misplacesDot, List.findIdx?_cons, noDot]
  cases found : items.findIdx? SExpr.isDot with
  | none => simp
  | some position =>
      have length := dots position found
      simp [← length]

/-- What is written for legible data denotes the data again, and what is written for the rest of a chain
denotes the rest. -/
theorem Legible.ofSExpr_written {value : Value} (legible : value.Legible)
    (readsBack : ∀ number ∈ value.numbers, ReadsBack number) :
    ofSExpr value.written.toSExpr = .ok value.reread ∧
      chainOf (value.writtenTail.map Written.toSExpr) = .ok value.reread := by
  have dotted {atom : Written} {result : Value} (denotes : ofSExpr atom.toSExpr = .ok result) :
      chainOf ([.word ".", atom].map Written.toSExpr) = .ok result :=
    (chainOf_dot rfl).trans denotes
  induction legible with
  | number value => exact ⟨rfl, dotted rfl⟩
  | bool value => cases value <;> exact ⟨rfl, dotted rfl⟩
  | string value => exact ⟨rfl, dotted rfl⟩
  | @symbol name isWord isName =>
      have denotes : ofSExpr (.atom name) = .ok (.symbol name) := congrArg Except.ok isName
      exact ⟨denotes, dotted denotes⟩
  | nil => exact ⟨rfl, rfl⟩
  | @cons car cdr noDot first second ihFirst ihSecond =>
      rw [numbers, List.forall_mem_append] at readsBack
      have notDot := first.isDot_written noDot readsBack.1
      -- The parts in the brackets denote the first component and then the rest of the chain.
      have chain : chainOf ((Value.cons car cdr).writtenTail.map Written.toSExpr) =
          .ok (.cons car.reread cdr.reread) := by
        rw [writtenTail, List.map_cons, chainOf_cons notDot, (ihSecond readsBack.2).2,
          (ihFirst readsBack.1).1]
        rfl
      refine ⟨?_, chain⟩
      rw [written, Written.toSExpr, Written.toSExprs_eq_map, ofSExpr, List.map_cons,
        misplacesDot_cons notDot (second.dotBeforeLast_writtenTail readsBack.2)]
      exact chain

/-- Where all numbers are finite, data are read back as they are. -/
theorem reread_eq_self {value : Value} (readsBack : ∀ number ∈ value.numbers, ReadsBack number)
    (finite : ∀ number ∈ value.numbers, IsFinite number) : value.reread = value := by
  induction value with
  | number value =>
      have member := List.mem_singleton_self value
      exact ofWord_of_numeral (readsBack value member (finite value member))
  | cons car cdr ihCar ihCdr =>
      rw [numbers, List.forall_mem_append] at readsBack finite
      rw [reread, ihCar readsBack.1 finite.1, ihCdr readsBack.2 finite.2]
  | bool | string | symbol | nil | prim | closure => rfl

/-- Reading back changes no text. -/
theorem text_reread {value : Value} (readsBack : ∀ number ∈ value.numbers, ReadsBack number) :
    value.reread.text = value.text ∧ value.reread.tailTexts = value.tailTexts := by
  induction value with
  | number value =>
      -- A number that is read as a symbol gives the symbol its own text.
      rcases (readsBack value (List.mem_singleton_self value)).value_ofWord with same | name
      · rw [reread, same]
        exact ⟨rfl, rfl⟩
      · rw [reread, name]
        exact ⟨rfl, rfl⟩
  | cons car cdr ihCar ihCdr =>
      rw [numbers, List.forall_mem_append] at readsBack
      have first := ihCar readsBack.1
      have second := ihCdr readsBack.2
      rw [reread, text, text, tailTexts, tailTexts, first.1, second.2]
      exact ⟨rfl, rfl⟩
  | bool | string | symbol | nil | prim | closure => exact ⟨rfl, rfl⟩

end Value

end MiniScheme
