import MiniScheme.Proofs.AddressedPrograms
import MiniScheme.Proofs.FreshDeclarations
import MiniScheme.Proofs.FreshSearch

/-! # Declarations are numbered from the inside out

Renaming goes into an expression before it renames what the expression itself declares, and through the
parts of an expression in evaluation order. So it draws fresh names in the order of `Expr.insideOut`: what
the parts declare, from left to right, and then what the expression declares itself. Each name is numbered
above those drawn before it, and if no number is taken, by the next one. -/

namespace MiniScheme

/-! ## Numbers of fresh names -/

/-- Whether a name ends in a lower number than another one. -/
def NumberedBefore (first second : String) : Prop :=
  endNumber first < endNumber second

namespace NameSupply

/-- The search ends at once if the first number is not taken. -/
theorem firstUnreserved_eq_self {base : String} {reserved : List String} {number : Nat}
    (free : numberedName base number ∉ reserved) (count : Nat) :
    firstUnreserved base reserved count number = number := by
  cases count with
  | zero => rfl
  | succ count => rw [firstUnreserved, if_neg free]

/-- A fresh name has a number that was not passed before, and the supply goes on behind this number. -/
theorem endNumber_fresh (base : String) (supply : NameSupply) :
    supply.next ≤ endNumber ((fresh base).run supply).1 ∧
      ((fresh base).run supply).2.next = endNumber ((fresh base).run supply).1 + 1 := by
  obtain ⟨count, run, -⟩ := fresh_spec base supply
  rw [run, endNumber_numberedName]
  exact ⟨Nat.le_add_right supply.next count, rfl⟩

/-- Names that are drawn one after the other have ascending numbers. -/
theorem pairwise_mapM_fresh (bases : List String) (supply : NameSupply) :
    ((bases.mapM fresh).run supply).1.Pairwise NumberedBefore ∧
      ∀ name ∈ ((bases.mapM fresh).run supply).1, supply.next ≤ endNumber name := by
  induction bases generalizing supply with
  | nil => exact ⟨.nil, List.forall_mem_nil _⟩
  | cons base bases ih =>
      obtain ⟨notPassed, next⟩ := endNumber_fresh base supply
      obtain ⟨ascending, further⟩ := ih ((fresh base).run supply).2
      rw [next] at further
      rw [run_mapM_cons, List.pairwise_cons, List.forall_mem_cons]
      refine ⟨⟨further, ascending⟩, notPassed, fun name drawn => ?_⟩
      exact Nat.le_of_lt (Nat.lt_of_le_of_lt notPassed (further name drawn))

/-- Whether no name with one of the given bases and a number that was not passed is reserved. -/
def Unnumbered (supply : NameSupply) (bases : List String) : Prop :=
  ∀ base ∈ bases, ∀ number, supply.next ≤ number → numberedName base number ∉ supply.reserved

/-- If no numbers are taken, names that are drawn one after the other have numbers one after the other. -/
theorem map_endNumber_mapM_fresh {bases : List String} {supply : NameSupply}
    (unnumbered : supply.Unnumbered bases) :
    ((bases.mapM fresh).run supply).1.map endNumber = List.range' supply.next bases.length := by
  induction bases generalizing supply with
  | nil => rfl
  | cons base bases ih =>
      obtain ⟨free, others⟩ := List.forall_mem_cons.1 unnumbered
      have name : ((fresh base).run supply).1 = numberedName base supply.next :=
        congrArg (numberedName base) (firstUnreserved_eq_self (free _ (Nat.le_refl _)) _)
      have next : ((fresh base).run supply).2.next = supply.next + 1 := by
        rw [(endNumber_fresh base supply).2, name, endNumber_numberedName]
      -- The name that was drawn has a number that is passed now, so the other numbers are free still.
      have still : ((fresh base).run supply).2.Unnumbered bases := by
        intro other member number notPassed
        rw [next] at notPassed
        rw [fresh_reserved, name, List.mem_cons, not_or]
        refine ⟨fun same => ?_, others other member number (Nat.le_of_succ_le notPassed)⟩
        have sameNumber := congrArg endNumber same
        rw [endNumber_numberedName, endNumber_numberedName] at sameNumber
        omega
      rw [run_mapM_cons, List.map_cons, ih still, next, name, endNumber_numberedName, List.length_cons,
        List.range'_succ]

end NameSupply

namespace Expr

/-! ## The order of drawing -/

mutual

/-- The names that procedures and local bindings declare, one for each declaration, inner declarations before
outer ones and left before right. -/
def insideOut : Expr → List String
  | .num _ | .bool _ | .str _ | .var _ | .lit _ | .prim _ => []
  | .cond test consequent alternative =>
      insideOut test ++ insideOut consequent ++ insideOut alternative
  | .lambda params body => insideOutAll body ++ params
  | .app operator operands => insideOut operator ++ insideOutAll operands
  | .letIn bindings body => insideOutBound bindings ++ insideOutAll body ++ bindings.map Prod.fst
  | .define _ value => insideOut value

/-- The names that the expressions of a list declare, from the inside out. -/
def insideOutAll : List Expr → List String
  | [] => []
  | expr :: exprs => insideOut expr ++ insideOutAll exprs

/-- The names that the bound expressions of bindings declare, from the inside out. -/
def insideOutBound : List (String × Expr) → List String
  | [] => []
  | (_, value) :: bindings => insideOut value ++ insideOutBound bindings

end

/-- The names that a list declares are those that its elements declare. -/
@[simp] theorem insideOutAll_eq_flatMap (exprs : List Expr) :
    insideOutAll exprs = exprs.flatMap insideOut := by
  induction exprs with
  | nil => rfl
  | cons _ _ ih => simp only [insideOutAll, List.flatMap_cons, ih]

/-- The names that bindings declare inside are those that the bound expressions declare. -/
@[simp] theorem insideOutBound_eq_flatMap (bindings : List (String × Expr)) :
    insideOutBound bindings = bindings.flatMap fun binding => insideOut binding.2 := by
  induction bindings with
  | nil => rfl
  | cons _ _ ih => simp only [insideOutBound, List.flatMap_cons, ih]

/-- From the inside out come first the declarations in the parts and then those of the expression itself. -/
theorem insideOut_eq_append (expr : Expr) :
    expr.insideOut = expr.children.flatMap insideOut ++ expr.contour?.getD [] := by
  cases expr <;> simp [insideOut, contour?, children, List.flatMap_map]

/-- From the inside out come the names that are declared, in another order. -/
theorem insideOut_perm_boundNames (expr : Expr) : expr.insideOut.Perm expr.boundNames := by
  induction expr using induction_children with
  | step expr ih =>
      rw [insideOut_eq_append, boundNames_eq_append]
      exact List.perm_append_comm.trans ((List.Perm.flatMap_left expr.children ih).append_left _)

/-- The same holds of the names that a list declares. -/
theorem insideOutAll_perm_boundNamesAll (exprs : List Expr) :
    (insideOutAll exprs).Perm (boundNamesAll exprs) := by
  rw [insideOutAll_eq_flatMap, boundNamesAll_eq_flatMap]
  exact List.Perm.flatMap_left exprs fun expr _ => insideOut_perm_boundNames expr

/-- Whether drawing a fresh name for each of some names, in their order, gives these names and this supply. -/
def DrawsInOrder (before : NameSupply) (names drawn : List String) (after : NameSupply) : Prop :=
  (names.mapM NameSupply.fresh).run before = (drawn, after)

namespace DrawsInOrder

variable {before between after : NameSupply} {names drawn others otherDrawn : List String}

/-- Nothing is drawn for no names. -/
theorem nil (supply : NameSupply) : DrawsInOrder supply [] [] supply := rfl

/-- Drawing for names and then for others. -/
theorem append (first : DrawsInOrder before names drawn between)
    (second : DrawsInOrder between others otherDrawn after) :
    DrawsInOrder before (names ++ others) (drawn ++ otherDrawn) after := by
  induction names generalizing before drawn with
  | nil =>
      obtain ⟨rfl, rfl⟩ := Prod.mk.inj first
      exact second
  | cons name names ih =>
      rw [DrawsInOrder, NameSupply.run_mapM_cons] at first
      obtain ⟨rfl, last⟩ := Prod.mk.inj first
      have rest := ih (Prod.ext rfl last)
      rw [DrawsInOrder, List.cons_append, NameSupply.run_mapM_cons, rest]
      rfl

end DrawsInOrder

/-- Declaring names anew draws fresh ones for them in their order and keeps what is declared in the body. -/
theorem drawsInOrder_redeclare (names : List String) (body : List Expr) (supply : NameSupply) :
    DrawsInOrder supply names ((redeclare names body).run supply).1.1 ((redeclare names body).run supply).2 ∧
      insideOutAll ((redeclare names body).run supply).1.2 = insideOutAll body := by
  rw [run_redeclare, insideOutAll_eq_flatMap, insideOutAll_eq_flatMap, List.flatMap_map]
  refine ⟨rfl, List.flatMap_congr fun form _ => ?_⟩
  exact query_subst_ofLists (fun own inside => inside ++ own.getD []) insideOut_eq_append names _ form

/-- Whether renaming an expression draws fresh names for its declarations from the inside out. -/
abbrev RenamesInOrder (expr : Expr) : Prop :=
  ∀ supply : NameSupply, DrawsInOrder supply expr.insideOut ((rename expr).run supply).1.insideOut
    ((rename expr).run supply).2

/-- If the expressions of a list are renamed in order, so is the list. -/
theorem drawsInOrder_renameAll {exprs : List Expr} (each : ∀ expr ∈ exprs, expr.RenamesInOrder)
    (supply : NameSupply) :
    DrawsInOrder supply (insideOutAll exprs) (insideOutAll ((renameAll exprs).run supply).1)
      ((renameAll exprs).run supply).2 := by
  induction exprs generalizing supply with
  | nil => exact .nil supply
  | cons expr exprs ih =>
      rw [List.forall_mem_cons] at each
      exact (each.1 supply).append (ih each.2 _)

/-- The bound expressions of bindings come before the body, and the names of the bindings come last. -/
theorem insideOut_letIn_eq (bindings : List (String × Expr)) (body : List Expr) :
    (letIn bindings body).insideOut =
      insideOutAll (bindings.map Prod.snd) ++ insideOutAll body ++ bindings.map Prod.fst := by
  rw [insideOut, insideOutBound_eq_flatMap, insideOutAll_eq_flatMap (bindings.map Prod.snd),
    List.flatMap_map]

/-- Renaming draws fresh names for the declarations from the inside out. -/
theorem renamesInOrder (expr : Expr) : expr.RenamesInOrder := by
  induction expr with
  | num | bool | str | var | lit | prim => exact .nil
  | cond test consequent alternative ihTest ihConsequent ihAlternative =>
      intro supply
      exact ((ihTest supply).append (ihConsequent _)).append (ihAlternative _)
  | lambda params body ihBody =>
      intro supply
      let inner := (renameAll body).run supply
      obtain ⟨own, kept⟩ := drawsInOrder_redeclare params inner.1 inner.2
      have renamed := (drawsInOrder_renameAll ihBody supply).append own
      rw [← kept] at renamed
      exact renamed
  | app operator operands ihOperator ihOperands =>
      intro supply
      exact (ihOperator supply).append (drawsInOrder_renameAll ihOperands _)
  | letIn bindings body ihBindings ihBody =>
      intro supply
      let values := (renameAll (bindings.map Prod.snd)).run supply
      let inner := (renameAll body).run values.2
      obtain ⟨run, sameLength⟩ := run_rename_letIn bindings body supply
      obtain ⟨own, kept⟩ := drawsInOrder_redeclare (bindings.map Prod.fst) inner.1 inner.2
      have inValues := drawsInOrder_renameAll (List.forall_mem_map.2 ihBindings) supply
      have inBody := drawsInOrder_renameAll ihBody values.2
      rw [run, insideOut_letIn_eq, insideOut_letIn_eq, List.map_fst_zip (Nat.le_of_eq sameLength),
        List.map_snd_zip (Nat.le_of_eq sameLength.symm), kept]
      exact (inValues.append inBody).append own
  | define target value ihValue => exact ihValue

/-- Renaming after all names are reserved draws in order. -/
theorem drawsInOrder_renameApart (exprs : List Expr) (supply : NameSupply) :
    DrawsInOrder (supply.reserve (allNamesAll exprs)) (insideOutAll exprs)
      (insideOutAll ((renameApart exprs).run supply).1) ((renameApart exprs).run supply).2 :=
  drawsInOrder_renameAll (fun expr _ => renamesInOrder expr) _

/-- Where the counter is a machine word, the new names are those that searches in this word hand out, one for each
declaration from the inside out. -/
theorem searches_inWord_renameApart {exprs renamed : List Expr} {supply after : NameSupply}
    (result : NameSupply.inWord (renameApart exprs) supply = some (renamed, after)) (names : List String)
    (last : NameSupply) :
    NameSupply.Searches UInt64.size (supply.reserve (allNamesAll exprs)) (insideOutAll exprs) names last ↔
      (names, last) = (insideOutAll renamed, after) := by
  obtain ⟨run, fits⟩ := NameSupply.inWord_eq_some_iff.1 result
  have drawn := drawsInOrder_renameApart exprs supply
  rw [run, DrawsInOrder] at drawn
  have searches := NameSupply.searches_of_mapM_fresh drawn fits
  constructor
  · exact searches.unique
  · intro same
    obtain ⟨rfl, rfl⟩ := Prod.mk.inj same
    exact searches

/-! ## What the order says of each expression -/

/-- Whether all that one expression declares is numbered before all that another one declares. -/
def AllNumberedBefore (earlier later : Expr) : Prop :=
  ∀ first ∈ earlier.boundNames, ∀ second ∈ later.boundNames, NumberedBefore first second

/-- What the numbers of the declarations in an expression tell about it and its parts. -/
structure NumberedInsideOut (outer : Expr) : Prop where
  /-- The names that the expression itself declares have ascending numbers. -/
  own : ∀ names, outer.contour? = some names → names.Pairwise NumberedBefore
  /-- They are numbered after all that is declared in the parts. -/
  inside : ∀ names, outer.contour? = some names → ∀ child ∈ outer.children, ∀ inner ∈ child.boundNames,
    ∀ name ∈ names, NumberedBefore inner name
  /-- What is declared in a part is numbered after what is declared in the parts before. -/
  parts : outer.children.Pairwise AllNumberedBefore

variable {inner outer : Expr}

/-- Ascending numbers in parts that come one after the other. -/
theorem pairwise_flatMap_insideOut {exprs : List Expr}
    (ascending : (exprs.flatMap insideOut).Pairwise NumberedBefore) :
    (∀ expr ∈ exprs, expr.insideOut.Pairwise NumberedBefore) ∧ exprs.Pairwise AllNumberedBefore := by
  obtain ⟨each, between⟩ := List.pairwise_flatMap.1 ascending
  refine ⟨each, between.imp fun {earlier later} before first inFirst second inSecond => ?_⟩
  exact before first ((insideOut_perm_boundNames earlier).mem_iff.2 inFirst) second
    ((insideOut_perm_boundNames later).mem_iff.2 inSecond)

/-- If the numbers ascend from the inside out, they do so in whatever is inside. -/
theorem pairwise_insideOut_of_within (within : inner.Within outer)
    (ascending : outer.insideOut.Pairwise NumberedBefore) : inner.insideOut.Pairwise NumberedBefore := by
  induction within with
  | refl => exact ascending
  | tail _ member ih =>
      rw [insideOut_eq_append, List.pairwise_append] at ascending
      exact ih ((pairwise_flatMap_insideOut ascending.1).1 _ member)

/-- If the numbers ascend from the inside out, they tell what is inside and what comes before. -/
theorem numberedInsideOut_of_pairwise (ascending : outer.insideOut.Pairwise NumberedBefore) :
    outer.NumberedInsideOut := by
  rw [insideOut_eq_append, List.pairwise_append] at ascending
  obtain ⟨inParts, ofItself, before⟩ := ascending
  refine ⟨fun names declares => ?_, fun names declares child member inner declared name own => ?_,
    (pairwise_flatMap_insideOut inParts).2⟩
  · rw [declares] at ofItself
    exact ofItself
  · rw [declares] at before
    refine before inner (List.mem_flatMap.2 ⟨child, member, ?_⟩) name own
    exact (insideOut_perm_boundNames child).mem_iff.2 declared

/-- Renaming numbers the declarations from the inside out and from left to right: each is the old name with
a number; in every expression within the result, the numbers of its own declarations ascend and lie above
those of the declarations inside it, and those in a part lie above those in the parts before. If no name that
is mentioned or reserved is a declared name with a number that was not passed, then the numbers are the next
ones, as many as there are declarations. -/
theorem renameApart_numbers_inside_out (exprs : List Expr) (supply : NameSupply) :
    let renamed := ((renameApart exprs).run supply).1
    List.Forall₂ (fun base name => name = numberedName base (endNumber name)) (boundNamesAll exprs)
        (boundNamesAll renamed) ∧
      (∀ form ∈ renamed, ∀ outer : Expr, outer.Within form → outer.NumberedInsideOut) ∧
      renamed.Pairwise AllNumberedBefore ∧
      ((∀ base ∈ boundNamesAll exprs, ∀ number, supply.next ≤ number →
          numberedName base number ∉ allNamesAll exprs ∧ numberedName base number ∉ supply.reserved) →
        ((boundNamesAll renamed).map endNumber).Perm
          (List.range' supply.next (boundNamesAll exprs).length)) := by
  intro renamed
  let ready := supply.reserve (allNamesAll exprs)
  have drawn : ((insideOutAll exprs).mapM NameSupply.fresh).run ready = (insideOutAll renamed, _) :=
    drawsInOrder_renameApart exprs supply
  have names : insideOutAll renamed = (((insideOutAll exprs).mapM NameSupply.fresh).run ready).1 := by
    rw [drawn]
  have order := insideOutAll_perm_boundNamesAll exprs
  have ascending := (NameSupply.pairwise_mapM_fresh (insideOutAll exprs) ready).1
  rw [← names, insideOutAll_eq_flatMap] at ascending
  obtain ⟨inForms, ofForms⟩ := pairwise_flatMap_insideOut ascending
  refine ⟨?_, fun form member outer within => ?_, ofForms, fun unnumbered => ?_⟩
  · refine (declaresFresh_renameApart exprs supply).numbers.imp fun base name numbered => ?_
    obtain ⟨number, rfl⟩ := numbered
    rw [endNumber_numberedName]
  · exact numberedInsideOut_of_pairwise (pairwise_insideOut_of_within within (inForms form member))
  · have free : ready.Unnumbered (insideOutAll exprs) := by
      intro base declared number notPassed reserved
      obtain ⟨unmentioned, unreserved⟩ := unnumbered base (order.mem_iff.1 declared) number notPassed
      exact (List.mem_append.1 reserved).elim unmentioned unreserved
    have numbers := NameSupply.map_endNumber_mapM_fresh free
    rw [← names, order.length_eq] at numbers
    exact numbers ▸ ((insideOutAll_perm_boundNamesAll renamed).map endNumber).symm

/-- The procedure that is bound comes first, then the one in the body, and the binding itself comes last.
Numbers that were passed may be taken. -/
theorem renameApart_numbers_inside_out_letIn :
    let expr : Expr := .letIn [("x", .lambda ["y"] [.var "y"])] [.lambda ["x", "z"] [.var "x__3"]]
    let supply : NameSupply := { next := 7, reserved := ["y__6"] }
    let renamed := ((renameApart [expr]).run supply).1
    (∀ base ∈ boundNamesAll [expr], ∀ number, supply.next ≤ number →
        numberedName base number ∉ allNamesAll [expr] ∧ numberedName base number ∉ supply.reserved) ∧
      boundNamesAll renamed = ["x__10", "y__7", "x__8", "z__9"] ∧
      ((boundNamesAll renamed).map endNumber).Perm [7, 8, 9, 10] ∧
      ∀ outer ∈ renamed, outer.NumberedInsideOut := by
  intro expr supply renamed
  have passed : ∀ name ∈ allNamesAll [expr] ++ supply.reserved, endNumber name < supply.next := by decide
  have unnumbered : ∀ base ∈ boundNamesAll [expr], ∀ number, supply.next ≤ number →
      numberedName base number ∉ allNamesAll [expr] ∧ numberedName base number ∉ supply.reserved := by
    intro base _ number notPassed
    rw [← not_or, ← List.mem_append]
    intro taken
    have lower := passed _ taken
    rw [endNumber_numberedName] at lower
    exact absurd notPassed (Nat.not_le_of_lt lower)
  obtain ⟨-, each, -, numbers⟩ := renameApart_numbers_inside_out [expr] supply
  exact ⟨unnumbered, by decide, numbers unnumbered, fun outer member => each outer member outer .refl⟩

end Expr

end MiniScheme
