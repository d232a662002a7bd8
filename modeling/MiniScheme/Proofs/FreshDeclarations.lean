import MiniScheme.Proofs.Renaming

/-! # No name is handed out twice

Renaming draws one fresh name for each declaration, so the declarations of the renamed expressions are the
old ones with numbers, in their places. The names are drawn in another order than the one they stand in, inner
ones before outer ones, but whatever is drawn is reserved from then on. So no request that a supply has
answered, and no name that it was asked to reserve, can come up again. -/

namespace MiniScheme

open NameSupply (Draws Numbers)

namespace Expr

/-! ## Declarations after renaming -/

/-- Declared names become fresh names of their own: each is replaced by itself with a number, and all of them
are drawn from the supply. -/
structure DeclaresFresh (before : NameSupply) (names renamed : List String) (after : NameSupply) : Prop where
  /-- Each name in its place is replaced by itself with a number. -/
  numbers : List.Forall₂ Numbers names renamed
  /-- The new names are drawn from the supply. -/
  draws : Draws before names.length renamed after

namespace DeclaresFresh

variable {before between after : NameSupply} {names renamed others otherRenamed : List String}

/-- Nothing is drawn for no names. -/
theorem nil (supply : NameSupply) : DeclaresFresh supply [] [] supply :=
  ⟨.nil, .nil supply⟩

/-- Declarations that are renamed one after the other. -/
theorem append (first : DeclaresFresh before names renamed between)
    (second : DeclaresFresh between others otherRenamed after) :
    DeclaresFresh before (names ++ others) (renamed ++ otherRenamed) after where
  numbers := List.rel_append first.numbers second.numbers
  draws := by
    rw [List.length_append]
    exact first.draws.append second.draws

/-- Declarations around others that are renamed before them. -/
theorem around (own : DeclaresFresh between names renamed after)
    (inner : DeclaresFresh before others otherRenamed between) :
    DeclaresFresh before (names ++ others) (renamed ++ otherRenamed) after where
  numbers := List.rel_append own.numbers inner.numbers
  draws := by
    rw [List.length_append, Nat.add_comm]
    exact (inner.draws.append own.draws).perm List.perm_append_comm

end DeclaresFresh

/-- Declaring names anew draws fresh ones for them and keeps the declarations in the body. -/
theorem declaresFresh_redeclare (names : List String) (body : List Expr) (supply : NameSupply) :
    DeclaresFresh supply names ((redeclare names body).run supply).1.1
        ((redeclare names body).run supply).2 ∧
      boundNamesAll ((redeclare names body).run supply).1.2 = boundNamesAll body := by
  rw [run_redeclare, boundNamesAll_eq_flatMap, boundNamesAll_eq_flatMap, List.flatMap_map]
  refine ⟨⟨NameSupply.numbers_mapM_fresh names supply, NameSupply.draws_mapM_fresh names supply⟩, ?_⟩
  refine List.flatMap_congr fun form _ => ?_
  rw [← flatten_contours, contours_subst_ofLists, flatten_contours]

/-- A local binding declares its names, then what its values declare, then what its body declares. -/
theorem boundNames_letIn_eq (bindings : List (String × Expr)) (body : List Expr) :
    (letIn bindings body).boundNames =
      bindings.map Prod.fst ++ (boundNamesAll (bindings.map Prod.snd) ++ boundNamesAll body) := by
  rw [boundNames, boundNamesBound_eq_flatMap, boundNamesAll_eq_flatMap, boundNamesAll_eq_flatMap,
    List.flatMap_map, List.append_assoc]

/-- Whether renaming an expression draws fresh names for its declarations, whatever the supply. -/
abbrev RenamesFresh (expr : Expr) : Prop :=
  ∀ supply : NameSupply, DeclaresFresh supply expr.boundNames ((rename expr).run supply).1.boundNames
    ((rename expr).run supply).2

/-- If renaming draws fresh names for each expression of a list, so for the list. -/
theorem declaresFresh_renameAll {exprs : List Expr} (each : ∀ expr ∈ exprs, expr.RenamesFresh)
    (supply : NameSupply) :
    DeclaresFresh supply (boundNamesAll exprs) (boundNamesAll ((renameAll exprs).run supply).1)
      ((renameAll exprs).run supply).2 := by
  induction exprs generalizing supply with
  | nil => exact .nil supply
  | cons expr exprs ih =>
      rw [List.forall_mem_cons] at each
      exact (each.1 supply).append (ih each.2 _)

/-- Renaming draws a fresh name for each declaration. -/
theorem renamesFresh (expr : Expr) : expr.RenamesFresh := by
  induction expr with
  | num | bool | str | var | lit | prim => exact .nil
  | cond test consequent alternative ihTest ihConsequent ihAlternative =>
      intro supply
      exact ((ihTest supply).append (ihConsequent _)).append (ihAlternative _)
  | lambda params body ihBody =>
      intro supply
      let inner := (renameAll body).run supply
      obtain ⟨own, kept⟩ := declaresFresh_redeclare params inner.1 inner.2
      -- The parameters are declared first, but their new names are drawn last.
      have renamed := own.around (declaresFresh_renameAll ihBody supply)
      rw [← kept] at renamed
      exact renamed
  | app operator operands ihOperator ihOperands =>
      intro supply
      exact (ihOperator supply).append (declaresFresh_renameAll ihOperands _)
  | letIn bindings body ihBindings ihBody =>
      intro supply
      let values := (renameAll (bindings.map Prod.snd)).run supply
      let inner := (renameAll body).run values.2
      obtain ⟨run, sameLength⟩ := run_rename_letIn bindings body supply
      obtain ⟨own, kept⟩ := declaresFresh_redeclare (bindings.map Prod.fst) inner.1 inner.2
      have inValues := declaresFresh_renameAll (List.forall_mem_map.2 ihBindings) supply
      have inBody := declaresFresh_renameAll ihBody values.2
      rw [run, boundNames_letIn_eq, boundNames_letIn_eq, List.map_fst_zip (Nat.le_of_eq sameLength),
        List.map_snd_zip (Nat.le_of_eq sameLength.symm), kept]
      exact own.around (inValues.append inBody)
  | define target value ihValue => exact ihValue

/-- Renaming after all names are reserved: the new names are none of them. -/
theorem declaresFresh_renameApart (exprs : List Expr) (supply : NameSupply) :
    DeclaresFresh (supply.reserve (allNamesAll exprs)) (boundNamesAll exprs)
      (boundNamesAll ((renameApart exprs).run supply).1) ((renameApart exprs).run supply).2 :=
  declaresFresh_renameAll (fun expr _ => renamesFresh expr) _

end Expr

namespace NameSupply

/-! ## Histories of requests -/

/-- What a supply can be asked for. -/
inductive Request where
  /-- To reserve names. -/
  | reserve (names : List String)
  /-- A fresh name for another one. -/
  | fresh (base : String)
  /-- Fresh names for all that some expressions declare. -/
  | rename (exprs : List Expr)

namespace Request

/-- Answers a request; the result is the names that are handed out. -/
def answer : Request → StateM NameSupply (List String)
  | .reserve names => do
      modify fun supply => supply.reserve names
      return []
  | .fresh base => return [← NameSupply.fresh base]
  | .rename exprs => return Expr.boundNamesAll (← Expr.renameApart exprs)

/-- The names that a request reserves before any is handed out. -/
def reserved : Request → List String
  | .reserve names => names
  | .fresh _ => []
  | .rename exprs => Expr.allNamesAll exprs

end Request

/-- Names handed out by a supply that reserves others meanwhile. -/
structure HandsOut (before : NameSupply) (kept names : List String) (after : NameSupply) : Prop where
  /-- The names are distinct. -/
  nodup : names.Nodup
  /-- None of the names was reserved. -/
  unreserved : ∀ name ∈ names, name ∉ before.reserved
  /-- The names and the others become reserved, and nothing else does. -/
  mem_reserved : ∀ name,
    name ∈ after.reserved ↔ (name ∈ names ∨ name ∈ kept) ∨ name ∈ before.reserved

/-- Names drawn after the others are reserved. -/
theorem Draws.handsOut {before after : NameSupply} {kept names : List String} {count : Nat}
    (draws : Draws (before.reserve kept) count names after) : HandsOut before kept names after where
  nodup := draws.nodup
  unreserved := fun name drawn reserved => draws.unreserved name drawn (List.mem_append_right _ reserved)
  mem_reserved := by
    intro name
    rw [draws.mem_reserved, reserve, List.mem_append, or_assoc]

namespace HandsOut

variable {before between after : NameSupply} {kept keptAfter names namesAfter : List String}

/-- Nothing is handed out. -/
theorem nil (supply : NameSupply) : HandsOut supply [] [] supply where
  nodup := List.nodup_nil
  unreserved := by simp
  mem_reserved := by simp

/-- Names handed out later are none of those handed out earlier, which are reserved by then. -/
theorem append (first : HandsOut before kept names between)
    (second : HandsOut between keptAfter namesAfter after) :
    HandsOut before (kept ++ keptAfter) (names ++ namesAfter) after where
  nodup := by
    refine first.nodup.append second.nodup (List.disjoint_left.2 fun name drawn again => ?_)
    exact second.unreserved name again ((first.mem_reserved name).2 (.inl (.inl drawn)))
  unreserved := by
    refine List.forall_mem_append.2 ⟨first.unreserved, fun name drawn reserved => ?_⟩
    exact second.unreserved name drawn ((first.mem_reserved name).2 (.inr reserved))
  mem_reserved := by
    intro name
    rw [second.mem_reserved, first.mem_reserved, List.mem_append, List.mem_append]
    tauto

end HandsOut

/-- The answer to one request. -/
theorem handsOut_answer (request : Request) (supply : NameSupply) :
    HandsOut supply request.reserved (request.answer.run supply).1 (request.answer.run supply).2 := by
  cases request with
  | reserve names => exact (Draws.nil (supply.reserve names)).handsOut
  | fresh base =>
      have drawn : Draws (supply.reserve []) 1 _ _ := draws_fresh base supply
      exact drawn.handsOut
  | rename exprs => exact (Expr.declaresFresh_renameApart exprs supply).draws.handsOut

/-- The answers to a history of requests. -/
theorem handsOut_mapM_answer (requests : List Request) (supply : NameSupply) :
    HandsOut supply (requests.flatMap Request.reserved)
      ((requests.mapM Request.answer).run supply).1.flatten
      ((requests.mapM Request.answer).run supply).2 := by
  induction requests generalizing supply with
  | nil => exact .nil supply
  | cons request requests ih =>
      rw [run_mapM_cons]
      exact (handsOut_answer request supply).append (ih _)

/-- Whatever a supply has been asked for, renaming then declares the old names with numbers, each in its
place; these are mentioned nowhere in the expressions, were never reserved, and no name is ever handed out
twice. -/
theorem renameApart_declares_new_names (start : Nat) (requests : List Request) (exprs : List Expr) :
    let history := (requests.mapM Request.answer).run (.startingAt start)
    let handedOut := history.1.flatten
    let declared := Expr.boundNamesAll ((Expr.renameApart exprs).run history.2).1
    (handedOut ++ declared).Nodup ∧
      declared.length = (Expr.boundNamesAll exprs).length ∧
      List.Forall₂ Numbers (Expr.boundNamesAll exprs) declared ∧
      ∀ name ∈ declared,
        name ∉ Expr.allNamesAll exprs ∧ name ∉ requests.flatMap Request.reserved := by
  intro history handedOut declared
  have earlier := handsOut_mapM_answer requests (.startingAt start)
  have renamed := Expr.declaresFresh_renameApart exprs history.2
  have all := earlier.append renamed.draws.handsOut
  refine ⟨all.nodup, renamed.draws.length_eq, renamed.numbers, fun name drawn => ?_⟩
  have unreserved := renamed.draws.unreserved name drawn
  rw [reserve, List.mem_append, not_or] at unreserved
  refine ⟨unreserved.1, fun reserved => unreserved.2 ?_⟩
  exact (earlier.mem_reserved name).2 (.inl (.inr reserved))

/-- The numbers 1 and 3 are used up, 2 is taken by a reserved name and 4 by a reference; a parameter that is
declared twice becomes two. -/
theorem renameApart_declares_new_names_repeated :
    let requests : List Request := [.reserve ["x__2"], .fresh "x", .rename [.lambda ["x"] [.var "x"]]]
    let exprs : List Expr := [.lambda ["x", "x"] [.var "x__4"]]
    let history := (requests.mapM Request.answer).run (.startingAt 1)
    history.1 = [[], ["x__1"], ["x__3"]] ∧
      Expr.boundNamesAll ((Expr.renameApart exprs).run history.2).1 = ["x__5", "x__6"] ∧
      ["x__1", "x__3", "x__5", "x__6"].Nodup ∧
      "x__6" ∉ Expr.allNamesAll exprs ∧ "x__6" ∉ requests.flatMap Request.reserved := by
  intro requests exprs history
  have handedOut : history.1 = [[], ["x__1"], ["x__3"]] := by decide
  have declared : Expr.boundNamesAll ((Expr.renameApart exprs).run history.2).1 = ["x__5", "x__6"] := by
    decide
  obtain ⟨distinct, -, -, unreserved⟩ := renameApart_declares_new_names 1 requests exprs
  rw [handedOut, declared] at distinct
  rw [declared] at unreserved
  exact ⟨handedOut, declared, distinct, unreserved "x__6" (by decide)⟩

end NameSupply

end MiniScheme
