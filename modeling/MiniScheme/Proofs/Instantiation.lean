import Mathlib.Data.List.Forall2
import MiniScheme.Evaluation.Evaluator
import MiniScheme.Proofs.Renaming

/-! # Applying a procedure captures nothing

`Evaluator.instantiate` renames the body of a procedure away from the names in the arguments and only then
substitutes. In the nameless view this is the replacement of the parameters by the arguments, which cannot
capture a name: references to declarations are positions there, and free names stay free. -/

namespace MiniScheme

namespace Evaluator

variable {α : Type} (literal : Value → α)

/-- The nameless views of the forms that remain of a procedure are those of its body with the arguments
in place of the parameters. -/
theorem map_nameless_instantiate {params : List String} {body : List Expr} {arguments : List Value}
    (sameNumber : params.length = arguments.length) :
    (instantiate params body arguments).map (Expr.nameless literal []) =
      body.map fun form => (form.nameless literal []).replaceFree
        (params.zip (arguments.map fun argument => argument.toExpr.nameless literal [])) := by
  let literals := arguments.map Value.toExpr
  let outer := NameSupply.initial.reserve (Expr.allNamesAll literals)
  let before := outer.reserve (Expr.lambda params body).allNames
  let inner := (Expr.renameAll body).run before
  let declared := ((Expr.redeclare params inner.1).run inner.2).1
  -- The steps of the instantiation, each with the supply that it leaves.
  have run : instantiate params body arguments =
      declared.2.map (Expr.subst (.ofLists declared.1 literals)) := by
    rw [← Expr.substAll_eq_map]
    rfl
  have knownBody : ∀ form ∈ body, form.allNames ⊆ before.reserved := by
    intro form member name mentioned
    refine List.mem_append_left _ ?_
    rw [Expr.allNames, Expr.allNamesAll_eq_flatMap]
    exact List.mem_append_right _ (List.mem_flatMap.2 ⟨form, member, mentioned⟩)
  have knownLiterals : ∀ expr ∈ literals, expr.allNames ⊆ before.reserved := by
    intro expr member name mentioned
    refine List.mem_append_right _ (List.mem_append_left _ ?_)
    rw [Expr.allNamesAll_eq_flatMap]
    exact List.mem_flatMap.2 ⟨expr, member, mentioned⟩
  have redeclared : Expr.Redeclared literal before params body declared.1 declared.2 _ :=
    (Expr.renameAll_apart (fun form _ => Expr.rename_apart literal form) knownBody).redeclared params
  -- The declarations of the renamed body are apart from all names of the arguments.
  have avoids : ∀ form ∈ declared.2,
      (Substitution.ofLists declared.1 literals).Avoids form.boundNames := by
    intro form member entry known name bound free
    refine redeclared.apart form member name bound ?_
    exact knownLiterals _ (Substitution.mem_of_mem_ofLists known)
      (Expr.freeNames_subset_allNames _ free)
  have replaced : (declared.2.map (Expr.subst (.ofLists declared.1 literals))).map
      (Expr.nameless literal []) = (declared.2.map (Expr.nameless literal [])).map
        (Nameless.replaceFree (declared.1.zip (literals.map (Expr.nameless literal [])))) := by
    rw [List.map_map, List.map_map]
    refine List.map_congr_left fun form member => ?_
    rw [Function.comp_apply, Function.comp_apply, Expr.nameless_subst literal (avoids form member),
      Substitution.nameless_ofLists]
  -- Exchanging parameters for fresh names and these for arguments is replacing the parameters.
  rw [run, replaced, redeclared.nameless_eq, List.map_map, List.map_map, List.map_map]
  refine List.map_congr_left fun form member => ?_
  rw [Function.comp_apply, Function.comp_apply,
    Nameless.replaceFree_replaceFree (Expr.scoped_nameless literal [] form) redeclared.length_eq
      (by rw [List.length_map, sameNumber]) redeclared.nodup fun name drawn free => ?_]
  · rfl
  · rw [Expr.freeNames_nameless_nil] at free
    refine redeclared.unreserved name drawn (knownBody form member ?_)
    exact Expr.freeNames_subset_allNames form free

/-- The free name that comes in place of a free name of the body: the name itself if it is no parameter,
and otherwise one that is free in the argument at the first position of the parameter. -/
def PassesFreeName (params : List String) (arguments : List Value) (old name : String) : Prop :=
  if old ∈ params then
    ∃ argument, arguments[params.idxOf old]? = some argument ∧ name ∈ argument.toExpr.freeNames
  else name = old

/-- The free names that replace a name in the nameless view are those that its argument passes on. -/
theorem mem_freeNames_replace_iff {params : List String} {arguments : List Value}
    (sameNumber : params.length = arguments.length) {old name : String} :
    name ∈ ((Pointer.free old).replace (params.zip (arguments.map fun argument =>
        argument.toExpr.nameless literal []))).freeNames ↔
      PassesFreeName params arguments old name := by
  rw [Pointer.replace, lookup_zip, PassesFreeName]
  by_cases declared : old ∈ params
  · have given : params.idxOf old < arguments.length :=
      sameNumber ▸ List.idxOf_lt_length_of_mem declared
    rw [if_pos declared, if_pos declared, List.getElem?_map, List.getElem?_eq_getElem given,
      Option.map_some, Option.getD_some, Expr.freeNames_nameless_nil]
    simp
  · rw [if_neg declared, if_neg declared, Option.getD_none, Nameless.freeNames, List.mem_singleton]

/-- An expression is another one with arguments in place of the free references to parameters, and nothing
is captured. Literal values are compared as they are. -/
structure CaptureFree (params : List String) (arguments : List Value) (form result : Expr) : Prop where
  /-- Up to the names of declarations, the arguments stand in place of the references to parameters. Of
  several parameters with one name the first counts. -/
  nameless_eq : result.nameless id [] = (form.nameless id []).replaceFree
    (params.zip (arguments.map fun argument => argument.toExpr.nameless id []))
  /-- Free are the names that are no parameters, and those of the arguments that take part. -/
  mem_freeNames_iff : ∀ name, name ∈ result.freeNames ↔
    ∃ old ∈ form.freeNames, PassesFreeName params arguments old name

/-- A procedure that is applied to as many arguments as it has parameters evaluates, form by form, the
capture-avoiding substitution of the arguments for the free references to the parameters in its body. -/
theorem applyWith_closure_captures_nothing {params : List String} {body : List Expr}
    {arguments : List Value} (sameNumber : params.length = arguments.length) :
    ∃ forms : List Expr,
      (∀ run, applyWith run (.closure params body) arguments = run forms) ∧
      List.Forall₂ (CaptureFree params arguments) body forms := by
  refine ⟨instantiate params body arguments, fun run => ?_, ?_⟩
  · rw [applyWith, if_pos sameNumber]
  · have views := @map_nameless_instantiate _ id params body arguments sameNumber
    rw [eq_comm, ← List.forall₂_eq_eq_eq, List.forall₂_map_left_iff, List.forall₂_map_right_iff]
      at views
    refine views.imp fun form result same => ⟨same.symm, fun name => ?_⟩
    rw [← Expr.freeNames_nameless_nil id result, ← same, Nameless.mem_freeNames_replaceFree,
      Expr.freeNames_nameless_nil]
    simp only [mem_freeNames_replace_iff id sameNumber]

/-- The repeated parameter stands for the first argument, whose free reference has the name that the body
declares. -/
theorem applyWith_closure_captures_nothing_repeated :
    ["x", "x"].length = [Value.closure [] [.var "z"], .number 1].length ∧
    ∃ forms : List Expr,
      (∀ run, applyWith run (.closure ["x", "x"] [.lambda ["z"] [.app (.var "x") [.var "z"]]])
        [.closure [] [.var "z"], .number 1] = run forms) ∧
      List.Forall₂ (CaptureFree ["x", "x"] [.closure [] [.var "z"], .number 1])
        [.lambda ["z"] [.app (.var "x") [.var "z"]]] forms :=
  ⟨rfl, applyWith_closure_captures_nothing rfl⟩

end Evaluator

end MiniScheme
