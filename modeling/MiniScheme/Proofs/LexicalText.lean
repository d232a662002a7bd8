import MiniScheme.Proofs.LetElimination

/-! # The text of addressable trees

An expression without local bindings and definitions is an addressable tree already, and the tree is written
as the expression is, up to one blank: between the parameters and the body of a procedure, an expression has
a blank even if there is no form in the body. So where every procedure has a form, both texts are the same. -/

namespace MiniScheme

/-- A blank stands between the first item and the others. -/
theorem spaced_cons {item : String} {items : List String} (nonempty : items ≠ []) :
    spaced (item :: items) = item ++ " " ++ spaced items := by
  obtain ⟨next, others, rfl⟩ := List.exists_cons_of_ne_nil nonempty
  rw [spaced, String.intercalate_cons_cons, spaced]

namespace Expr

variable {expr outer : Expr}

/-- Expressions in which no local bindings and no definitions stand, and every procedure has a form. Literals
may hold anything. -/
structure Core (expr : Expr) : Prop where
  /-- There are no local bindings. -/
  letFree : expr.LetFree
  /-- There are no definitions. -/
  defineFree : ∀ name value, ¬(define name value).Within expr
  /-- Every procedure has a form in its body. -/
  nonempty : ∀ params body, (lambda params body).Within expr → body ≠ []

/-- Whether an expression is itself neither local bindings nor a definition nor a procedure without a form. -/
def Plain : Expr → Prop
  | .letIn _ _ | .define _ _ => False
  | .lambda _ body => body ≠ []
  | _ => True

/-- Expressions of this kind are those within which everything is plain. -/
theorem core_iff_forall_plain : outer.Core ↔ ∀ inner : Expr, inner.Within outer → inner.Plain := by
  constructor
  · intro core inner within
    cases inner with
    | letIn bindings body => exact core.letFree bindings body within
    | define name value => exact core.defineFree name value within
    | lambda params body => exact core.nonempty params body within
    | _ => trivial
  · intro plain
    exact ⟨fun bindings body within => plain _ within, fun name value within => plain _ within,
      fun params body within => plain _ within⟩

/-- An expression is of this kind if it is plain itself and its parts are of this kind. -/
theorem core_iff : outer.Core ↔ outer.Plain ∧ ∀ child ∈ outer.children, child.Core := by
  simp only [core_iff_forall_plain]
  exact forall_within_iff

/-- Nothing is defined in such an expression. -/
theorem Core.definedNames_eq_nil (core : expr.Core) : expr.definedNames = [] := by
  rw [List.eq_nil_iff_forall_not_mem]
  intro name defined
  obtain ⟨value, within⟩ := mem_definedNames_iff.1 defined
  exact core.defineFree name value within

/-- A procedure with forms is written alike as an addressable tree and as an expression. -/
theorem text_lambda_eq {params : List String} {forms : List LexExpr} {body : List Expr}
    (nonempty : body ≠ []) (same : forms.map LexExpr.text = body.map text) :
    (LexExpr.lambda params forms).text = (lambda params body).text := by
  have written : body.map text ≠ [] := by simpa using nonempty
  have opening : "(lambda (" = "(" ++ "lambda (" := rfl
  have between : ") " = ")" ++ " " := rfl
  rw [LexExpr.text, LexExpr.texts_eq_map, same, spaced_cons written, text, texts_eq_map, opening, between]
  simp only [String.append_assoc]

/-- Without empty procedures, the addressable tree is written as the expression is. -/
theorem Core.text_lexical (core : expr.Core) : expr.lexical.text = expr.text := by
  induction expr with
  | num | bool | str | var | lit | prim => rfl
  | cond test consequent alternative ihTest ihConsequent ihAlternative =>
      have parts := (core_iff.1 core).2
      simp only [children, List.forall_mem_cons] at parts
      obtain ⟨inTest, inConsequent, inAlternative, -⟩ := parts
      rw [lexical, LexExpr.text, ihTest inTest, ihConsequent inConsequent, ihAlternative inAlternative, text]
  | lambda params body ihBody =>
      have inBody : ∀ form ∈ body, form.Core := (core_iff.1 core).2
      rw [lexical, lexicalAll_eq_map]
      refine text_lambda_eq (core.nonempty params body .refl) ?_
      rw [List.map_map]
      exact List.map_congr_left fun form member => ihBody form member (inBody form member)
  | app operator operands ihOperator ihOperands =>
      obtain ⟨inOperator, inOperands⟩ := List.forall_mem_cons.1 (core_iff.1 core).2
      have same : (operands.map lexical).map LexExpr.text = operands.map text := by
        rw [List.map_map]
        exact List.map_congr_left fun operand member =>
          ihOperands operand member (inOperands operand member)
      rw [lexical, lexicalAll_eq_map, LexExpr.text, LexExpr.texts_eq_map, ihOperator inOperator, same, text,
        texts_eq_map]
  | letIn bindings body => exact absurd .refl (core.letFree bindings body)
  | define name value => exact absurd .refl (core.defineFree name value)

/-- An expression without local bindings, definitions and empty procedures is an addressable tree, which has
the same text. -/
theorem exists_ofExpr_text_eq (core : expr.Core) :
    ∃ tree, LexExpr.ofExpr expr = .ok tree ∧ tree.text = expr.text := by
  have converted := (expr.hasLexical expr.lexical).2 ⟨core.definedNames_eq_nil, rfl⟩
  rw [core.letFree.eliminateLets_eq] at converted
  exact ⟨expr.lexical, converted, core.text_lexical⟩

/-- An operator is written by its keyword, and a literal may hold a procedure without forms. -/
theorem exists_ofExpr_text_eq_nested :
    let procedure : Expr := .lambda ["x", "y"] [.var "x", .cond (.bool true) (.prim .car) (.var "y")]
    let pair : Expr := .lit (.cons (.symbol "a") (.closure ["z"] []))
    (app procedure [pair]).Core ∧
      ∃ tree, LexExpr.ofExpr (app procedure [pair]) = .ok tree ∧
        tree.text = "((lambda (x y) x (if #t car y)) '(a . #<procedure (z)>))" := by
  intro procedure pair
  have named (name : String) : (var name).Core := core_iff.2 (by simp [Plain, children])
  have yes : (bool true).Core := core_iff.2 (by simp [Plain, children])
  have car : (prim .car).Core := core_iff.2 (by simp [Plain, children])
  have choice : (cond (.bool true) (.prim .car) (.var "y")).Core :=
    core_iff.2 (by simp [Plain, children, yes, car, named])
  have inProcedure : procedure.Core := core_iff.2 (by simp [procedure, Plain, children, named, choice])
  have inPair : pair.Core := core_iff.2 (by simp [pair, Plain, children])
  have core : (app procedure [pair]).Core := core_iff.2 (by simp [Plain, children, inProcedure, inPair])
  obtain ⟨tree, converted, same⟩ := exists_ofExpr_text_eq core
  exact ⟨core, tree, converted, same⟩

/-- A procedure without forms is written in two ways. -/
example : (lambda ["x"] []).text = "(lambda (x) )" ∧ (LexExpr.lambda ["x"] []).text = "(lambda (x))" := by
  decide

end Expr

end MiniScheme
