import MiniScheme.Proofs.Declarations
import MiniScheme.Proofs.ExactAddresses

/-! # Which programs are addressed

A form is addressed exactly when nothing is defined inside it and every contour in it is accepted. The
result is the addressable tree of the form, in which local bindings are applications, with an address at
each reference. A program is addressed exactly when all of its forms are. -/

namespace MiniScheme

/-! ## The addressable tree of an expression -/

namespace Expr

mutual

/-- The addressable tree of an expression, with an application in place of local bindings. A definition,
which has no place in such a tree, is no more than its value here. -/
def lexical : Expr → LexExpr
  | .num value => .num value
  | .bool value => .bool value
  | .str value => .str value
  | .var name => .var name
  | .lit value => .lit value
  | .prim op => .var op.keyword
  | .cond test consequent alternative =>
      .cond test.lexical consequent.lexical alternative.lexical
  | .lambda params body => .lambda params (lexicalAll body)
  | .app operator operands => .app operator.lexical (lexicalAll operands)
  | .letIn bindings body =>
      .app (.lambda (bindings.map Prod.fst) (lexicalAll body)) (lexicalBound bindings)
  | .define _ value => value.lexical

/-- The addressable trees of a list of expressions. -/
def lexicalAll : List Expr → List LexExpr
  | [] => []
  | expr :: exprs => expr.lexical :: lexicalAll exprs

/-- The addressable trees of the bound expressions of bindings. -/
def lexicalBound : List (String × Expr) → List LexExpr
  | [] => []
  | (_, value) :: bindings => value.lexical :: lexicalBound bindings

end

/-- The addressable trees of a list are those of each expression. -/
@[simp] theorem lexicalAll_eq_map (exprs : List Expr) : lexicalAll exprs = exprs.map lexical := by
  induction exprs with
  | nil => rfl
  | cons _ _ ih => simp only [lexicalAll, List.map_cons, ih]

/-- The addressable trees of bindings are those of each bound expression. -/
@[simp] theorem lexicalBound_eq_map (bindings : List (String × Expr)) :
    lexicalBound bindings = bindings.map fun binding => binding.2.lexical := by
  induction bindings with
  | nil => rfl
  | cons _ _ ih => simp only [lexicalBound, List.map_cons, ih]

/-- Whether an expression, without its local bindings, has an addressable tree exactly when nothing is
defined in it. -/
abbrev HasLexical (expr : Expr) : Prop :=
  ∀ tree, LexExpr.ofExpr expr.eliminateLets = .ok tree ↔ expr.definedNames = [] ∧ expr.lexical = tree

/-- The addressable trees of a list without its local bindings are made one by one. -/
theorem ofExprs_eliminateLets_eq_mapM (exprs : List Expr) :
    LexExpr.ofExprs (eliminateLetsAll exprs) =
      exprs.mapM fun expr => LexExpr.ofExpr expr.eliminateLets := by
  induction exprs with
  | nil => rfl
  | cons _ _ ih => rw [eliminateLetsAll, LexExpr.ofExprs, List.mapM_cons, ih]

/-- The addressable tree of a procedure. -/
theorem HasLexical.lambda {params : List String} {body : List Expr}
    (inBody : ∀ form ∈ body, form.HasLexical) : (Expr.lambda params body).HasLexical := by
  intro tree
  rw [eliminateLets, LexExpr.ofExpr, ofExprs_eliminateLets_eq_mapM, definedNames, lexical,
    definedNamesAll_eq_flatMap, lexicalAll_eq_map, List.flatMap_eq_nil_iff]
  simp only [bind_eq_ok_iff, mapM_eq_ok_iff inBody]
  constructor
  · rintro ⟨_, ⟨plain, rfl⟩, same⟩
    exact ⟨plain, Except.ok.inj same⟩
  · rintro ⟨plain, rfl⟩
    exact ⟨_, ⟨plain, rfl⟩, rfl⟩

/-- The addressable tree of an application. -/
theorem HasLexical.app {operator : Expr} {operands : List Expr} (first : operator.HasLexical)
    (others : ∀ operand ∈ operands, operand.HasLexical) : (Expr.app operator operands).HasLexical := by
  intro tree
  rw [eliminateLets, LexExpr.ofExpr, ofExprs_eliminateLets_eq_mapM, definedNames, lexical,
    definedNamesAll_eq_flatMap, lexicalAll_eq_map, List.append_eq_nil_iff, List.flatMap_eq_nil_iff]
  simp only [bind_eq_ok_iff, first _, mapM_eq_ok_iff others]
  constructor
  · rintro ⟨_, ⟨inOperator, rfl⟩, _, ⟨inOperands, rfl⟩, same⟩
    exact ⟨⟨inOperator, inOperands⟩, Except.ok.inj same⟩
  · rintro ⟨⟨inOperator, inOperands⟩, rfl⟩
    exact ⟨_, ⟨inOperator, rfl⟩, _, ⟨inOperands, rfl⟩, rfl⟩

/-- Every expression has an addressable tree exactly when nothing is defined in it. -/
theorem hasLexical (expr : Expr) : expr.HasLexical := by
  induction expr with
  | num | bool | str | var | lit | prim =>
      simp [HasLexical, eliminateLets, LexExpr.ofExpr, definedNames, lexical]
  | cond test consequent alternative ihTest ihConsequent ihAlternative =>
      intro tree
      rw [eliminateLets, LexExpr.ofExpr, definedNames, lexical, List.append_eq_nil_iff,
        List.append_eq_nil_iff]
      simp only [bind_eq_ok_iff, ihTest _, ihConsequent _, ihAlternative _]
      constructor
      · rintro ⟨_, ⟨inTest, rfl⟩, _, ⟨inConsequent, rfl⟩, _, ⟨inAlternative, rfl⟩, same⟩
        exact ⟨⟨⟨inTest, inConsequent⟩, inAlternative⟩, Except.ok.inj same⟩
      · rintro ⟨⟨⟨inTest, inConsequent⟩, inAlternative⟩, rfl⟩
        exact ⟨_, ⟨inTest, rfl⟩, _, ⟨inConsequent, rfl⟩, _, ⟨inAlternative, rfl⟩, rfl⟩
  | lambda params body ihBody => exact .lambda ihBody
  | app operator operands ihOperator ihOperands => exact .app ihOperator ihOperands
  | letIn bindings body ihBindings ihBody =>
      -- Local bindings are read as the application of a procedure to the bound expressions.
      intro tree
      have asApp : (Expr.app (.lambda (bindings.map Prod.fst) body) (bindings.map Prod.snd)).HasLexical :=
        .app (.lambda ihBody) (List.forall_mem_map.2 ihBindings)
      have same := asApp tree
      simp only [eliminateLets, eliminateLetsAll_eq_map, eliminateLetsBound_eq_map, definedNames,
        definedNamesAll_eq_flatMap, definedNamesBound_eq_flatMap, lexical, lexicalAll_eq_map,
        lexicalBound_eq_map, List.map_map, List.flatMap_map, List.append_eq_nil_iff,
        Function.comp_def] at same ⊢
      rw [same, and_comm (a := body.flatMap definedNames = [])]
  | define name value ihValue => simp [HasLexical, eliminateLets, LexExpr.ofExpr, definedNames]

/-! ## When addressing succeeds -/

variable {around : List (List String)}

/-- The addressable tree of an expression is accepted exactly when the contours of the expression are. -/
theorem accepted_lexical_iff {expr : Expr} :
    expr.lexical.Accepted around ↔ ∀ names ∈ expr.contours, AcceptedContour names := by
  induction expr generalizing around with
  | num | bool | str | var | lit | prim =>
      simp [lexical, LexExpr.Accepted, LexExpr.occurrences, LexExpr.contours, contours]
  | cond test consequent alternative ihTest ihConsequent ihAlternative =>
      rw [lexical, LexExpr.accepted_cond_iff, contours, List.forall_mem_append, List.forall_mem_append,
        ihTest, ihConsequent, ihAlternative, and_assoc]
  | lambda params body ihBody =>
      rw [lexical, lexicalAll_eq_map, LexExpr.accepted_lambda_iff, contours, contoursAll_eq_flatMap,
        List.forall_mem_cons, List.forall_mem_map, List.forall_mem_flatMap]
      exact and_congr_right fun _ => forall₂_congr fun form member => ihBody form member
  | app operator operands ihOperator ihOperands =>
      rw [lexical, lexicalAll_eq_map, LexExpr.accepted_app_iff, contours, contoursAll_eq_flatMap,
        List.forall_mem_append, List.forall_mem_map, List.forall_mem_flatMap, ihOperator]
      exact and_congr_right fun _ => forall₂_congr fun operand member => ihOperands operand member
  | letIn bindings body ihBindings ihBody =>
      rw [lexical, lexicalAll_eq_map, lexicalBound_eq_map, LexExpr.accepted_app_iff,
        LexExpr.accepted_lambda_iff, contours, contoursAll_eq_flatMap, contoursBound_eq_flatMap,
        List.forall_mem_cons, List.forall_mem_append, List.forall_mem_map, List.forall_mem_map,
        List.forall_mem_flatMap, List.forall_mem_flatMap, and_assoc]
      refine and_congr_right fun _ => and_comm.trans (and_congr ?_ ?_)
      · exact forall₂_congr fun binding member => ihBindings binding member
      · exact forall₂_congr fun form member => ihBody form member
  | define name value ihValue => exact ihValue

/-- Forms that are addressed: nothing is defined inside them and every contour in them is accepted. -/
structure Addressable (form : Expr) : Prop where
  /-- Nothing is defined inside the form. -/
  plain : form.content.definedNames = []
  /-- The contours are accepted. -/
  accepted : ∀ names ∈ form.contours, AcceptedContour names

end Expr

namespace AddressedForm

/-- The addressed form with the given target, if it is a definition, and the given tree. -/
def ofParts (target? : Option String) (tree : LexExpr) : AddressedForm :=
  match target? with
  | some name => .define name tree
  | none => .expr tree

/-- The addressed form of a form: the addressable tree of what is evaluated, with an address at each
reference. -/
def resolved (form : Expr) : AddressedForm :=
  ofParts form.target? (form.content.lexical.resolved [])

/-- A form is addressed exactly when it is addressable. -/
theorem ofExpr_eq_ok_iff {form : Expr} {addressed : AddressedForm} :
    ofExpr form = .ok addressed ↔ form.Addressable ∧ resolved form = addressed := by
  have parts : ofExpr form = do
      return ofParts form.target? (← (← LexExpr.ofExpr form.content.eliminateLets).address) := by
    cases form <;> rfl
  have outcome (tree result : LexExpr) :
      tree.address = .ok result ↔ tree.Accepted [] ∧ tree.resolved [] = result :=
    @LexExpr.addressFrom_eq_ok_iff [] tree result
  rw [parts]
  simp only [bind_eq_ok_iff, form.content.hasLexical _, outcome]
  constructor
  · rintro ⟨_, ⟨plain, rfl⟩, _, ⟨accepted, rfl⟩, same⟩
    rw [Expr.accepted_lexical_iff, Expr.contours_content] at accepted
    exact ⟨⟨plain, accepted⟩, Except.ok.inj same⟩
  · rintro ⟨⟨plain, accepted⟩, rfl⟩
    rw [← Expr.contours_content, ← @Expr.accepted_lexical_iff []] at accepted
    exact ⟨_, ⟨plain, rfl⟩, _, ⟨accepted, rfl⟩, rfl⟩

end AddressedForm

/-- A program is addressed exactly when its forms are addressable. -/
theorem Program.address_eq_ok_iff {program : Program} {addressed : List AddressedForm} :
    program.address = .ok addressed ↔
      (∀ form ∈ program.forms, form.Addressable) ∧
        program.forms.map AddressedForm.resolved = addressed :=
  mapM_eq_ok_iff fun _ _ _ => AddressedForm.ofExpr_eq_ok_iff

end MiniScheme
