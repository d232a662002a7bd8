import MiniScheme.Expr.Traversal
import MiniScheme.Proofs.NamelessView

/-! # Declarations in expressions

Procedures and local bindings are contours: each declares a list of names. Definitions declare no names
but have targets. Substitution by references changes no contour, and what is defined shows in the nameless
view. A top-level form is a definition or an expression; either way it has one part that is evaluated. -/

namespace MiniScheme

/-- Joining the lists that the items of a list have is joining what each item has. -/
theorem flatten_flatMap {β γ : Type} (items : List β) (lists : β → List (List γ)) :
    (items.flatMap lists).flatten = items.flatMap fun item => (lists item).flatten := by
  simp only [List.flatten_eq_flatMap, List.flatMap_assoc]

namespace Expr

mutual

/-- The contours in an expression: the lists of names that procedures and local bindings declare, outer
contours before inner ones and left before right. -/
def contours : Expr → List (List String)
  | .num _ | .bool _ | .str _ | .var _ | .lit _ | .prim _ => []
  | .cond test consequent alternative => contours test ++ contours consequent ++ contours alternative
  | .lambda params body => params :: contoursAll body
  | .app operator operands => contours operator ++ contoursAll operands
  | .letIn bindings body => bindings.map Prod.fst :: (contoursBound bindings ++ contoursAll body)
  | .define _ value => contours value

/-- The contours in a list of expressions. -/
def contoursAll : List Expr → List (List String)
  | [] => []
  | expr :: exprs => contours expr ++ contoursAll exprs

/-- The contours in the bound expressions of bindings. -/
def contoursBound : List (String × Expr) → List (List String)
  | [] => []
  | (_, value) :: bindings => contours value ++ contoursBound bindings

end

mutual

/-- The targets of the definitions in an expression. -/
def definedNames : Expr → List String
  | .num _ | .bool _ | .str _ | .var _ | .lit _ | .prim _ => []
  | .cond test consequent alternative =>
      definedNames test ++ definedNames consequent ++ definedNames alternative
  | .lambda _ body => definedNamesAll body
  | .app operator operands => definedNames operator ++ definedNamesAll operands
  | .letIn bindings body => definedNamesBound bindings ++ definedNamesAll body
  | .define name value => name :: definedNames value

/-- The targets of the definitions in a list of expressions. -/
def definedNamesAll : List Expr → List String
  | [] => []
  | expr :: exprs => definedNames expr ++ definedNamesAll exprs

/-- The targets of the definitions in the bound expressions of bindings. -/
def definedNamesBound : List (String × Expr) → List String
  | [] => []
  | (_, value) :: bindings => definedNames value ++ definedNamesBound bindings

end

/-- The contours in a list are those in its elements. -/
@[simp] theorem contoursAll_eq_flatMap (exprs : List Expr) :
    contoursAll exprs = exprs.flatMap contours := by
  induction exprs with
  | nil => rfl
  | cons _ _ ih => simp only [contoursAll, List.flatMap_cons, ih]

/-- The contours in bindings are those in the bound expressions. -/
@[simp] theorem contoursBound_eq_flatMap (bindings : List (String × Expr)) :
    contoursBound bindings = bindings.flatMap fun binding => contours binding.2 := by
  induction bindings with
  | nil => rfl
  | cons _ _ ih => simp only [contoursBound, List.flatMap_cons, ih]

/-- What is defined in a list is defined in its elements. -/
@[simp] theorem definedNamesAll_eq_flatMap (exprs : List Expr) :
    definedNamesAll exprs = exprs.flatMap definedNames := by
  induction exprs with
  | nil => rfl
  | cons _ _ ih => simp only [definedNamesAll, List.flatMap_cons, ih]

/-- What is defined in bindings is defined in the bound expressions. -/
@[simp] theorem definedNamesBound_eq_flatMap (bindings : List (String × Expr)) :
    definedNamesBound bindings = bindings.flatMap fun binding => definedNames binding.2 := by
  induction bindings with
  | nil => rfl
  | cons _ _ ih => simp only [definedNamesBound, List.flatMap_cons, ih]

/-! ## Declarations in the immediate sub-expressions -/

/-- What holds of an expression whenever it holds of its immediate sub-expressions holds of all. -/
theorem induction_children {motive : Expr → Prop}
    (step : ∀ outer, (∀ child ∈ outer.children, motive child) → motive outer) (expr : Expr) :
    motive expr := by
  induction expr with
  | num | bool | str | var | lit | prim => exact step _ (List.forall_mem_nil _)
  | cond test consequent alternative ihTest ihConsequent ihAlternative =>
      refine step _ (List.forall_mem_cons.2 ⟨ihTest, List.forall_mem_cons.2 ⟨ihConsequent, ?_⟩⟩)
      exact List.forall_mem_singleton.2 ihAlternative
  | lambda params body ihBody => exact step _ ihBody
  | app operator operands ihOperator ihOperands =>
      exact step _ (List.forall_mem_cons.2 ⟨ihOperator, ihOperands⟩)
  | letIn bindings body ihBindings ihBody =>
      exact step _ (List.forall_mem_append.2 ⟨List.forall_mem_map.2 ihBindings, ihBody⟩)
  | define name value ihValue => exact step _ (List.forall_mem_singleton.2 ihValue)

/-- The names that an expression itself declares, if it is a procedure or has local bindings. -/
def contour? : Expr → Option (List String)
  | .lambda params _ => some params
  | .letIn bindings _ => some (bindings.map Prod.fst)
  | _ => none

/-- The contours in an expression are its own and those in its immediate sub-expressions. -/
theorem contours_eq_append (expr : Expr) :
    expr.contours = expr.contour?.toList ++ expr.children.flatMap contours := by
  cases expr <;> simp [contours, contour?, children, List.flatMap_map]

/-- The names declared in an expression are its own and those declared in its immediate sub-expressions. -/
theorem boundNames_eq_append (expr : Expr) :
    expr.boundNames = expr.contour?.getD [] ++ expr.children.flatMap boundNames := by
  cases expr <;> simp [boundNames, contour?, children, List.flatMap_map]

/-- The names that an expression declares are those of its contours. -/
theorem flatten_contours (expr : Expr) : expr.contours.flatten = expr.boundNames := by
  induction expr using induction_children with
  | step outer ih =>
      have own : outer.contour?.toList.flatten = outer.contour?.getD [] := by
        cases outer.contour? <;> simp
      rw [contours_eq_append, boundNames_eq_append, List.flatten_append, flatten_flatMap, own,
        List.flatMap_congr ih]

/-! ## Substitution in the immediate sub-expressions -/

/-- Whether an expression becomes another one when some entries of a substitution are applied to it. -/
def SubstitutedWithin (substitution : Substitution) (expr result : Expr) : Prop :=
  ∃ entries ⊆ substitution, result = expr.subst entries

variable {outer : Expr}

/-- Substitution in an expression that is no reference is substitution in its immediate sub-expressions, by the
entries that the declarations of the expression leave. -/
theorem substitutedWithin_children (substitution : Substitution)
    (noReference : ∀ name, outer ≠ .var name) :
    List.Forall₂ (SubstitutedWithin substitution) outer.children (outer.subst substitution).children := by
  have fully (expr : Expr) : SubstitutedWithin substitution expr (expr.subst substitution) :=
    ⟨substitution, List.Subset.refl _, rfl⟩
  have inScope (names : List String) (expr : Expr) :
      SubstitutedWithin substitution expr (expr.subst (substitution.without names)) :=
    ⟨_, fun _ kept => Substitution.mem_of_mem_without kept, rfl⟩
  cases outer with
  | num | bool | str | lit | prim => exact .nil
  | var name => exact absurd rfl (noReference name)
  | cond test consequent alternative =>
      exact .cons (fully test) (.cons (fully consequent) (.cons (fully alternative) .nil))
  | lambda params body =>
      simp only [subst, children, substAll_eq_map, List.forall₂_map_right_iff, List.forall₂_same]
      exact fun form _ => inScope params form
  | app operator operands =>
      simp only [subst, children, substAll_eq_map, List.forall₂_cons, List.forall₂_map_right_iff,
        List.forall₂_same]
      exact ⟨fully operator, fun operand _ => fully operand⟩
  | letIn bindings body =>
      simp only [subst, children, substAll_eq_map, substBindings_eq_map, List.map_map]
      refine List.rel_append ?_ ?_ <;>
        simp only [List.forall₂_map_left_iff, List.forall₂_map_right_iff, List.forall₂_same]
      · exact fun binding _ => fully binding.2
      · exact fun form _ => inScope _ form
  | define target value => exact .cons (fully value) .nil

/-- Substitution in an expression that is no reference keeps the names that it declares itself. -/
theorem contour?_subst (substitution : Substitution) (noReference : ∀ name, outer ≠ .var name) :
    (outer.subst substitution).contour? = outer.contour? := by
  cases outer with
  | var name => exact absurd rfl (noReference name)
  | letIn bindings body => simp [subst, contour?, Function.comp_def]
  | _ => rfl

/-- References in place of references change no query that an expression answers from the names that it
declares itself and from what its immediate sub-expressions answer. -/
theorem query_subst {α : Type} {query : Expr → List α}
    (answer : Option (List String) → List α → List α)
    (step : ∀ expr, query expr = answer expr.contour? (expr.children.flatMap query))
    {substitution : Substitution} (references : ∀ entry ∈ substitution, ∃ name, entry.2 = .var name)
    (expr : Expr) : query (expr.subst substitution) = query expr := by
  induction expr using induction_children generalizing substitution with
  | step outer ih =>
      by_cases reference : ∃ name, outer = .var name
      · obtain ⟨name, rfl⟩ := reference
        rw [subst, Substitution.apply]
        cases found : substitution.lookup name with
        | none => rfl
        | some replacement =>
            obtain ⟨other, rfl⟩ := references _ (mem_of_lookup_eq_some found)
            rw [Option.getD_some, step, step (var name)]
            rfl
      · have noReference := not_exists.1 reference
        have below : outer.children.map query = (outer.subst substitution).children.map query := by
          rw [← List.forall₂_eq_eq_eq, List.forall₂_map_left_iff, List.forall₂_map_right_iff]
          have related := (List.forall₂_and_left _ _).2
            ⟨ih, substitutedWithin_children substitution noReference⟩
          refine related.imp fun child result replaced => ?_
          obtain ⟨kept, entries, among, rfl⟩ := replaced
          exact (kept fun entry member => references entry (among member)).symm
        rw [step, step outer, contour?_subst substitution noReference, List.flatMap, List.flatMap, below]

end Expr

/-! ## Definitions in the nameless view -/

namespace Nameless

variable {α : Type}

mutual

/-- The targets of the definitions in a nameless tree. -/
def definedNames : Nameless α → List String
  | .num _ | .bool _ | .str _ | .ref _ | .lit _ | .prim _ => []
  | .cond test consequent alternative =>
      definedNames test ++ definedNames consequent ++ definedNames alternative
  | .lambda _ body => definedNamesAll body
  | .app operator operands => definedNames operator ++ definedNamesAll operands
  | .letIn values body => definedNamesAll values ++ definedNamesAll body
  | .define name value => name :: definedNames value

/-- The targets of the definitions in a list of nameless trees. -/
def definedNamesAll : List (Nameless α) → List String
  | [] => []
  | tree :: trees => definedNames tree ++ definedNamesAll trees

end

/-- What is defined in a list is defined in its trees. -/
@[simp] theorem definedNamesAll_eq_flatMap (trees : List (Nameless α)) :
    definedNamesAll trees = trees.flatMap definedNames := by
  induction trees with
  | nil => rfl
  | cons _ _ ih => simp only [definedNamesAll, List.flatMap_cons, ih]

end Nameless

/-- The definitions in an expression show in its nameless view. -/
theorem Expr.definedNames_nameless {α : Type} (literal : Value → α) (contours : List (List String))
    (expr : Expr) : (expr.nameless literal contours).definedNames = expr.definedNames := by
  induction expr generalizing contours with
  | num | bool | str | var | lit | prim => rfl
  | cond test consequent alternative ihTest ihConsequent ihAlternative =>
      simp only [nameless, Nameless.definedNames, definedNames, ihTest, ihConsequent, ihAlternative]
  | lambda params body ihBody =>
      simp only [nameless, namelessAll_eq_map, Nameless.definedNames,
        Nameless.definedNamesAll_eq_flatMap, definedNames, definedNamesAll_eq_flatMap, List.flatMap_map]
      exact List.flatMap_congr fun form member => ihBody form member (params :: contours)
  | app operator operands ihOperator ihOperands =>
      simp only [nameless, namelessAll_eq_map, Nameless.definedNames,
        Nameless.definedNamesAll_eq_flatMap, definedNames, definedNamesAll_eq_flatMap, List.flatMap_map,
        ihOperator]
      congr 1
      exact List.flatMap_congr fun operand member => ihOperands operand member contours
  | letIn bindings body ihBindings ihBody =>
      simp only [nameless, namelessAll_eq_map, namelessBound_eq_map, Nameless.definedNames,
        Nameless.definedNamesAll_eq_flatMap, definedNames, definedNamesAll_eq_flatMap,
        definedNamesBound_eq_flatMap, List.flatMap_map]
      congr 1
      · exact List.flatMap_congr fun binding member => ihBindings binding member contours
      · exact List.flatMap_congr fun form member =>
          ihBody form member (bindings.map Prod.fst :: contours)
  | define name value ihValue => simp only [nameless, Nameless.definedNames, definedNames, ihValue]

/-! ## Top-level forms -/

namespace Expr

/-- The name that a form defines, if it is a definition. -/
def target? : Expr → Option String
  | .define name _ => some name
  | _ => none

/-- The part of a form that is evaluated: the value of a definition, or else the form itself. -/
def content : Expr → Expr
  | .define _ value => value
  | other => other

/-- The contours in a form are those in what is evaluated of it. -/
@[simp] theorem contours_content (form : Expr) : form.content.contours = form.contours := by
  cases form <;> rfl

end Expr

namespace Nameless

variable {α : Type}

/-- The name that a nameless form defines, if it is a definition. -/
def target? : Nameless α → Option String
  | .define name _ => some name
  | _ => none

/-- The part of a nameless form that is evaluated. -/
def content : Nameless α → Nameless α
  | .define _ value => value
  | other => other

end Nameless

namespace Expr

variable {α : Type} (literal : Value → α) (contours : List (List String))

/-- Whether a form is a definition, and of which name, shows in the nameless view. -/
theorem target?_nameless (form : Expr) : (form.nameless literal contours).target? = form.target? := by
  cases form <;> rfl

/-- The nameless view of what is evaluated of a form is part of that of the form. -/
theorem content_nameless (form : Expr) :
    (form.nameless literal contours).content = form.content.nameless literal contours := by
  cases form <;> rfl

end Expr

end MiniScheme
