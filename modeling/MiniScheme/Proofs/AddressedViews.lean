import MiniScheme.Proofs.AddressedForms
import MiniScheme.Proofs.BoundNameInvariance

/-! # Addresses and nameless views

Addressing accepts whatever the parser makes, and finds for every reference what the nameless view has for
it once local bindings are replaced: the first visible declaration of a name is the declaration in the
innermost contour that has the name. -/

namespace MiniScheme

/-! ## Nameless views of addressed trees -/

/-- The nameless tree of a free name: the primitive operator with this keyword, or else a reference. -/
def Term.ofFreeName (name : String) : Term :=
  match Primitive.ofKeyword? name with
  | some op => .prim op
  | none => .ref (.free name)

/-- The nameless tree of a reference with an address. -/
def Reference.nameless : Reference → Term
  | .free name => .ofFreeName name
  | .bound address => .ref (.bound address.depth address.position)

namespace LexExpr

mutual

/-- The nameless tree of an addressed tree. -/
def nameless : LexExpr → Term
  | .num value => .num value
  | .bool value => .bool value
  | .str value => .str value
  | .lit value => .lit (.ofData value)
  | .var name => .ofFreeName name
  | .ref reference => reference.nameless
  | .cond test consequent alternative =>
      .cond test.nameless consequent.nameless alternative.nameless
  | .lambda params body => .lambda params.length (namelessAll body)
  | .app operator operands => .app operator.nameless (namelessAll operands)

/-- The nameless trees of a list of addressed trees. -/
def namelessAll : List LexExpr → List Term
  | [] => []
  | tree :: trees => tree.nameless :: namelessAll trees

end

/-- The nameless view of a list is that of each tree. -/
@[simp] theorem namelessAll_eq_map (trees : List LexExpr) : namelessAll trees = trees.map nameless := by
  induction trees with
  | nil => rfl
  | cons _ _ ih => simp only [namelessAll, List.map_cons, ih]

end LexExpr

/-- The nameless view of an addressed form. -/
def AddressedForm.nameless : AddressedForm → Term
  | .define name value => .define name value.nameless
  | .expr tree => tree.nameless

/-- Legible data have no procedures, so that their view keeps everything. -/
theorem Value.Legible.view_eq_ofData {value : Value} (legible : value.Legible) :
    value.view = .ofData value := by
  induction legible with
  | cons noDot first second ihFirst ihSecond => rw [view, ihFirst, ihSecond, ValueOver.ofData]
  | number | bool | string | symbol | nil => simp only [view, ValueOver.ofData]

/-! ## References -/

/-- A name that is no keyword resolves to what it refers to in the nameless view. -/
theorem Reference.nameless_resolve {name : String} (notKeyword : Primitive.ofKeyword? name = none)
    (contours : List (List String)) :
    (resolve name (Address.visibleIn contours)).nameless = .ref (.locate name contours) := by
  -- A declared name has an address, and any other stays free and is no operator.
  by_cases declared : name ∈ contours.flatten
  · obtain ⟨depth, position, located, -⟩ := Pointer.exists_locate_of_mem declared
    rw [resolve_visibleIn, located]
    rfl
  · rw [resolve_eq_free_iff.2 declared, Pointer.locate_of_notMem declared, nameless, Term.ofFreeName,
      notKeyword]

/-! ## Legible expressions -/

namespace Expr

variable {contours : List (List String)}

/-- A word that denotes a reference is no keyword. -/
theorem ofKeyword?_eq_none_of_ofWord {name : String} (isName : ofWord name = .var name) :
    Primitive.ofKeyword? name = none := by
  cases keyword : Primitive.ofKeyword? name with
  | none => rfl
  | some op =>
      unfold ofWord at isName
      rw [keyword] at isName
      split at isName
      · cases isName
      split at isName
      · cases isName
      split at isName <;> cases isName

/-- Nothing is defined inside a legible expression. -/
theorem Legible.definedNames_eq_nil {expr : Expr} (legible : expr.Legible) : expr.definedNames = [] := by
  induction legible with
  | num | bool | str | var | lit | prim => rfl
  | cond _ _ _ ihTest ihConsequent ihAlternative =>
      rw [definedNames, ihTest, ihConsequent, ihAlternative]
      rfl
  | lambda _ _ _ _ ihBody =>
      rw [definedNames, definedNamesAll_eq_flatMap, List.flatMap_eq_nil_iff]
      exact ihBody
  | app _ _ _ ihOperator ihOperands =>
      rw [definedNames, definedNamesAll_eq_flatMap, List.append_eq_nil_iff, List.flatMap_eq_nil_iff]
      exact ⟨ihOperator, ihOperands⟩
  | letIn _ _ _ _ _ ihBindings ihBody =>
      rw [definedNames, definedNamesAll_eq_flatMap, definedNamesBound_eq_flatMap,
        List.append_eq_nil_iff, List.flatMap_eq_nil_iff, List.flatMap_eq_nil_iff]
      exact ⟨ihBindings, ihBody⟩

/-- The contours of a legible expression are accepted. -/
theorem Legible.accepted {expr : Expr} (legible : expr.Legible) :
    ∀ names ∈ expr.contours, AcceptedContour names := by
  induction legible with
  | num | bool | str | var | lit | prim => exact List.forall_mem_nil _
  | cond _ _ _ ihTest ihConsequent ihAlternative =>
      exact List.forall_mem_append.2 ⟨List.forall_mem_append.2 ⟨ihTest, ihConsequent⟩, ihAlternative⟩
  | lambda bindable distinct _ _ ihBody =>
      rw [contours, contoursAll_eq_flatMap, List.forall_mem_cons, List.forall_mem_flatMap]
      exact ⟨⟨distinct, fun name member => (bindable name member).notKeyword⟩, ihBody⟩
  | app _ _ _ ihOperator ihOperands =>
      rw [contours, contoursAll_eq_flatMap, List.forall_mem_append, List.forall_mem_flatMap]
      exact ⟨ihOperator, ihOperands⟩
  | letIn bindable distinct _ _ _ ihBindings ihBody =>
      rw [contours, contoursAll_eq_flatMap, contoursBound_eq_flatMap, List.forall_mem_cons,
        List.forall_mem_append, List.forall_mem_flatMap, List.forall_mem_flatMap]
      refine ⟨⟨distinct, ?_⟩, ihBindings, ihBody⟩
      exact List.forall_mem_map.2 fun binding member => (bindable binding member).notKeyword

/-- Inside contours without keywords, the addresses that a legible expression gets are those that its
nameless view has once local bindings are replaced. -/
theorem Legible.nameless_resolved {expr : Expr} (legible : expr.Legible)
    (noKeyword : ∀ name ∈ contours.flatten, Primitive.ofKeyword? name = none) :
    (expr.lexical.resolved contours).nameless = expr.eliminateLets.nameless Value.view contours := by
  induction legible generalizing contours with
  | num | bool | str => rfl
  | var isWord isName =>
      exact Reference.nameless_resolve (ofKeyword?_eq_none_of_ofWord isName) contours
  | lit data =>
      rw [eliminateLets, nameless, data.view_eq_ofData]
      rfl
  | prim op =>
      -- No contour declares the keyword of an operator, so the keyword is free everywhere.
      have undeclared := Primitive.keyword_notMem noKeyword op
      rw [lexical, LexExpr.resolved, Reference.resolve_eq_free_iff.2 undeclared, LexExpr.nameless,
        Reference.nameless, Term.ofFreeName, Primitive.ofKeyword?_keyword]
      rfl
  | cond _ _ _ ihTest ihConsequent ihAlternative =>
      rw [lexical, LexExpr.resolved, LexExpr.nameless, eliminateLets, nameless, ihTest noKeyword,
        ihConsequent noKeyword, ihAlternative noKeyword]
  | lambda bindable distinct nonempty inBody ihBody =>
      have notKeyword name member := (bindable name member).notKeyword
      -- Inside, the parameters are one more contour without keywords.
      have further := List.forall_mem_append.2 ⟨notKeyword, noKeyword⟩
      simp only [lexical, lexicalAll_eq_map, LexExpr.resolved, LexExpr.resolvedAll_eq_map,
        LexExpr.nameless, LexExpr.namelessAll_eq_map, eliminateLets, eliminateLetsAll_eq_map, nameless,
        namelessAll_eq_map, List.map_map]
      congr 1
      exact List.map_congr_left fun form member => ihBody form member further
  | app plain inOperator inOperands ihOperator ihOperands =>
      simp only [lexical, lexicalAll_eq_map, LexExpr.resolved, LexExpr.resolvedAll_eq_map,
        LexExpr.nameless, LexExpr.namelessAll_eq_map, eliminateLets, eliminateLetsAll_eq_map, nameless,
        namelessAll_eq_map, List.map_map, ihOperator noKeyword]
      congr 1
      exact List.map_congr_left fun operand member => ihOperands operand member noKeyword
  | letIn bindable distinct inBindings nonempty inBody ihBindings ihBody =>
      have notKeyword : ∀ name ∈ _, Primitive.ofKeyword? name = none :=
        List.forall_mem_map.2 fun binding member => (bindable binding member).notKeyword
      have further := List.forall_mem_append.2 ⟨notKeyword, noKeyword⟩
      -- Local bindings have become the application of a procedure to the bound expressions.
      simp only [lexical, lexicalAll_eq_map, lexicalBound_eq_map, LexExpr.resolved,
        LexExpr.resolvedAll_eq_map, LexExpr.nameless, LexExpr.namelessAll_eq_map, eliminateLets,
        eliminateLetsAll_eq_map, eliminateLetsBound_eq_map, nameless, namelessAll_eq_map, List.map_map]
      refine congrArg₂ Nameless.app (congrArg (Nameless.lambda _) ?_) ?_
      · exact List.map_congr_left fun form member => ihBody form member further
      · exact List.map_congr_left fun binding member => ihBindings binding member noKeyword

variable {form : Expr}

/-- What is evaluated of a legible form is legible. -/
theorem LegibleForm.content (legible : form.LegibleForm) : form.content.Legible := by
  cases legible with
  | define _ inValue => exact inValue
  | expr legible =>
      -- No definition is a legible expression, so the form itself is evaluated.
      cases form with
      | define name value => cases legible
      | _ => exact legible

/-- Legible forms are addressable. -/
theorem LegibleForm.addressable (legible : form.LegibleForm) : form.Addressable where
  plain := legible.content.definedNames_eq_nil
  accepted := by
    rw [← contours_content]
    exact legible.content.accepted

/-- The addresses that a legible form gets are those of its nameless view. -/
theorem LegibleForm.nameless_resolved (legible : form.LegibleForm) :
    (AddressedForm.resolved form).nameless = form.eliminateLets.nameless Value.view [] := by
  have noContour : ∀ name ∈ List.flatten [], Primitive.ofKeyword? name = none := List.forall_mem_nil _
  have same := legible.content.nameless_resolved noContour
  cases form with
  | define name value => exact congrArg (Nameless.define name) same
  | _ => exact same

end Expr

/-- A legible program is addressed, and its nameless view is found. -/
theorem Program.Legible.exists_addressed {program : Program} (legible : program.Legible) :
    ∃ forms, program.address = .ok forms ∧
      forms.map AddressedForm.nameless = program.eliminateLets.view := by
  have addressable form member := (legible.forms form member).addressable
  refine ⟨_, address_eq_ok_iff.2 ⟨addressable, rfl⟩, ?_⟩
  rw [view, eliminateLets, List.map_map, List.map_map]
  exact List.map_congr_left fun form member => (legible.forms form member).nameless_resolved

end MiniScheme
