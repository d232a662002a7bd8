import MiniScheme.Expr.Names
import MiniScheme.Expr.Substitution
import MiniScheme.Proofs.Nameless

/-! # The nameless view of expressions

`Expr.nameless` forgets the names of declarations: each reference becomes a pointer to what it refers to.
The view under some contours follows from the view under none. Substitution in an expression, which does
not rename, is replacement in the nameless view as long as no name free in a replacement is declared in
the expression. -/

namespace MiniScheme

variable {α : Type}

namespace Expr

mutual

/-- The nameless tree of an expression inside some contours, the innermost first, with literals given by
a function. -/
def nameless (literal : Value → α) (contours : List (List String)) : Expr → Nameless α
  | .num value => .num value
  | .bool value => .bool value
  | .str value => .str value
  | .var name => .ref (.locate name contours)
  | .lit value => .lit (literal value)
  | .prim op => .prim op
  | .cond test consequent alternative =>
      .cond (nameless literal contours test) (nameless literal contours consequent)
        (nameless literal contours alternative)
  | .lambda params body => .lambda params.length (namelessAll literal (params :: contours) body)
  | .app operator operands =>
      .app (nameless literal contours operator) (namelessAll literal contours operands)
  | .letIn bindings body =>
      .letIn (namelessBound literal contours bindings)
        (namelessAll literal (bindings.map Prod.fst :: contours) body)
  | .define name value => .define name (nameless literal contours value)

/-- The nameless trees of a list of expressions. -/
def namelessAll (literal : Value → α) (contours : List (List String)) :
    List Expr → List (Nameless α)
  | [] => []
  | expr :: exprs => nameless literal contours expr :: namelessAll literal contours exprs

/-- The nameless trees of the bound expressions of bindings. -/
def namelessBound (literal : Value → α) (contours : List (List String)) :
    List (String × Expr) → List (Nameless α)
  | [] => []
  | (_, value) :: bindings =>
      nameless literal contours value :: namelessBound literal contours bindings

end

/-- The nameless view of a list is that of each expression. -/
@[simp] theorem namelessAll_eq_map (literal : Value → α) (contours : List (List String))
    (exprs : List Expr) :
    namelessAll literal contours exprs = exprs.map (nameless literal contours) := by
  induction exprs with
  | nil => rfl
  | cons _ _ ih => simp only [namelessAll, List.map_cons, ih]

/-- The nameless view of bindings is that of each bound expression. -/
@[simp] theorem namelessBound_eq_map (literal : Value → α) (contours : List (List String))
    (bindings : List (String × Expr)) :
    namelessBound literal contours bindings =
      bindings.map fun binding => nameless literal contours binding.2 := by
  induction bindings with
  | nil => rfl
  | cons _ _ ih => simp only [namelessBound, List.map_cons, ih]

variable (literal : Value → α)

/-! ## Contours -/

/-- Leaving out what a contour declares and then what further contours declare. -/
theorem filter_filter_undeclared (names : List String) (contours : List (List String))
    (mentioned : List String) :
    (mentioned.filter fun name => !names.contains name).filter
        (fun name => !contours.flatten.contains name) =
      mentioned.filter fun name => !(names :: contours).flatten.contains name := by
  rw [List.filter_filter]
  refine List.filter_congr fun name _ => ?_
  simp [Bool.and_comm]

/-- The names that remain without what a contour declares. -/
theorem mem_filter_undeclared_iff {names mentioned : List String} {name : String} :
    name ∈ mentioned.filter (fun name => !names.contains name) ↔ name ∉ names ∧ name ∈ mentioned := by
  rw [List.mem_filter, and_comm]
  simp

/-- Every reference of the nameless view is in scope. -/
theorem scoped_nameless (contours : List (List String)) (expr : Expr) :
    (expr.nameless literal contours).Scoped (contours.map List.length) := by
  induction expr generalizing contours with
  | num | bool | str | lit | prim => trivial
  | var name => exact Pointer.inScope_locate name contours
  | cond test consequent alternative ihTest ihConsequent ihAlternative =>
      exact ⟨ihTest contours, ihConsequent contours, ihAlternative contours⟩
  | lambda params body ihBody =>
      simp only [nameless, namelessAll_eq_map, Nameless.Scoped, Nameless.scopedAll_iff,
        List.forall_mem_map]
      intro form member
      exact ihBody form member (params :: contours)
  | app operator operands ihOperator ihOperands =>
      simp only [nameless, namelessAll_eq_map, Nameless.Scoped, Nameless.scopedAll_iff,
        List.forall_mem_map]
      exact ⟨ihOperator contours, fun operand member => ihOperands operand member contours⟩
  | letIn bindings body ihBindings ihBody =>
      simp only [nameless, namelessAll_eq_map, namelessBound_eq_map, Nameless.Scoped,
        Nameless.scopedAll_iff, List.forall_mem_map, List.length_map]
      -- The bound expressions stand outside the contour of the bindings.
      refine ⟨fun binding member => ihBindings binding member contours, fun form member => ?_⟩
      simpa using ihBody form member (bindings.map Prod.fst :: contours)
  | define name value ihValue => exact ihValue contours

/-- The free names of the nameless view are those of the expression that no contour declares. -/
theorem freeNames_nameless (contours : List (List String)) (expr : Expr) :
    (expr.nameless literal contours).freeNames =
      expr.freeNames.filter fun name => !contours.flatten.contains name := by
  induction expr generalizing contours with
  | num | bool | str | lit | prim => rfl
  | var name =>
      rw [nameless, freeNames]
      by_cases declared : name ∈ contours.flatten
      · obtain ⟨depth, position, found, -⟩ := Pointer.exists_locate_of_mem declared
        rw [found, Nameless.freeNames, List.filter_cons_of_neg (by simpa using declared),
          List.filter_nil]
      · rw [Pointer.locate_of_notMem declared, Nameless.freeNames,
          List.filter_cons_of_pos (by simpa using declared), List.filter_nil]
  | cond test consequent alternative ihTest ihConsequent ihAlternative =>
      simp only [nameless, Nameless.freeNames, freeNames, List.filter_append, ihTest, ihConsequent,
        ihAlternative]
  | lambda params body ihBody =>
      simp only [nameless, namelessAll_eq_map, Nameless.freeNames, Nameless.freeNamesAll_eq_flatMap,
        freeNames, freeNamesAll_eq_flatMap]
      -- The expression drops the parameters, the view drops what any contour declares.
      rw [List.flatMap_map, filter_filter_undeclared, List.filter_flatMap]
      exact List.flatMap_congr fun form member => ihBody form member (params :: contours)
  | app operator operands ihOperator ihOperands =>
      simp only [nameless, namelessAll_eq_map, Nameless.freeNames, Nameless.freeNamesAll_eq_flatMap,
        freeNames, freeNamesAll_eq_flatMap]
      rw [List.flatMap_map, List.filter_append, List.filter_flatMap, ihOperator]
      congr 1
      exact List.flatMap_congr fun operand member => ihOperands operand member contours
  | letIn bindings body ihBindings ihBody =>
      simp only [nameless, namelessAll_eq_map, namelessBound_eq_map, Nameless.freeNames,
        Nameless.freeNamesAll_eq_flatMap, freeNames, freeNamesAll_eq_flatMap,
        freeNamesBound_eq_flatMap]
      rw [List.flatMap_map, List.flatMap_map, List.filter_append, filter_filter_undeclared,
        List.filter_flatMap, List.filter_flatMap]
      congr 1
      · exact List.flatMap_congr fun binding member => ihBindings binding member contours
      · exact List.flatMap_congr fun form member =>
          ihBody form member (bindings.map Prod.fst :: contours)
  | define name value ihValue => simp only [nameless, Nameless.freeNames, freeNames, ihValue]

/-- Under no contours the free names are those of the expression. -/
@[simp] theorem freeNames_nameless_nil (expr : Expr) :
    (expr.nameless literal []).freeNames = expr.freeNames := by
  rw [freeNames_nameless, List.filter_eq_self]
  simp

/-- The view under contours around others is the view under these, closed under the further ones. -/
theorem nameless_append (inner outer : List (List String)) (expr : Expr) :
    expr.nameless literal (inner ++ outer) =
      (expr.nameless literal inner).close outer inner.length := by
  rw [Nameless.close]
  -- Under a declaration the inner contours grow, and the outer ones stay the same.
  induction expr generalizing inner with
  | num | bool | str | lit | prim => rfl
  | var name =>
      rw [nameless, nameless, Nameless.mapRefs, Pointer.locate_append]
      by_cases declared : name ∈ inner.flatten
      · obtain ⟨depth, position, found, -⟩ := Pointer.exists_locate_of_mem declared
        rw [if_pos declared, found, Pointer.enclose]
        simp
      · rw [if_neg declared, Pointer.locate_of_notMem declared, Pointer.enclose]
  | cond test consequent alternative ihTest ihConsequent ihAlternative =>
      simp only [nameless, Nameless.mapRefs, ihTest, ihConsequent, ihAlternative]
  | lambda params body ihBody =>
      simp only [nameless, namelessAll_eq_map, Nameless.mapRefs, Nameless.mapRefsAll_eq_map,
        List.map_map]
      congr 1
      exact List.map_congr_left fun form member => ihBody form member (params :: inner)
  | app operator operands ihOperator ihOperands =>
      simp only [nameless, namelessAll_eq_map, Nameless.mapRefs, Nameless.mapRefsAll_eq_map,
        List.map_map, ihOperator]
      congr 1
      exact List.map_congr_left fun operand member => ihOperands operand member inner
  | letIn bindings body ihBindings ihBody =>
      simp only [nameless, namelessAll_eq_map, namelessBound_eq_map, Nameless.mapRefs,
        Nameless.mapRefsAll_eq_map, List.map_map]
      congr 1
      · exact List.map_congr_left fun binding member => ihBindings binding member inner
      · exact List.map_congr_left fun form member =>
          ihBody form member (bindings.map Prod.fst :: inner)
  | define name value ihValue => simp only [nameless, Nameless.mapRefs, ihValue]

/-- Contours that declare none of the free names change nothing. -/
theorem nameless_of_undeclared {contours : List (List String)} {expr : Expr}
    (undeclared : ∀ name ∈ expr.freeNames, name ∉ contours.flatten) :
    expr.nameless literal contours = expr.nameless literal [] := by
  have inScope : (expr.nameless literal []).Scoped [] := scoped_nameless literal [] expr
  calc expr.nameless literal contours
      = (expr.nameless literal []).close contours 0 := nameless_append literal [] contours expr
    _ = (expr.nameless literal []).mapRefs (fun _ pointer => .ref pointer) 0 := by
        refine Nameless.mapRefs_congr inScope ?_ fun _ _ _ _ => rfl
        intro depth name free
        rw [freeNames_nameless_nil] at free
        rw [Pointer.enclose, Pointer.locate_of_notMem (undeclared name free), Pointer.deeper]
    _ = expr.nameless literal [] := Nameless.mapRefs_ref 0 _

end Expr

/-! ## Substitution -/

namespace Substitution

/-- Leaving names alone and then further ones is leaving them all alone. -/
theorem without_without (substitution : Substitution) (names more : List String) :
    (substitution.without names).without more = substitution.without (more ++ names) := by
  rw [without, without, without, List.filter_filter]
  refine List.filter_congr fun entry _ => ?_
  simp

/-- Leaving names alone adds no replacement. -/
theorem mem_of_mem_without {substitution : Substitution} {names : List String} {entry : String × Expr}
    (kept : entry ∈ substitution.without names) : entry ∈ substitution :=
  (List.mem_filter.1 kept).1

/-- What a substitution that leaves names alone has for a name. -/
theorem lookup_without (substitution : Substitution) (names : List String) (name : String) :
    (substitution.without names).lookup name =
      if name ∈ names then none else substitution.lookup name := by
  induction substitution with
  | nil => simp [without]
  | cons entry entries ih =>
      rw [without] at ih ⊢
      -- An entry that is dropped matters only if it is the one that is looked up.
      by_cases dropped : entry.1 ∈ names
      · rw [List.filter_cons_of_neg (by simpa using dropped), ih, List.lookup_cons]
        by_cases same : name = entry.1
        · rw [if_pos (same ▸ dropped), if_pos (same ▸ dropped)]
        · have unequal : (name == entry.1) = false := by simpa using same
          rw [unequal]
      · rw [List.filter_cons_of_pos (by simpa using dropped), List.lookup_cons, List.lookup_cons, ih]
        by_cases same : name = entry.1
        · have equal : (name == entry.1) = true := by simpa using same
          have kept : name ∉ names := same ▸ dropped
          simp only [equal, if_neg kept]
        · have unequal : (name == entry.1) = false := by simpa using same
          rw [unequal]

/-- What a substitution given by two lists puts in place of names is in the second. -/
theorem mem_of_mem_ofLists {names : List String} {replacements : List Expr} {entry : String × Expr}
    (member : entry ∈ ofLists names replacements) : entry.2 ∈ replacements :=
  (List.of_mem_zip member).2

/-- Whether none of the names is free in a replacement. -/
def Avoids (substitution : Substitution) (names : List String) : Prop :=
  ∀ entry ∈ substitution, ∀ name ∈ names, name ∉ entry.2.freeNames

/-- A substitution avoids names exactly when it avoids the first and the rest of them. -/
theorem avoids_append {substitution : Substitution} {names more : List String} :
    substitution.Avoids (names ++ more) ↔ substitution.Avoids names ∧ substitution.Avoids more := by
  simp only [Avoids, List.mem_append, or_imp, forall_and]

/-- Avoiding all names that some items have is avoiding those of each item. -/
theorem Avoids.of_mem {β : Type} {substitution : Substitution} {items : List β}
    {names : β → List String} {item : β} (avoids : substitution.Avoids (items.flatMap names))
    (member : item ∈ items) : substitution.Avoids (names item) := by
  intro entry known name mentioned
  exact avoids entry known name (List.mem_flatMap.2 ⟨item, member, mentioned⟩)

/-- The replacements in the nameless view. -/
def nameless (literal : Value → α) (substitution : Substitution) : List (String × Nameless α) :=
  substitution.map fun entry => (entry.1, entry.2.nameless literal [])

/-- The nameless view of a name's replacement. -/
theorem lookup_nameless (literal : Value → α) (substitution : Substitution) (name : String) :
    (substitution.nameless literal).lookup name =
      (substitution.lookup name).map fun replacement => replacement.nameless literal [] :=
  lookup_map (Expr.nameless literal []) substitution name

end Substitution

/-- The replacement that is looked up is one of the replacements. -/
theorem mem_of_lookup_eq_some {β : Type} {entries : List (String × β)} {name : String} {item : β}
    (found : entries.lookup name = some item) : (name, item) ∈ entries := by
  induction entries with
  | nil => simp at found
  | cons entry entries ih =>
      rw [List.lookup_cons] at found
      cases same : name == entry.1 with
      | true =>
          rw [same] at found
          have equal : name = entry.1 := by simpa using same
          have item : entry.2 = item := by simpa using found
          rw [equal, ← item]
          exact List.mem_cons_self
      | false =>
          rw [same] at found
          exact List.mem_cons_of_mem _ (ih found)

namespace Expr

variable (literal : Value → α)

/-- What becomes of a reference that is declared around it, or whose replacement has no name free that is
declared there. -/
theorem nameless_apply_without {substitution : Substitution} {contours : List (List String)}
    (outside : substitution.Avoids contours.flatten) (name : String) :
    ((substitution.without contours.flatten).apply name).nameless literal contours =
      (Pointer.locate name contours).replace (substitution.nameless literal) := by
  rw [Substitution.apply, Substitution.lookup_without]
  by_cases declared : name ∈ contours.flatten
  · obtain ⟨depth, position, found, -⟩ := Pointer.exists_locate_of_mem declared
    rw [if_pos declared, Option.getD_none, nameless, found, Pointer.replace]
    simp
  · rw [if_neg declared, Pointer.locate_of_notMem declared, Pointer.replace,
      Substitution.lookup_nameless]
    cases found : substitution.lookup name with
    | none =>
        rw [Option.getD_none, nameless, Pointer.locate_of_notMem declared, Option.map_none,
          Option.getD_none]
    | some replacement =>
        -- No contour around the reference declares a name that is free in the replacement.
        rw [Option.getD_some, Option.map_some, Option.getD_some]
        refine nameless_of_undeclared literal fun name free around => ?_
        exact outside _ (mem_of_lookup_eq_some found) name around free

/-- If no name free in a replacement is declared in an expression or in the contours around it, then
substitution in the expression replaces free names in the nameless view. -/
theorem nameless_subst_without {substitution : Substitution} {contours : List (List String)}
    {expr : Expr} (outside : substitution.Avoids contours.flatten)
    (inside : substitution.Avoids expr.boundNames) :
    (expr.subst (substitution.without contours.flatten)).nameless literal contours =
      (expr.nameless literal contours).replaceFree (substitution.nameless literal) := by
  rw [Nameless.replaceFree]
  generalize 0 = depth
  induction expr generalizing contours depth with
  | num | bool | str | lit | prim => rfl
  | var name =>
      rw [subst, nameless, Nameless.mapRefs]
      exact nameless_apply_without literal outside name
  | cond test consequent alternative ihTest ihConsequent ihAlternative =>
      rw [boundNames, Substitution.avoids_append, Substitution.avoids_append] at inside
      obtain ⟨⟨insideTest, insideConsequent⟩, insideAlternative⟩ := inside
      simp only [subst, nameless, Nameless.mapRefs, ihTest outside insideTest depth,
        ihConsequent outside insideConsequent depth, ihAlternative outside insideAlternative depth]
  | lambda params body ihBody =>
      rw [boundNames, boundNamesAll_eq_flatMap, Substitution.avoids_append] at inside
      -- Inside, the parameters are declared too, and the substitution leaves them alone.
      have further : substitution.Avoids (params :: contours).flatten :=
        Substitution.avoids_append.2 ⟨inside.1, outside⟩
      simp only [subst, substAll_eq_map, nameless, namelessAll_eq_map, Nameless.mapRefs,
        Nameless.mapRefsAll_eq_map, List.map_map, Substitution.without_without]
      congr 1
      refine List.map_congr_left fun form member => ?_
      exact ihBody form member further (inside.2.of_mem member) (depth + 1)
  | app operator operands ihOperator ihOperands =>
      rw [boundNames, boundNamesAll_eq_flatMap, Substitution.avoids_append] at inside
      simp only [subst, substAll_eq_map, nameless, namelessAll_eq_map, Nameless.mapRefs,
        Nameless.mapRefsAll_eq_map, List.map_map, ihOperator outside inside.1 depth]
      congr 1
      refine List.map_congr_left fun operand member => ?_
      exact ihOperands operand member outside (inside.2.of_mem member) depth
  | letIn bindings body ihBindings ihBody =>
      rw [boundNames, boundNamesAll_eq_flatMap, boundNamesBound_eq_flatMap,
        Substitution.avoids_append, Substitution.avoids_append] at inside
      obtain ⟨⟨insideNames, insideBindings⟩, insideBody⟩ := inside
      have further : substitution.Avoids (bindings.map Prod.fst :: contours).flatten :=
        Substitution.avoids_append.2 ⟨insideNames, outside⟩
      -- Substitution changes the bound expressions and not the bound names.
      have sameNames : (bindings.map fun binding =>
          (binding.1, binding.2.subst (substitution.without contours.flatten))).map Prod.fst =
            bindings.map Prod.fst := by
        rw [List.map_map]
        rfl
      simp only [subst, substAll_eq_map, substBindings_eq_map, nameless, namelessAll_eq_map,
        namelessBound_eq_map, sameNames, Nameless.mapRefs, Nameless.mapRefsAll_eq_map, List.map_map,
        Substitution.without_without]
      congr 1
      · refine List.map_congr_left fun binding member => ?_
        exact ihBindings binding member outside (insideBindings.of_mem member) depth
      · refine List.map_congr_left fun form member => ?_
        exact ihBody form member further (insideBody.of_mem member) (depth + 1)
  | define name value ihValue =>
      simp only [subst, nameless, Nameless.mapRefs, ihValue outside inside depth]

/-- If no name free in a replacement is declared in an expression, then substitution replaces free names
in the nameless view. -/
theorem nameless_subst {substitution : Substitution} {expr : Expr}
    (inside : substitution.Avoids expr.boundNames) :
    (expr.subst substitution).nameless literal [] =
      (expr.nameless literal []).replaceFree (substitution.nameless literal) := by
  have whole : substitution.without ([] : List (List String)).flatten = substitution := by
    simp [Substitution.without]
  have outside : substitution.Avoids ([] : List (List String)).flatten := by
    simp [Substitution.Avoids]
  have replaced := nameless_subst_without literal outside inside
  rwa [whole] at replaced

end Expr

end MiniScheme
