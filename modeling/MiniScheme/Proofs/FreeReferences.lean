import MiniScheme.Proofs.AddressedPrograms

/-! # Free references

One comes to a reference through parts of the expression around it. The reference is free if none of these
parts stands in the scope of a declaration of its name. The free names of an expression are the names of the
free references, and a walk that keeps the declared names on a stack collects just these. A name occurs free
under one more condition: the reference does not stand in the value of a definition of the name. -/

namespace MiniScheme

/-- A condition that is not about the item can be checked apart. -/
theorem exists_mem_and_left {α : Type} {items : List α} {condition : Prop} {p : α → Prop} :
    (∃ item ∈ items, condition ∧ p item) ↔ condition ∧ ∃ item ∈ items, p item := by
  simp only [and_left_comm, exists_and_left]

namespace Expr

variable {name : String} {outer : Expr}

/-! ## The way to a reference -/

/-- An immediate sub-expression, with what the expression around it does to names. -/
structure Part where
  /-- The sub-expression. -/
  expr : Expr
  /-- The names declared for it, if it stands in the scope of a procedure or of local bindings. -/
  contour? : Option (List String) := none
  /-- The name that it is the value of, if it stands in a definition. -/
  target? : Option String := none

/-- Whether a part stands in the scope of a declaration of a name. -/
def Part.Declares (name : String) (part : Part) : Prop :=
  ∃ names ∈ part.contour?, name ∈ names

/-- No name is declared for a part outside such a scope. -/
@[simp] theorem Part.not_declares_none (expr : Expr) (target? : Option String) :
    ¬Part.Declares name { expr, contour? := none, target? } := by
  rintro ⟨names, ⟨⟩, -⟩

/-- The names declared for a part are those of its contour. -/
@[simp] theorem Part.declares_some_iff {expr : Expr} {names : List String} {target? : Option String} :
    Part.Declares name { expr, contour? := some names, target? } ↔ name ∈ names := by
  simp [Part.Declares]

/-- The parts of an expression, in evaluation order. The bound expressions of local bindings stand outside
their scope. -/
def parts : Expr → List Part
  | .num _ | .bool _ | .str _ | .var _ | .lit _ | .prim _ => []
  | .cond test consequent alternative => [{ expr := test }, { expr := consequent }, { expr := alternative }]
  | .lambda params body => body.map fun form => { expr := form, contour? := some params }
  | .app operator operands => { expr := operator } :: operands.map fun operand => { expr := operand }
  | .letIn bindings body =>
      (bindings.map fun binding => { expr := binding.2 }) ++
        body.map fun form => { expr := form, contour? := some (bindings.map Prod.fst) }
  | .define name value => [{ expr := value, target? := some name }]

/-- The parts of an expression are its immediate sub-expressions. -/
theorem map_expr_parts (expr : Expr) : expr.parts.map Part.expr = expr.children := by
  cases expr <;> simp [parts, children, Function.comp_def]

/-- A part is one of the immediate sub-expressions. -/
theorem mem_children_of_mem_parts {part : Part} (member : part ∈ outer.parts) :
    part.expr ∈ outer.children :=
  map_expr_parts outer ▸ List.mem_map_of_mem member

/-- The contour of a part is the one that the expression around it declares. -/
theorem contour?_of_mem_parts {part : Part} (member : part ∈ outer.parts) {names : List String}
    (declares : names ∈ part.contour?) : outer.contour? = some names := by
  cases outer <;> grind [parts, contour?]

/-- The contours around and in a part are contours of the expression. -/
theorem mem_contours_of_mem_parts {part : Part} (member : part ∈ outer.parts) {names : List String}
    (declares : names ∈ part.contour? ∨ names ∈ part.expr.contours) : names ∈ outer.contours := by
  rw [contours_eq_append, List.mem_append, Option.mem_toList, List.mem_flatMap]
  rcases declares with own | below
  · exact .inl (contour?_of_mem_parts member own)
  · exact .inr ⟨part.expr, mem_children_of_mem_parts member, below⟩

/-- The parts of a procedure. -/
theorem exists_mem_parts_lambda {params : List String} {body : List Expr} {p : Part → Prop} :
    (∃ part ∈ (lambda params body).parts, p part) ↔
      ∃ form ∈ body, p { expr := form, contour? := some params } := by
  simp [parts]

/-- The parts of an application. -/
theorem exists_mem_parts_app {operator : Expr} {operands : List Expr} {p : Part → Prop} :
    (∃ part ∈ (app operator operands).parts, p part) ↔
      p { expr := operator } ∨ ∃ operand ∈ operands, p { expr := operand } := by
  simp [parts]

/-- The parts of local bindings. -/
theorem exists_mem_parts_letIn {bindings : List (String × Expr)} {body : List Expr} {p : Part → Prop} :
    (∃ part ∈ (letIn bindings body).parts, p part) ↔
      (∃ binding ∈ bindings, p { expr := binding.2 }) ∨
        ∃ form ∈ body, p { expr := form, contour? := some (bindings.map Prod.fst) } := by
  simp only [parts, List.mem_append, List.mem_map, or_and_right, exists_or, exists_exists_and_eq_and]

/-- What holds of an expression whenever it holds of its parts holds of all. -/
theorem induction_parts {motive : Expr → Prop}
    (step : ∀ outer, (∀ part ∈ outer.parts, motive part.expr) → motive outer) (expr : Expr) :
    motive expr := by
  induction expr using induction_children with
  | step outer ih =>
      exact step outer fun part member => ih part.expr (mem_children_of_mem_parts member)

/-- What is within an expression is the expression itself or within one of its parts. -/
theorem within_iff_parts {inner : Expr} :
    inner.Within outer ↔ inner = outer ∨ ∃ part ∈ outer.parts, inner.Within part.expr := by
  rw [within_iff, inside_iff, ← map_expr_parts]
  simp

/-- Whether one comes through some parts, one inside the other, to a reference to a name. -/
inductive HasReference (name : String) : List Part → Expr → Prop where
  /-- The expression itself is the reference. -/
  | here : HasReference name [] (.var name)
  /-- The reference stands in a part. -/
  | inside {outer : Expr} {part : Part} {path : List Part} (member : part ∈ outer.parts)
      (further : HasReference name path part.expr) : HasReference name (part :: path) outer

/-- A query that is about the references to a name and goes into the parts that pass a test finds the
references on the way to which all parts pass. -/
theorem query_iff_hasReference {passes : Part → Prop} (query : Expr → Prop)
    (step : ∀ outer, query outer ↔
      outer = .var name ∨ ∃ part ∈ outer.parts, passes part ∧ query part.expr) :
    query outer ↔ ∃ path, outer.HasReference name path ∧ ∀ part ∈ path, passes part := by
  constructor
  · intro found
    induction outer using induction_parts with
    | step outer ih =>
        rcases (step outer).1 found with rfl | ⟨part, member, passed, below⟩
        · exact ⟨[], .here, List.forall_mem_nil _⟩
        · obtain ⟨path, further, others⟩ := ih part member below
          exact ⟨part :: path, .inside member further, List.forall_mem_cons.2 ⟨passed, others⟩⟩
  · rintro ⟨path, way, passed⟩
    induction way with
    | here => exact (step _).2 (.inl rfl)
    | inside member further ih =>
        obtain ⟨first, others⟩ := List.forall_mem_cons.1 passed
        exact (step _).2 (.inr ⟨_, member, first, ih others⟩)

/-- A part on the way to a reference that is the value of a definition shows a definition. -/
theorem HasReference.exists_define {path : List Part} (way : outer.HasReference name path) {part : Part}
    (member : part ∈ path) {target : String} (defines : part.target? = some target) :
    ∃ value, (Expr.define target value).Within outer := by
  induction way with
  | here => cases member
  | @inside outer first path isPart further ih =>
      rcases List.mem_cons.1 member with rfl | later
      · -- Only a definition has a part that is the value of a definition.
        cases outer with
        | define other value =>
            obtain rfl := List.mem_singleton.1 isPart
            obtain rfl := Option.some.inj defines
            exact ⟨value, .refl⟩
        | _ => grind [parts]
      · obtain ⟨value, within⟩ := ih later
        exact ⟨value, within.tail (mem_children_of_mem_parts isPart)⟩

/-! ## Free names -/

/-- A name is free in a reference to it, and where it is free in a part outside the scope of its
declarations. -/
theorem mem_freeNames_iff_parts :
    name ∈ outer.freeNames ↔
      outer = .var name ∨ ∃ part ∈ outer.parts, ¬part.Declares name ∧ name ∈ part.expr.freeNames := by
  cases outer with
  | num | bool | str | lit | prim => simp [freeNames, parts]
  | var other => simp [freeNames, parts, eq_comm]
  | cond | define => simp [freeNames, parts]
  | lambda params body =>
      rw [freeNames, freeNamesAll_eq_flatMap, mem_filter_undeclared_iff, exists_mem_parts_lambda]
      simp [exists_mem_and_left]
  | app operator operands =>
      rw [freeNames, freeNamesAll_eq_flatMap, exists_mem_parts_app]
      simp
  | letIn bindings body =>
      rw [freeNames, freeNamesAll_eq_flatMap, freeNamesBound_eq_flatMap, List.mem_append,
        mem_filter_undeclared_iff, exists_mem_parts_letIn]
      simp [exists_mem_and_left]

/-- A name occurs free in a reference to it, and where it does in a part that is outside the scope of its
declarations and is not the value of its definition. -/
theorem occursFree_iff_parts :
    occursFree name outer = true ↔
      outer = .var name ∨ ∃ part ∈ outer.parts,
        (¬part.Declares name ∧ part.target? ≠ some name) ∧ occursFree name part.expr = true := by
  cases outer with
  | num | bool | str | lit | prim => simp [occursFree, parts]
  | var other => simp [occursFree, parts]
  | cond | define => simp [occursFree, parts, or_assoc]
  | lambda params body =>
      rw [occursFree, exists_mem_parts_lambda]
      simp [exists_mem_and_left]
  | app operator operands =>
      rw [occursFree, exists_mem_parts_app]
      simp
  | letIn bindings body =>
      rw [occursFree, exists_mem_parts_letIn]
      simp [exists_mem_and_left]

/-! ## A walk with a stack of declared names -/

/-- What a walk through expressions keeps. -/
structure Walk where
  /-- The names declared around the place that it has reached, those of the innermost contour last. -/
  declared : List String
  /-- The free names that it has found. -/
  found : List String

/-- The state of a walk after it has met some names that no contour declares but maybe one around. -/
def Walk.after (walk : Walk) (mentioned : List String) : Walk :=
  { walk with found := walk.found ++ mentioned.filter fun name => !walk.declared.contains name }

/-- Goes into the scope of names for an action, and leaves it again. -/
def inScopeOf (names : List String) (action : StateM Walk Unit) : StateM Walk Unit := do
  let mark := (← get).declared.length
  modify fun walk => { walk with declared := walk.declared ++ names }
  action
  modify fun walk => { walk with declared := walk.declared.take mark }

mutual

/-- Collects the free names of an expression. -/
def collectFree : Expr → StateM Walk Unit
  | .var name =>
      modify fun walk =>
        if name ∈ walk.declared then walk else { walk with found := walk.found ++ [name] }
  | .num _ | .bool _ | .str _ | .lit _ | .prim _ => pure ()
  | .cond test consequent alternative => do
      collectFree test
      collectFree consequent
      collectFree alternative
  | .lambda params body => inScopeOf params (collectFreeAll body)
  | .app operator operands => do
      collectFree operator
      collectFreeAll operands
  | .letIn bindings body => do
      collectFreeBound bindings
      inScopeOf (bindings.map Prod.fst) (collectFreeAll body)
  | .define _ value => collectFree value

/-- Collects the free names of a list of expressions. -/
def collectFreeAll : List Expr → StateM Walk Unit
  | [] => pure ()
  | expr :: exprs => do
      collectFree expr
      collectFreeAll exprs

/-- Collects the free names of the bound expressions of bindings. -/
def collectFreeBound : List (String × Expr) → StateM Walk Unit
  | [] => pure ()
  | (_, value) :: bindings => do
      collectFree value
      collectFreeBound bindings

end

/-- Whether an action meets references to some names and leaves the declared names as they were. -/
def Collects (action : StateM Walk Unit) (mentioned : List String) : Prop :=
  ∀ walk, action.run walk = ((), walk.after mentioned)

namespace Collects

variable {first second : StateM Walk Unit} {mentioned more : List String}

/-- An action that does nothing meets no names. -/
theorem nil : Collects (pure ()) [] := by
  intro walk
  rw [Walk.after, List.filter_nil, List.append_nil]
  rfl

/-- Two actions one after the other meet the names of both. -/
theorem append (collectsFirst : Collects first mentioned) (collectsSecond : Collects second more) :
    Collects (do first; second) (mentioned ++ more) := by
  intro walk
  have joined : (walk.after mentioned).after more = walk.after (mentioned ++ more) := by
    simp [Walk.after]
  rw [StateT.run_bind, collectsFirst, ← joined]
  exact collectsSecond _

/-- In the scope of names, an action meets what it meets without them. -/
theorem inScopeOf (collects : Collects first mentioned) (names : List String) :
    Collects (inScopeOf names first) (mentioned.filter fun name => !names.contains name) := by
  intro walk
  let inside : Walk := { walk with declared := walk.declared ++ names }
  have left : { inside.after mentioned with
      declared := (inside.after mentioned).declared.take walk.declared.length } =
        walk.after (mentioned.filter fun name => !names.contains name) := by
    simp [inside, Walk.after, List.filter_filter, Bool.and_comm]
  have run : (Expr.inScopeOf names first).run walk = ((), { (first.run inside).2 with
      declared := (first.run inside).2.declared.take walk.declared.length }) := rfl
  rw [run, collects, left]

/-- In a list, the walk meets what it meets in each expression. -/
theorem all {exprs : List Expr} (each : ∀ expr ∈ exprs, Collects (collectFree expr) expr.freeNames) :
    Collects (collectFreeAll exprs) (freeNamesAll exprs) := by
  induction exprs with
  | nil => exact nil
  | cons expr exprs ih =>
      rw [List.forall_mem_cons] at each
      exact each.1.append (ih each.2)

/-- In bindings, the walk meets what it meets in each bound expression. -/
theorem bound {bindings : List (String × Expr)}
    (each : ∀ binding ∈ bindings, Collects (collectFree binding.2) binding.2.freeNames) :
    Collects (collectFreeBound bindings) (freeNamesBound bindings) := by
  induction bindings with
  | nil => exact nil
  | cons binding bindings ih =>
      rw [List.forall_mem_cons] at each
      exact each.1.append (ih each.2)

end Collects

/-- The walk through an expression collects its free names, as far as none is declared around it. -/
theorem collects_collectFree (expr : Expr) : Collects (collectFree expr) expr.freeNames := by
  induction expr with
  | num | bool | str | lit | prim => exact .nil
  | var name =>
      intro walk
      have run : (collectFree (.var name)).run walk = ((), if name ∈ walk.declared then walk
          else { walk with found := walk.found ++ [name] }) := rfl
      rw [run, freeNames, Walk.after]
      by_cases declared : name ∈ walk.declared
      · simp [declared]
      · simp [declared]
  | cond test consequent alternative ihTest ihConsequent ihAlternative =>
      rw [freeNames, List.append_assoc]
      exact ihTest.append (ihConsequent.append ihAlternative)
  | lambda params body ihBody => exact (Collects.all ihBody).inScopeOf params
  | app operator operands ihOperator ihOperands => exact ihOperator.append (.all ihOperands)
  | letIn bindings body ihBindings ihBody =>
      exact (Collects.bound ihBindings).append ((Collects.all ihBody).inScopeOf _)
  | define target value ihValue => exact ihValue

/-- From nothing declared and nothing found, the walk collects the free names of a list. -/
theorem run_collectFreeAll (exprs : List Expr) :
    (collectFreeAll exprs).run { declared := [], found := [] } =
      ((), { declared := [], found := freeNamesAll exprs }) := by
  have collected : Collects (collectFreeAll exprs) (freeNamesAll exprs) :=
    .all fun expr _ => collects_collectFree expr
  rw [collected, Walk.after]
  simp

/-! ## Both queries are exact -/

/-- The free names are those of the references that no part on the way declares. -/
theorem mem_freeNames_iff_hasReference :
    name ∈ outer.freeNames ↔
      ∃ path, outer.HasReference name path ∧ ∀ part ∈ path, ¬part.Declares name :=
  query_iff_hasReference (fun expr => name ∈ expr.freeNames) fun _ => mem_freeNames_iff_parts

/-- A name occurs free if it is that of a reference that no part on the way declares and in whose definition
no part on the way stands. -/
theorem occursFree_iff_hasReference :
    occursFree name outer = true ↔
      ∃ path, outer.HasReference name path ∧
        ∀ part ∈ path, ¬part.Declares name ∧ part.target? ≠ some name :=
  query_iff_hasReference (fun expr => occursFree name expr = true) fun _ => occursFree_iff_parts

/-- What occurs free is a free name. -/
theorem mem_freeNames_of_occursFree (occurs : occursFree name outer = true) : name ∈ outer.freeNames := by
  obtain ⟨path, way, passed⟩ := occursFree_iff_hasReference.1 occurs
  exact mem_freeNames_iff_hasReference.2 ⟨path, way, fun part on => (passed part on).1⟩

/-- Where nothing defines a name, it occurs free if it is a free name. -/
theorem occursFree_of_mem_freeNames (undefined : ∀ value, ¬(Expr.define name value).Within outer)
    (free : name ∈ outer.freeNames) : occursFree name outer = true := by
  obtain ⟨path, way, undeclared⟩ := mem_freeNames_iff_hasReference.1 free
  refine occursFree_iff_hasReference.2 ⟨path, way, fun part on => ⟨undeclared part on, fun defines => ?_⟩⟩
  obtain ⟨value, within⟩ := way.exists_define on defines
  exact undefined value within

/-- A name is free in a list exactly when a reference to it in the list is outside the scope of all
declarations of the name; the walk with a stack collects just these names. The name occurs free in an
expression exactly when a reference to it is moreover outside the value of all definitions of the name. So
what occurs free in an expression of the list is free in the list, and the other way round where nothing
defines the name. -/
theorem free_references_exact (name : String) (exprs : List Expr) :
    (name ∈ freeNamesAll exprs ↔ ∃ expr ∈ exprs, ∃ path, expr.HasReference name path ∧
      ∀ part ∈ path, ¬part.Declares name) ∧
    (collectFreeAll exprs).run { declared := [], found := [] } =
      ((), { declared := [], found := freeNamesAll exprs }) ∧
    (∀ expr, occursFree name expr = true ↔ ∃ path, expr.HasReference name path ∧
      ∀ part ∈ path, ¬part.Declares name ∧ part.target? ≠ some name) ∧
    (∀ expr ∈ exprs, occursFree name expr = true → name ∈ freeNamesAll exprs) ∧
    ((∀ expr ∈ exprs, ∀ value, ¬(Expr.define name value).Within expr) →
      (name ∈ freeNamesAll exprs ↔ ∃ expr ∈ exprs, occursFree name expr = true)) := by
  have free : name ∈ freeNamesAll exprs ↔ ∃ expr ∈ exprs, name ∈ expr.freeNames := by
    rw [freeNamesAll_eq_flatMap, List.mem_flatMap]
  refine ⟨?_, run_collectFreeAll exprs, fun expr => occursFree_iff_hasReference, ?_, fun undefined => ?_⟩
  · simp only [free, mem_freeNames_iff_hasReference]
  · intro expr member occurs
    exact free.2 ⟨expr, member, mem_freeNames_of_occursFree occurs⟩
  · rw [free]
    refine exists_congr fun expr => and_congr_right fun member => ?_
    exact ⟨occursFree_of_mem_freeNames (undefined expr member), mem_freeNames_of_occursFree⟩

/-- A definition hides its own name from one query only. The bound expression of a local binding refers to a
name that the body has for itself, and where nothing defines the name both queries say the same. -/
theorem free_references_exact_recursive :
    let recursive : Expr := .define "f" (.lambda ["x"] [.app (.var "f") [.var "x"]])
    let shadowing : Expr := .letIn [("x", .var "x")] [.lambda ["y"] [.app (.var "x") [.var "y"]]]
    ("f" ∈ freeNamesAll [recursive] ∧ occursFree "f" recursive = false) ∧
      (∀ expr ∈ [shadowing], ∀ value, ¬(Expr.define "x" value).Within expr) ∧
      ("x" ∈ freeNamesAll [shadowing] ↔ ∃ expr ∈ [shadowing], occursFree "x" expr = true) := by
  intro recursive shadowing
  have undefined : ∀ expr ∈ [shadowing], ∀ value, ¬(Expr.define "x" value).Within expr := by
    intro expr member value within
    obtain rfl := List.mem_singleton.1 member
    exact List.not_mem_nil (mem_definedNames_iff.2 ⟨value, within⟩)
  obtain ⟨-, -, -, -, agree⟩ := free_references_exact "x" [shadowing]
  exact ⟨⟨by decide, rfl⟩, undefined, agree undefined⟩

end Expr

end MiniScheme
