import MiniScheme.Proofs.AddressedForms
import MiniScheme.Proofs.CounterRoom

/-! # Renaming keeps lexical addresses

Where addressing succeeds, the result without the names of declarations follows from the nameless view of
the form. Renaming keeps this view, and its contours are made of fresh names, which are always accepted. So
a program that is addressed is also addressed after it has been renamed, and every address is the same. -/

namespace MiniScheme

/-! ## Addressed trees without the names of declarations -/

/-- The reference with a blank for the name, if it points into a contour. -/
def Reference.anonymous : Reference → Reference
  | .free name => .free name
  | .bound address => .bound { address with name := "_" }

namespace LexExpr

mutual

/-- The tree with a blank for each name that a contour declares or that a reference into a contour has. -/
def anonymous : LexExpr → LexExpr
  | .num value => .num value
  | .bool value => .bool value
  | .str value => .str value
  | .lit value => .lit value
  | .var name => .var name
  | .ref reference => .ref reference.anonymous
  | .cond test consequent alternative =>
      .cond test.anonymous consequent.anonymous alternative.anonymous
  | .lambda params body => .lambda (params.map fun _ => "_") (anonymousAll body)
  | .app operator operands => .app operator.anonymous (anonymousAll operands)

/-- The trees with blanks for the names of declarations. -/
def anonymousAll : List LexExpr → List LexExpr
  | [] => []
  | tree :: trees => tree.anonymous :: anonymousAll trees

end

/-- Blanks in a list are blanks in each tree. -/
@[simp] theorem anonymousAll_eq_map (trees : List LexExpr) :
    anonymousAll trees = trees.map anonymous := by
  induction trees with
  | nil => rfl
  | cons _ _ ih => simp only [anonymousAll, List.map_cons, ih]

end LexExpr

/-- The form with blanks for the names of declarations; the name of a definition stays. -/
def AddressedForm.anonymous : AddressedForm → AddressedForm
  | .define name value => .define name value.anonymous
  | .expr tree => .expr tree.anonymous

/-- Blanks in a form are blanks in its tree. -/
theorem AddressedForm.anonymous_ofParts (target? : Option String) (tree : LexExpr) :
    (ofParts target? tree).anonymous = ofParts target? tree.anonymous := by
  cases target? <;> rfl

/-- The reference, with a blank for a name, that a pointer stands for. -/
def Pointer.addressed : Pointer → Reference
  | .free name => .free name
  | .bound depth position => .bound { name := "_", depth, position }

namespace Nameless

mutual

/-- The addressed tree, with blanks for the names of declarations, of a nameless tree. A definition is no
more than its value here, and local bindings are an application. -/
def addressed : Nameless Value → LexExpr
  | .num value => .num value
  | .bool value => .bool value
  | .str value => .str value
  | .ref pointer => .ref pointer.addressed
  | .lit value => .lit value
  | .prim op => .ref (.free op.keyword)
  | .cond test consequent alternative =>
      .cond test.addressed consequent.addressed alternative.addressed
  | .lambda arity body => .lambda (List.replicate arity "_") (addressedAll body)
  | .app operator operands => .app operator.addressed (addressedAll operands)
  | .letIn values body =>
      .app (.lambda (List.replicate values.length "_") (addressedAll body)) (addressedAll values)
  | .define _ value => value.addressed

/-- The addressed trees of a list of nameless trees. -/
def addressedAll : List (Nameless Value) → List LexExpr
  | [] => []
  | tree :: trees => tree.addressed :: addressedAll trees

end

/-- The addressed trees of a list are those of each tree. -/
@[simp] theorem addressedAll_eq_map (trees : List (Nameless Value)) :
    addressedAll trees = trees.map addressed := by
  induction trees with
  | nil => rfl
  | cons _ _ ih => simp only [addressedAll, List.map_cons, ih]

end Nameless

/-- Without its name, the address of a name is what the name refers to. -/
theorem Reference.anonymous_resolve (name : String) (contours : List (List String)) :
    (resolve name (Address.visibleIn contours)).anonymous =
      (Pointer.locate name contours).addressed := by
  rw [resolve_visibleIn]
  by_cases declared : name ∈ contours.flatten
  · obtain ⟨depth, position, located, -⟩ := Pointer.exists_locate_of_mem declared
    rw [located]
    rfl
  · rw [Pointer.locate_of_notMem declared]
    rfl

namespace Expr

/-- Inside contours without keywords and with accepted contours only, the addressed tree without the names
of declarations follows from the nameless view. -/
theorem anonymous_resolved_lexical {around : List (List String)} {expr : Expr}
    (noKeyword : ∀ name ∈ around.flatten, Primitive.ofKeyword? name = none)
    (accepted : ∀ names ∈ expr.contours, AcceptedContour names) :
    (expr.lexical.resolved around).anonymous = (expr.nameless id around).addressed := by
  induction expr generalizing around with
  | num | bool | str | lit => rfl
  | var name => exact congrArg LexExpr.ref (Reference.anonymous_resolve name around)
  | prim op =>
      -- No contour around declares the keyword of the operator, so that it stays free.
      have undeclared := Primitive.keyword_notMem noKeyword op
      rw [lexical, LexExpr.resolved, Reference.resolve_eq_free_iff.2 undeclared]
      rfl
  | cond test consequent alternative ihTest ihConsequent ihAlternative =>
      rw [contours, List.forall_mem_append, List.forall_mem_append] at accepted
      rw [lexical, LexExpr.resolved, LexExpr.anonymous, ihTest noKeyword accepted.1.1,
        ihConsequent noKeyword accepted.1.2, ihAlternative noKeyword accepted.2]
      rfl
  | lambda params body ihBody =>
      rw [contours, contoursAll_eq_flatMap, List.forall_mem_cons, List.forall_mem_flatMap] at accepted
      have further := List.forall_mem_append.2 ⟨accepted.1.2, noKeyword⟩
      rw [lexical, lexicalAll_eq_map, LexExpr.resolved, LexExpr.resolvedAll_eq_map, LexExpr.anonymous,
        LexExpr.anonymousAll_eq_map, nameless, namelessAll_eq_map, Nameless.addressed,
        Nameless.addressedAll_eq_map, List.map_const', List.map_map, List.map_map, List.map_map]
      congr 1
      exact List.map_congr_left fun form member => ihBody form member further (accepted.2 form member)
  | app operator operands ihOperator ihOperands =>
      rw [contours, contoursAll_eq_flatMap, List.forall_mem_append, List.forall_mem_flatMap] at accepted
      rw [lexical, lexicalAll_eq_map, LexExpr.resolved, LexExpr.resolvedAll_eq_map, LexExpr.anonymous,
        LexExpr.anonymousAll_eq_map, nameless, namelessAll_eq_map, Nameless.addressed,
        Nameless.addressedAll_eq_map, List.map_map, List.map_map, List.map_map,
        ihOperator noKeyword accepted.1]
      congr 1
      exact List.map_congr_left fun operand member =>
        ihOperands operand member noKeyword (accepted.2 operand member)
  | letIn bindings body ihBindings ihBody =>
      rw [contours, contoursAll_eq_flatMap, contoursBound_eq_flatMap, List.forall_mem_cons,
        List.forall_mem_append, List.forall_mem_flatMap, List.forall_mem_flatMap] at accepted
      obtain ⟨own, inBindings, inBody⟩ := accepted
      have further := List.forall_mem_append.2 ⟨own.2, noKeyword⟩
      simp only [lexical, lexicalAll_eq_map, lexicalBound_eq_map, LexExpr.resolved,
        LexExpr.resolvedAll_eq_map, LexExpr.anonymous, LexExpr.anonymousAll_eq_map, nameless,
        namelessAll_eq_map, namelessBound_eq_map, Nameless.addressed, Nameless.addressedAll_eq_map,
        List.map_map, List.length_map]
      refine congrArg₂ LexExpr.app (congrArg₂ LexExpr.lambda ?_ ?_) ?_
      · exact List.map_const'
      · exact List.map_congr_left fun form member => ihBody form member further (inBody form member)
      · exact List.map_congr_left fun binding member =>
          ihBindings binding member noKeyword (inBindings binding member)
  | define name value ihValue => exact ihValue noKeyword accepted

end Expr

/-! ## Contours of fresh names -/

/-- A numbered name is no keyword: no keyword has an underscore. -/
theorem Primitive.ofKeyword?_numberedName (base : String) (number : Nat) :
    ofKeyword? (numberedName base number) = none := by
  cases found : ofKeyword? (numberedName base number) with
  | none => rfl
  | some op =>
      have same : op.keyword = numberedName base number := ofKeyword?_eq_some_iff.1 found
      have without : '_' ∉ op.keyword.toList := by cases op <;> decide
      exact absurd same.symm (numberedName_ne without)

/-- Fresh names are an accepted contour. -/
theorem NameSupply.acceptedContour_mapM_fresh (bases : List String) (supply : NameSupply) :
    AcceptedContour ((bases.mapM fresh).run supply).1 := by
  refine ⟨(draws_mapM_fresh bases supply).nodup, fun name drawn => ?_⟩
  obtain ⟨base, -, number, rfl⟩ := exists_numberedName_of_mem_mapM_fresh drawn
  exact Primitive.ofKeyword?_numberedName base number

namespace Expr

/-- Whether renaming makes accepted contours of an expression, whatever supply the names come from. -/
abbrev RenamesAccepted (expr : Expr) : Prop :=
  ∀ supply : NameSupply, ∀ names ∈ ((rename expr).run supply).1.contours, AcceptedContour names

/-- What renaming makes of each expression of a list, it makes of the list. -/
theorem forall_mem_renameAll {p : Expr → Prop} {exprs : List Expr}
    (each : ∀ expr ∈ exprs, ∀ supply : NameSupply, p ((rename expr).run supply).1)
    (supply : NameSupply) : ∀ expr ∈ ((renameAll exprs).run supply).1, p expr := by
  induction exprs generalizing supply with
  | nil => exact List.forall_mem_nil _
  | cons expr exprs ih =>
      rw [List.forall_mem_cons] at each
      exact List.forall_mem_cons.2 ⟨each.1 supply, ih each.2 _⟩

/-- If renaming makes accepted contours of each expression of a list, so of the list. -/
theorem renameAll_accepted {exprs : List Expr} (each : ∀ expr ∈ exprs, expr.RenamesAccepted)
    (supply : NameSupply) :
    ∀ expr ∈ ((renameAll exprs).run supply).1, ∀ names ∈ expr.contours, AcceptedContour names :=
  forall_mem_renameAll each supply

/-- New declarations are an accepted contour, and the contours in the body stay as they are. -/
theorem redeclare_accepted {body : List Expr}
    (accepted : ∀ form ∈ body, ∀ names ∈ form.contours, AcceptedContour names) (names : List String)
    (supply : NameSupply) :
    AcceptedContour ((redeclare names body).run supply).1.1 ∧
      ∀ form ∈ ((redeclare names body).run supply).1.2, ∀ names ∈ form.contours,
        AcceptedContour names := by
  rw [run_redeclare]
  refine ⟨NameSupply.acceptedContour_mapM_fresh names supply, List.forall_mem_map.2 ?_⟩
  intro form member
  rw [contours_subst_ofLists]
  exact accepted form member

/-- Renaming makes accepted contours only. -/
theorem rename_accepted (expr : Expr) : expr.RenamesAccepted := by
  induction expr with
  | num | bool | str | var | lit | prim => exact fun supply => List.forall_mem_nil _
  | cond test consequent alternative ihTest ihConsequent ihAlternative =>
      intro supply
      exact List.forall_mem_append.2
        ⟨List.forall_mem_append.2 ⟨ihTest supply, ihConsequent _⟩, ihAlternative _⟩
  | lambda params body ihBody =>
      intro supply
      obtain ⟨own, inBody⟩ := redeclare_accepted (renameAll_accepted ihBody supply) params _
      rw [rename]
      refine List.forall_mem_cons.2 ⟨own, ?_⟩
      rw [contoursAll_eq_flatMap, List.forall_mem_flatMap]
      exact inBody
  | app operator operands ihOperator ihOperands =>
      intro supply
      rw [rename]
      refine List.forall_mem_append.2 ⟨ihOperator supply, ?_⟩
      rw [contoursAll_eq_flatMap, List.forall_mem_flatMap]
      exact renameAll_accepted ihOperands _
  | letIn bindings body ihBindings ihBody =>
      intro supply
      let values := (renameAll (bindings.map Prod.snd)).run supply
      let inner := (renameAll body).run values.2
      obtain ⟨run, sameLength⟩ := run_rename_letIn bindings body supply
      have inValues := renameAll_accepted (List.forall_mem_map.2 ihBindings) supply
      obtain ⟨own, inBody⟩ := redeclare_accepted (renameAll_accepted ihBody values.2)
        (bindings.map Prod.fst) inner.2
      rw [run, contours, contoursBound_eq_flatMap, contoursAll_eq_flatMap,
        List.map_fst_zip (Nat.le_of_eq sameLength)]
      refine List.forall_mem_cons.2 ⟨own, List.forall_mem_append.2 ⟨?_, ?_⟩⟩
      · rw [List.forall_mem_flatMap]
        intro binding member
        exact inValues binding.2 (List.of_mem_zip member).2
      · rw [List.forall_mem_flatMap]
        exact inBody
  | define name value ihValue => exact ihValue

end Expr

/-! ## Addresses after renaming -/

/-- A form with the nameless view of an addressable one, and with accepted contours, is addressable. -/
theorem Expr.Addressable.of_nameless_eq {form renamed : Expr} (addressable : form.Addressable)
    (views : renamed.nameless id [] = form.nameless id [])
    (accepted : ∀ names ∈ renamed.contours, AcceptedContour names) : renamed.Addressable := by
  refine ⟨?_, accepted⟩
  rw [← definedNames_nameless id [], ← content_nameless, views, content_nameless, definedNames_nameless]
  exact addressable.plain

/-- Without the names of declarations, an addressed form follows from the nameless view. -/
theorem Expr.Addressable.anonymous_resolved {form : Expr} (addressable : form.Addressable) :
    (AddressedForm.resolved form).anonymous =
      .ofParts (form.nameless id []).target? (form.nameless id []).content.addressed := by
  have accepted : ∀ names ∈ form.content.contours, AcceptedContour names := by
    rw [contours_content]
    exact addressable.accepted
  have noKeyword : ∀ name ∈ List.flatten [], Primitive.ofKeyword? name = none := List.forall_mem_nil _
  rw [AddressedForm.resolved, AddressedForm.anonymous_ofParts,
    anonymous_resolved_lexical noKeyword accepted, target?_nameless, content_nameless]

namespace Program

/-- A program with the nameless views of one that is addressed, and with accepted contours, is addressed
too, and the results differ in the names of declarations only. -/
theorem exists_address_of_nameless_eq {program renamed : Program} {forms : List AddressedForm}
    (views : renamed.forms.map (Expr.nameless id []) = program.forms.map (Expr.nameless id []))
    (accepted : ∀ form ∈ renamed.forms, ∀ names ∈ form.contours, AcceptedContour names)
    (succeeded : program.address = .ok forms) :
    ∃ results, renamed.address = .ok results ∧
      results.map AddressedForm.anonymous = forms.map AddressedForm.anonymous := by
  obtain ⟨addressable, rfl⟩ := address_eq_ok_iff.1 succeeded
  have addressable' : ∀ form ∈ renamed.forms, form.Addressable := by
    intro form member
    obtain ⟨original, known, view⟩ : ∃ original ∈ program.forms,
        original.nameless id [] = form.nameless id [] := by
      rw [← List.mem_map, ← views]
      exact List.mem_map_of_mem member
    exact (addressable original known).of_nameless_eq view.symm (accepted form member)
  refine ⟨_, address_eq_ok_iff.2 ⟨addressable', rfl⟩, ?_⟩
  -- What addressing makes of a form, without names, is made of the nameless view of the form.
  have made {program : Program} (addressable : ∀ form ∈ program.forms, form.Addressable) :
      (program.forms.map AddressedForm.resolved).map AddressedForm.anonymous =
        (program.forms.map (Expr.nameless id [])).map fun view =>
          .ofParts view.target? view.content.addressed := by
    rw [List.map_map, List.map_map]
    exact List.map_congr_left fun form member => (addressable form member).anonymous_resolved
  rw [made addressable', made addressable, views]

/-- Renaming changes nothing but the names of declarations: without these, with positions in contours in
place of the references to them, the renamed forms are the forms from before. So a program that is addressed
is also addressed after renaming, and the results differ only in the names that contours declare and in
those of the references into contours. There is a renamed program unless the counter of the supply runs over,
which it does not if there is room for the names. -/
theorem renameWith_keeps_scopes (program : Program) (supply : NameSupply) :
    ((supply.reserve (Expr.allNamesAll program.forms)).HasRoom program.declarations →
        ∃ renamed after, NameSupply.inWord program.renameWith supply = some (renamed, after)) ∧
      ∀ renamed after, NameSupply.inWord program.renameWith supply = some (renamed, after) →
        renamed.forms.map (Expr.nameless id []) = program.forms.map (Expr.nameless id []) ∧
          ∀ forms, program.address = .ok forms →
            ∃ results, renamed.address = .ok results ∧
              results.map AddressedForm.anonymous = forms.map AddressedForm.anonymous := by
  refine ⟨exists_inWord_renameWith, fun renamed after result => ?_⟩
  obtain rfl := NameSupply.result_eq_of_inWord result
  have views := Expr.map_nameless_renameApart id program.forms supply
  have accepted : ∀ expr ∈ ((Expr.renameApart program.forms).run supply).1,
      ∀ names ∈ expr.contours, AcceptedContour names :=
    Expr.renameAll_accepted (fun expr _ => expr.rename_accepted) _
  exact ⟨views, fun forms succeeded => exists_address_of_nameless_eq views accepted succeeded⟩

/-- The value of a local `x` is the outer `x` after renaming too. -/
theorem renameWith_keeps_scopes_letIn :
    let program : Program := { forms := [.define "f" (.lambda ["x"]
      [.letIn [("y", .var "g"), ("x", .var "x")] [.app (.var "x") [.var "y"]]])] }
    (NameSupply.initial.reserve (Expr.allNamesAll program.forms)).HasRoom program.declarations ∧
      program.address = .ok [.define "f" (.lambda ["x"] [.app (.lambda ["y", "x"]
        [.app (.ref (.bound ⟨"x", 0, 1⟩)) [.ref (.bound ⟨"y", 0, 0⟩)]])
        [.ref (.free "g"), .ref (.bound ⟨"x", 0, 0⟩)]])] ∧
      ∃ renamed after, NameSupply.inWord program.renameWith .initial = some (renamed, after) ∧
        ∃ results, renamed.address = .ok results ∧
          results.map AddressedForm.anonymous = [.define "f" (.lambda ["_"] [.app (.lambda ["_", "_"]
            [.app (.ref (.bound ⟨"_", 0, 1⟩)) [.ref (.bound ⟨"_", 0, 0⟩)]])
            [.ref (.free "g"), .ref (.bound ⟨"_", 0, 0⟩)]])] := by
  intro program
  have room : (NameSupply.initial.reserve (Expr.allNamesAll program.forms)).HasRoom
      program.declarations := by
    decide
  have addressed : program.address =
      .ok [.define "f" (.lambda ["x"] [.app (.lambda ["y", "x"]
        [.app (.ref (.bound ⟨"x", 0, 1⟩)) [.ref (.bound ⟨"y", 0, 0⟩)]])
        [.ref (.free "g"), .ref (.bound ⟨"x", 0, 0⟩)]])] := rfl
  obtain ⟨hasResult, keepsScopes⟩ := renameWith_keeps_scopes program .initial
  obtain ⟨renamed, after, found⟩ := hasResult room
  exact ⟨room, addressed, renamed, after, found, (keepsScopes renamed after found).2 _ addressed⟩

end Program

end MiniScheme
