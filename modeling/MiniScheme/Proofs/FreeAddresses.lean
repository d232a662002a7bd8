import MiniScheme.Proofs.FreeReferences

/-! # Free references of addressed programs

Addressing leaves a reference free if no contour around it declares the name. In the addressable tree of an
expression local bindings are applications, and a primitive operator is a reference to its keyword, which no
accepted contour declares. So the names left free are the free names of the expression and the keywords of
the operators in it. -/

namespace MiniScheme

/-- A name resolves as free to itself, and only where no contour declares it. -/
theorem Reference.resolve_eq_free_iff_and {other name : String} {contours : List (List String)} :
    resolve other (Address.visibleIn contours) = .free name ↔
      other = name ∧ name ∉ contours.flatten := by
  constructor
  · intro free
    have same : other = name := by
      rw [← Reference.name_resolve other contours, free, Reference.name]
    subst same
    exact ⟨rfl, resolve_eq_free_iff.1 free⟩
  · rintro ⟨rfl, undeclared⟩
    exact resolve_eq_free_iff.2 undeclared

namespace Expr

variable {outer : Expr} {around : List (List String)}

/-! ## Parts and contours -/

/-- Inside the contours around a part a name is undeclared if it is for the part and around the
expression. -/
theorem notMem_flatten_part_iff {part : Part} {name : String} :
    name ∉ (part.contour?.toList ++ around).flatten ↔ ¬part.Declares name ∧ name ∉ around.flatten := by
  rw [List.flatten_append, List.mem_append, not_or, Part.Declares]
  simp

/-! ## References of the addressable tree -/

/-- The references of the addressable tree are a reference itself, or an operator itself, and otherwise those
of the parts, each inside its contour. -/
theorem mem_occurrences_lexical_iff {occurrence : Occurrence} :
    occurrence ∈ outer.lexical.occurrences around ↔
      ((outer = .var occurrence.name ∨ ∃ op, outer = .prim op ∧ op.keyword = occurrence.name) ∧
        occurrence.address? = none ∧ occurrence.contours = around) ∨
      ∃ part ∈ outer.parts,
        occurrence ∈ part.expr.lexical.occurrences (part.contour?.toList ++ around) := by
  cases outer with
  | num | bool | str | lit => simp [lexical, LexExpr.occurrences, parts]
  | var name =>
      obtain ⟨other, address?, contours⟩ := occurrence
      simp [lexical, LexExpr.occurrences, parts, eq_comm]
  | prim op =>
      obtain ⟨other, address?, contours⟩ := occurrence
      simp [lexical, LexExpr.occurrences, parts, eq_comm]
  | cond | define => simp [lexical, LexExpr.occurrences, parts]
  | lambda params body =>
      rw [exists_mem_parts_lambda]
      simp [lexical, LexExpr.occurrences]
  | app operator operands =>
      rw [exists_mem_parts_app]
      simp [lexical, LexExpr.occurrences]
  | letIn bindings body =>
      rw [exists_mem_parts_letIn]
      simp [lexical, LexExpr.occurrences, or_comm]

/-- Whether a name is free in an expression or the keyword of an operator in it. -/
def LeavesFree (name : String) (expr : Expr) : Prop :=
  name ∈ expr.freeNames ∨ ∃ op, (Expr.prim op).Within expr ∧ op.keyword = name

/-- Where contours declare no keyword, keywords are left free as free names are: the parts outside the scope
of the declarations of a name leave it free, and so does an expression that is a reference to it or its
operator. -/
theorem leavesFree_iff_parts {name : String}
    (noKeyword : ∀ names ∈ outer.contours, ∀ op : Primitive, op.keyword ∉ names) :
    outer.LeavesFree name ↔
      (outer = .var name ∨ ∃ op, outer = .prim op ∧ op.keyword = name) ∨
        ∃ part ∈ outer.parts, ¬part.Declares name ∧ part.expr.LeavesFree name := by
  have withinOuter (op : Primitive) : (Expr.prim op).Within outer ↔
      Expr.prim op = outer ∨ ∃ part ∈ outer.parts, (Expr.prim op).Within part.expr := within_iff_parts
  rw [LeavesFree, mem_freeNames_iff_parts]
  simp only [withinOuter]
  constructor
  · rintro ((same | ⟨part, member, notDeclared, free⟩) | ⟨op, same | ⟨part, member, within⟩, keyword⟩)
    · exact .inl (.inl same)
    · exact .inr ⟨part, member, notDeclared, .inl free⟩
    · exact .inl (.inr ⟨op, same.symm, keyword⟩)
    · refine .inr ⟨part, member, ?_, .inr ⟨op, within, keyword⟩⟩
      rintro ⟨names, declares, declared⟩
      subst keyword
      exact noKeyword names (mem_contours_of_mem_parts member (.inl declares)) op declared
  · rintro ((same | ⟨op, same, keyword⟩) |
      ⟨part, member, notDeclared, free | ⟨op, within, keyword⟩⟩)
    · exact .inl (.inl same)
    · exact .inr ⟨op, .inl same.symm, keyword⟩
    · exact .inl (.inr ⟨part, member, notDeclared, free⟩)
    · exact .inr ⟨op, .inr ⟨part, member, within⟩, keyword⟩

/-- Where contours declare no keyword, the references of the addressable tree that no contour around them
declares are those to the names that the expression leaves free, as far as no contour around the expression
declares them. -/
theorem exists_undeclared_occurrence_iff {name : String}
    (noKeyword : ∀ names ∈ outer.contours, ∀ op : Primitive, op.keyword ∉ names) :
    (∃ occurrence ∈ outer.lexical.occurrences around,
        occurrence.name = name ∧ name ∉ occurrence.contours.flatten) ↔
      name ∉ around.flatten ∧ outer.LeavesFree name := by
  induction outer using induction_parts generalizing around with
  | step outer ih =>
      have below {part : Part} (member : part ∈ outer.parts) :=
        @ih part member (part.contour?.toList ++ around) fun names inside =>
          noKeyword names (mem_contours_of_mem_parts member (.inr inside))
      rw [leavesFree_iff_parts noKeyword]
      constructor
      · rintro ⟨occurrence, occurs, rfl, undeclared⟩
        rcases mem_occurrences_lexical_iff.1 occurs with ⟨own, -, rfl⟩ | ⟨part, member, inPart⟩
        · exact ⟨undeclared, .inl own⟩
        · obtain ⟨further, found⟩ := (below member).1 ⟨occurrence, inPart, rfl, undeclared⟩
          obtain ⟨notDeclared, outside⟩ := notMem_flatten_part_iff.1 further
          exact ⟨outside, .inr ⟨part, member, notDeclared, found⟩⟩
      · rintro ⟨outside, own | ⟨part, member, notDeclared, found⟩⟩
        · exact ⟨{ name, address? := none, contours := around },
            mem_occurrences_lexical_iff.2 (.inl ⟨own, rfl, rfl⟩), rfl, outside⟩
        · have further := notMem_flatten_part_iff.2 ⟨notDeclared, outside⟩
          obtain ⟨occurrence, inPart, undeclared⟩ := (below member).2 ⟨further, found⟩
          exact ⟨occurrence, mem_occurrences_lexical_iff.2 (.inr ⟨part, member, inPart⟩), undeclared⟩

/-- The addressable tree of what is evaluated of a form is that of the form. -/
theorem lexical_content (form : Expr) : form.content.lexical = form.lexical := by
  cases form <;> rfl

end Expr

/-! ## Programs -/

namespace AddressedForm

/-- The tree of an addressed form. -/
def tree : AddressedForm → LexExpr
  | .define _ value => value
  | .expr tree => tree

/-- The tree of the addressed form of a form. -/
theorem tree_resolved (form : Expr) : (resolved form).tree = form.lexical.resolved [] := by
  rw [resolved, Expr.lexical_content]
  cases form.target? <;> rfl

/-- What has a free address in an addressable form are the names that the form leaves free. -/
theorem exists_free_address_iff {form : Expr} (addressable : form.Addressable) {name : String} :
    (∃ occurrence ∈ (resolved form).tree.occurrences [], occurrence.address? = some (.free name)) ↔
      form.LeavesFree name := by
  have accepted : form.lexical.Accepted [] := Expr.accepted_lexical_iff.2 addressable.accepted
  have noKeyword : ∀ names ∈ form.contours, ∀ op : Primitive, op.keyword ∉ names := by
    intro names inside
    exact Primitive.keyword_notMem (addressable.accepted names inside).2
  have outside : name ∉ ([] : List (List String)).flatten := List.not_mem_nil
  rw [tree_resolved, accepted.occurrences_resolved, ← and_iff_right (b := form.LeavesFree name) outside,
    ← Expr.exists_undeclared_occurrence_iff noKeyword]
  simp only [List.mem_map, exists_exists_and_eq_and, Occurrence.resolved, Option.some_inj,
    Reference.resolve_eq_free_iff_and]

end AddressedForm

/-- Where a program is addressed, the names left free in its forms are the free names of the program and the
keywords of the operators in it. -/
theorem Program.free_addresses_exact {program : Program} {addressed : List AddressedForm}
    (succeeded : program.address = .ok addressed) (name : String) :
    (∃ form ∈ addressed, ∃ occurrence ∈ form.tree.occurrences [],
        occurrence.address? = some (.free name)) ↔
      name ∈ Expr.freeNamesAll program.forms ∨
        ∃ form ∈ program.forms, ∃ op, (Expr.prim op).Within form ∧ op.keyword = name := by
  obtain ⟨addressable, rfl⟩ := address_eq_ok_iff.1 succeeded
  rw [Expr.freeNamesAll_eq_flatMap, List.mem_flatMap, ← exists_or]
  simp only [List.mem_map, exists_exists_and_eq_and, ← and_or_left]
  exact exists_congr fun form => and_congr_right fun member =>
    AddressedForm.exists_free_address_iff (addressable form member)

/-- A definition does not bind its own name, a local binding takes its value from outside, and an operator is
left free beside the names. -/
theorem Program.free_addresses_exact_recursive :
    let program : Program := { forms := [
      .define "loop" (.lambda ["x"] [.cond (.app (.prim .isPair) [.var "x"])
        (.app (.var "loop") [.app (.prim .cdr) [.var "x"]]) (.var "y")]),
      .letIn [("x", .app (.var "f") [.var "x"])] [.app (.var "loop") [.var "x"]]] }
    let addressed : List AddressedForm := [
      .define "loop" (.lambda ["x"] [.cond (.app (.ref (.free "pair?")) [.ref (.bound ⟨"x", 0, 0⟩)])
        (.app (.ref (.free "loop")) [.app (.ref (.free "cdr")) [.ref (.bound ⟨"x", 0, 0⟩)]])
        (.ref (.free "y"))]),
      .expr (.app (.lambda ["x"] [.app (.ref (.free "loop")) [.ref (.bound ⟨"x", 0, 0⟩)]])
        [.app (.ref (.free "f")) [.ref (.free "x")]])]
    program.address = .ok addressed ∧
      ∀ name, (∃ form ∈ addressed, ∃ occurrence ∈ form.tree.occurrences [],
          occurrence.address? = some (.free name)) ↔
        name ∈ ["loop", "y", "f", "x", "loop"] ∨
          ∃ form ∈ program.forms, ∃ op, (Expr.prim op).Within form ∧ op.keyword = name := by
  intro program addressed
  have succeeded : program.address = .ok addressed := rfl
  exact ⟨succeeded, free_addresses_exact succeeded⟩

end MiniScheme
