import MiniScheme.Proofs.Legible
import MiniScheme.Proofs.VisibleDeclarations

/-! # Addresses are exact

Addressing succeeds exactly on the trees that have no address yet and in which every contour is accepted.
What it makes of them is `LexExpr.resolved`: the same tree, in which every reference has its address. An
address counts the contours that lie between the reference and the innermost one around it that declares
the name, and gives the position of the name there. -/

namespace MiniScheme

/-! ## References and contours of a tree -/

/-- The name that a reference with an address has. -/
def Reference.name : Reference → String
  | .free name => name
  | .bound address => address.name

/-- The name of a reference is the name that was resolved. -/
@[simp] theorem Reference.name_resolve (name : String) (contours : List (List String)) :
    (resolve name (Address.visibleIn contours)).name = name := by
  rw [resolve_visibleIn]
  cases Pointer.locate name contours <;> rfl

/-- A reference in a tree. -/
structure Occurrence where
  /-- The name. -/
  name : String
  /-- The address, if the reference carries one. -/
  address? : Option Reference
  /-- The contours around the reference, the innermost first. -/
  contours : List (List String)

namespace LexExpr

/-- Induction on addressable trees that looks into lists of sub-trees. -/
@[induction_eliminator, elab_as_elim]
theorem induction {motive : LexExpr → Prop}
    (num : ∀ value, motive (.num value))
    (bool : ∀ value, motive (.bool value))
    (str : ∀ value, motive (.str value))
    (lit : ∀ value, motive (.lit value))
    (var : ∀ name, motive (.var name))
    (ref : ∀ reference, motive (.ref reference))
    (cond : ∀ test consequent alternative, motive test → motive consequent → motive alternative →
      motive (.cond test consequent alternative))
    (lambda : ∀ params body, (∀ form ∈ body, motive form) → motive (.lambda params body))
    (app : ∀ operator operands, motive operator → (∀ operand ∈ operands, motive operand) →
      motive (.app operator operands))
    (tree : LexExpr) : motive tree :=
  @LexExpr.rec motive (fun trees => ∀ tree ∈ trees, motive tree)
    num bool str lit var ref cond lambda app
    (by simp) (fun _ _ head tail => List.forall_mem_cons.2 ⟨head, tail⟩) tree

mutual

/-- The references of a tree that stands inside some contours, from left to right. -/
def occurrences (contours : List (List String)) : LexExpr → List Occurrence
  | .var name => [{ name, address? := none, contours }]
  | .ref reference => [{ name := reference.name, address? := some reference, contours }]
  | .num _ | .bool _ | .str _ | .lit _ => []
  | .cond test consequent alternative =>
      occurrences contours test ++ occurrences contours consequent ++
        occurrences contours alternative
  | .lambda params body => occurrencesAll (params :: contours) body
  | .app operator operands => occurrences contours operator ++ occurrencesAll contours operands

/-- The references of a list of trees. -/
def occurrencesAll (contours : List (List String)) : List LexExpr → List Occurrence
  | [] => []
  | tree :: trees => occurrences contours tree ++ occurrencesAll contours trees

end

mutual

/-- The contours in a tree. -/
def contours : LexExpr → List (List String)
  | .num _ | .bool _ | .str _ | .lit _ | .var _ | .ref _ => []
  | .cond test consequent alternative => contours test ++ contours consequent ++ contours alternative
  | .lambda params body => params :: contoursAll body
  | .app operator operands => contours operator ++ contoursAll operands

/-- The contours in a list of trees. -/
def contoursAll : List LexExpr → List (List String)
  | [] => []
  | tree :: trees => contours tree ++ contoursAll trees

end

mutual

/-- The tree with the names in place of the addresses. -/
def forget : LexExpr → LexExpr
  | .num value => .num value
  | .bool value => .bool value
  | .str value => .str value
  | .lit value => .lit value
  | .var name => .var name
  | .ref reference => .var reference.name
  | .cond test consequent alternative => .cond test.forget consequent.forget alternative.forget
  | .lambda params body => .lambda params (forgetAll body)
  | .app operator operands => .app operator.forget (forgetAll operands)

/-- The trees with the names in place of the addresses. -/
def forgetAll : List LexExpr → List LexExpr
  | [] => []
  | tree :: trees => tree.forget :: forgetAll trees

end

mutual

/-- The tree, inside some contours, with an address in place of each reference that has none. -/
def resolved (contours : List (List String)) : LexExpr → LexExpr
  | .num value => .num value
  | .bool value => .bool value
  | .str value => .str value
  | .lit value => .lit value
  | .var name => .ref (.resolve name (Address.visibleIn contours))
  | .ref reference => .ref reference
  | .cond test consequent alternative =>
      .cond (resolved contours test) (resolved contours consequent) (resolved contours alternative)
  | .lambda params body => .lambda params (resolvedAll (params :: contours) body)
  | .app operator operands => .app (resolved contours operator) (resolvedAll contours operands)

/-- The trees with an address in place of each reference that has none. -/
def resolvedAll (contours : List (List String)) : List LexExpr → List LexExpr
  | [] => []
  | tree :: trees => resolved contours tree :: resolvedAll contours trees

end

/-- The references of a list are those of its trees. -/
@[simp] theorem occurrencesAll_eq_flatMap (contours : List (List String)) (trees : List LexExpr) :
    occurrencesAll contours trees = trees.flatMap (occurrences contours) := by
  induction trees with
  | nil => rfl
  | cons _ _ ih => simp only [occurrencesAll, List.flatMap_cons, ih]

/-- The contours in a list are those in its trees. -/
@[simp] theorem contoursAll_eq_flatMap (trees : List LexExpr) :
    contoursAll trees = trees.flatMap contours := by
  induction trees with
  | nil => rfl
  | cons _ _ ih => simp only [contoursAll, List.flatMap_cons, ih]

/-- Forgetting the addresses of a list is forgetting those of each tree. -/
@[simp] theorem forgetAll_eq_map (trees : List LexExpr) : forgetAll trees = trees.map forget := by
  induction trees with
  | nil => rfl
  | cons _ _ ih => simp only [forgetAll, List.map_cons, ih]

/-- Resolving the references of a list is resolving those of each tree. -/
@[simp] theorem resolvedAll_eq_map (contours : List (List String)) (trees : List LexExpr) :
    resolvedAll contours trees = trees.map (resolved contours) := by
  induction trees with
  | nil => rfl
  | cons _ _ ih => simp only [resolvedAll, List.map_cons, ih]

/-! ## When addressing succeeds -/

/-- Whether a tree inside some contours has no address yet and accepted contours only. -/
def Accepted (around : List (List String)) (tree : LexExpr) : Prop :=
  (∀ occurrence ∈ tree.occurrences around, occurrence.address? = none) ∧
    ∀ names ∈ tree.contours, AcceptedContour names

variable {around : List (List String)}

/-- A conditional is accepted exactly when its parts are. -/
theorem accepted_cond_iff {test consequent alternative : LexExpr} :
    (LexExpr.cond test consequent alternative).Accepted around ↔
      test.Accepted around ∧ consequent.Accepted around ∧ alternative.Accepted around := by
  simp only [Accepted, occurrences, contours, List.forall_mem_append]
  constructor
  · rintro ⟨⟨⟨inTest, inConsequent⟩, inAlternative⟩, ⟨ofTest, ofConsequent⟩, ofAlternative⟩
    exact ⟨⟨inTest, ofTest⟩, ⟨inConsequent, ofConsequent⟩, inAlternative, ofAlternative⟩
  · rintro ⟨⟨inTest, ofTest⟩, ⟨inConsequent, ofConsequent⟩, inAlternative, ofAlternative⟩
    exact ⟨⟨⟨inTest, inConsequent⟩, inAlternative⟩, ⟨ofTest, ofConsequent⟩, ofAlternative⟩

/-- A procedure is accepted exactly when its contour is and, inside it, the forms of the body are. -/
theorem accepted_lambda_iff {params : List String} {body : List LexExpr} :
    (LexExpr.lambda params body).Accepted around ↔
      AcceptedContour params ∧ ∀ form ∈ body, form.Accepted (params :: around) := by
  simp only [Accepted, occurrences, contours, occurrencesAll_eq_flatMap, contoursAll_eq_flatMap,
    List.forall_mem_cons, List.forall_mem_flatMap, forall₂_and]
  exact and_left_comm

/-- An application is accepted exactly when its parts are. -/
theorem accepted_app_iff {operator : LexExpr} {operands : List LexExpr} :
    (LexExpr.app operator operands).Accepted around ↔
      operator.Accepted around ∧ ∀ operand ∈ operands, operand.Accepted around := by
  simp only [Accepted, occurrences, contours, occurrencesAll_eq_flatMap, contoursAll_eq_flatMap,
    List.forall_mem_append, List.forall_mem_flatMap, forall₂_and]
  exact and_and_and_comm

/-- A list of trees is addressed tree by tree. -/
@[simp] theorem addressAllFrom_eq_mapM (visible : List Address) (trees : List LexExpr) :
    addressAllFrom visible trees = trees.mapM (addressFrom visible) := by
  induction trees with
  | nil => rfl
  | cons _ _ ih => rw [addressAllFrom, List.mapM_cons, ih]

/-- Addressing succeeds exactly on accepted trees, and resolves their references. -/
theorem addressFrom_eq_ok_iff {tree addressed : LexExpr} :
    tree.addressFrom (Address.visibleIn around) = .ok addressed ↔
      tree.Accepted around ∧ tree.resolved around = addressed := by
  induction tree generalizing around addressed with
  | num | bool | str | lit | var => simp [addressFrom, Accepted, occurrences, contours, resolved]
  | ref reference => simp [addressFrom, Accepted, occurrences]
  | cond test consequent alternative ihTest ihConsequent ihAlternative =>
      rw [addressFrom, accepted_cond_iff, resolved]
      simp only [bind_eq_ok_iff, ihTest, ihConsequent, ihAlternative]
      constructor
      · rintro ⟨_, ⟨inTest, rfl⟩, _, ⟨inConsequent, rfl⟩, _, ⟨inAlternative, rfl⟩, same⟩
        exact ⟨⟨inTest, inConsequent, inAlternative⟩, Except.ok.inj same⟩
      · rintro ⟨⟨inTest, inConsequent, inAlternative⟩, rfl⟩
        exact ⟨_, ⟨inTest, rfl⟩, _, ⟨inConsequent, rfl⟩, _, ⟨inAlternative, rfl⟩, rfl⟩
  | lambda params body ihBody =>
      have forms {results : List LexExpr} :
          body.mapM (addressFrom (Address.visibleIn (params :: around))) = .ok results ↔
            (∀ form ∈ body, form.Accepted (params :: around)) ∧
              body.map (resolved (params :: around)) = results :=
        mapM_eq_ok_iff fun form member result => ihBody form member
      -- The declarations visible in the body are those inside one more contour.
      rw [addressFrom, addressAllFrom_eq_mapM, ← Address.visibleIn, accepted_lambda_iff, resolved,
        resolvedAll_eq_map]
      simp only [bind_eq_ok_iff, forms]
      constructor
      · rintro ⟨⟨⟩, checked, _, ⟨inBody, rfl⟩, same⟩
        exact ⟨⟨checkContour_eq_ok_iff.1 checked, inBody⟩, Except.ok.inj same⟩
      · rintro ⟨⟨contour, inBody⟩, rfl⟩
        exact ⟨(), checkContour_eq_ok_iff.2 contour, _, ⟨inBody, rfl⟩, rfl⟩
  | app operator operands ihOperator ihOperands =>
      have parts {results : List LexExpr} :
          operands.mapM (addressFrom (Address.visibleIn around)) = .ok results ↔
            (∀ operand ∈ operands, operand.Accepted around) ∧
              operands.map (resolved around) = results :=
        mapM_eq_ok_iff fun operand member result => ihOperands operand member
      rw [addressFrom, addressAllFrom_eq_mapM, accepted_app_iff, resolved, resolvedAll_eq_map]
      simp only [bind_eq_ok_iff, ihOperator, parts]
      constructor
      · rintro ⟨_, ⟨inOperator, rfl⟩, _, ⟨inOperands, rfl⟩, same⟩
        exact ⟨⟨inOperator, inOperands⟩, Except.ok.inj same⟩
      · rintro ⟨⟨inOperator, inOperands⟩, rfl⟩
        exact ⟨_, ⟨inOperator, rfl⟩, _, ⟨inOperands, rfl⟩, rfl⟩

/-! ## What addressing makes -/

/-- Forgetting the addresses of an accepted tree that has been resolved gives the tree again. -/
theorem Accepted.forget_resolved {tree : LexExpr} (accepted : tree.Accepted around) :
    (tree.resolved around).forget = tree := by
  induction tree generalizing around with
  | num | bool | str | lit => rfl
  | var name => rw [resolved, forget, Reference.name_resolve]
  | ref reference => simp [Accepted, occurrences] at accepted
  | cond test consequent alternative ihTest ihConsequent ihAlternative =>
      obtain ⟨inTest, inConsequent, inAlternative⟩ := accepted_cond_iff.1 accepted
      rw [resolved, forget, ihTest inTest, ihConsequent inConsequent, ihAlternative inAlternative]
  | lambda params body ihBody =>
      have inBody := (accepted_lambda_iff.1 accepted).2
      rw [resolved, forget, resolvedAll_eq_map, forgetAll_eq_map, List.map_map]
      congr 1
      exact map_eq_self fun form member => ihBody form member (inBody form member)
  | app operator operands ihOperator ihOperands =>
      obtain ⟨inOperator, inOperands⟩ := accepted_app_iff.1 accepted
      rw [resolved, forget, resolvedAll_eq_map, forgetAll_eq_map, List.map_map, ihOperator inOperator]
      congr 1
      exact map_eq_self fun operand member => ihOperands operand member (inOperands operand member)

end LexExpr

/-- The reference with the address that its contours give it. -/
def Occurrence.resolved (occurrence : Occurrence) : Occurrence :=
  { occurrence with
    address? := some (.resolve occurrence.name (Address.visibleIn occurrence.contours)) }

namespace LexExpr

variable {around : List (List String)}

/-- Resolving an accepted tree gives each of its references the address from the contours around it. -/
theorem Accepted.occurrences_resolved {tree : LexExpr} (accepted : tree.Accepted around) :
    (tree.resolved around).occurrences around = (tree.occurrences around).map Occurrence.resolved := by
  induction tree generalizing around with
  | num | bool | str | lit => rfl
  | var name =>
      rw [resolved, occurrences, occurrences, Reference.name_resolve]
      rfl
  | ref reference => simp [Accepted, occurrences] at accepted
  | cond test consequent alternative ihTest ihConsequent ihAlternative =>
      obtain ⟨inTest, inConsequent, inAlternative⟩ := accepted_cond_iff.1 accepted
      rw [resolved, occurrences, occurrences, List.map_append, List.map_append, ihTest inTest,
        ihConsequent inConsequent, ihAlternative inAlternative]
  | lambda params body ihBody =>
      have inBody := (accepted_lambda_iff.1 accepted).2
      rw [resolved, occurrences, occurrences, resolvedAll_eq_map, occurrencesAll_eq_flatMap,
        occurrencesAll_eq_flatMap, List.flatMap_map, List.map_flatMap]
      exact List.flatMap_congr fun form member => ihBody form member (inBody form member)
  | app operator operands ihOperator ihOperands =>
      obtain ⟨inOperator, inOperands⟩ := accepted_app_iff.1 accepted
      rw [resolved, occurrences, occurrences, resolvedAll_eq_map, occurrencesAll_eq_flatMap,
        occurrencesAll_eq_flatMap, List.flatMap_map, List.map_append, List.map_flatMap,
        ihOperator inOperator]
      congr 1
      exact List.flatMap_congr fun operand member => ihOperands operand member (inOperands operand member)

/-- The contours around a reference stand around the tree or in it. -/
theorem mem_contours_of_mem_occurrences {tree : LexExpr} {occurrence : Occurrence}
    (occurs : occurrence ∈ tree.occurrences around) {names : List String}
    (encloses : names ∈ occurrence.contours) : names ∈ around ∨ names ∈ tree.contours := by
  induction tree generalizing around with
  | num | bool | str | lit => simp [occurrences] at occurs
  | var | ref =>
      rw [occurrences, List.mem_singleton] at occurs
      rw [occurs] at encloses
      exact .inl encloses
  | cond test consequent alternative ihTest ihConsequent ihAlternative =>
      simp only [occurrences, List.mem_append] at occurs
      simp only [contours, List.mem_append]
      rcases occurs with (inTest | inConsequent) | inAlternative
      · exact (ihTest inTest).imp_right fun found => .inl (.inl found)
      · exact (ihConsequent inConsequent).imp_right fun found => .inl (.inr found)
      · exact (ihAlternative inAlternative).imp_right .inr
  | lambda params body ihBody =>
      simp only [occurrences, occurrencesAll_eq_flatMap, List.mem_flatMap] at occurs
      simp only [contours, contoursAll_eq_flatMap, List.mem_cons, List.mem_flatMap]
      obtain ⟨form, member, inForm⟩ := occurs
      -- Around a form of the body there is the contour of the procedure too.
      rcases ihBody form member inForm with outside | inside
      · rcases List.mem_cons.1 outside with own | outer
        · exact .inr (.inl own)
        · exact .inl outer
      · exact .inr (.inr ⟨form, member, inside⟩)
  | app operator operands ihOperator ihOperands =>
      simp only [occurrences, occurrencesAll_eq_flatMap, List.mem_append, List.mem_flatMap] at occurs
      simp only [contours, contoursAll_eq_flatMap, List.mem_append, List.mem_flatMap]
      rcases occurs with inOperator | ⟨operand, member, inOperand⟩
      · exact (ihOperator inOperator).imp_right .inl
      · exact (ihOperands operand member inOperand).imp_right fun found => .inr ⟨operand, member, found⟩

end LexExpr

/-! ## Exactness -/

/-- Whether a name is declared at a position of the contour that is innermost among those that declare it,
with so many contours before it. -/
def DeclaredAt (name : String) (contours : List (List String)) (depth position : Nat) : Prop :=
  ∃ between declaring outer, contours = between ++ declaring :: outer ∧ between.length = depth ∧
    name ∉ between.flatten ∧ declaring[position]? = some name

/-- A reference is exact when it has an address into a contour exactly where the innermost contour with its
name declares it, and is free exactly when no contour does. -/
structure Occurrence.Exact (occurrence : Occurrence) : Prop where
  /-- The addresses into contours. -/
  bound_iff (depth position : Nat) :
    occurrence.address? = some (.bound { name := occurrence.name, depth, position }) ↔
      DeclaredAt occurrence.name occurrence.contours depth position
  /-- Free references. -/
  free_iff :
    occurrence.address? = some (.free occurrence.name) ↔
      ∀ names ∈ occurrence.contours, occurrence.name ∉ names

/-- Where no contour repeats a name, what a name refers to is where it is declared. -/
theorem locate_eq_bound_iff_declaredAt {name : String} {contours : List (List String)}
    (distinct : ∀ names ∈ contours, names.Nodup) {depth position : Nat} :
    Pointer.locate name contours = .bound depth position ↔
      DeclaredAt name contours depth position := by
  rw [Pointer.locate_eq_bound_iff]
  -- In a contour without repeated names, a name stands at its first position only.
  constructor
  · rintro ⟨between, declaring, outer, parts, before, undeclared, declared, rfl⟩
    exact ⟨between, declaring, outer, parts, before, undeclared, List.getElem?_idxOf declared⟩
  · rintro ⟨between, declaring, outer, parts, before, undeclared, found⟩
    obtain ⟨less, there⟩ := List.getElem?_eq_some_iff.1 found
    have nodup : declaring.Nodup := distinct declaring (by simp [parts])
    refine ⟨between, declaring, outer, parts, before, undeclared, List.mem_of_getElem? found, ?_⟩
    rw [← there, nodup.idxOf_getElem]

/-- Inside contours that repeat no name, a reference that is resolved is exact. -/
theorem Occurrence.exact_resolved {occurrence : Occurrence}
    (distinct : ∀ names ∈ occurrence.contours, names.Nodup) : occurrence.resolved.Exact where
  bound_iff depth position := by
    rw [resolved, Option.some_inj, Reference.resolve_eq_bound_iff,
      locate_eq_bound_iff_declaredAt distinct]
  free_iff := by
    rw [resolved, Option.some_inj, Reference.resolve_eq_free_iff, List.mem_flatten, not_exists]
    simp only [not_and]

namespace LexExpr

/-- Addressing succeeds exactly on the trees without addresses in which no contour repeats a name or
declares a keyword. The result is the tree with an address at each reference, and every address is
exact. -/
theorem address_exact (tree : LexExpr) :
    ((∃ addressed, tree.address = .ok addressed) ↔
        (∀ occurrence ∈ tree.occurrences [], occurrence.address? = none) ∧
          ∀ names ∈ tree.contours, names.Nodup ∧ ∀ name ∈ names, Primitive.ofKeyword? name = none) ∧
      ∀ addressed, tree.address = .ok addressed →
        addressed.forget = tree ∧ ∀ occurrence ∈ addressed.occurrences [], occurrence.Exact := by
  have outcome (addressed : LexExpr) :
      tree.address = .ok addressed ↔ tree.Accepted [] ∧ tree.resolved [] = addressed :=
    @addressFrom_eq_ok_iff [] tree addressed
  constructor
  · simp only [outcome, exists_and_left, exists_eq', and_true]
    rfl
  · intro addressed succeeded
    obtain ⟨accepted, rfl⟩ := (outcome addressed).1 succeeded
    refine ⟨accepted.forget_resolved, ?_⟩
    rw [accepted.occurrences_resolved, List.forall_mem_map]
    intro occurrence occurs
    refine Occurrence.exact_resolved fun names encloses => ?_
    rcases mem_contours_of_mem_occurrences occurs encloses with outside | inside
    · cases outside
    · exact (accepted.2 names inside).1

/-- An inner contour hides the first parameter of an outer one, and the second is seen through it. -/
theorem address_exact_shadowed :
    address (.lambda ["a", "b"]
        [.app (.lambda ["c", "a"] [.app (.var "a") [.var "b", .var "g"]]) [.var "a"]]) =
      .ok (.lambda ["a", "b"] [.app (.lambda ["c", "a"]
        [.app (.ref (.bound ⟨"a", 0, 1⟩)) [.ref (.bound ⟨"b", 1, 1⟩), .ref (.free "g")]])
        [.ref (.bound ⟨"a", 0, 0⟩)]]) ∧
      Occurrence.Exact ⟨"b", some (.bound ⟨"b", 1, 1⟩), [["c", "a"], ["a", "b"]]⟩ := by
  have addressed : address (.lambda ["a", "b"]
        [.app (.lambda ["c", "a"] [.app (.var "a") [.var "b", .var "g"]]) [.var "a"]]) =
      .ok (.lambda ["a", "b"] [.app (.lambda ["c", "a"]
        [.app (.ref (.bound ⟨"a", 0, 1⟩)) [.ref (.bound ⟨"b", 1, 1⟩), .ref (.free "g")]])
        [.ref (.bound ⟨"a", 0, 0⟩)]]) := rfl
  refine ⟨addressed, ((address_exact _).2 _ addressed).2 _ ?_⟩
  simp [occurrences, Reference.name]

end LexExpr

end MiniScheme
