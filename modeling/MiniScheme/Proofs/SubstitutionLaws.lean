import MiniScheme.Proofs.NamelessView

/-! # Laws of substitution

What a substitution makes of an expression depends only on what it does to the free names. Where it leaves
them alone, it leaves the expression alone. Two substitutions one after the other are one substitution, and
the free names of the result are those of what stands in place of the free names, both as long as nothing
that the first one puts in place is captured. -/

namespace MiniScheme

/-! ## What a substitution does to free names -/

namespace Substitution

/-- References to names that are left alone stay, and others become what they became before. -/
theorem apply_without (substitution : Substitution) (names : List String) (name : String) :
    (substitution.without names).apply name =
      if name ∈ names then .var name else substitution.apply name := by
  rw [apply, apply, lookup_without]
  split <;> rfl

/-- A substitution that does the same to the names that a contour leaves free does the same inside the
contour. -/
theorem apply_without_congr {first second : Substitution} {names mentioned : List String}
    (agree : ∀ name ∈ mentioned.filter fun name => !names.contains name,
      first.apply name = second.apply name) :
    ∀ name ∈ mentioned, (first.without names).apply name = (second.without names).apply name := by
  intro name member
  rw [apply_without, apply_without]
  by_cases declared : name ∈ names
  · rw [if_pos declared, if_pos declared]
  · rw [if_neg declared, if_neg declared]
    exact agree name (Expr.mem_filter_undeclared_iff.2 ⟨declared, member⟩)

/-- A substitution that avoids names still does so when it leaves other names alone. -/
theorem Avoids.without {substitution : Substitution} {names : List String}
    (avoids : substitution.Avoids names) (declared : List String) :
    (substitution.without declared).Avoids names := by
  intro entry kept
  exact avoids entry (mem_of_mem_without kept)

/-- A name of the first list becomes what stands in the second list at the first position of the name. -/
theorem apply_ofLists_of_mem {names : List String} {replacements : List Expr}
    (sameNumber : names.length = replacements.length) {name : String} (member : name ∈ names) :
    ∃ replacement, replacements[names.idxOf name]? = some replacement ∧
      (ofLists names replacements).apply name = replacement := by
  have given : names.idxOf name < replacements.length :=
    sameNumber ▸ List.idxOf_lt_length_of_mem member
  refine ⟨replacements[names.idxOf name], List.getElem?_eq_getElem given, ?_⟩
  rw [apply, ofLists, lookup_zip, if_pos member, List.getElem?_eq_getElem given, Option.getD_some]

/-- A name that is not in the first list stays. -/
theorem apply_ofLists_of_notMem {names : List String} {replacements : List Expr} {name : String}
    (notMember : name ∉ names) : (ofLists names replacements).apply name = .var name := by
  rw [apply, ofLists, lookup_zip, if_neg notMember, Option.getD_none]

/-- A substitution given by two lists avoids the names that are free in no replacement. -/
theorem avoids_ofLists {names declared : List String} {replacements : List Expr}
    (apart : ∀ name ∈ declared, name ∉ Expr.freeNamesAll replacements) :
    (ofLists names replacements).Avoids declared := by
  intro entry known name bound free
  rw [Expr.freeNamesAll_eq_flatMap] at apart
  exact apart name bound (List.mem_flatMap.2 ⟨entry.2, mem_of_mem_ofLists known, free⟩)

end Substitution

namespace Expr

/-- Substitutions that do the same to the free names of an expression do the same to the expression. -/
theorem subst_congr {first second : Substitution} {expr : Expr}
    (agree : ∀ name ∈ expr.freeNames, first.apply name = second.apply name) :
    expr.subst first = expr.subst second := by
  induction expr generalizing first second with
  | num | bool | str | lit | prim => rfl
  | var name => exact agree name List.mem_cons_self
  | cond test consequent alternative ihTest ihConsequent ihAlternative =>
      rw [freeNames, List.forall_mem_append, List.forall_mem_append] at agree
      rw [subst, subst, ihTest agree.1.1, ihConsequent agree.1.2, ihAlternative agree.2]
  | lambda params body ihBody =>
      rw [freeNames, freeNamesAll_eq_flatMap] at agree
      have inside := Substitution.apply_without_congr agree
      rw [List.forall_mem_flatMap] at inside
      rw [subst, subst, substAll_eq_map, substAll_eq_map]
      congr 1
      exact List.map_congr_left fun form member => ihBody form member (inside form member)
  | app operator operands ihOperator ihOperands =>
      rw [freeNames, freeNamesAll_eq_flatMap, List.forall_mem_append, List.forall_mem_flatMap] at agree
      rw [subst, subst, substAll_eq_map, substAll_eq_map, ihOperator agree.1]
      congr 1
      exact List.map_congr_left fun operand member => ihOperands operand member (agree.2 operand member)
  | letIn bindings body ihBindings ihBody =>
      rw [freeNames, freeNamesAll_eq_flatMap, freeNamesBound_eq_flatMap, List.forall_mem_append,
        List.forall_mem_flatMap] at agree
      have inside := Substitution.apply_without_congr agree.2
      rw [List.forall_mem_flatMap] at inside
      rw [subst, subst, substAll_eq_map, substAll_eq_map, substBindings_eq_map, substBindings_eq_map]
      congr 1
      · refine List.map_congr_left fun binding member => ?_
        rw [ihBindings binding member (agree.1 binding member)]
      · exact List.map_congr_left fun form member => ihBody form member (inside form member)
  | define target value ihValue => rw [subst, subst, ihValue agree]

/-- Replacing nothing changes nothing. -/
theorem subst_nil (expr : Expr) : expr.subst [] = expr := by
  induction expr with
  | num | bool | str | lit | prim | var => rfl
  | cond test consequent alternative ihTest ihConsequent ihAlternative =>
      rw [subst, ihTest, ihConsequent, ihAlternative]
  | lambda params body ihBody =>
      rw [subst, substAll_eq_map]
      congr 1
      exact map_eq_self ihBody
  | app operator operands ihOperator ihOperands =>
      rw [subst, substAll_eq_map, ihOperator]
      congr 1
      exact map_eq_self ihOperands
  | letIn bindings body ihBindings ihBody =>
      rw [subst, substAll_eq_map, substBindings_eq_map]
      congr 1
      · refine map_eq_self fun binding member => ?_
        rw [ihBindings binding member]
      · exact map_eq_self ihBody
  | define target value ihValue => rw [subst, ihValue]

/-- A substitution that leaves the free names of an expression alone leaves the expression alone. -/
theorem subst_eq_self {substitution : Substitution} {expr : Expr}
    (alone : ∀ name ∈ expr.freeNames, substitution.apply name = .var name) :
    expr.subst substitution = expr := by
  have same : expr.subst substitution = expr.subst [] := subst_congr alone
  rw [same, subst_nil]

end Expr

/-! ## Free names of the result -/

namespace Expr

variable {substitution : Substitution}

/-- The free names after a substitution that captures nothing are those of what stands in place of the free
names from before. -/
theorem mem_freeNames_subst {expr : Expr} (avoids : substitution.Avoids expr.boundNames) {name : String} :
    name ∈ (expr.subst substitution).freeNames ↔
      ∃ old ∈ expr.freeNames, name ∈ (substitution.apply old).freeNames := by
  -- In the nameless view nothing is captured, and there a replacement has the same free names.
  have replaced (old : String) :
      ((Pointer.free old).replace (substitution.nameless id)).freeNames =
        (substitution.apply old).freeNames := by
    rw [Pointer.replace, Substitution.lookup_nameless, Substitution.apply]
    cases substitution.lookup old with
    | none => rfl
    | some replacement =>
        rw [Option.map_some, Option.getD_some, Option.getD_some, freeNames_nameless_nil]
  rw [← freeNames_nameless_nil id, nameless_subst id avoids, Nameless.mem_freeNames_replaceFree,
    freeNames_nameless_nil]
  simp only [replaced]

/-- The free names of a list after a substitution that captures nothing. -/
theorem mem_freeNamesAll_substAll {body : List Expr} (avoids : substitution.Avoids (boundNamesAll body))
    {name : String} :
    name ∈ freeNamesAll (substAll substitution body) ↔
      ∃ old ∈ freeNamesAll body, name ∈ (substitution.apply old).freeNames := by
  rw [boundNamesAll_eq_flatMap] at avoids
  simp only [substAll_eq_map, freeNamesAll_eq_flatMap, List.mem_flatMap, List.mem_map]
  constructor
  · rintro ⟨_, ⟨form, member, rfl⟩, free⟩
    obtain ⟨old, mentioned, here⟩ := (mem_freeNames_subst (avoids.of_mem member)).1 free
    exact ⟨old, ⟨form, member, mentioned⟩, here⟩
  · rintro ⟨old, ⟨form, member, mentioned⟩, here⟩
    have free := (mem_freeNames_subst (avoids.of_mem member)).2 ⟨old, mentioned, here⟩
    exact ⟨_, ⟨form, member, rfl⟩, free⟩

/-- If none of the replaced names is free in a list of expressions, then the list stays as it is. If no name
that it declares is free in a replacement, then the free names of the result are those of the list that are
not replaced, and those of the replacement at the first position of each replaced name that is free in the
list. -/
theorem substAll_replaces_free_references {body : List Expr} {names : List String}
    {replacements : List Expr} (sameNumber : names.length = replacements.length) :
    ((∀ name ∈ names, name ∉ freeNamesAll body) →
      substAll (.ofLists names replacements) body = body) ∧
    ((∀ name ∈ boundNamesAll body, name ∉ freeNamesAll replacements) → ∀ name,
      name ∈ freeNamesAll (substAll (.ofLists names replacements) body) ↔
        (name ∈ freeNamesAll body ∧ name ∉ names) ∨
          ∃ replaced ∈ names, replaced ∈ freeNamesAll body ∧
            ∃ replacement, replacements[names.idxOf replaced]? = some replacement ∧
              name ∈ replacement.freeNames) := by
  constructor
  · intro noneFree
    rw [substAll_eq_map]
    refine map_eq_self fun form member => ?_
    refine subst_eq_self fun name free => Substitution.apply_ofLists_of_notMem fun replaced => ?_
    rw [freeNamesAll_eq_flatMap] at noneFree
    exact noneFree name replaced (List.mem_flatMap.2 ⟨form, member, free⟩)
  · intro apart name
    rw [mem_freeNamesAll_substAll (Substitution.avoids_ofLists apart)]
    constructor
    · rintro ⟨old, mentioned, free⟩
      by_cases replaced : old ∈ names
      · obtain ⟨replacement, found, same⟩ := Substitution.apply_ofLists_of_mem sameNumber replaced
        exact .inr ⟨old, replaced, mentioned, replacement, found, same ▸ free⟩
      · rw [Substitution.apply_ofLists_of_notMem replaced, freeNames, List.mem_singleton] at free
        subst free
        exact .inl ⟨mentioned, replaced⟩
    · rintro (⟨mentioned, kept⟩ | ⟨replaced, listed, mentioned, replacement, found, free⟩)
      · refine ⟨name, mentioned, ?_⟩
        rw [Substitution.apply_ofLists_of_notMem kept]
        exact List.mem_cons_self
      · refine ⟨replaced, mentioned, ?_⟩
        obtain ⟨other, there, same⟩ := Substitution.apply_ofLists_of_mem sameNumber listed
        rw [same, ← Option.some.inj (found.symm.trans there)]
        exact free

/-- A parameter and a local binding hide the replaced names, so that nothing changes. Where they do not, the
first replacement of a repeated name counts, also for the value of the local binding; a definition hides
nothing. -/
theorem substAll_replaces_free_references_repeated :
    let names : List String := ["x", "x", "f"]
    let replacements : List Expr := [.var "a", .var "b", .prim .car]
    let hidden : List Expr := [.lambda ["x", "f"] [.app (.var "f") [.var "x"]],
      .letIn [("x", .var "g")] [.var "x"]]
    let body : List Expr := [.letIn [("x", .var "x")] [.app (.var "f") [.var "x"]],
      .define "x" (.app (.var "x") [.var "g"])]
    names.length = replacements.length ∧
      (∀ name ∈ names, name ∉ freeNamesAll hidden) ∧
      substAll (.ofLists names replacements) hidden = hidden ∧
      (∀ name ∈ boundNamesAll body, name ∉ freeNamesAll replacements) ∧
      ∀ name, name ∈ freeNamesAll (substAll (.ofLists names replacements) body) ↔
        (name ∈ freeNamesAll body ∧ name ∉ names) ∨
          ∃ replaced ∈ names, replaced ∈ freeNamesAll body ∧
            ∃ replacement, replacements[names.idxOf replaced]? = some replacement ∧
              name ∈ replacement.freeNames := by
  intro names replacements hidden body
  have noneFree : ∀ name ∈ names, name ∉ freeNamesAll hidden := by decide
  have apart : ∀ name ∈ boundNamesAll body, name ∉ freeNamesAll replacements := by decide
  exact ⟨rfl, noneFree, (substAll_replaces_free_references rfl).1 noneFree, apart,
    (substAll_replaces_free_references rfl).2 apart⟩

end Expr

/-! ## One substitution after another -/

namespace Substitution

/-- A substitution and then another one, as one substitution. -/
def andThen (first second : Substitution) : Substitution :=
  first.map (fun entry => (entry.1, entry.2.subst second)) ++ second

/-- What becomes of a reference under two substitutions one after the other. -/
theorem apply_andThen (first second : Substitution) (name : String) :
    (first.andThen second).apply name = (first.apply name).subst second := by
  rw [apply, apply, andThen, List.lookup_append, lookup_map (Expr.subst second)]
  cases first.lookup name with
  | none => rfl
  | some replacement => rfl

/-- Leaving names alone that no replacement of the first mentions can be done in both substitutions. -/
theorem without_andThen {first : Substitution} {names : List String} (avoids : first.Avoids names)
    (second : Substitution) :
    (first.andThen second).without names = (first.without names).andThen (second.without names) := by
  rw [without, without, without, andThen, andThen, List.filter_append, List.filter_map]
  congr 1
  refine List.map_congr_left fun entry kept => ?_
  -- Whatever names are left alone, they are not free in the replacement.
  have known : entry ∈ first := mem_of_mem_without kept
  refine congrArg (Prod.mk entry.1) (Expr.subst_congr fun name free => ?_)
  have undeclared : name ∉ names := fun declared => avoids entry known name declared free
  rw [← without, apply_without, if_neg undeclared]

/-- The substitution given by joined lists has the entries of both. -/
theorem ofLists_append {names : List String} {replacements : List Expr}
    (sameNumber : names.length = replacements.length) (more : List String) (further : List Expr) :
    ofLists (names ++ more) (replacements ++ further) = ofLists names replacements ++ ofLists more further :=
  List.zip_append sameNumber

/-- Changing the replacements in the list changes them in the substitution. -/
theorem ofLists_map (names : List String) (replacements : List Expr) (change : Expr → Expr) :
    ofLists names (replacements.map change) =
      (ofLists names replacements).map fun entry => (entry.1, change entry.2) :=
  List.zip_map_right

/-- Substitutions given by lists, one after the other. -/
theorem ofLists_andThen {names : List String} {replacements : List Expr}
    (sameNumber : names.length = replacements.length) (more : List String) (further : List Expr) :
    (ofLists names replacements).andThen (ofLists more further) =
      ofLists (names ++ more) (Expr.substAll (ofLists more further) replacements ++ further) := by
  rw [Expr.substAll_eq_map, ofLists_append (by rw [List.length_map, sameNumber]), ofLists_map, andThen]

end Substitution

namespace Expr

/-- A substitution that captures nothing and then another one are one substitution. -/
theorem subst_subst {first second : Substitution} {expr : Expr} (avoids : first.Avoids expr.boundNames) :
    (expr.subst first).subst second = expr.subst (first.andThen second) := by
  induction expr generalizing first second with
  | num | bool | str | lit | prim => rfl
  | var name => exact (Substitution.apply_andThen first second name).symm
  | cond test consequent alternative ihTest ihConsequent ihAlternative =>
      rw [boundNames, Substitution.avoids_append, Substitution.avoids_append] at avoids
      rw [subst, subst, subst, ihTest avoids.1.1, ihConsequent avoids.1.2, ihAlternative avoids.2]
  | lambda params body ihBody =>
      rw [boundNames, boundNamesAll_eq_flatMap, Substitution.avoids_append] at avoids
      rw [subst, subst, subst, Substitution.without_andThen avoids.1, substAll_eq_map, substAll_eq_map,
        substAll_eq_map, List.map_map]
      congr 1
      exact List.map_congr_left fun form member =>
        ihBody form member ((avoids.2.of_mem member).without params)
  | app operator operands ihOperator ihOperands =>
      rw [boundNames, boundNamesAll_eq_flatMap, Substitution.avoids_append] at avoids
      rw [subst, subst, subst, substAll_eq_map, substAll_eq_map, substAll_eq_map, List.map_map,
        ihOperator avoids.1]
      congr 1
      exact List.map_congr_left fun operand member => ihOperands operand member (avoids.2.of_mem member)
  | letIn bindings body ihBindings ihBody =>
      rw [boundNames, boundNamesAll_eq_flatMap, boundNamesBound_eq_flatMap, Substitution.avoids_append,
        Substitution.avoids_append] at avoids
      obtain ⟨⟨avoidsNames, avoidsBindings⟩, avoidsBody⟩ := avoids
      -- Substitution changes the bound expressions and not the bound names.
      have sameNames : (bindings.map fun binding => (binding.1, binding.2.subst first)).map Prod.fst =
          bindings.map Prod.fst := by
        rw [List.map_map]
        rfl
      simp only [subst, substAll_eq_map, substBindings_eq_map, sameNames, List.map_map,
        Substitution.without_andThen avoidsNames]
      congr 1
      · refine List.map_congr_left fun binding member => ?_
        exact congrArg (Prod.mk binding.1) (ihBindings binding member (avoidsBindings.of_mem member))
      · exact List.map_congr_left fun form member =>
          ihBody form member ((avoidsBody.of_mem member).without _)
  | define target value ihValue => rw [subst, subst, subst, ihValue avoids]

/-- If no name that a list of expressions declares is free in the first replacements, then two substitutions
one after the other are the one that has the first replacements, after the second substitution, before the
second ones. -/
theorem substAll_substAll {body : List Expr} {names more : List String} {replacements further : List Expr}
    (sameNumber : names.length = replacements.length)
    (apart : ∀ name ∈ boundNamesAll body, name ∉ freeNamesAll replacements) :
    substAll (.ofLists more further) (substAll (.ofLists names replacements) body) =
      substAll (.ofLists (names ++ more) (substAll (.ofLists more further) replacements ++ further))
        body := by
  have avoids : (Substitution.ofLists names replacements).Avoids (boundNamesAll body) :=
    Substitution.avoids_ofLists apart
  rw [boundNamesAll_eq_flatMap] at avoids
  rw [← Substitution.ofLists_andThen sameNumber, substAll_eq_map, substAll_eq_map, substAll_eq_map,
    List.map_map]
  exact List.map_congr_left fun form member => subst_subst (avoids.of_mem member)

/-- A parameter captures what the second substitution brings in, on both sides alike; a local binding hides
the name that its value refers to. -/
theorem substAll_substAll_captured :
    let body : List Expr := [.lambda ["y"] [.letIn [("x", .var "x")] [.app (.var "x") [.var "w"]]],
      .define "x" (.app (.var "x") [.var "y"])]
    let replacements : List Expr := [.app (.var "u") [], .var "u", .bool true]
    ["x", "w", "x"].length = replacements.length ∧
      (∀ name ∈ boundNamesAll body, name ∉ freeNamesAll replacements) ∧
      substAll (.ofLists ["u", "y"] [.var "y", .bool false])
          (substAll (.ofLists ["x", "w", "x"] replacements) body) =
        substAll (.ofLists ["x", "w", "x", "u", "y"]
          [.app (.var "y") [], .var "y", .bool true, .var "y", .bool false]) body := by
  intro body replacements
  have apart : ∀ name ∈ boundNamesAll body, name ∉ freeNamesAll replacements := by decide
  exact ⟨rfl, apart, substAll_substAll rfl apart⟩

end Expr

end MiniScheme
