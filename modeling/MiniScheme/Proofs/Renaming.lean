import MiniScheme.Expr.Renaming
import MiniScheme.Proofs.Declarations
import MiniScheme.Proofs.FreshNames

/-! # Renaming keeps the nameless view

`Expr.rename` replaces all declared names by fresh ones. If the supply has reserved the names of an
expression, then the renamed expression has the same nameless view, and it declares no name that was
reserved before. The invariant `RenamedApart` says so for a list of expressions together with what the
supply has reserved in between, so that it composes along the recursion. -/

namespace MiniScheme

/-- What all items have is among the names exactly when what each item has is. -/
theorem flatMap_subset_iff {β : Type} {items : List β} {names : β → List String}
    {others : List String} :
    items.flatMap names ⊆ others ↔ ∀ item ∈ items, names item ⊆ others := by
  constructor
  · intro all item member name found
    exact all (List.mem_flatMap.2 ⟨item, member, found⟩)
  · intro each name found
    obtain ⟨item, member, here⟩ := List.mem_flatMap.1 found
    exact each item member here

namespace Expr

/-! ## Names -/

/-- The names that an expression itself mentions: a reference, declared names or a defined name. -/
def ownNames : Expr → List String
  | .var name => [name]
  | .define target _ => [target]
  | other => other.contour?.getD []

/-- The names mentioned in an expression are its own and those mentioned in its immediate sub-expressions. -/
theorem allNames_eq_append (expr : Expr) :
    expr.allNames = expr.ownNames ++ expr.children.flatMap allNames := by
  cases expr <;> simp [allNames, ownNames, contour?, children, List.flatMap_map]

/-- A query that finds names of the expression itself and what it finds in immediate sub-expressions, and no
others, finds mentioned names only. -/
theorem query_subset_allNames {query : Expr → List String}
    (collects : ∀ expr, query expr ⊆ expr.ownNames ++ expr.children.flatMap query) (expr : Expr) :
    query expr ⊆ expr.allNames := by
  induction expr using induction_children with
  | step outer ih =>
      intro name found
      rw [allNames_eq_append, List.mem_append, List.mem_flatMap]
      rcases List.mem_append.1 (collects outer found) with own | below
      · exact .inl own
      · obtain ⟨child, member, further⟩ := List.mem_flatMap.1 below
        exact .inr ⟨child, member, ih child member further⟩

/-- Every free name is mentioned. -/
theorem freeNames_subset_allNames : ∀ expr : Expr, expr.freeNames ⊆ expr.allNames := by
  refine query_subset_allNames fun expr name free => ?_
  cases expr with
  | num | bool | str | lit | prim => simp [freeNames] at free
  | var | cond | app => simpa [freeNames, ownNames, contour?, children] using free
  | lambda params body =>
      rw [freeNames, freeNamesAll_eq_flatMap] at free
      exact List.mem_append_right _ (List.mem_filter.1 free).1
  | letIn bindings body =>
      rw [freeNames, freeNamesAll_eq_flatMap, freeNamesBound_eq_flatMap] at free
      rw [children, List.flatMap_append, List.flatMap_map]
      refine List.mem_append_right _ ?_
      rcases List.mem_append.1 free with inValues | inBody
      · exact List.mem_append_left _ inValues
      · exact List.mem_append_right _ (List.mem_filter.1 inBody).1
  | define target value =>
      rw [children, List.flatMap_singleton]
      exact List.mem_append_right _ free

/-- Every declared name is mentioned. -/
theorem boundNames_subset_allNames : ∀ expr : Expr, expr.boundNames ⊆ expr.allNames := by
  refine query_subset_allNames fun expr name bound => ?_
  have own : expr.contour?.getD [] ⊆ expr.ownNames := by
    cases expr <;> simp [contour?, ownNames]
  rw [boundNames_eq_append] at bound
  rcases List.mem_append.1 bound with declared | below
  · exact List.mem_append_left _ (own declared)
  · exact List.mem_append_right _ below

/-- Substitution in an expression that is no reference keeps the names that it mentions itself. -/
theorem ownNames_subst (substitution : Substitution) {outer : Expr}
    (noReference : ∀ name, outer ≠ .var name) :
    (outer.subst substitution).ownNames = outer.ownNames := by
  cases outer with
  | var name => exact absurd rfl (noReference name)
  | letIn bindings body => exact congrArg (Option.getD · []) (contour?_subst substitution noReference)
  | _ => rfl

/-- Substitution brings in no names but those of the replacements. -/
theorem mem_allNames_subst {substitution : Substitution} {expr : Expr} {name : String}
    (mentioned : name ∈ (expr.subst substitution).allNames) :
    name ∈ expr.allNames ∨ ∃ entry ∈ substitution, name ∈ entry.2.allNames := by
  induction expr using induction_children generalizing substitution with
  | step outer ih =>
      by_cases reference : ∃ other, outer = .var other
      · obtain ⟨other, rfl⟩ := reference
        rw [subst, Substitution.apply] at mentioned
        cases found : substitution.lookup other with
        | none =>
            rw [found] at mentioned
            exact .inl mentioned
        -- The reference is replaced.
        | some replacement =>
            rw [found] at mentioned
            exact .inr ⟨_, mem_of_lookup_eq_some found, mentioned⟩
      · have noReference := not_exists.1 reference
        rw [allNames_eq_append, ownNames_subst substitution noReference, List.mem_append,
          List.mem_flatMap] at mentioned
        rw [allNames_eq_append, List.mem_append, List.mem_flatMap]
        rcases mentioned with own | ⟨result, isChild, below⟩
        · exact .inl (.inl own)
        · obtain ⟨child, member, entries, among, rfl⟩ :=
            exists_mem_of_forall₂ (substitutedWithin_children substitution noReference) isChild
          rcases ih child member below with old | ⟨entry, known, new⟩
          · exact .inl (.inr ⟨child, member, old⟩)
          · exact .inr ⟨entry, among known, new⟩

end Expr

namespace Substitution

variable {α : Type} (literal : Value → α)

/-- The replacements of a substitution given by two lists are in the nameless view those of the
second. -/
theorem nameless_ofLists (names : List String) (replacements : List Expr) :
    (ofLists names replacements).nameless literal =
      names.zip (replacements.map (Expr.nameless literal [])) := by
  rw [ofLists, nameless, List.zip_map_right]
  rfl

end Substitution

namespace Expr

variable {α : Type} (literal : Value → α)

/-! ## The invariant -/

/-- The renamed expressions have the nameless views of the old ones, declare nothing that was reserved
before, and mention only what is reserved after. -/
structure RenamedApart (before : NameSupply) (exprs renamed : List Expr) (after : NameSupply) :
    Prop where
  /-- What is reserved stays reserved. -/
  reserved_subset : before.reserved ⊆ after.reserved
  /-- The names of the renamed expressions are reserved. -/
  mentioned : ∀ expr ∈ renamed, expr.allNames ⊆ after.reserved
  /-- The names that the renamed expressions declare were not reserved. -/
  apart : ∀ expr ∈ renamed, ∀ name ∈ expr.boundNames, name ∉ before.reserved
  /-- The nameless views are the same. -/
  nameless_eq : renamed.map (nameless literal []) = exprs.map (nameless literal [])

/-- The nameless references to free names. -/
abbrev freeReferences (names : List String) : List (Nameless α) :=
  names.map fun name => .ref (.free name)

/-- Fresh names stand for the declared ones in the renamed body of a declaration. -/
structure Redeclared (before : NameSupply) (names : List String) (body : List Expr)
    (fresh : List String) (renamed : List Expr) (after : NameSupply) : Prop where
  /-- There is a fresh name for each declared one. -/
  length_eq : names.length = fresh.length
  /-- The fresh names are distinct. -/
  nodup : fresh.Nodup
  /-- The fresh names were not reserved. -/
  unreserved : ∀ name ∈ fresh, name ∉ before.reserved
  /-- The fresh names are reserved. -/
  fresh_mentioned : fresh ⊆ after.reserved
  /-- What is reserved stays reserved. -/
  reserved_subset : before.reserved ⊆ after.reserved
  /-- The names of the renamed forms are reserved. -/
  mentioned : ∀ form ∈ renamed, form.allNames ⊆ after.reserved
  /-- The names that the renamed forms declare were not reserved. -/
  apart : ∀ form ∈ renamed, ∀ name ∈ form.boundNames, name ∉ before.reserved
  /-- The renamed forms refer to the fresh names instead of the declared ones. -/
  nameless_eq : renamed.map (nameless literal []) =
    (body.map (nameless literal [])).map
      (Nameless.replaceFree (names.zip (freeReferences fresh)))

namespace RenamedApart

variable {literal} {before between after : NameSupply} {exprs renamed more moreRenamed : List Expr}

/-- An expression without sub-expressions and declarations may stay as it is. -/
theorem leaf {supply : NameSupply} {expr : Expr} (mentioned : expr.allNames ⊆ supply.reserved)
    (plain : expr.boundNames = []) : RenamedApart literal supply [expr] [expr] supply where
  reserved_subset := List.Subset.refl _
  mentioned := by simpa using mentioned
  apart := by simp [plain]
  nameless_eq := rfl

/-- Nothing is to be renamed in no expressions. -/
theorem nil (supply : NameSupply) : RenamedApart literal supply [] [] supply where
  reserved_subset := List.Subset.refl _
  mentioned := by simp
  apart := by simp
  nameless_eq := rfl

/-- Expressions that are renamed one after the other. -/
theorem append (first : RenamedApart literal before exprs renamed between)
    (second : RenamedApart literal between more moreRenamed after) :
    RenamedApart literal before (exprs ++ more) (renamed ++ moreRenamed) after where
  reserved_subset := List.Subset.trans first.reserved_subset second.reserved_subset
  mentioned := by
    refine List.forall_mem_append.2 ⟨fun expr member => ?_, second.mentioned⟩
    exact List.Subset.trans (first.mentioned expr member) second.reserved_subset
  apart := by
    refine List.forall_mem_append.2 ⟨first.apart, fun expr member name bound reserved => ?_⟩
    exact second.apart expr member name bound (first.reserved_subset reserved)
  nameless_eq := by
    rw [List.map_append, List.map_append, first.nameless_eq, second.nameless_eq]

end RenamedApart

/-- Declaring anew draws a fresh name for each declared one and puts references to it in the body. -/
theorem run_redeclare (names : List String) (body : List Expr) (supply : NameSupply) :
    (redeclare names body).run supply =
      ((((names.mapM NameSupply.fresh).run supply).1, body.map (subst (.ofLists names
        (((names.mapM NameSupply.fresh).run supply).1.map .var)))),
        ((names.mapM NameSupply.fresh).run supply).2) := by
  rw [← substAll_eq_map]
  rfl

/-- References that replace names are references. -/
theorem exists_var_of_mem_ofLists {names fresh : List String} {entry : String × Expr}
    (member : entry ∈ Substitution.ofLists names (fresh.map .var)) :
    ∃ name ∈ fresh, entry.2 = .var name := by
  obtain ⟨name, known, same⟩ := List.mem_map.1 (Substitution.mem_of_mem_ofLists member)
  exact ⟨name, known, same.symm⟩

/-- References in place of names change no query about the declarations in an expression. -/
theorem query_subst_ofLists {β : Type} {query : Expr → List β}
    (answer : Option (List String) → List β → List β)
    (step : ∀ expr, query expr = answer expr.contour? (expr.children.flatMap query))
    (names fresh : List String) (expr : Expr) :
    query (expr.subst (.ofLists names (fresh.map .var))) = query expr := by
  refine query_subst answer step (fun entry member => ?_) expr
  obtain ⟨name, -, same⟩ := exists_var_of_mem_ofLists member
  exact ⟨name, same⟩

/-- References in place of names leave the contours of an expression as they are. -/
theorem contours_subst_ofLists (names fresh : List String) (expr : Expr) :
    (expr.subst (.ofLists names (fresh.map .var))).contours = expr.contours :=
  query_subst_ofLists (fun own inside => own.toList ++ inside) contours_eq_append names fresh expr

variable {literal} {before between after : NameSupply}

/-- Fresh names take the place of declared ones in a body that is renamed apart already. -/
theorem RenamedApart.redeclared {body renamed : List Expr} (names : List String)
    (inner : RenamedApart literal before body renamed between) :
    Redeclared literal before names body ((redeclare names renamed).run between).1.1
      ((redeclare names renamed).run between).1.2 ((redeclare names renamed).run between).2 := by
  let fresh := ((names.mapM NameSupply.fresh).run between).1
  let after := ((names.mapM NameSupply.fresh).run between).2
  let exchange : Substitution := .ofLists names (fresh.map .var)
  have draws : NameSupply.Draws between names.length fresh after :=
    NameSupply.draws_mapM_fresh names between
  have references : ∀ entry ∈ exchange, ∃ name ∈ fresh, entry.2 = .var name :=
    fun _ => exists_var_of_mem_ofLists
  -- The declarations inside were renamed before the fresh names were drawn, so none captures them.
  have avoids : ∀ form ∈ renamed, exchange.Avoids form.boundNames := by
    intro form member entry known name bound free
    obtain ⟨drawn, isFresh, same⟩ := references entry known
    rw [same, freeNames, List.mem_singleton] at free
    refine draws.unreserved drawn isFresh (inner.mentioned form member ?_)
    exact free ▸ boundNames_subset_allNames form bound
  -- One goal for each field of the invariant, in their order.
  rw [run_redeclare]
  constructor
  · exact draws.length_eq.symm
  · exact draws.nodup
  · intro name drawn reserved
    exact draws.unreserved name drawn (inner.reserved_subset reserved)
  · intro name drawn
    exact (draws.mem_reserved name).2 (.inl drawn)
  · intro name reserved
    exact (draws.mem_reserved name).2 (.inr (inner.reserved_subset reserved))
  · refine List.forall_mem_map.2 fun form member name mentioned => ?_
    rw [draws.mem_reserved name]
    rcases mem_allNames_subst mentioned with old | ⟨entry, known, new⟩
    · exact .inr (inner.mentioned form member old)
    · obtain ⟨drawn, isFresh, same⟩ := references entry known
      rw [same, allNames, List.mem_singleton] at new
      exact .inl (new ▸ isFresh)
  · refine List.forall_mem_map.2 fun form member name bound => ?_
    rw [← flatten_contours, contours_subst_ofLists, flatten_contours] at bound
    exact inner.apart form member name bound
  · rw [← inner.nameless_eq, List.map_map, List.map_map]
    refine List.map_congr_left fun form member => ?_
    rw [Function.comp_apply, Function.comp_apply, nameless_subst literal (avoids form member),
      Substitution.nameless_ofLists, List.map_map]
    rfl

/-- Inside their declarations the renamed forms have the nameless views of the old ones. -/
theorem Redeclared.nameless_declared {names fresh : List String} {body renamed : List Expr}
    (redeclared : Redeclared literal before names body fresh renamed after)
    (known : ∀ form ∈ body, form.allNames ⊆ before.reserved) :
    renamed.map (nameless literal [fresh]) = body.map (nameless literal [names]) := by
  have closes (declared : List String) (forms : List Expr) :
      forms.map (nameless literal [declared]) =
        (forms.map (nameless literal [])).map (Nameless.close [declared] 0) := by
    rw [List.map_map]
    exact List.map_congr_left fun form _ => nameless_append literal [] [declared] form
  -- Closing over the fresh names undoes the exchange, as none of them was free before.
  rw [closes, closes, redeclared.nameless_eq, List.map_map, List.map_map, List.map_map]
  refine List.map_congr_left fun form member => ?_
  refine Nameless.close_replaceFree (scoped_nameless literal [] form) redeclared.length_eq
    redeclared.nodup fun name drawn free => ?_
  rw [freeNames_nameless_nil] at free
  exact redeclared.unreserved name drawn (known form member (freeNames_subset_allNames form free))

/-! ## Runs of the renaming -/

namespace RenamedApart

/-- A conditional of renamed parts. -/
theorem cond {test consequent alternative test' consequent' alternative' : Expr}
    (parts : RenamedApart literal before [test, consequent, alternative]
      [test', consequent', alternative'] after) :
    RenamedApart literal before [.cond test consequent alternative]
      [.cond test' consequent' alternative'] after where
  reserved_subset := parts.reserved_subset
  mentioned := by
    have mentioned := parts.mentioned
    rw [List.forall_mem_cons, List.forall_mem_cons, List.forall_mem_singleton] at mentioned
    rw [List.forall_mem_singleton]
    exact List.append_subset.2 ⟨List.append_subset.2 ⟨mentioned.1, mentioned.2.1⟩, mentioned.2.2⟩
  apart := by
    have apart := parts.apart
    rw [List.forall_mem_cons, List.forall_mem_cons, List.forall_mem_singleton] at apart
    rw [List.forall_mem_singleton]
    exact List.forall_mem_append.2 ⟨List.forall_mem_append.2 ⟨apart.1, apart.2.1⟩, apart.2.2⟩
  nameless_eq := by
    have views := parts.nameless_eq
    simp only [List.map_cons, List.map_nil, List.cons.injEq, and_true] at views
    obtain ⟨sameTest, sameConsequent, sameAlternative⟩ := views
    rw [List.map_singleton, List.map_singleton, nameless, nameless, sameTest, sameConsequent,
      sameAlternative]

/-- An application of renamed parts. -/
theorem app {operator operator' : Expr} {operands operands' : List Expr}
    (parts : RenamedApart literal before (operator :: operands) (operator' :: operands') after) :
    RenamedApart literal before [.app operator operands] [.app operator' operands'] after where
  reserved_subset := parts.reserved_subset
  mentioned := by
    have mentioned := parts.mentioned
    rw [List.forall_mem_cons] at mentioned
    rw [List.forall_mem_singleton, allNames, allNamesAll_eq_flatMap]
    exact List.append_subset.2 ⟨mentioned.1, flatMap_subset_iff.2 mentioned.2⟩
  apart := by
    have apart := parts.apart
    rw [List.forall_mem_cons] at apart
    rw [List.forall_mem_singleton, boundNames, boundNamesAll_eq_flatMap]
    refine List.forall_mem_append.2 ⟨apart.1, fun name bound => ?_⟩
    obtain ⟨operand, member, found⟩ := List.mem_flatMap.1 bound
    exact apart.2 operand member name found
  nameless_eq := by
    have views := parts.nameless_eq
    rw [List.map_cons, List.map_cons, List.cons.injEq] at views
    rw [List.map_singleton, List.map_singleton, nameless, nameless, namelessAll_eq_map,
      namelessAll_eq_map, views.1, views.2]

/-- A definition of a renamed value. -/
theorem define {target : String} {value value' : Expr} (known : target ∈ before.reserved)
    (part : RenamedApart literal before [value] [value'] after) :
    RenamedApart literal before [.define target value] [.define target value'] after where
  reserved_subset := part.reserved_subset
  mentioned := by
    have mentioned := part.mentioned
    rw [List.forall_mem_singleton] at mentioned ⊢
    exact List.cons_subset.2 ⟨part.reserved_subset known, mentioned⟩
  apart := by
    have apart := part.apart
    rw [List.forall_mem_singleton] at apart ⊢
    exact apart
  nameless_eq := by
    have views := part.nameless_eq
    rw [List.map_singleton, List.map_singleton, List.cons.injEq] at views
    rw [List.map_singleton, List.map_singleton, nameless, nameless, views.1]

/-- A procedure with redeclared parameters. -/
theorem lambda {params fresh : List String} {body renamed : List Expr}
    (redeclared : Redeclared literal before params body fresh renamed after)
    (known : ∀ form ∈ body, form.allNames ⊆ before.reserved) :
    RenamedApart literal before [.lambda params body] [.lambda fresh renamed] after where
  reserved_subset := redeclared.reserved_subset
  mentioned := by
    rw [List.forall_mem_singleton, allNames, allNamesAll_eq_flatMap]
    exact List.append_subset.2
      ⟨redeclared.fresh_mentioned, flatMap_subset_iff.2 redeclared.mentioned⟩
  apart := by
    rw [List.forall_mem_singleton, boundNames, boundNamesAll_eq_flatMap]
    refine List.forall_mem_append.2 ⟨redeclared.unreserved, fun name bound => ?_⟩
    obtain ⟨form, member, found⟩ := List.mem_flatMap.1 bound
    exact redeclared.apart form member name found
  nameless_eq := by
    rw [List.map_singleton, List.map_singleton, nameless, nameless, namelessAll_eq_map,
      namelessAll_eq_map, redeclared.nameless_declared known, redeclared.length_eq]

/-- Local bindings of renamed values, with redeclared names. -/
theorem letIn {bindings : List (String × Expr)} {values body renamed : List Expr}
    {fresh : List String}
    (bound : RenamedApart literal before (bindings.map Prod.snd) values between)
    (redeclared : Redeclared literal between (bindings.map Prod.fst) body fresh renamed after)
    (known : ∀ form ∈ body, form.allNames ⊆ between.reserved) :
    RenamedApart literal before [.letIn bindings body] [.letIn (fresh.zip values) renamed] after := by
  have sameNumber : fresh.length = values.length := by
    have lengths := congrArg List.length bound.nameless_eq
    rw [List.length_map, List.length_map, List.length_map] at lengths
    rw [← redeclared.length_eq, List.length_map, lengths]
  -- The renamed bindings pair each fresh name with the renamed expression at its position.
  have names : (fresh.zip values).map Prod.fst = fresh := List.map_fst_zip (Nat.le_of_eq sameNumber)
  have second : (fresh.zip values).map Prod.snd = values := List.map_snd_zip (Nat.le_of_eq sameNumber.symm)
  have valuesOf {β : Type} (measure : Expr → β) (pairs : List (String × Expr)) :
      (pairs.map fun binding => measure binding.2) = (pairs.map Prod.snd).map measure := by
    rw [List.map_map]
    rfl
  constructor
  · exact List.Subset.trans bound.reserved_subset redeclared.reserved_subset
  · rw [List.forall_mem_singleton, allNames, allNamesAll_eq_flatMap, allNamesBound_eq_flatMap, names]
    refine List.append_subset.2 ⟨List.append_subset.2 ⟨redeclared.fresh_mentioned, ?_⟩,
      flatMap_subset_iff.2 redeclared.mentioned⟩
    refine flatMap_subset_iff.2 fun binding member => ?_
    refine List.Subset.trans (bound.mentioned binding.2 ?_) redeclared.reserved_subset
    rw [← second]
    exact List.mem_map_of_mem member
  · rw [List.forall_mem_singleton, boundNames, boundNamesAll_eq_flatMap, boundNamesBound_eq_flatMap,
      names]
    refine List.forall_mem_append.2 ⟨List.forall_mem_append.2 ⟨?_, ?_⟩, ?_⟩
    · intro name drawn reserved
      exact redeclared.unreserved name drawn (bound.reserved_subset reserved)
    · intro name found
      obtain ⟨binding, member, declared⟩ := List.mem_flatMap.1 found
      refine bound.apart binding.2 ?_ name declared
      rw [← second]
      exact List.mem_map_of_mem member
    · intro name found reserved
      obtain ⟨form, member, declared⟩ := List.mem_flatMap.1 found
      exact redeclared.apart form member name declared (bound.reserved_subset reserved)
  · rw [List.map_singleton, List.map_singleton, nameless, nameless, namelessAll_eq_map,
      namelessAll_eq_map, namelessBound_eq_map, namelessBound_eq_map, names,
      redeclared.nameless_declared known, valuesOf (nameless literal []),
      valuesOf (nameless literal []), second, bound.nameless_eq]

end RenamedApart

/-- The renaming of an expression from a supply that has reserved its names. -/
abbrev RenamesApart (literal : Value → α) (expr : Expr) : Prop :=
  ∀ before : NameSupply, expr.allNames ⊆ before.reserved →
    RenamedApart literal before [expr] [((rename expr).run before).1] ((rename expr).run before).2

/-- If each expression of a list is renamed apart, so is the list. -/
theorem renameAll_apart {exprs : List Expr} (each : ∀ expr ∈ exprs, RenamesApart literal expr)
    (known : ∀ expr ∈ exprs, expr.allNames ⊆ before.reserved) :
    RenamedApart literal before exprs ((renameAll exprs).run before).1
      ((renameAll exprs).run before).2 := by
  induction exprs generalizing before with
  | nil => exact .nil before
  | cons expr exprs ih =>
      rw [List.forall_mem_cons] at each known
      -- The first expression leaves a supply in which the names of the others are reserved still.
      have first := each.1 before known.1
      have others := ih each.2 fun other member =>
        List.Subset.trans (known.2 other member) first.reserved_subset
      exact first.append others

/-- The bound expressions of bindings are renamed as a list. -/
theorem renameBound_eq_renameAll (bindings : List (String × Expr)) :
    renameBound bindings = renameAll (bindings.map Prod.snd) := by
  induction bindings with
  | nil => rfl
  | cons binding bindings ih =>
      rw [renameBound, ih]
      rfl

/-- Renaming a list gives as many expressions. -/
theorem length_renameAll (exprs : List Expr) (supply : NameSupply) :
    ((renameAll exprs).run supply).1.length = exprs.length := by
  induction exprs generalizing supply with
  | nil => rfl
  | cons expr exprs ih => exact congrArg (· + 1) (ih _)

/-- Declaring anew gives as many names. -/
theorem length_redeclare (names : List String) (body : List Expr) (supply : NameSupply) :
    ((redeclare names body).run supply).1.1.length = names.length :=
  (NameSupply.draws_mapM_fresh names supply).length_eq

/-- Renaming local bindings renames the bound expressions, then the forms, and then the declared names,
which are paired with the renamed expressions. -/
theorem run_rename_letIn (bindings : List (String × Expr)) (body : List Expr) (supply : NameSupply) :
    let values := (renameAll (bindings.map Prod.snd)).run supply
    let inner := (renameAll body).run values.2
    let declared := (redeclare (bindings.map Prod.fst) inner.1).run inner.2
    (rename (.letIn bindings body)).run supply =
        (.letIn (declared.1.1.zip values.1) declared.1.2, declared.2) ∧
      declared.1.1.length = values.1.length := by
  refine ⟨?_, ?_⟩
  · rw [rename, renameBound_eq_renameAll]
    rfl
  · -- There are as many new names as renamed values.
    rw [length_redeclare, length_renameAll, List.length_map, List.length_map]

/-- Renaming an expression keeps its nameless view and declares no name that was reserved. -/
theorem rename_apart (literal : Value → α) (expr : Expr) : RenamesApart literal expr := by
  induction expr with
  | num | bool | str | var | lit | prim =>
      intro before known
      exact .leaf known rfl
  | cond test consequent alternative ihTest ihConsequent ihAlternative =>
      intro before known
      obtain ⟨known, knownAlternative⟩ := List.append_subset.1 known
      obtain ⟨knownTest, knownConsequent⟩ := List.append_subset.1 known
      -- The three parts are renamed one after the other, each from the supply that the last one left.
      have first := ihTest before knownTest
      have second := first.append (ihConsequent _
        (List.Subset.trans knownConsequent first.reserved_subset))
      have third := second.append (ihAlternative _
        (List.Subset.trans knownAlternative second.reserved_subset))
      exact third.cond
  | lambda params body ihBody =>
      intro before known
      rw [allNames, allNamesAll_eq_flatMap] at known
      have knownBody := flatMap_subset_iff.1 (List.append_subset.1 known).2
      exact .lambda ((renameAll_apart ihBody knownBody).redeclared params) knownBody
  | app operator operands ihOperator ihOperands =>
      intro before known
      rw [allNames, allNamesAll_eq_flatMap] at known
      obtain ⟨knownOperator, knownOperands⟩ := List.append_subset.1 known
      have first := ihOperator before knownOperator
      have others := renameAll_apart ihOperands fun operand member =>
        List.Subset.trans (flatMap_subset_iff.1 knownOperands operand member) first.reserved_subset
      exact (first.append others).app
  | letIn bindings body ihBindings ihBody =>
      intro before known
      rw [allNames, allNamesAll_eq_flatMap, allNamesBound_eq_flatMap] at known
      obtain ⟨known, knownBody⟩ := List.append_subset.1 known
      obtain ⟨-, knownValues⟩ := List.append_subset.1 known
      -- The bound expressions are renamed first, then the body, then the names are exchanged.
      have bound : RenamedApart literal before (bindings.map Prod.snd) _ _ :=
        renameAll_apart (List.forall_mem_map.2 ihBindings)
          (List.forall_mem_map.2 (flatMap_subset_iff.1 knownValues))
      have knownBody : ∀ form ∈ body, form.allNames ⊆ _ := fun form member =>
        List.Subset.trans (flatMap_subset_iff.1 knownBody form member) bound.reserved_subset
      rw [rename, renameBound_eq_renameAll]
      exact .letIn bound ((renameAll_apart ihBody knownBody).redeclared (bindings.map Prod.fst))
        knownBody
  | define target value ihValue =>
      intro before known
      obtain ⟨knownTarget, knownValue⟩ := List.cons_subset.1 known
      exact .define knownTarget (ihValue before knownValue)

/-- Renaming after all names are reserved keeps the invariant, from whatever supply the names come. -/
theorem renamedApart_renameApart (literal : Value → α) (exprs : List Expr) (supply : NameSupply) :
    RenamedApart literal (supply.reserve (allNamesAll exprs)) exprs ((renameApart exprs).run supply).1
      ((renameApart exprs).run supply).2 := by
  have known : ∀ expr ∈ exprs, expr.allNames ⊆ (supply.reserve (allNamesAll exprs)).reserved := by
    intro expr member name found
    rw [NameSupply.reserve, allNamesAll_eq_flatMap]
    exact List.mem_append_left _ (List.mem_flatMap.2 ⟨expr, member, found⟩)
  exact renameAll_apart (fun expr _ => rename_apart literal expr) known

/-- Renaming expressions apart keeps their nameless views. -/
theorem map_nameless_renameApart (literal : Value → α) (exprs : List Expr) (supply : NameSupply) :
    ((renameApart exprs).run supply).1.map (nameless literal []) =
      exprs.map (nameless literal []) :=
  (renamedApart_renameApart literal exprs supply).nameless_eq

end Expr

end MiniScheme
