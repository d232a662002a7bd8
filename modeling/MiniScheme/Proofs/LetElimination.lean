import MiniScheme.Expr.LetElimination
import MiniScheme.Proofs.AddressedPrograms

/-! # Local bindings eliminated

A local binding can be replaced by the application that it means, and the application then be rewritten in
turn. The application need not be smaller than the binding, but its parts are parts of the binding, so three
calls lead from an expression to expressions of less height. Names are declared at the same places and have
the same scopes as before, since the bound expressions stand outside the body in both forms. -/

namespace MiniScheme

namespace Expr

variable {expr outer : Expr}

/-! ## Parts and heights -/

/-- An expression that is rebuilt of its parts as they are stays as it is. -/
theorem mapChildrenM_some (expr : Expr) : expr.mapChildrenM some = some expr := by
  have kept {α : Type} (items : List α) : items.mapM some = some items := by
    have each : ∀ item ∈ items, some item = pure (id item) := fun _ _ => rfl
    rw [mapM_eq_pure_map each, List.map_id]
    rfl
  cases expr with
  | num | bool | str | var | lit | prim | cond | define => rfl
  | lambda params body =>
      rw [mapChildrenM, kept]
      rfl
  | app operator operands =>
      rw [mapChildrenM, kept]
      rfl
  | letIn bindings body =>
      rw [mapChildrenM, kept]
      exact congrArg (· >>= fun bindings => some (letIn bindings body)) (kept bindings)

/-- No expression of a list is higher than the highest. -/
theorem height_le_heightAll {exprs : List Expr} (member : expr ∈ exprs) :
    expr.height ≤ heightAll exprs := by
  induction member with
  | head => exact Nat.le_max_left ..
  | tail _ _ ih => exact Nat.le_trans ih (Nat.le_max_right ..)

/-- Bindings are as high as their bound expressions. -/
theorem heightBindings_eq_heightAll (bindings : List (String × Expr)) :
    heightBindings bindings = heightAll (bindings.map Prod.snd) := by
  induction bindings with
  | nil => rfl
  | cons _ _ ih => rw [heightBindings, ih, List.map_cons, heightAll]

/-- An expression is higher than its parts. -/
theorem height_lt_of_mem_children {child : Expr} (member : child ∈ outer.children) :
    child.height < outer.height := by
  cases outer with
  | num | bool | str | var | lit | prim => exact absurd member List.not_mem_nil
  | cond test consequent alternative =>
      simp only [children, List.mem_cons, List.not_mem_nil, or_false] at member
      rw [height]
      rcases member with rfl | rfl | rfl <;> omega
  | lambda params body =>
      have bounded : child.height ≤ heightAll body := height_le_heightAll member
      rw [height]
      omega
  | app operator operands =>
      rw [height]
      rcases List.mem_cons.1 member with rfl | member
      · omega
      · have bounded := height_le_heightAll member
        omega
  | letIn bindings body =>
      rw [height, heightBindings_eq_heightAll]
      rcases List.mem_append.1 member with member | member
      all_goals
        have bounded := height_le_heightAll member
        omega
  | define name value =>
      obtain rfl := List.mem_singleton.1 member
      rw [height]
      omega

/-! ## Rewriting one node after the other -/

/-- The application that local bindings mean. -/
def asApplication (bindings : List (String × Expr)) (body : List Expr) : Expr :=
  .app (.lambda (bindings.map Prod.fst) body) (bindings.map Prod.snd)

/-- Local bindings are replaced as the application that they mean. -/
theorem eliminateLets_asApplication (bindings : List (String × Expr)) (body : List Expr) :
    (asApplication bindings body).eliminateLets = (letIn bindings body).eliminateLets := by
  rw [asApplication, eliminateLets, eliminateLets, eliminateLets, eliminateLetsAll_eq_map,
    eliminateLetsAll_eq_map, eliminateLetsBound_eq_map, List.map_map]
  rfl

/-- Replaces all local bindings if the calls nest no deeper than the given depth. Local bindings become the
application that they mean, which is rewritten in turn; anything else is rebuilt of its rewritten parts. -/
def eliminateLetsWithin : Nat → Expr → Option Expr
  | 0, _ => none
  | depth + 1, .letIn bindings body => eliminateLetsWithin depth (asApplication bindings body)
  | depth + 1, expr => expr.mapChildrenM (eliminateLetsWithin depth)

/-- If the parts of an expression other than local bindings are rewritten, then so is the expression. -/
theorem mapChildrenM_eq_eliminateLets {rewritten : Expr → Option Expr}
    (noLet : ∀ bindings body, expr ≠ .letIn bindings body)
    (each : ∀ child ∈ expr.children, rewritten child = some child.eliminateLets) :
    expr.mapChildrenM rewritten = some expr.eliminateLets := by
  cases expr with
  | num | bool | str | var | lit | prim => rfl
  | cond test consequent alternative =>
      simp only [children, List.forall_mem_cons] at each
      obtain ⟨inTest, inConsequent, inAlternative, -⟩ := each
      rw [mapChildrenM, inTest, inConsequent, inAlternative, eliminateLets]
      rfl
  | lambda params body =>
      have inBody : ∀ form ∈ body, rewritten form = some form.eliminateLets := each
      rw [mapChildrenM, mapM_eq_pure_map inBody, eliminateLets, eliminateLetsAll_eq_map]
      rfl
  | app operator operands =>
      obtain ⟨inOperator, inOperands⟩ := List.forall_mem_cons.1 each
      rw [mapChildrenM, inOperator, mapM_eq_pure_map inOperands, eliminateLets, eliminateLetsAll_eq_map]
      rfl
  | letIn bindings body => exact absurd rfl (noLet bindings body)
  | define name value =>
      rw [mapChildrenM, List.forall_mem_singleton.1 each, eliminateLets]
      rfl

/-- Rewriting an expression other than local bindings takes one call more than rewriting its parts. -/
theorem eliminateLetsWithin_succ {depth : Nat} (noLet : ∀ bindings body, expr ≠ .letIn bindings body)
    (each : ∀ child ∈ expr.children, eliminateLetsWithin depth child = some child.eliminateLets) :
    eliminateLetsWithin (depth + 1) expr = some expr.eliminateLets := by
  rw [eliminateLetsWithin]
  · exact mapChildrenM_eq_eliminateLets noLet each
  · exact noLet

/-- Rewriting ends within three calls for each level of an expression. -/
theorem eliminateLetsWithin_eq_some (expr : Expr) {depth : Nat} (deep : 3 * expr.height ≤ depth) :
    eliminateLetsWithin depth expr = some expr.eliminateLets := by
  induction expr using induction_children generalizing depth with
  | step expr ih =>
      have below : ∀ available, depth ≤ available + 3 → ∀ child ∈ expr.children,
          eliminateLetsWithin available child = some child.eliminateLets := by
        intro available enough child member
        have lower := height_lt_of_mem_children member
        exact ih child member (by omega)
      have positive : 0 < expr.height := by
        cases expr <;> simp only [height] <;> omega
      obtain ⟨depth, rfl⟩ : ∃ remaining, depth = remaining + 3 := ⟨depth - 3, by omega⟩
      cases expr with
      | letIn bindings body =>
          -- From the local bindings to the application, to the procedure, to the forms of its body.
          obtain ⟨-, forms⟩ := List.forall_mem_append.1 (below depth (by omega))
          obtain ⟨values, -⟩ := List.forall_mem_append.1 (below (depth + 1) (by omega))
          have procedure : eliminateLetsWithin (depth + 1) (.lambda (bindings.map Prod.fst) body) = some _ :=
            eliminateLetsWithin_succ nofun forms
          rw [eliminateLetsWithin, ← eliminateLets_asApplication]
          exact eliminateLetsWithin_succ nofun (List.forall_mem_cons.2 ⟨procedure, values⟩)
      | _ => exact eliminateLetsWithin_succ nofun (below (depth + 2) (by omega))

/-! ## Expressions without local bindings -/

/-- Whether no local bindings stand in an expression, outside its literals. -/
def LetFree (expr : Expr) : Prop :=
  ∀ bindings body, ¬(letIn bindings body).Within expr

/-- There are no local bindings in an expression if it is none itself and there are none in its parts. -/
theorem letFree_iff :
    outer.LetFree ↔ (∀ bindings body, outer ≠ .letIn bindings body) ∧
      ∀ child ∈ outer.children, child.LetFree := by
  have each (expr : Expr) : expr.LetFree ↔
      ∀ inner : Expr, inner.Within expr → ∀ bindings body, inner ≠ .letIn bindings body := by
    constructor
    · intro nowhere inner within bindings body same
      exact nowhere bindings body (same ▸ within)
    · intro none bindings body within
      exact none _ within bindings body rfl
  simp only [each]
  exact forall_within_iff

/-- The parts of what comes of an expression other than local bindings are what comes of its parts. -/
theorem children_eliminateLets (noLet : ∀ bindings body, expr ≠ .letIn bindings body) :
    expr.eliminateLets.children = expr.children.map eliminateLets := by
  cases expr with
  | letIn bindings body => exact absurd rfl (noLet bindings body)
  | _ => simp [eliminateLets, children]

/-- No expression becomes local bindings. -/
theorem eliminateLets_ne_letIn (expr : Expr) (bindings : List (String × Expr)) (body : List Expr) :
    expr.eliminateLets ≠ .letIn bindings body := by
  cases expr <;> exact nofun

/-- If no local bindings are in what comes of the parts of an expression other than local bindings, then none
are in what comes of the expression. -/
theorem letFree_eliminateLets_of_children (noLet : ∀ bindings body, expr ≠ .letIn bindings body)
    (each : ∀ child ∈ expr.children, child.eliminateLets.LetFree) : expr.eliminateLets.LetFree := by
  rw [letFree_iff, children_eliminateLets noLet]
  exact ⟨eliminateLets_ne_letIn expr, List.forall_mem_map.2 each⟩

/-- What comes of an expression has no local bindings. -/
theorem letFree_eliminateLets (expr : Expr) : expr.eliminateLets.LetFree := by
  induction expr using induction_children with
  | step expr ih =>
      cases expr with
      | letIn bindings body =>
          obtain ⟨values, forms⟩ := List.forall_mem_append.1 ih
          have procedure : (lambda (bindings.map Prod.fst) body).eliminateLets.LetFree :=
            letFree_eliminateLets_of_children (by rintro _ _ ⟨⟩) forms
          rw [← eliminateLets_asApplication]
          exact letFree_eliminateLets_of_children (by rintro _ _ ⟨⟩)
            (List.forall_mem_cons.2 ⟨procedure, values⟩)
      | _ => exact letFree_eliminateLets_of_children (by rintro _ _ ⟨⟩) ih

/-- Where there are no local bindings, nothing changes. -/
theorem LetFree.eliminateLets_eq (letFree : expr.LetFree) : expr.eliminateLets = expr := by
  induction expr using induction_children with
  | step expr ih =>
      obtain ⟨noLet, below⟩ := letFree_iff.1 letFree
      have rebuilt : expr.mapChildrenM some = some expr.eliminateLets :=
        mapChildrenM_eq_eliminateLets noLet fun child member =>
          congrArg some (ih child member (below child member)).symm
      rw [mapChildrenM_some] at rebuilt
      exact (Option.some.inj rebuilt).symm

/-! ## Names -/

/-- Whether there is an item of some kind depends on the items in the list only. -/
theorem any_congr_of_mem {α : Type} {items : List α} {test other : α → Bool}
    (each : ∀ item ∈ items, test item = other item) : items.any test = items.any other := by
  rw [Bool.eq_iff_iff, List.any_eq_true, List.any_eq_true]
  refine exists_congr fun item => and_congr_right fun member => ?_
  rw [each item member]

/-- The same names occur free. -/
theorem occursFree_eliminateLets (name : String) (expr : Expr) :
    occursFree name expr.eliminateLets = occursFree name expr := by
  induction expr with
  | num | bool | str | var | lit | prim => rfl
  | cond test consequent alternative ihTest ihConsequent ihAlternative =>
      rw [eliminateLets, occursFree, occursFree, ihTest, ihConsequent, ihAlternative]
  | lambda params body ihBody =>
      simp only [eliminateLets, eliminateLetsAll_eq_map, occursFree, occursFreeAny_eq_any, List.any_map,
        Function.comp_def]
      rw [any_congr_of_mem ihBody]
  | app operator operands ihOperator ihOperands =>
      simp only [eliminateLets, eliminateLetsAll_eq_map, occursFree, occursFreeAny_eq_any, List.any_map,
        Function.comp_def]
      rw [ihOperator, any_congr_of_mem ihOperands]
  | letIn bindings body ihBindings ihBody =>
      simp only [eliminateLets, eliminateLetsAll_eq_map, eliminateLetsBound_eq_map, occursFree,
        occursFreeAny_eq_any, occursFreeBound_eq_any, List.any_map, Function.comp_def]
      rw [any_congr_of_mem ihBody, any_congr_of_mem ihBindings, Bool.or_comm]
  | define target value ihValue => rw [eliminateLets, occursFree, occursFree, ihValue]

/-- There are the same free names; those of bound expressions come last. -/
theorem freeNames_eliminateLets (expr : Expr) : expr.eliminateLets.freeNames.Perm expr.freeNames := by
  induction expr with
  | num | bool | str | var | lit | prim => exact .refl _
  | cond test consequent alternative ihTest ihConsequent ihAlternative =>
      exact (ihTest.append ihConsequent).append ihAlternative
  | lambda params body ihBody =>
      simp only [eliminateLets, eliminateLetsAll_eq_map, freeNames, freeNamesAll_eq_flatMap,
        List.flatMap_map]
      exact (List.Perm.flatMap_left body ihBody).filter _
  | app operator operands ihOperator ihOperands =>
      simp only [eliminateLets, eliminateLetsAll_eq_map, freeNames, freeNamesAll_eq_flatMap,
        List.flatMap_map]
      exact ihOperator.append (List.Perm.flatMap_left operands ihOperands)
  | letIn bindings body ihBindings ihBody =>
      simp only [eliminateLets, eliminateLetsAll_eq_map, eliminateLetsBound_eq_map, freeNames,
        freeNamesAll_eq_flatMap, freeNamesBound_eq_flatMap, List.flatMap_map]
      refine List.perm_append_comm.trans ?_
      exact (List.Perm.flatMap_left bindings ihBindings).append
        ((List.Perm.flatMap_left body ihBody).filter _)
  | define target value ihValue => exact ihValue

/-- A query that finds what an expression has itself and what it finds in the parts finds the same in another
order, if procedures and local bindings have the names that they declare and applications have nothing. -/
theorem query_eliminateLets {own query : Expr → List String}
    (collects : ∀ expr, query expr = own expr ++ expr.children.flatMap query)
    (declared : ∀ expr names, expr.contour? = some names → own expr = names)
    (ofApp : ∀ operator operands, own (.app operator operands) = [])
    (kept : ∀ expr, (∀ bindings body, expr ≠ .letIn bindings body) → own expr.eliminateLets = own expr)
    (expr : Expr) : (query expr.eliminateLets).Perm (query expr) := by
  induction expr using induction_children with
  | step expr ih =>
      by_cases isLet : ∃ bindings body, expr = .letIn bindings body
      · obtain ⟨bindings, body, rfl⟩ := isLet
        rw [children, List.forall_mem_append, List.forall_mem_map] at ih
        have before : query (letIn bindings body) =
            bindings.map Prod.fst ++ (bindings.flatMap (fun binding => query binding.2) ++ body.flatMap query) := by
          rw [collects, declared _ _ rfl, children, List.flatMap_append, List.flatMap_map]
        have after : query (letIn bindings body).eliminateLets =
            bindings.map Prod.fst ++ (body.flatMap (fun form => query form.eliminateLets) ++
              bindings.flatMap fun binding => query binding.2.eliminateLets) := by
          rw [eliminateLets, eliminateLetsAll_eq_map, eliminateLetsBound_eq_map, collects, ofApp, children,
            List.flatMap_cons, collects (lambda _ _), declared _ _ rfl, children, List.flatMap_map,
            List.flatMap_map, List.nil_append, List.append_assoc]
        -- The bound expressions come behind the body, as operands.
        rw [before, after]
        refine List.Perm.append_left _ (List.perm_append_comm.trans ?_)
        exact (List.Perm.flatMap_left bindings ih.1).append (List.Perm.flatMap_left body ih.2)
      · have noLet : ∀ bindings body, expr ≠ .letIn bindings body :=
          fun bindings body same => isLet ⟨bindings, body, same⟩
        rw [collects, kept expr noLet, children_eliminateLets noLet, List.flatMap_map, collects expr]
        exact (List.Perm.flatMap_left expr.children ih).append_left _

/-- The same names are declared; those declared in bound expressions come last. -/
theorem boundNames_eliminateLets (expr : Expr) : expr.eliminateLets.boundNames.Perm expr.boundNames := by
  refine query_eliminateLets boundNames_eq_append (fun expr names declares => ?_) (fun _ _ => rfl)
    (fun expr noLet => ?_) expr
  · rw [declares, Option.getD_some]
  · cases expr with
    | letIn bindings body => exact absurd rfl (noLet bindings body)
    | _ => rfl

/-- The same names are mentioned; those mentioned in bound expressions come last. -/
theorem allNames_eliminateLets (expr : Expr) : expr.eliminateLets.allNames.Perm expr.allNames := by
  refine query_eliminateLets allNames_eq_append (fun expr names declares => ?_) (fun _ _ => rfl)
    (fun expr noLet => ?_) expr
  · cases expr with
    | lambda | letIn => exact Option.some.inj declares
    | _ => cases declares
  · cases expr with
    | letIn bindings body => exact absurd rfl (noLet bindings body)
    | _ => rfl

/-- Rewriting ends for every expression, within three nested calls for each level. What comes of it has no
local bindings; it is the expression itself if there were none, in particular after rewriting; and it has the
same free and the same declared names. -/
theorem eliminateLets_keeps_scope (expr : Expr) :
    (∀ depth, 3 * expr.height ≤ depth → eliminateLetsWithin depth expr = some expr.eliminateLets) ∧
      expr.eliminateLets.LetFree ∧
      (expr.LetFree → expr.eliminateLets = expr) ∧
      expr.eliminateLets.eliminateLets = expr.eliminateLets ∧
      (∀ name, occursFree name expr.eliminateLets = occursFree name expr) ∧
      (∀ name, name ∈ expr.eliminateLets.freeNames ↔ name ∈ expr.freeNames) ∧
      expr.eliminateLets.boundNames.Perm expr.boundNames :=
  ⟨fun _ => eliminateLetsWithin_eq_some expr, letFree_eliminateLets expr, LetFree.eliminateLets_eq,
    (letFree_eliminateLets expr).eliminateLets_eq, fun name => occursFree_eliminateLets name expr,
    fun _ => (freeNames_eliminateLets expr).mem_iff, boundNames_eliminateLets expr⟩

/-- Local bindings inside a bound expression are replaced as well, and then nothing is left to replace. -/
theorem eliminateLets_keeps_scope_nested :
    let nested : Expr :=
      .letIn [("x", .letIn [("y", .var "z")] [.var "y"])] [.app (.var "f") [.var "x"]]
    let replaced : Expr :=
      .app (.lambda ["x"] [.app (.var "f") [.var "x"]]) [.app (.lambda ["y"] [.var "y"]) [.var "z"]]
    eliminateLetsWithin 9 nested = some replaced ∧
      replaced.LetFree ∧ replaced.eliminateLets = replaced := by
  intro nested replaced
  obtain ⟨ends, letFree, -⟩ := eliminateLets_keeps_scope nested
  obtain ⟨-, -, unchanged, -⟩ := eliminateLets_keeps_scope replaced
  exact ⟨ends 9 (by decide), letFree, unchanged letFree⟩

end Expr

end MiniScheme
