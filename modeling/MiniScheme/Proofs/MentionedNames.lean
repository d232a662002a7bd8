import MiniScheme.Proofs.FreeReferences
import MiniScheme.Proofs.Renaming

/-! # The names that expressions mention

An expression mentions the names of the references in it, the names that it declares and the targets of its
definitions. A reference that is not free stands in a part that declares its name, so every mentioned name is
free, declared or the target of a definition. These are the names that renaming reserves. -/

namespace MiniScheme

namespace Expr

variable {name : String} {outer : Expr}

/-- What an expression itself mentions is the name of the reference that it is, the names that it declares or
the target of the definition that it is. -/
theorem mem_ownNames_iff :
    name ∈ outer.ownNames ↔
      outer = .var name ∨ name ∈ outer.contour?.getD [] ∨ ∃ value, outer = .define name value := by
  cases outer <;> simp [ownNames, contour?, eq_comm]

/-- The mentioned names are those of the references, of the declarations and of the definitions within an
expression. -/
theorem mem_allNames_iff_within :
    name ∈ outer.allNames ↔
      (Expr.var name).Within outer ∨ name ∈ outer.boundNames ∨
        ∃ value, (Expr.define name value).Within outer := by
  rw [mem_query_iff allNames_eq_append, mem_query_iff boundNames_eq_append]
  constructor
  · rintro ⟨inner, within, own⟩
    rcases mem_ownNames_iff.1 own with rfl | declared | ⟨value, rfl⟩
    · exact .inl within
    · exact .inr (.inl ⟨inner, within, declared⟩)
    · exact .inr (.inr ⟨value, within⟩)
  · rintro (within | ⟨inner, within, declared⟩ | ⟨value, within⟩)
    · exact ⟨_, within, mem_ownNames_iff.2 (.inl rfl)⟩
    · exact ⟨inner, within, mem_ownNames_iff.2 (.inr (.inl declared))⟩
    · exact ⟨_, within, mem_ownNames_iff.2 (.inr (.inr ⟨value, rfl⟩))⟩

/-! ## References -/

/-- A reference stands within an expression if one comes to it through parts. -/
theorem var_within_iff_hasReference :
    (Expr.var name).Within outer ↔ ∃ path, outer.HasReference name path := by
  -- The query goes into every part, so no part on the way to a reference stops it.
  have step (inside : Expr) : (Expr.var name).Within inside ↔
      inside = .var name ∨ ∃ part ∈ inside.parts, True ∧ (Expr.var name).Within part.expr := by
    rw [within_iff_parts, eq_comm]
    simp only [true_and]
  simpa using query_iff_hasReference _ step

/-- The contours of the parts on the way to a reference are contours of the expression. -/
theorem HasReference.mem_contours {path : List Part} (way : outer.HasReference name path) {part : Part}
    (member : part ∈ path) {names : List String} (declares : names ∈ part.contour?) :
    names ∈ outer.contours := by
  induction way with
  | here => cases member
  | inside isPart further ih =>
      rcases List.mem_cons.1 member with rfl | later
      · exact mem_contours_of_mem_parts isPart (.inl declares)
      · exact mem_contours_of_mem_parts isPart (.inr (ih later))

/-- The name of a reference is free, or some part on the way to the reference declares it. -/
theorem mem_freeNames_or_mem_boundNames (within : (Expr.var name).Within outer) :
    name ∈ outer.freeNames ∨ name ∈ outer.boundNames := by
  obtain ⟨path, way⟩ := var_within_iff_hasReference.1 within
  by_cases declared : ∃ part ∈ path, part.Declares name
  · obtain ⟨part, member, names, declares, among⟩ := declared
    rw [← flatten_contours]
    exact .inr (List.mem_flatten.2 ⟨names, way.mem_contours member declares, among⟩)
  · refine .inl (mem_freeNames_iff_hasReference.2 ⟨path, way, fun part member declares => ?_⟩)
    exact declared ⟨part, member, declares⟩

/-- The names that an expression mentions are its free names, the names that it declares and the targets of the
definitions within it. -/
theorem mem_allNames_iff :
    name ∈ outer.allNames ↔
      name ∈ outer.freeNames ∨ name ∈ outer.boundNames ∨
        ∃ value, (Expr.define name value).Within outer := by
  rw [mem_allNames_iff_within]
  constructor
  · rintro (within | others)
    · exact (mem_freeNames_or_mem_boundNames within).imp_right .inl
    · exact .inr others
  · rintro (free | others)
    · obtain ⟨path, way, -⟩ := mem_freeNames_iff_hasReference.1 free
      exact .inl (var_within_iff_hasReference.2 ⟨path, way⟩)
    · exact .inr others

/-- The names that a list of expressions mentions are its free names, the names that it declares and the
targets of the definitions within its elements. -/
theorem mentioned_names_exact (exprs : List Expr) (name : String) :
    name ∈ allNamesAll exprs ↔
      name ∈ freeNamesAll exprs ∨ name ∈ boundNamesAll exprs ∨
        ∃ expr ∈ exprs, ∃ value, (Expr.define name value).Within expr := by
  rw [allNamesAll_eq_flatMap, freeNamesAll_eq_flatMap, boundNamesAll_eq_flatMap, List.mem_flatMap,
    List.mem_flatMap, List.mem_flatMap]
  simp only [mem_allNames_iff, and_or_left, exists_or]

/-- None of the three can be left out: here `g` is only free, `x` only declared and `f` only defined. -/
example :
    let expr : Expr := .define "f" (.lambda ["x"] [.app (.var "g") [.var "x"]])
    expr.allNames = ["f", "x", "g", "x"] ∧ expr.freeNames = ["g"] ∧ expr.boundNames = ["x"] := by
  decide

end Expr

end MiniScheme
