import Mathlib.Logic.Relation
import MiniScheme.Expr.Traversal
import MiniScheme.Proofs.AddressedViews

/-! # The expressions inside addressed programs

What is defined and what is declared in an expression is what the expressions inside it define and declare,
each for itself. So the programs that are addressed can be told by the expressions inside them: no definition
stands inside a form, and every procedure and every local binding declares what it may. The parser makes
such programs only. -/

namespace MiniScheme

/-! ## Expressions inside expressions -/

namespace Expr

/-- Whether an expression is an immediate sub-expression of another one. -/
def ChildOf (child outer : Expr) : Prop :=
  child ∈ outer.children

/-- Whether an expression stands somewhere inside another one, not in a literal. -/
def Inside : Expr → Expr → Prop :=
  Relation.TransGen ChildOf

/-- Whether an expression is another one or stands somewhere inside it. -/
def Within : Expr → Expr → Prop :=
  Relation.ReflTransGen ChildOf

variable {inner outer : Expr}

/-- What stands inside an expression is within one of its immediate sub-expressions. -/
theorem inside_iff : inner.Inside outer ↔ ∃ child ∈ outer.children, inner.Within child := by
  rw [Inside, Relation.TransGen.tail'_iff]
  exact exists_congr fun child => and_comm

/-- What is within an expression is the expression itself or stands inside it. -/
theorem within_iff : inner.Within outer ↔ inner = outer ∨ inner.Inside outer := by
  rw [Within, Relation.reflTransGen_iff_eq_or_transGen, eq_comm]
  rfl

/-- What holds of everything within an expression holds of the expression itself and of everything within its
immediate sub-expressions. -/
theorem forall_within_iff {p : Expr → Prop} :
    (∀ inner : Expr, inner.Within outer → p inner) ↔
      p outer ∧ ∀ child ∈ outer.children, ∀ inner : Expr, inner.Within child → p inner := by
  constructor
  · intro each
    exact ⟨each outer .refl, fun child member inner within => each inner (within.tail member)⟩
  · rintro ⟨here, below⟩ inner within
    rcases within_iff.1 within with rfl | inside
    · exact here
    · obtain ⟨child, member, further⟩ := inside_iff.1 inside
      exact below child member inner further

/-- If a query collects what each expression has of its own, then what it finds is what the expressions
within have of their own. -/
theorem mem_query_iff {α : Type} {query own : Expr → List α}
    (collects : ∀ expr, query expr = own expr ++ expr.children.flatMap query) {item : α} :
    item ∈ query outer ↔ ∃ inner : Expr, inner.Within outer ∧ item ∈ own inner := by
  constructor
  · intro found
    induction outer using induction_children with
    | step outer ih =>
        rw [collects, List.mem_append, List.mem_flatMap] at found
        rcases found with here | ⟨child, member, below⟩
        · exact ⟨outer, .refl, here⟩
        · obtain ⟨inner, within, has⟩ := ih child member below
          exact ⟨inner, within.tail member, has⟩
  · rintro ⟨inner, within, has⟩
    induction within with
    | refl =>
        rw [collects]
        exact List.mem_append_left _ has
    | tail _ member ih =>
        rw [collects]
        exact List.mem_append_right _ (List.mem_flatMap.2 ⟨_, member, ih⟩)

/-! ## Declarations and definitions -/

/-- What is defined in an expression is its own target and what its immediate sub-expressions define. -/
theorem definedNames_eq_append (expr : Expr) :
    expr.definedNames = expr.target?.toList ++ expr.children.flatMap definedNames := by
  cases expr <;> simp [definedNames, target?, children, List.flatMap_map]

/-- The contours in an expression are those of the expressions within it. -/
theorem mem_contours_iff {names : List String} :
    names ∈ outer.contours ↔ ∃ inner : Expr, inner.Within outer ∧ inner.contour? = some names := by
  simp only [mem_query_iff contours_eq_append, Option.mem_toList]

/-- What is defined in an expression is what the definitions within it define. -/
theorem mem_definedNames_iff {name : String} :
    name ∈ outer.definedNames ↔ ∃ value, (Expr.define name value).Within outer := by
  simp only [mem_query_iff definedNames_eq_append, Option.mem_toList]
  constructor
  · rintro ⟨inner, within, target⟩
    cases inner with
    | define target value =>
        obtain rfl := Option.some.inj target
        exact ⟨value, within⟩
    | _ => cases target
  · rintro ⟨value, within⟩
    exact ⟨_, within, rfl⟩

/-- Nothing is defined in what is evaluated of a form exactly when no definition stands inside the form. -/
theorem definedNames_content_eq_nil_iff {form : Expr} :
    form.content.definedNames = [] ↔ ∀ name value, ¬(Expr.define name value).Inside form := by
  rw [List.eq_nil_iff_forall_not_mem]
  simp only [mem_definedNames_iff, not_exists]
  refine forall₂_congr fun name value => not_congr ?_
  cases form with
  | define target result =>
      rw [inside_iff, children]
      simp only [List.mem_singleton, exists_eq_left]
      rfl
  -- Any other form is evaluated itself, and it is no definition.
  | _ =>
      refine within_iff.trans (or_iff_right ?_)
      intro same
      cases same

/-- The contours in an expression are accepted exactly when those of the procedures and of the local
bindings within it are. -/
theorem forall_mem_contours_iff {accepted : List String → Prop} :
    (∀ names ∈ outer.contours, accepted names) ↔
      (∀ params body, (Expr.lambda params body).Within outer → accepted params) ∧
        ∀ bindings body, (Expr.letIn bindings body).Within outer →
          accepted (bindings.map Prod.fst) := by
  simp only [mem_contours_iff]
  constructor
  · intro each
    exact ⟨fun params body within => each params ⟨_, within, rfl⟩,
      fun bindings body within => each _ ⟨_, within, rfl⟩⟩
  · rintro ⟨procedures, locals⟩ names ⟨inner, within, declares⟩
    cases inner with
    | lambda params body =>
        obtain rfl := Option.some.inj declares
        exact procedures params body within
    | letIn bindings body =>
        obtain rfl := Option.some.inj declares
        exact locals bindings body within
    | _ => cases declares

/-- Forms without a definition inside, in which whatever declares names declares distinct names and no
keyword. -/
structure WellPlaced (form : Expr) : Prop where
  /-- No definition stands inside the form. -/
  define : ∀ name value, ¬(Expr.define name value).Inside form
  /-- Procedures declare distinct names that are no keywords of primitive operators. -/
  lambda : ∀ params body, (Expr.lambda params body).Within form →
    params.Nodup ∧ ∀ name ∈ params, Primitive.ofKeyword? name = none
  /-- So do local bindings. -/
  letIn : ∀ bindings body, (Expr.letIn bindings body).Within form →
    (bindings.map Prod.fst).Nodup ∧ ∀ name ∈ bindings.map Prod.fst, Primitive.ofKeyword? name = none

/-- A form is addressable exactly when everything inside it is well placed. -/
theorem addressable_iff_wellPlaced {form : Expr} : form.Addressable ↔ form.WellPlaced := by
  constructor
  · rintro ⟨plain, accepted⟩
    obtain ⟨procedures, locals⟩ := forall_mem_contours_iff.1 accepted
    exact ⟨definedNames_content_eq_nil_iff.1 plain, procedures, locals⟩
  · rintro ⟨nowhere, procedures, locals⟩
    exact ⟨definedNames_content_eq_nil_iff.2 nowhere, forall_mem_contours_iff.2 ⟨procedures, locals⟩⟩

end Expr

/-! ## Programs -/

namespace Program

/-- A program is addressed exactly when in each of its forms no definition stands inside the form, and no
procedure and no local binding, at any depth, declares a name twice or the keyword of a primitive operator.
Whatever the parser accepts is addressed. -/
theorem exists_address_iff_wellPlaced :
    (∀ program : Program, (∃ addressed, program.address = .ok addressed) ↔
      ∀ form ∈ program.forms, form.WellPlaced) ∧
    ∀ source program, Program.parse source = .ok program → ∃ addressed, program.address = .ok addressed := by
  refine ⟨fun program => ?_, fun source program parsed => ?_⟩
  · simp only [address_eq_ok_iff, Expr.addressable_iff_wellPlaced]
    exact ⟨fun ⟨_, placed, _⟩ => placed, fun placed => ⟨_, placed, rfl⟩⟩
  · obtain ⟨addressed, found, -⟩ := (legible_of_parse parsed).exists_addressed
    exact ⟨addressed, found⟩

/-- A definition of a procedure whose local binding takes its value from outside is parsed and addressed. -/
theorem exists_address_iff_wellPlaced_shadowing :
    Program.parse "(define f (lambda (x) (let ((x (g x))) x)))" = .ok { forms := [
        .define "f" (.lambda ["x"] [.letIn [("x", .app (.var "g") [.var "x"])] [.var "x"]])] } ∧
      (∃ addressed, address { forms := [.define "f"
        (.lambda ["x"] [.letIn [("x", .app (.var "g") [.var "x"])] [.var "x"]])] } = .ok addressed) ∧
      Expr.WellPlaced (.define "f"
        (.lambda ["x"] [.letIn [("x", .app (.var "g") [.var "x"])] [.var "x"]])) := by
  have tokens : Token.ofText "(define f (lambda (x) (let ((x (g x))) x)))" =
      [⟨.opening, 0, 1⟩, ⟨.atom "define", 1, 7⟩, ⟨.atom "f", 8, 9⟩, ⟨.opening, 10, 11⟩,
        ⟨.atom "lambda", 11, 17⟩, ⟨.opening, 18, 19⟩, ⟨.atom "x", 19, 20⟩, ⟨.closing, 20, 21⟩,
        ⟨.opening, 22, 23⟩, ⟨.atom "let", 23, 26⟩, ⟨.opening, 27, 28⟩, ⟨.opening, 28, 29⟩,
        ⟨.atom "x", 29, 30⟩, ⟨.opening, 31, 32⟩, ⟨.atom "g", 32, 33⟩, ⟨.atom "x", 34, 35⟩,
        ⟨.closing, 35, 36⟩, ⟨.closing, 36, 37⟩, ⟨.closing, 37, 38⟩, ⟨.atom "x", 39, 40⟩,
        ⟨.closing, 40, 41⟩, ⟨.closing, 41, 42⟩, ⟨.closing, 42, 43⟩] := by
    decide +kernel
  have trees : SExpr.parse "(define f (lambda (x) (let ((x (g x))) x)))" =
      .ok [.list [.atom "define", .atom "f", .list [.atom "lambda", .list [.atom "x"],
        .list [.atom "let", .list [.list [.atom "x", .list [.atom "g", .atom "x"]]], .atom "x"]]]] := by
    rw [SExpr.parse, SExpr.ofText_of_le (by decide +kernel), tokens]
    rfl
  have parsed : Program.parse "(define f (lambda (x) (let ((x (g x))) x)))" = .ok { forms := [
      .define "f" (.lambda ["x"] [.letIn [("x", .app (.var "g") [.var "x"])] [.var "x"]])] } := by
    rw [Program.parse, trees]
    rfl
  have addressed := exists_address_iff_wellPlaced.2 _ _ parsed
  have placed := (exists_address_iff_wellPlaced.1 _).1 addressed
  exact ⟨parsed, addressed, List.forall_mem_singleton.1 placed⟩

end Program

end MiniScheme
