import MiniScheme.Primitive.Basic

/-! # Expressions and values

The trees that every part of the language works on. Expressions are what the parser builds and the
evaluator walks; values are what evaluation yields. The two are defined together, because a value may
stand literally inside an expression and a procedure value carries the expressions of its body. -/

namespace MiniScheme

mutual

/-- An expression, including the top-level `define` form. -/
inductive Expr : Type where
  /-- A number. -/
  | num (value : Float)
  /-- A truth value. -/
  | bool (value : Bool)
  /-- A string. -/
  | str (value : String)
  /-- A reference to a variable. -/
  | var (name : String)
  /-- A quoted datum, or any value carried literally. -/
  | lit (value : Value)
  /-- A primitive operator. -/
  | prim (op : Primitive)
  /-- A conditional. -/
  | cond (test consequent alternative : Expr)
  /-- A procedure with its parameters and the forms of its body. -/
  | lambda (params : List String) (body : List Expr)
  /-- An application of an operator to operands. -/
  | app (operator : Expr) (operands : List Expr)
  /-- Local bindings; the bound expressions lie outside the scope of the bindings. -/
  | letIn (bindings : List (String × Expr)) (body : List Expr)
  /-- A definition of a global name. -/
  | define (name : String) (value : Expr)

/-- A value. A procedure holds no environment: its free references are resolved when it is called. -/
inductive Value : Type where
  /-- A number. -/
  | number (value : Float)
  /-- A truth value. -/
  | bool (value : Bool)
  /-- A string. -/
  | string (value : String)
  /-- A symbol. -/
  | symbol (name : String)
  /-- The empty list. -/
  | nil
  /-- A pair. -/
  | cons (car cdr : Value)
  /-- A primitive operator. -/
  | prim (op : Primitive)
  /-- A procedure with its parameters and the forms of its body. -/
  | closure (params : List String) (body : List Expr)

end

instance : Inhabited Expr := ⟨.bool false⟩

instance : Inhabited Value := ⟨.nil⟩

/-- A program: its top-level forms in order. -/
structure Program where
  /-- The top-level forms. -/
  forms : List Expr

/-- Induction on expressions that looks into lists of sub-expressions, and not into literal values. -/
@[induction_eliminator, elab_as_elim]
theorem Expr.induction {motive : Expr → Prop}
    (num : ∀ value, motive (.num value))
    (bool : ∀ value, motive (.bool value))
    (str : ∀ value, motive (.str value))
    (var : ∀ name, motive (.var name))
    (lit : ∀ value, motive (.lit value))
    (prim : ∀ op, motive (.prim op))
    (cond : ∀ test consequent alternative, motive test → motive consequent → motive alternative →
      motive (.cond test consequent alternative))
    (lambda : ∀ params body, (∀ form ∈ body, motive form) → motive (.lambda params body))
    (app : ∀ operator operands, motive operator → (∀ operand ∈ operands, motive operand) →
      motive (.app operator operands))
    (letIn : ∀ bindings body, (∀ binding ∈ bindings, motive binding.2) →
      (∀ form ∈ body, motive form) → motive (.letIn bindings body))
    (define : ∀ name value, motive value → motive (.define name value))
    (expr : Expr) : motive expr :=
  @Expr.rec motive (fun _ => True)
    (fun exprs => ∀ expr ∈ exprs, motive expr)
    (fun bindings => ∀ binding ∈ bindings, motive binding.2)
    (fun binding => motive binding.2)
    num bool str var (fun value _ => lit value) prim cond lambda app letIn define
    (fun _ => trivial) (fun _ => trivial) (fun _ => trivial) (fun _ => trivial) trivial
    (fun _ _ _ _ => trivial) (fun _ => trivial) (fun _ _ _ => trivial)
    (by simp)
    (fun _ _ head tail => List.forall_mem_cons.2 ⟨head, tail⟩)
    (by simp)
    (fun _ _ head tail => List.forall_mem_cons.2 ⟨head, tail⟩)
    (fun _ _ value => value) expr

/-- Induction on values that looks into pairs, and not into procedures. -/
@[induction_eliminator, elab_as_elim]
theorem Value.induction {motive : Value → Prop}
    (number : ∀ value, motive (.number value))
    (bool : ∀ value, motive (.bool value))
    (string : ∀ value, motive (.string value))
    (symbol : ∀ name, motive (.symbol name))
    (nil : motive .nil)
    (cons : ∀ car cdr, motive car → motive cdr → motive (.cons car cdr))
    (prim : ∀ op, motive (.prim op))
    (closure : ∀ params body, motive (.closure params body))
    (value : Value) : motive value :=
  @Value.rec (fun _ => True) motive (fun _ => True) (fun _ => True) (fun _ => True)
    (fun _ => trivial) (fun _ => trivial) (fun _ => trivial) (fun _ => trivial)
    (fun _ _ => trivial) (fun _ => trivial) (fun _ _ _ _ _ _ => trivial) (fun _ _ _ => trivial)
    (fun _ _ _ _ => trivial) (fun _ _ _ _ => trivial) (fun _ _ _ => trivial)
    number bool string symbol nil cons prim (fun params body _ => closure params body)
    trivial (fun _ _ _ _ => trivial) trivial (fun _ _ _ _ => trivial) (fun _ _ _ => trivial) value

end MiniScheme
