import MiniScheme.Expr.Text
import MiniScheme.Proofs.ReadingData

/-! # Reading programs back

The text of a program that has been parsed is laid out in written forms, and these stand for trees that
denote the program again, with two changes: a quoted literal that evaluates to itself is read as that
literal without the quotation, and what is written for a number that is not finite is read as a name.
The text stays the same. -/

namespace MiniScheme

/-! ## Written forms of expressions -/

namespace Expr

/-- The written form of a literal. -/
def writtenLiteral : Value → Written
  | .symbol name => .marked (Value.symbol name).written
  | .nil => .marked Value.nil.written
  | .cons car cdr => .marked (Value.cons car cdr).written
  | value => value.written

mutual

/-- The written form of an expression. -/
def written : Expr → Written
  | .num value => .word (numberText value)
  | .bool value => .word (boolText value)
  | .str value => .literal value
  | .var name => .word name
  | .lit value => writtenLiteral value
  | .prim op => .word op.keyword
  | .cond test consequent alternative =>
      .bracketed [.word "if", test.written, consequent.written, alternative.written]
  | .lambda params body =>
      .bracketed (.word "lambda" :: .bracketed (params.map .word) :: writtenAll body)
  | .app operator operands => .bracketed (operator.written :: writtenAll operands)
  | .letIn bindings body =>
      .bracketed (.word "let" :: .bracketed (writtenBindings bindings) :: writtenAll body)
  | .define name value => .bracketed [.word "define", .word name, value.written]

/-- The written forms of a list of expressions. -/
def writtenAll : List Expr → List Written
  | [] => []
  | expr :: exprs => expr.written :: writtenAll exprs

/-- The written forms of bindings. -/
def writtenBindings : List (String × Expr) → List Written
  | [] => []
  | (name, value) :: bindings => .bracketed [.word name, value.written] :: writtenBindings bindings

end

mutual

/-- The numbers in an expression. -/
def numbers : Expr → List Float
  | .num value => [value]
  | .bool _ | .str _ | .var _ | .prim _ => []
  | .lit value => value.numbers
  | .cond test consequent alternative => numbers test ++ numbers consequent ++ numbers alternative
  | .lambda _ body => numbersAll body
  | .app operator operands => numbers operator ++ numbersAll operands
  | .letIn bindings body => numbersBound bindings ++ numbersAll body
  | .define _ value => numbers value

/-- The numbers in a list of expressions. -/
def numbersAll : List Expr → List Float
  | [] => []
  | expr :: exprs => numbers expr ++ numbersAll exprs

/-- The numbers in the bound expressions of bindings. -/
def numbersBound : List (String × Expr) → List Float
  | [] => []
  | (_, value) :: bindings => numbers value ++ numbersBound bindings

end

/-- A literal as it is read back: one that evaluates to itself is written without a quotation. -/
def rereadLiteral : Value → Expr
  | .number value => ofWord (numberText value)
  | .bool value => .bool value
  | .string value => .str value
  | value => .lit value.reread

mutual

/-- An expression as it is read back. -/
def reread : Expr → Expr
  | .num value => ofWord (numberText value)
  | .bool value => .bool value
  | .str value => .str value
  | .var name => .var name
  | .lit value => rereadLiteral value
  | .prim op => .prim op
  | .cond test consequent alternative => .cond test.reread consequent.reread alternative.reread
  | .lambda params body => .lambda params (rereadAll body)
  | .app operator operands => .app operator.reread (rereadAll operands)
  | .letIn bindings body => .letIn (rereadBindings bindings) (rereadAll body)
  | .define name value => .define name value.reread

/-- A list of expressions as they are read back. -/
def rereadAll : List Expr → List Expr
  | [] => []
  | expr :: exprs => expr.reread :: rereadAll exprs

/-- Bindings as they are read back. -/
def rereadBindings : List (String × Expr) → List (String × Expr)
  | [] => []
  | (name, value) :: bindings => (name, value.reread) :: rereadBindings bindings

end

/-- A literal that evaluates to itself, as an expression without a quotation. -/
def unquotedLiteral : Value → Expr
  | .number value => .num value
  | .bool value => .bool value
  | .string value => .str value
  | value => .lit value

mutual

/-- The expression with every literal number, truth value and string, but no other literal, replaced by
the expression of the same content. -/
def unquoted : Expr → Expr
  | .num value => .num value
  | .bool value => .bool value
  | .str value => .str value
  | .var name => .var name
  | .lit value => unquotedLiteral value
  | .prim op => .prim op
  | .cond test consequent alternative =>
      .cond test.unquoted consequent.unquoted alternative.unquoted
  | .lambda params body => .lambda params (unquotedAll body)
  | .app operator operands => .app operator.unquoted (unquotedAll operands)
  | .letIn bindings body => .letIn (unquotedBindings bindings) (unquotedAll body)
  | .define name value => .define name value.unquoted

/-- A list of expressions without needless quotations. -/
def unquotedAll : List Expr → List Expr
  | [] => []
  | expr :: exprs => expr.unquoted :: unquotedAll exprs

/-- Bindings without needless quotations. -/
def unquotedBindings : List (String × Expr) → List (String × Expr)
  | [] => []
  | (name, value) :: bindings => (name, value.unquoted) :: unquotedBindings bindings

end

/-- The written forms of a list are those of its elements. -/
@[simp] theorem writtenAll_eq_map (exprs : List Expr) : writtenAll exprs = exprs.map written := by
  induction exprs with
  | nil => rfl
  | cons _ _ ih => simp only [writtenAll, List.map_cons, ih]

/-- The written forms of bindings are pairs of a name and an expression. -/
@[simp] theorem writtenBindings_eq_map (bindings : List (String × Expr)) :
    writtenBindings bindings =
      bindings.map fun binding => .bracketed [.word binding.1, binding.2.written] := by
  induction bindings with
  | nil => rfl
  | cons _ _ ih => simp only [writtenBindings, List.map_cons, ih]

/-- The numbers of a list are those of its elements. -/
@[simp] theorem numbersAll_eq_flatMap (exprs : List Expr) :
    numbersAll exprs = exprs.flatMap numbers := by
  induction exprs with
  | nil => rfl
  | cons _ _ ih => simp only [numbersAll, List.flatMap_cons, ih]

/-- The numbers of bindings are those of the bound expressions. -/
@[simp] theorem numbersBound_eq_flatMap (bindings : List (String × Expr)) :
    numbersBound bindings = bindings.flatMap fun binding => binding.2.numbers := by
  induction bindings with
  | nil => rfl
  | cons _ _ ih => simp only [numbersBound, List.flatMap_cons, ih]

/-- Reading a list back reads each element back. -/
@[simp] theorem rereadAll_eq_map (exprs : List Expr) : rereadAll exprs = exprs.map reread := by
  induction exprs with
  | nil => rfl
  | cons _ _ ih => simp only [rereadAll, List.map_cons, ih]

/-- Reading bindings back reads each bound expression back. -/
@[simp] theorem rereadBindings_eq_map (bindings : List (String × Expr)) :
    rereadBindings bindings = bindings.map fun binding => (binding.1, binding.2.reread) := by
  induction bindings with
  | nil => rfl
  | cons _ _ ih => simp only [rereadBindings, List.map_cons, ih]

/-- A list loses the needless quotations of its elements. -/
@[simp] theorem unquotedAll_eq_map (exprs : List Expr) :
    unquotedAll exprs = exprs.map unquoted := by
  induction exprs with
  | nil => rfl
  | cons _ _ ih => simp only [unquotedAll, List.map_cons, ih]

/-- Bindings lose the needless quotations of the bound expressions. -/
@[simp] theorem unquotedBindings_eq_map (bindings : List (String × Expr)) :
    unquotedBindings bindings = bindings.map fun binding => (binding.1, binding.2.unquoted) := by
  induction bindings with
  | nil => rfl
  | cons _ _ ih => simp only [unquotedBindings, List.map_cons, ih]

variable {expr : Expr}

/-! ## Texts -/

/-- The text of legible data as a literal is that of its written form. -/
theorem text_writtenLiteral {value : Value} (legible : value.Legible) :
    (writtenLiteral value).text = literalText value := by
  cases legible with
  | number | bool | string => exact (Value.text_written _).1
  | symbol | nil | cons =>
      rw [writtenLiteral, Written.text, (Value.text_written _).1]
      rfl

/-- The text of a form with a word, a list in brackets and a body. -/
theorem text_bracketed_body (word : String) (declared : List Written) {body : List Written}
    (nonempty : body ≠ []) :
    (Written.bracketed (.word word :: .bracketed declared :: body)).text =
      "(" ++ word ++ " (" ++ spaced (declared.map Written.text) ++ ") " ++
        spaced (body.map Written.text) ++ ")" := by
  obtain ⟨first, others, rfl⟩ := List.exists_cons_of_ne_nil nonempty
  rw [show " (" = " " ++ "(" from rfl, show ") " = ")" ++ " " from rfl]
  simp only [Written.text, Written.texts_eq_map, spaced, List.map_cons,
    String.intercalate_cons_cons, String.append_assoc]

/-- The text of a legible expression is that of its written form. -/
theorem Legible.text_written (legible : expr.Legible) : expr.written.text = expr.text := by
  induction legible with
  | num | bool | str | var | prim => rfl
  | lit data => exact text_writtenLiteral data
  | cond _ _ _ ihTest ihConsequent ihAlternative =>
      rw [written, text, show "(if " = "(" ++ "if" ++ " " from rfl]
      simp only [Written.text, Written.texts_eq_map, List.map_cons, List.map_nil, spaced,
        String.intercalate_cons_cons, String.intercalate_singleton, ihTest, ihConsequent,
        ihAlternative, String.append_assoc]
  | @lambda params body bindable distinct nonempty inBody ih =>
      have names : (params.map Written.word).map Written.text = params := by
        rw [List.map_map]
        exact List.map_id params
      have forms : (body.map written).map Written.text = body.map text := by
        rw [List.map_map]
        exact List.map_congr_left ih
      have written : writtenAll body ≠ [] := by
        rw [writtenAll_eq_map]
        simpa using nonempty
      rw [Expr.written, text_bracketed_body _ _ written, writtenAll_eq_map, names, forms, text,
        texts_eq_map]
      rfl
  | @app operator operands plain inOperator inOperands ihOperator ihOperands =>
      have parts : (operands.map written).map Written.text = operands.map text := by
        rw [List.map_map]
        exact List.map_congr_left ihOperands
      rw [written, Written.text, Written.texts_eq_map, writtenAll_eq_map, text, texts_eq_map,
        List.map_cons, ihOperator, parts]
  | @letIn bindings body bindable distinct inBindings nonempty inBody ihBindings ihBody =>
      have pairs : (writtenBindings bindings).map Written.text = bindingTexts bindings := by
        rw [writtenBindings_eq_map, bindingTexts_eq_map, List.map_map]
        refine List.map_congr_left fun binding member => ?_
        simp only [Function.comp_apply, Written.text, Written.texts_eq_map, List.map_cons,
          List.map_nil, spaced, String.intercalate_cons_cons, String.intercalate_singleton,
          ihBindings binding member, String.append_assoc]
      have forms : (body.map written).map Written.text = body.map text := by
        rw [List.map_map]
        exact List.map_congr_left ihBody
      have written : writtenAll body ≠ [] := by
        rw [writtenAll_eq_map]
        simpa using nonempty
      rw [Expr.written, text_bracketed_body _ _ written, writtenAll_eq_map, pairs, forms, text,
        texts_eq_map]
      rfl

/-- The text of a legible top-level form is that of its written form. -/
theorem LegibleForm.text_written (legible : expr.LegibleForm) : expr.written.text = expr.text := by
  cases legible with
  | expr legible => exact legible.text_written
  | define bindable inValue =>
      rw [written, text, show "(define " = "(" ++ "define" ++ " " from rfl]
      simp only [Written.text, Written.texts_eq_map, List.map_cons, List.map_nil, spaced,
        String.intercalate_cons_cons, String.intercalate_singleton, inValue.text_written,
        String.append_assoc]

/-! ## Scanning -/

/-- A word for a primitive operator is a word. -/
theorem isWord_keyword (op : Primitive) : IsWord op.keyword := by
  cases op <;> decide

/-- What is written for legible data as a literal scans. -/
theorem scannable_writtenLiteral {value : Value} (legible : value.Legible)
    (readsBack : ∀ number ∈ value.numbers, ReadsBack number) :
    (writtenLiteral value).Scannable := by
  have scannable := (legible.scannable readsBack).1
  cases legible with
  | number | bool | string => exact scannable
  | symbol | nil | cons => exact .marked scannable

/-- What is written for a legible expression scans. -/
theorem Legible.scannable (legible : expr.Legible)
    (readsBack : ∀ number ∈ expr.numbers, ReadsBack number) : expr.written.Scannable := by
  induction legible with
  | num value => exact .word (readsBack value (List.mem_singleton_self value)).isWord
  | bool value => exact .word (Value.isWord_boolText value)
  | str value => exact .literal value
  | var isWord => exact .word isWord
  | lit data => exact scannable_writtenLiteral data readsBack
  | prim op => exact .word (isWord_keyword op)
  | cond _ _ _ ihTest ihConsequent ihAlternative =>
      rw [numbers, List.forall_mem_append, List.forall_mem_append] at readsBack
      obtain ⟨⟨test, consequent⟩, alternative⟩ := readsBack
      refine .bracketed (List.forall_mem_cons.2 ⟨.word (by decide), List.forall_mem_cons.2
        ⟨ihTest test, List.forall_mem_cons.2 ⟨ihConsequent consequent, ?_⟩⟩⟩)
      exact List.forall_mem_singleton.2 (ihAlternative alternative)
  | @lambda params body bindable distinct nonempty inBody ih =>
      rw [numbers, numbersAll_eq_flatMap, List.forall_mem_flatMap] at readsBack
      have declared : ∀ form ∈ params.map Written.word, form.Scannable :=
        List.forall_mem_map.2 fun name member => .word (bindable name member).isWord
      have forms : ∀ form ∈ body.map written, form.Scannable :=
        List.forall_mem_map.2 fun form member => ih form member (readsBack form member)
      rw [written, writtenAll_eq_map]
      exact .bracketed (List.forall_mem_cons.2
        ⟨.word (by decide), List.forall_mem_cons.2 ⟨.bracketed declared, forms⟩⟩)
  | @app operator operands plain inOperator inOperands ihOperator ihOperands =>
      rw [numbers, numbersAll_eq_flatMap, List.forall_mem_append, List.forall_mem_flatMap] at readsBack
      have parts : ∀ form ∈ operands.map written, form.Scannable :=
        List.forall_mem_map.2 fun operand member =>
          ihOperands operand member (readsBack.2 operand member)
      rw [written, writtenAll_eq_map]
      exact .bracketed (List.forall_mem_cons.2 ⟨ihOperator readsBack.1, parts⟩)
  | @letIn bindings body bindable distinct inBindings nonempty inBody ihBindings ihBody =>
      rw [numbers, numbersAll_eq_flatMap, numbersBound_eq_flatMap, List.forall_mem_append,
        List.forall_mem_flatMap, List.forall_mem_flatMap] at readsBack
      have pairs : ∀ form ∈ writtenBindings bindings, form.Scannable := by
        rw [writtenBindings_eq_map]
        refine List.forall_mem_map.2 fun binding member => .bracketed (List.forall_mem_cons.2
          ⟨.word (bindable binding member).isWord, List.forall_mem_singleton.2 ?_⟩)
        exact ihBindings binding member (readsBack.1 binding member)
      have forms : ∀ form ∈ body.map written, form.Scannable :=
        List.forall_mem_map.2 fun form member => ihBody form member (readsBack.2 form member)
      rw [written, writtenAll_eq_map]
      exact .bracketed (List.forall_mem_cons.2
        ⟨.word (by decide), List.forall_mem_cons.2 ⟨.bracketed pairs, forms⟩⟩)

/-- What is written for a legible top-level form scans. -/
theorem LegibleForm.scannable (legible : expr.LegibleForm)
    (readsBack : ∀ number ∈ expr.numbers, ReadsBack number) : expr.written.Scannable := by
  cases legible with
  | expr legible => exact legible.scannable readsBack
  | define bindable inValue =>
      refine .bracketed (List.forall_mem_cons.2 ⟨.word (by decide), List.forall_mem_cons.2
        ⟨.word bindable.isWord, ?_⟩⟩)
      exact List.forall_mem_singleton.2 (inValue.scannable readsBack)

/-! ## Parsing -/

/-- A name that may be declared, and is not declared yet, is declared by its word. -/
theorem declare_atom {name : String} {seen : List String} (bindable : Bindable name)
    (new : name ∉ seen) : declare seen (.atom name) = .ok name := by
  rw [declare, if_pos bindable.isIdentifier, MiniScheme.bindable, bindable.notKeyword]
  exact if_neg new

/-- Distinct names that may be declared are declared by their words. -/
theorem declareAll_map_atom {names seen : List String} (bindable : ∀ name ∈ names, Bindable name)
    (distinct : names.Nodup) (apart : ∀ name ∈ names, name ∉ seen) :
    declareAll seen (names.map .atom) = .ok names := by
  induction names generalizing seen with
  | nil => rfl
  | cons name names ih =>
      rw [List.forall_mem_cons] at bindable apart
      obtain ⟨notAmong, distinct⟩ := List.nodup_cons.1 distinct
      -- The names are distinct, so that none of the others has been seen.
      have new : ∀ other ∈ names, other ∉ name :: seen := by
        intro other member known
        rcases List.mem_cons.1 known with same | old
        · exact notAmong (same ▸ member)
        · exact apart.2 other member old
      have others := ih bindable.2 distinct new
      rw [List.map_cons, declareAll, declare_atom bindable.1 apart.1, ok_bind, others]
      rfl

/-- Expressions that are parsed back one by one are parsed back as a list. -/
theorem ofAll_map {exprs : List Expr}
    (each : ∀ expr ∈ exprs, ofSExpr expr.written.toSExpr = .ok expr.reread) :
    ofAll ((exprs.map written).map Written.toSExpr) = .ok (exprs.map reread) := by
  induction exprs with
  | nil => rfl
  | cons expr exprs ih =>
      rw [List.forall_mem_cons] at each
      rw [List.map_cons, List.map_cons, ofAll, each.1, ih each.2]
      rfl

/-- A body that is parsed back form by form is parsed back. -/
theorem ofBody_map {form : BodyForm} {exprs : List Expr} (nonempty : exprs ≠ [])
    (each : ∀ expr ∈ exprs, ofSExpr expr.written.toSExpr = .ok expr.reread) :
    ofBody form ((exprs.map written).map Written.toSExpr) = .ok (exprs.map reread) := by
  obtain ⟨first, others, rfl⟩ := List.exists_cons_of_ne_nil nonempty
  rw [List.forall_mem_cons] at each
  rw [List.map_cons, List.map_cons, ofBody, each.1, ofAll_map each.2]
  rfl

/-- Bindings with distinct names that may be declared are parsed back. -/
theorem ofBindings_map {bindings : List (String × Expr)} {seen : List String}
    (bindable : ∀ binding ∈ bindings, Bindable binding.1) (distinct : (bindings.map Prod.fst).Nodup)
    (apart : ∀ binding ∈ bindings, binding.1 ∉ seen)
    (each : ∀ binding ∈ bindings, ofSExpr binding.2.written.toSExpr = .ok binding.2.reread) :
    ofBindings seen ((writtenBindings bindings).map Written.toSExpr) =
      .ok (bindings.map fun binding => (binding.1, binding.2.reread)) := by
  induction bindings generalizing seen with
  | nil => rfl
  | cons binding bindings ih =>
      rw [List.forall_mem_cons] at bindable apart each
      obtain ⟨notAmong, distinct⟩ := List.nodup_cons.1 distinct
      -- The names are distinct, so that none of the others has been seen.
      have new : ∀ other ∈ bindings, other.1 ∉ binding.1 :: seen := by
        intro other member known
        rcases List.mem_cons.1 known with same | old
        · exact notAmong (same ▸ List.mem_map_of_mem member)
        · exact apart.2 other member old
      have others := ih bindable.2 distinct new each.2
      rw [writtenBindings, List.map_cons, Written.toSExpr, Written.toSExprs, Written.toSExprs,
        Written.toSExprs, Written.toSExpr, ofBindings, declare_atom bindable.1 apart.1, ok_bind, each.1,
        ok_bind, others]
      rfl

/-- What is written for legible data as a literal is parsed back. -/
theorem ofSExpr_writtenLiteral {value : Value} (legible : value.Legible)
    (readsBack : ∀ number ∈ value.numbers, ReadsBack number) :
    ofSExpr (writtenLiteral value).toSExpr = .ok (rereadLiteral value) := by
  have data := (legible.ofSExpr_written readsBack).1
  -- A quote mark stands for the form with the word for it.
  have quotes {tree : SExpr} {datum : Value} (denotes : Value.ofSExpr tree = .ok datum) :
      ofSExpr tree.quoted = .ok (.lit datum) := by
    have parts : ofSExpr tree.quoted = ofQuote [tree] := rfl
    rw [parts, ofQuote, denotes]
    rfl
  cases legible with
  | number | string => rfl
  | bool value => cases value <;> rfl
  | symbol | nil | cons => exact quotes data

/-- What is written for an operator that is no word for a special form introduces none. -/
theorem specialForm?_written (legible : expr.Legible)
    (plain : ∀ name, expr = .var name → SpecialForm.ofWord? name = none)
    (readsBack : ∀ number ∈ expr.numbers, ReadsBack number) :
    expr.written.toSExpr.specialForm? = none := by
  cases legible with
  | num value => exact (readsBack value (List.mem_singleton_self value)).ofWord?_eq_none
  | bool value => cases value <;> decide
  | var => exact plain _ rfl
  | lit data =>
      cases data with
      | number value => exact (readsBack value (List.mem_singleton_self value)).ofWord?_eq_none
      | bool value => cases value <;> decide
      | string | symbol | nil | cons => rfl
  | prim op => cases op <;> decide
  | str | cond | lambda | app | letIn => rfl

/-- What is written for a legible expression is parsed back. -/
theorem Legible.ofSExpr_written (legible : expr.Legible)
    (readsBack : ∀ number ∈ expr.numbers, ReadsBack number) :
    ofSExpr expr.written.toSExpr = .ok expr.reread := by
  induction legible with
  | num | str => rfl
  | bool value => cases value <;> rfl
  | var isWord isName => exact congrArg Except.ok isName
  | lit data => exact ofSExpr_writtenLiteral data readsBack
  | prim op => cases op <;> rfl
  | @cond test consequent alternative _ _ _ ihTest ihConsequent ihAlternative =>
      rw [numbers, List.forall_mem_append, List.forall_mem_append] at readsBack
      obtain ⟨⟨inTest, inConsequent⟩, inAlternative⟩ := readsBack
      have parts : ofSExpr (Expr.cond test consequent alternative).written.toSExpr =
          ofCond [test.written.toSExpr, consequent.written.toSExpr, alternative.written.toSExpr] := rfl
      rw [parts, ofCond, ihTest inTest, ihConsequent inConsequent, ihAlternative inAlternative]
      rfl
  | @lambda params body bindable distinct nonempty inBody ih =>
      rw [numbers, numbersAll_eq_flatMap, List.forall_mem_flatMap] at readsBack
      -- The words of the parameters declare them again.
      have names : (params.map Written.word).map Written.toSExpr = params.map SExpr.atom := by
        rw [List.map_map]
        rfl
      have parts : ofSExpr (Expr.lambda params body).written.toSExpr =
          ofLambda (.list (params.map .atom) :: (body.map written).map Written.toSExpr) := by
        rw [← names, ← writtenAll_eq_map, ← Written.toSExprs_eq_map, ← Written.toSExprs_eq_map]
        rfl
      have forms : ofBody .lambda ((body.map written).map Written.toSExpr) = .ok (body.map reread) :=
        ofBody_map nonempty fun form member => ih form member (readsBack form member)
      rw [parts, ofLambda, declareAll_map_atom bindable distinct (by simp), forms, reread,
        rereadAll_eq_map]
      rfl
  | @app operator operands plain inOperator inOperands ihOperator ihOperands =>
      rw [numbers, numbersAll_eq_flatMap, List.forall_mem_append, List.forall_mem_flatMap] at readsBack
      -- The operator introduces no special form, so the list is an application again.
      have noForm := specialForm?_written inOperator plain readsBack.1
      have others : ofAll ((operands.map written).map Written.toSExpr) = .ok (operands.map reread) :=
        ofAll_map fun operand member => ihOperands operand member (readsBack.2 operand member)
      rw [written, Written.toSExpr, Written.toSExprs_eq_map, writtenAll_eq_map, List.map_cons,
        ofSExpr, ofList, noForm, ihOperator readsBack.1, others, reread, rereadAll_eq_map]
      rfl
  | @letIn bindings body bindable distinct inBindings nonempty inBody ihBindings ihBody =>
      rw [numbers, numbersAll_eq_flatMap, numbersBound_eq_flatMap, List.forall_mem_append,
        List.forall_mem_flatMap, List.forall_mem_flatMap] at readsBack
      have parts : ofSExpr (Expr.letIn bindings body).written.toSExpr =
          ofLet (.list ((writtenBindings bindings).map Written.toSExpr) ::
            (body.map written).map Written.toSExpr) := by
        rw [← writtenAll_eq_map, ← Written.toSExprs_eq_map, ← Written.toSExprs_eq_map]
        rfl
      have pairs : ofBindings [] ((writtenBindings bindings).map Written.toSExpr) = .ok _ :=
        ofBindings_map bindable distinct (by simp) fun binding member =>
          ihBindings binding member (readsBack.1 binding member)
      have forms : ofBody .letIn ((body.map written).map Written.toSExpr) = .ok (body.map reread) :=
        ofBody_map nonempty fun form member => ihBody form member (readsBack.2 form member)
      rw [parts, ofLet, pairs, forms, reread, rereadAll_eq_map, rereadBindings_eq_map]
      rfl

/-- What is written for a legible expression is no definition. -/
theorem ofTopLevel_written (legible : expr.Legible)
    (readsBack : ∀ number ∈ expr.numbers, ReadsBack number) :
    ofTopLevel expr.written.toSExpr = ofSExpr expr.written.toSExpr := by
  cases legible with
  | num | bool | str | var | prim | cond | lambda | letIn => rfl
  | lit data => cases data <;> rfl
  | app plain inOperator inOperands =>
      rw [numbers, List.forall_mem_append] at readsBack
      -- An application is no definition, as its operator is no word for a special form.
      have noForm := specialForm?_written inOperator plain readsBack.1
      rw [written, Written.toSExpr, Written.toSExprs, ofTopLevel, noForm]
      exact if_neg (by decide)

/-- What is written for a legible top-level form is parsed back. -/
theorem LegibleForm.ofTopLevel_written (legible : expr.LegibleForm)
    (readsBack : ∀ number ∈ expr.numbers, ReadsBack number) :
    ofTopLevel expr.written.toSExpr = .ok expr.reread := by
  cases legible with
  | @define name value bindable inValue =>
      have parts : ofTopLevel (Expr.define name value).written.toSExpr =
          ofDefine [.atom name, value.written.toSExpr] := rfl
      rw [parts, ofDefine, if_pos bindable.isIdentifier, MiniScheme.bindable, bindable.notKeyword,
        ok_bind, inValue.ofSExpr_written readsBack]
      rfl
  | expr legible =>
      rw [Expr.ofTopLevel_written legible readsBack, legible.ofSExpr_written readsBack]

/-! ## What is read back -/

/-- Where all numbers are finite, only needless quotations are lost. -/
theorem reread_eq_unquoted (readsBack : ∀ number ∈ expr.numbers, ReadsBack number)
    (finite : ∀ number ∈ expr.numbers, IsFinite number) : expr.reread = expr.unquoted := by
  have numeral {value : Float} (readsBack : ∀ number ∈ [value], ReadsBack number)
      (finite : ∀ number ∈ [value], IsFinite number) : ofWord (numberText value) = .num value :=
    have member := List.mem_singleton_self value
    ofWord_of_numeral (readsBack value member (finite value member))
  -- Only numbers are at stake: each is finite, so that its text is a numeral for it.
  induction expr with
  | num value => exact numeral readsBack finite
  | bool | str | var | prim => rfl
  | lit value =>
      cases value with
      | number value => exact numeral readsBack finite
      | bool | string | symbol | nil | prim | closure => rfl
      | cons car cdr => exact congrArg Expr.lit (Value.reread_eq_self readsBack finite)
  | cond test consequent alternative ihTest ihConsequent ihAlternative =>
      rw [numbers, List.forall_mem_append, List.forall_mem_append] at readsBack finite
      rw [reread, unquoted, ihTest readsBack.1.1 finite.1.1, ihConsequent readsBack.1.2 finite.1.2,
        ihAlternative readsBack.2 finite.2]
  | lambda params body ih =>
      rw [numbers, numbersAll_eq_flatMap, List.forall_mem_flatMap] at readsBack finite
      rw [reread, unquoted, rereadAll_eq_map, unquotedAll_eq_map, List.map_congr_left
        fun form member => ih form member (readsBack form member) (finite form member)]
  | app operator operands ihOperator ihOperands =>
      rw [numbers, numbersAll_eq_flatMap, List.forall_mem_append, List.forall_mem_flatMap]
        at readsBack finite
      rw [reread, unquoted, rereadAll_eq_map, unquotedAll_eq_map, ihOperator readsBack.1 finite.1,
        List.map_congr_left fun operand member =>
          ihOperands operand member (readsBack.2 operand member) (finite.2 operand member)]
  | letIn bindings body ihBindings ihBody =>
      rw [numbers, numbersAll_eq_flatMap, numbersBound_eq_flatMap, List.forall_mem_append,
        List.forall_mem_flatMap, List.forall_mem_flatMap] at readsBack finite
      have pairs : rereadBindings bindings = unquotedBindings bindings := by
        rw [rereadBindings_eq_map, unquotedBindings_eq_map]
        refine List.map_congr_left fun binding member => ?_
        rw [ihBindings binding member (readsBack.1 binding member) (finite.1 binding member)]
      rw [reread, unquoted, pairs, rereadAll_eq_map, unquotedAll_eq_map, List.map_congr_left
        fun form member => ihBody form member (readsBack.2 form member) (finite.2 form member)]
  | define name value ih => rw [reread, unquoted, ih readsBack finite]

/-- Reading back changes no text. -/
theorem text_reread (readsBack : ∀ number ∈ expr.numbers, ReadsBack number) :
    expr.reread.text = expr.text := by
  have number {value : Float} (readsBack : ∀ number ∈ [value], ReadsBack number) :
      (ofWord (numberText value)).text = numberText value := by
    rcases (readsBack value (List.mem_singleton_self value)).expr_ofWord with same | name
    · rw [same]
      rfl
    · rw [name]
      rfl
  -- What becomes of a number may be a reference, but then its name is the text of the number.
  induction expr with
  | num value => exact number readsBack
  | bool | str | var | prim => rfl
  | lit value =>
      cases value with
      | number value => exact number readsBack
      | bool | string | symbol | nil | prim | closure => rfl
      | cons car cdr =>
          have same := (Value.text_reread readsBack).1
          exact congrArg ("'" ++ ·) same
  | cond test consequent alternative ihTest ihConsequent ihAlternative =>
      rw [numbers, List.forall_mem_append, List.forall_mem_append] at readsBack
      rw [reread, text, text, ihTest readsBack.1.1, ihConsequent readsBack.1.2,
        ihAlternative readsBack.2]
  | lambda params body ih =>
      rw [numbers, numbersAll_eq_flatMap, List.forall_mem_flatMap] at readsBack
      have forms : (body.map reread).map text = body.map text := by
        rw [List.map_map]
        exact List.map_congr_left fun form member => ih form member (readsBack form member)
      rw [reread, text, text, rereadAll_eq_map, texts_eq_map, texts_eq_map, forms]
  | app operator operands ihOperator ihOperands =>
      rw [numbers, numbersAll_eq_flatMap, List.forall_mem_append, List.forall_mem_flatMap] at readsBack
      have parts : (operands.map reread).map text = operands.map text := by
        rw [List.map_map]
        exact List.map_congr_left fun operand member =>
          ihOperands operand member (readsBack.2 operand member)
      rw [reread, text, text, rereadAll_eq_map, texts_eq_map, texts_eq_map, ihOperator readsBack.1,
        parts]
  | letIn bindings body ihBindings ihBody =>
      rw [numbers, numbersAll_eq_flatMap, numbersBound_eq_flatMap, List.forall_mem_append,
        List.forall_mem_flatMap, List.forall_mem_flatMap] at readsBack
      have pairs : bindingTexts (rereadBindings bindings) = bindingTexts bindings := by
        rw [rereadBindings_eq_map, bindingTexts_eq_map, bindingTexts_eq_map, List.map_map]
        refine List.map_congr_left fun binding member => ?_
        rw [Function.comp_apply, ihBindings binding member (readsBack.1 binding member)]
      have forms : (body.map reread).map text = body.map text := by
        rw [List.map_map]
        exact List.map_congr_left fun form member => ihBody form member (readsBack.2 form member)
      rw [reread, text, text, pairs, rereadAll_eq_map, texts_eq_map, texts_eq_map, forms]
  | define name value ih => rw [reread, text, text, ih readsBack]

end Expr

end MiniScheme
