import MiniScheme.Proofs.Literals
import MiniScheme.Proofs.ReadingBack

/-! # Reading the text of a program

Printing a parsed program and parsing the text is limited by the reader only: quote marks in the source
are no brackets, but a quoted `quote` is printed with brackets, so that the text may be nested deeper than
the source, and a number may have more digits in the text than in the source, so that the text may be longer.
Where the text is parsed at all, the result is the program without needless quotations. -/

namespace MiniScheme

/-- Whether a datum evaluates to itself without a quotation. -/
def Value.IsSelfEvaluating : Value → Prop
  | .number _ | .bool _ | .string _ => True
  | _ => False

namespace Expr

/-- An expression in which no quotation is needless stays as it is. -/
theorem unquoted_eq_self {expr : Expr}
    (needed : ∀ value ∈ expr.literals, ¬value.IsSelfEvaluating) : expr.unquoted = expr := by
  induction expr with
  | num | bool | str | var | prim => rfl
  | lit value =>
      have quoted := needed value (List.mem_singleton_self value)
      cases value with
      | number | bool | string => exact absurd trivial quoted
      | symbol | nil | cons | prim | closure => rfl
  | cond test consequent alternative ihTest ihConsequent ihAlternative =>
      rw [literals, List.forall_mem_append, List.forall_mem_append] at needed
      rw [unquoted, ihTest needed.1.1, ihConsequent needed.1.2, ihAlternative needed.2]
  | lambda params body ih =>
      rw [literals, literalsAll_eq_flatMap, List.forall_mem_flatMap] at needed
      have forms : body.map unquoted = body :=
        map_eq_self fun form member => ih form member (needed form member)
      rw [unquoted, unquotedAll_eq_map, forms]
  | app operator operands ihOperator ihOperands =>
      rw [literals, literalsAll_eq_flatMap, List.forall_mem_append, List.forall_mem_flatMap] at needed
      have parts : operands.map unquoted = operands :=
        map_eq_self fun operand member => ihOperands operand member (needed.2 operand member)
      rw [unquoted, unquotedAll_eq_map, ihOperator needed.1, parts]
  | letIn bindings body ihBindings ihBody =>
      rw [literals, literalsAll_eq_flatMap, literalsBound_eq_flatMap, List.forall_mem_append,
        List.forall_mem_flatMap, List.forall_mem_flatMap] at needed
      have pairs : unquotedBindings bindings = bindings := by
        rw [unquotedBindings_eq_map]
        refine map_eq_self fun binding member => ?_
        rw [ihBindings binding member (needed.1 binding member)]
      have forms : body.map unquoted = body :=
        map_eq_self fun form member => ihBody form member (needed.2 form member)
      rw [unquoted, unquotedAll_eq_map, pairs, forms]
  | define name value ih => rw [unquoted, ih needed]

end Expr

namespace Program

/-- The numbers in a program. -/
def numbers (program : Program) : List Float :=
  program.forms.flatMap Expr.numbers

/-- The written forms of a program. -/
def written (program : Program) : List Written :=
  program.forms.map Expr.written

/-- A program as it is read back. -/
def reread (program : Program) : Program :=
  { forms := program.forms.map Expr.reread }

/-- A program without needless quotations. -/
def unquoted (program : Program) : Program :=
  { forms := program.forms.map Expr.unquoted }

variable {program : Program}

/-- A program in which no quotation is needless stays as it is. -/
theorem unquoted_eq_self (needed : ∀ value ∈ program.literals, ¬value.IsSelfEvaluating) :
    program.unquoted = program := by
  have forms : program.forms.map Expr.unquoted = program.forms :=
    map_eq_self fun form member =>
      Expr.unquoted_eq_self (List.forall_mem_flatMap.1 needed form member)
  rw [unquoted, forms]

/-- The text of a legible program consists of its written forms, one a line. -/
theorem Legible.text_eq_lines (legible : program.Legible) :
    program.text = Written.lines program.written := by
  have texts : program.written.map Written.text = program.forms.map Expr.text := by
    rw [written, List.map_map]
    exact List.map_congr_left fun form member => (legible.forms form member).text_written
  rw [text, Written.lines, texts]

section ReadsBack

variable (legible : program.Legible) (readsBack : ∀ number ∈ program.numbers, ReadsBack number)

include readsBack

/-- Numbers that are read back in a program are read back in each form. -/
theorem readsBack_form : ∀ form ∈ program.forms, ∀ number ∈ form.numbers, ReadsBack number :=
  List.forall_mem_flatMap.1 readsBack

/-- Reading a program back changes no text. -/
theorem text_reread : program.reread.text = program.text := by
  have texts : (program.forms.map Expr.reread).map Expr.text = program.forms.map Expr.text := by
    rw [List.map_map]
    exact List.map_congr_left fun form member =>
      Expr.text_reread (readsBack_form readsBack form member)
  rw [text, text, reread, texts]

/-- Where all numbers are finite, only needless quotations are lost. -/
theorem reread_eq_unquoted (finite : ∀ number ∈ program.numbers, IsFinite number) :
    program.reread = program.unquoted := by
  have forms : program.forms.map Expr.reread = program.forms.map Expr.unquoted :=
    List.map_congr_left fun form member =>
      Expr.reread_eq_unquoted (readsBack_form readsBack form member)
        (List.forall_mem_flatMap.1 finite form member)
  rw [reread, unquoted, forms]

include legible

/-- The written forms of a legible program scan. -/
theorem scannable_written : ∀ form ∈ program.written, form.Scannable :=
  List.forall_mem_map.2 fun form member =>
    (legible.forms form member).scannable (readsBack_form readsBack form member)

/-- The trees of a legible program denote the program as it is read back. -/
theorem ofSExprs_written :
    ofSExprs (program.written.map Written.toSExpr) = .ok program.reread := by
  have forms : (program.written.map Written.toSExpr).mapM Expr.ofTopLevel =
      .ok (program.forms.map Expr.reread) := by
    rw [written, List.map_map, List.mapM_map]
    exact mapM_eq_pure_map fun form member =>
      (legible.forms form member).ofTopLevel_written (readsBack_form readsBack form member)
  have nonempty : (program.written.map Written.toSExpr).isEmpty = false := by
    simpa [written] using legible.nonempty
  rw [ofSExprs, nonempty, forms]
  rfl

/-- The text of a legible program is parsed unless it is too long or brackets are nested too deep in it. -/
theorem parse_text :
    Program.parse program.text =
      if maxSourceLength < program.text.utf8ByteSize then
        .error (.unreadable (.tooLong program.text.utf8ByteSize))
      else if Written.sourceNesting program.text ≤ maxNesting then .ok program.reread
      else .error (.unreadable .tooDeep) := by
  rcases Nat.lt_or_ge maxSourceLength program.text.utf8ByteSize with exceeds | short
  · rw [if_pos exceeds, parse_of_gt exceeds]
  rw [if_neg (Nat.not_lt_of_le short)]
  have scannable := scannable_written legible readsBack
  rw [legible.text_eq_lines] at short ⊢
  rw [Written.sourceNesting_lines scannable, parse, SExpr.parse, Written.ofText_lines scannable short]
  -- The reader fails in one way only; parsing what it reads cannot fail.
  by_cases fits : Written.nestingAll program.written ≤ maxNesting
  · rw [if_pos fits, if_pos fits]
    exact congrArg (Except.mapError ParseError.misshapen) (ofSExprs_written legible readsBack)
  · rw [if_neg fits, if_neg fits]
    rfl

end ReadsBack

/-- Parsing the text of a parsed program fails only where this text is too long or nests brackets too deep.
Otherwise it yields a program with the same text: the program itself without needless quotations, if its numbers are
finite. What is assumed is that the text of a finite number in the program denotes this number. -/
theorem parse_text_of_parse {source : String} (parsed : Program.parse source = .ok program)
    (readsBack : ∀ number ∈ program.numbers, ReadsBack number) :
    ((∃ again, Program.parse program.text = .ok again) ↔
        program.text.utf8ByteSize ≤ maxSourceLength ∧ Written.sourceNesting program.text ≤ maxNesting) ∧
      ∀ again, Program.parse program.text = .ok again →
        again.text = program.text ∧
          ((∀ number ∈ program.numbers, IsFinite number) →
            again = program.unquoted ∧
              ((∀ value ∈ program.literals, ¬value.IsSelfEvaluating) → again = program)) := by
  have outcome := parse_text (legible_of_parse parsed) readsBack
  -- Either the text is parsed as the program that is read back, or not at all.
  by_cases fits : program.text.utf8ByteSize ≤ maxSourceLength ∧ Written.sourceNesting program.text ≤ maxNesting
  · rw [if_neg (Nat.not_lt_of_le fits.1), if_pos fits.2] at outcome
    refine ⟨iff_of_true ⟨program.reread, outcome⟩ fits, fun again found => ?_⟩
    obtain rfl : program.reread = again := Except.ok.inj (outcome.symm.trans found)
    refine ⟨text_reread readsBack, fun finite => ?_⟩
    have same := reread_eq_unquoted readsBack finite
    exact ⟨same, fun needed => same.trans (unquoted_eq_self needed)⟩
  · have fails (again : Program) : Program.parse program.text ≠ .ok again := by
      rw [outcome]
      split
      · exact nofun
      · rename_i short
        rw [if_neg fun nested => fits ⟨Nat.le_of_not_lt short, nested⟩]
        exact nofun
    exact ⟨iff_of_false (fun ⟨again, found⟩ => fails again found) fits,
      fun again found => absurd found (fails again)⟩

/-- A quoted number is read back as the number, and the quotation of a quotation, which is printed with
brackets, as it is. -/
theorem parse_text_of_parse_quotations :
    Program.parse "'5 ''a" = .ok
        { forms := [.lit (.number 5), .lit (.ofList [.symbol "quote", .symbol "a"])] } ∧
      ReadsBack 5 ∧
      ∀ again, Program.parse
          (text { forms := [.lit (.number 5), .lit (.ofList [.symbol "quote", .symbol "a"])] }) =
            .ok again →
        again = { forms := [.num 5, .lit (.ofList [.symbol "quote", .symbol "a"])] } := by
  have tokens : Token.ofText "'5 ''a" = [⟨.quoteMark, 0, 1⟩, ⟨.atom "5", 1, 2⟩, ⟨.quoteMark, 3, 4⟩,
      ⟨.quoteMark, 4, 5⟩, ⟨.atom "a", 5, 6⟩] := by
    decide +kernel
  have trees : SExpr.parse "'5 ''a" = .ok [.quoted (.atom "5"), .quoted (.quoted (.atom "a"))] := by
    rw [SExpr.parse, SExpr.ofText_of_le (by decide +kernel), tokens]
    rfl
  have five : Value.ofWord "5" = .number 5 := Value.ofWord_of_numeral (by decide +kernel)
  have number : Expr.ofTopLevel (.quoted (.atom "5")) = .ok (.lit (.number 5)) :=
    congrArg (fun value => Except.ok (Expr.lit value)) five
  have quotation : Expr.ofTopLevel (.quoted (.quoted (.atom "a"))) =
      .ok (.lit (.ofList [.symbol "quote", .symbol "a"])) := rfl
  have parsed : Program.parse "'5 ''a" = .ok
      { forms := [.lit (.number 5), .lit (.ofList [.symbol "quote", .symbol "a"])] } := by
    rw [Program.parse, trees, ok_bind, ofSExprs, List.mapM_cons, number, List.mapM_cons, quotation]
    rfl
  have readsBack : ReadsBack 5 := fun _ => by decide +kernel
  have numbers := List.forall_mem_singleton.2 readsBack
  refine ⟨parsed, readsBack, fun again found => ?_⟩
  have finite := List.forall_mem_singleton.2 (show IsFinite 5 by decide +kernel)
  exact (((parse_text_of_parse parsed numbers).2 again found).2 finite).1

end Program

end MiniScheme
