import MiniScheme.Expr.Text
import MiniScheme.Proofs.Scanning
import MiniScheme.SExpr.Reader

/-! # Written forms

A written form is a symbolic expression as the printer lays it out: unlike `SExpr`, it tells a quote mark
from a list that begins with the word `quote`. Its text scans and reads back as the symbolic expression
that it stands for, unless its brackets are nested deeper than the reader allows. -/

namespace MiniScheme

/-- A symbolic expression as it is written. -/
inductive Written : Type where
  /-- A word. -/
  | word (text : String)
  /-- A string literal with its content. -/
  | literal (content : String)
  /-- A quote mark in front of another form. -/
  | marked (form : Written)
  /-- Forms between brackets, with a blank between neighbours. -/
  | bracketed (items : List Written)

namespace Written

/-- Induction on written forms that looks into brackets. -/
@[induction_eliminator, elab_as_elim]
theorem induction {motive : Written → Prop}
    (word : ∀ text, motive (.word text))
    (literal : ∀ content, motive (.literal content))
    (marked : ∀ form, motive form → motive (.marked form))
    (bracketed : ∀ items, (∀ item ∈ items, motive item) → motive (.bracketed items))
    (form : Written) : motive form :=
  @Written.rec motive (fun forms => ∀ form ∈ forms, motive form) word literal marked bracketed
    (by simp) (fun _ _ head tail => List.forall_mem_cons.2 ⟨head, tail⟩) form

mutual

/-- The text of a written form. -/
def text : Written → String
  | .word text => text
  | .literal content => StringLiteral.encode content
  | .marked form => "'" ++ form.text
  | .bracketed items => "(" ++ spaced (texts items) ++ ")"

/-- The texts of a list of written forms. -/
def texts : List Written → List String
  | [] => []
  | form :: forms => form.text :: texts forms

end

mutual

/-- The kinds of the tokens of a written form. -/
def kinds : Written → List Token.Kind
  | .word text => [.atom text]
  | .literal content => [.str content]
  | .marked form => .quoteMark :: form.kinds
  | .bracketed items => .opening :: kindsAll items ++ [.closing]

/-- The kinds of the tokens of a list of written forms. -/
def kindsAll : List Written → List Token.Kind
  | [] => []
  | form :: forms => form.kinds ++ kindsAll forms

end

mutual

/-- The symbolic expression that a written form stands for. -/
def toSExpr : Written → SExpr
  | .word text => .atom text
  | .literal content => .str content
  | .marked form => form.toSExpr.quoted
  | .bracketed items => .list (toSExprs items)

/-- The symbolic expressions that a list of written forms stands for. -/
def toSExprs : List Written → List SExpr
  | [] => []
  | form :: forms => form.toSExpr :: toSExprs forms

end

mutual

/-- How many brackets are nested in one another. -/
def nesting : Written → Nat
  | .word _ | .literal _ => 0
  | .marked form => form.nesting
  | .bracketed items => nestingAll items + 1

/-- How many brackets are nested in one another in a list of written forms. -/
def nestingAll : List Written → Nat
  | [] => 0
  | form :: forms => max form.nesting (nestingAll forms)

end

/-- The texts of a list are those of each form. -/
@[simp] theorem texts_eq_map (forms : List Written) : texts forms = forms.map text := by
  induction forms with
  | nil => rfl
  | cons _ _ ih => simp only [texts, List.map_cons, ih]

/-- The symbolic expressions of a list are those of each form. -/
@[simp] theorem toSExprs_eq_map (forms : List Written) : toSExprs forms = forms.map toSExpr := by
  induction forms with
  | nil => rfl
  | cons _ _ ih => simp only [toSExprs, List.map_cons, ih]

/-- Whether everything that is written as a word scans as a word. -/
inductive Scannable : Written → Prop
  /-- A word. -/
  | word {text : String} (isWord : IsWord text) : Scannable (.word text)
  /-- A string literal. -/
  | literal (content : String) : Scannable (.literal content)
  /-- A quote mark in front of a form. -/
  | marked {form : Written} (scannable : Scannable form) : Scannable (.marked form)
  /-- Forms between brackets. -/
  | bracketed {items : List Written} (each : ∀ item ∈ items, Scannable item) :
      Scannable (.bracketed items)

/-! ## Scanning -/

open Scanner (Scans)

/-- Forms with a blank character between neighbours scan if each does. -/
theorem scans_intercalate {blank : Char} (isBlank : isBlank blank = true) {forms : List Written}
    (each : ∀ form ∈ forms, ∀ rest, Boundary rest → Scans form.text.toList form.kinds rest)
    {rest : List Char} (ends : Boundary rest) :
    Scans ((String.singleton blank).intercalate (forms.map text)).toList (kindsAll forms) rest := by
  induction forms with
  | nil => exact .nil rest
  | cons form forms ih =>
      rw [List.forall_mem_cons] at each
      cases forms with
      | nil =>
          rw [List.map_singleton, String.intercalate_singleton, kindsAll, kindsAll, List.append_nil]
          exact each.1 rest ends
      | cons next others =>
          rw [List.map_cons, List.map_cons, String.intercalate_cons_cons, ← List.map_cons, kindsAll,
            String.toList_append, String.toList_append, String.toList_singleton,
            List.append_assoc]
          -- A form ends in front of the blank after it.
          have stops (chars : List Char) : Boundary (blank :: chars) := by
            simp [Boundary, isDelimiter, isBlank]
          exact (each.1 _ (stops _)).append ((Scans.blank isBlank _).append (ih each.2))

/-- The text of a scannable form has its tokens. -/
theorem scans_text {form : Written} (scannable : form.Scannable) {rest : List Char}
    (ends : Boundary rest) : Scans form.text.toList form.kinds rest := by
  induction scannable generalizing rest with
  | word isWord => exact .word isWord ends
  | literal content => exact .literal content rest
  | marked scannable ih =>
      rw [text, kinds, String.toList_append]
      exact (Scans.quoteMark _).append (ih ends)
  | bracketed each ih =>
      -- The last item ends in front of the closing bracket.
      have items := scans_intercalate (show isBlank ' ' = true from rfl)
        (fun item member rest => ih item member) (show Boundary (')' :: rest) from rfl)
      rw [text, kinds, texts_eq_map, String.toList_append, String.toList_append]
      exact ((Scans.opening _).append items).append (Scans.closing rest)

/-! ## Reading -/

variable {enclosing : List (Nat × Reader.Level)} {nesting more : Nat} {level next : Reader.Level}

/-- The reader goes on with a level if, inside the lists that are open, brackets that are nested so deep
may be opened. -/
def readAs (enclosing : List (Nat × Reader.Level)) (nesting : Nat) (level : Reader.Level) :
    Except ReadError Reader :=
  if enclosing.length + nesting ≤ maxNesting then .ok { level, enclosing } else .error .tooDeep

/-- The reader goes on where there is room for the brackets. -/
theorem readAs_of_le (room : enclosing.length + nesting ≤ maxNesting) :
    readAs enclosing nesting level = .ok { level, enclosing } := if_pos room

/-- The reader stops where there is no room for the brackets. -/
theorem readAs_of_lt (noRoom : maxNesting < enclosing.length + nesting) :
    readAs enclosing nesting level = .error .tooDeep := if_neg (Nat.not_le.2 noRoom)

/-- Reading two parts one after the other. -/
theorem readAs_bind {continuation : Reader → Except ReadError Reader}
    (goesOn : continuation { level, enclosing } = readAs enclosing more next) :
    (readAs enclosing nesting level >>= continuation) =
      readAs enclosing (max nesting more) next := by
  -- Reading stops in the first part, or in the second, or not at all.
  rcases Nat.lt_or_ge maxNesting (enclosing.length + nesting) with noRoom | room
  · rw [readAs_of_lt noRoom, readAs_of_lt (by omega)]
    rfl
  · rw [readAs_of_le room]
    refine goesOn.trans ?_
    rcases Nat.lt_or_ge maxNesting (enclosing.length + more) with noRoom | roomLeft
    · rw [readAs_of_lt noRoom, readAs_of_lt (by omega)]
    · rw [readAs_of_le roomLeft, readAs_of_le (by omega)]

/-- What the reader does with the tokens of a form, wherever they stand. -/
def ReadsAs (form : Written) : Prop :=
  ∀ (tokens : List Token) (reader : Reader), tokens.map Token.kind = form.kinds →
    reader.enclosing.length ≤ maxNesting →
      tokens.foldlM Reader.step reader =
        readAs reader.enclosing form.nesting (reader.level.push form.toSExpr)

/-- Forms are read one after the other if each is read as the tree that it stands for. -/
theorem foldlM_kindsAll {forms : List Written} (each : ∀ form ∈ forms, form.ReadsAs)
    {tokens : List Token} (scanned : tokens.map Token.kind = kindsAll forms) {reader : Reader}
    (unmarked : reader.level.marks = 0) (shallow : reader.enclosing.length ≤ maxNesting) :
    tokens.foldlM Reader.step reader =
      readAs reader.enclosing (nestingAll forms)
        { reversed := (forms.map toSExpr).reverse ++ reader.level.reversed, marks := 0 } := by
  induction forms generalizing tokens reader with
  | nil =>
      obtain rfl : tokens = [] := List.map_eq_nil_iff.1 scanned
      rw [readAs_of_le shallow, List.map_nil, List.reverse_nil, List.nil_append, ← unmarked]
      rfl
  | cons form forms ih =>
      rw [List.forall_mem_cons] at each
      obtain ⟨first, others, rfl, scannedFirst, scannedOthers⟩ := List.map_eq_append_iff.1 scanned
      rw [List.foldlM_append, each.1 first reader scannedFirst shallow]
      -- The first form is pushed on the level, and the others are read from there.
      let next : Reader := { reader with level := reader.level.push form.toSExpr }
      have pushed : next.level.reversed = form.toSExpr :: reader.level.reversed := by
        rw [show next.level = reader.level.push form.toSExpr from rfl, Reader.Level.push, unmarked,
          SExpr.quotedTimes]
      have rest : others.foldlM Reader.step next = readAs next.enclosing (nestingAll forms) _ :=
        ih each.2 scannedOthers rfl shallow
      refine readAs_bind (rest.trans ?_)
      rw [pushed, List.map_cons, List.reverse_cons, List.append_assoc, List.singleton_append]

/-- Forms and a closing bracket after them are read as a list, inside the list that was opened last. -/
theorem foldlM_closing {items : List Written} (each : ∀ item ∈ items, item.ReadsAs) {inner : List Token}
    (scanned : inner.map Token.kind = kindsAll items) {closing : Token} (kind : closing.kind = .closing)
    {offset : Nat} (shallow : enclosing.length < maxNesting) :
    (inner ++ [closing]).foldlM Reader.step
        { level := .empty, enclosing := (offset, level) :: enclosing } =
      readAs enclosing (nestingAll items + 1) (level.push (bracketed items).toSExpr) := by
  let opened : Reader := { level := .empty, enclosing := (offset, level) :: enclosing }
  have oneMore : opened.enclosing.length = enclosing.length + 1 := rfl
  have itemsRead : inner.foldlM Reader.step opened =
      readAs opened.enclosing (nestingAll items) _ :=
    foldlM_kindsAll each scanned rfl (by omega)
  rw [List.foldlM_append, itemsRead]
  rcases Nat.lt_or_ge maxNesting (opened.enclosing.length + nestingAll items) with noRoom | room
  · rw [readAs_of_lt noRoom, readAs_of_lt (by omega)]
    rfl
  · -- The closing bracket takes the trees of the open list in the order in which they were read.
    have listed : ((items.map toSExpr).reverse ++ opened.level.reversed).reverse = toSExprs items := by
      rw [toSExprs_eq_map, List.reverse_append, List.reverse_reverse]
      rfl
    rw [readAs_of_le room, readAs_of_le (by omega), toSExpr, ← listed]
    simp only [bind, Except.bind, List.foldlM_cons, List.foldlM_nil, Reader.step, kind]
    rfl

/-- The tokens of a form are read as the tree that it stands for. -/
theorem readsAs (form : Written) : form.ReadsAs := by
  induction form with
  | word text =>
      intro tokens reader scanned shallow
      obtain ⟨token, rfl, kind⟩ := List.map_eq_singleton_iff.1 scanned
      rw [List.foldlM_cons, Reader.step, kind, readAs_of_le shallow]
      rfl
  | literal content =>
      intro tokens reader scanned shallow
      obtain ⟨token, rfl, kind⟩ := List.map_eq_singleton_iff.1 scanned
      rw [List.foldlM_cons, Reader.step, kind, readAs_of_le shallow]
      rfl
  | marked form ih =>
      -- A mark waits in the level, and pushing the tree of the form quotes it.
      intro tokens reader scanned shallow
      obtain ⟨mark, tokens, rfl, kind, scannedForm⟩ := List.map_eq_cons_iff.1 scanned
      rw [List.foldlM_cons, Reader.step, kind]
      exact ih tokens _ scannedForm shallow
  | bracketed items ih =>
      intro tokens reader scanned shallow
      obtain ⟨inner, closings, rfl, scannedInner, scannedClosing⟩ := List.map_eq_append_iff.1 scanned
      obtain ⟨opening, inner, rfl, kindOpening, scannedItems⟩ := List.map_eq_cons_iff.1 scannedInner
      obtain ⟨closing, rfl, kindClosing⟩ := List.map_eq_singleton_iff.1 scannedClosing
      rw [List.cons_append, List.foldlM_cons, Reader.step, kindOpening, nesting]
      by_cases full : maxNesting ≤ reader.enclosing.length
      · simp only [if_pos full]
        rw [readAs_of_lt (by omega)]
        rfl
      · simp only [if_neg full]
        exact foldlM_closing ih scannedItems kindClosing (by omega)

/-- The tokens of some forms are read as the trees that the forms stand for, unless brackets are nested
too deep. -/
theorem ofTokens_of_kinds {forms : List Written} {tokens : List Token}
    (scanned : tokens.map Token.kind = kindsAll forms) :
    SExpr.ofTokens tokens =
      if nestingAll forms ≤ maxNesting then .ok (forms.map toSExpr) else .error .tooDeep := by
  -- At the top level no list is open, so the whole nesting has to fit.
  have read : tokens.foldlM Reader.step Reader.initial = readAs [] (nestingAll forms) _ :=
    foldlM_kindsAll (fun form _ => readsAs form) scanned rfl (Nat.zero_le _)
  rw [SExpr.ofTokens, read, readAs, List.length_nil, Nat.zero_add]
  split
  · have listed : ((forms.map toSExpr).reverse ++ Reader.initial.level.reversed).reverse =
        forms.map toSExpr := by
      rw [List.reverse_append, List.reverse_reverse]
      rfl
    exact congrArg Except.ok listed
  · rfl

/-! ## Nesting -/

/-- The greatest number of brackets that are open at once in a token sequence, if so many are open before
it and so many have been open at most. -/
def deepestFrom (opened deepest : Nat) : List Token.Kind → Nat
  | [] => deepest
  | .opening :: kinds => deepestFrom (opened + 1) (max deepest (opened + 1)) kinds
  | .closing :: kinds => deepestFrom (opened - 1) deepest kinds
  | _ :: kinds => deepestFrom opened deepest kinds

/-- Whether the nesting of a form counts as the number of brackets open at once, wherever it stands. -/
def NestsAs (form : Written) : Prop :=
  ∀ (opened deepest : Nat) (kinds : List Token.Kind), opened ≤ deepest →
    deepestFrom opened deepest (form.kinds ++ kinds) =
      deepestFrom opened (max deepest (opened + form.nesting)) kinds

/-- In a list of forms the deepest one counts. -/
theorem deepestFrom_kindsAll {forms : List Written} (each : ∀ form ∈ forms, form.NestsAs)
    {opened deepest : Nat} (kinds : List Token.Kind) (open_le : opened ≤ deepest) :
    deepestFrom opened deepest (kindsAll forms ++ kinds) =
      deepestFrom opened (max deepest (opened + nestingAll forms)) kinds := by
  induction forms generalizing deepest with
  | nil =>
      have same : max deepest (opened + nestingAll []) = deepest := by
        rw [nestingAll]
        omega
      rw [same]
      rfl
  | cons form forms ih =>
      rw [List.forall_mem_cons] at each
      rw [kindsAll, List.append_assoc, each.1 opened deepest _ open_le, ih each.2 (by omega),
        nestingAll]
      congr 1
      omega

/-- The nesting of a form is the number of brackets open at once in it. -/
theorem nestsAs (form : Written) : form.NestsAs := by
  induction form with
  | word text =>
      intro opened deepest kinds open_le
      rw [nesting, Nat.add_zero, Nat.max_eq_left open_le]
      rfl
  | literal content =>
      intro opened deepest kinds open_le
      rw [nesting, Nat.add_zero, Nat.max_eq_left open_le]
      rfl
  | marked form ih => exact ih
  | bracketed items ih =>
      intro opened deepest kinds open_le
      rw [Written.kinds, List.append_assoc, List.cons_append, deepestFrom,
        deepestFrom_kindsAll ih _ (by omega), List.singleton_append, deepestFrom, nesting]
      congr 1
      omega

/-! ## Source texts -/

/-- How deep a source text nests brackets in one another; brackets in string literals and comments are
none. -/
def sourceNesting (source : String) : Nat :=
  deepestFrom 0 0 ((Token.ofText source).map Token.kind)

/-- The text of some forms, one a line. -/
def lines (forms : List Written) : String :=
  "\n".intercalate (forms.map text)

variable {forms : List Written}

/-- The tokens of lines are those of the forms. -/
theorem kinds_lines (scannable : ∀ form ∈ forms, form.Scannable) :
    (Token.ofText (lines forms)).map Token.kind = kindsAll forms := by
  have scans := scans_intercalate (show isBlank '\n' = true from rfl)
    (fun form member rest => scans_text (scannable form member)) (show Boundary [] from trivial)
  obtain ⟨offset, found, kinds, run⟩ := scans 0 []
  have tokens : Token.ofText (lines forms) = found := by
    rw [List.append_nil] at run
    refine run.trans ?_
    rw [List.append_nil]
    exact List.reverse_reverse found
  rw [tokens, kinds]

/-- Lines nest brackets as deep as the deepest form. -/
theorem sourceNesting_lines (scannable : ∀ form ∈ forms, form.Scannable) :
    sourceNesting (lines forms) = nestingAll forms := by
  have deepest : deepestFrom 0 0 (kindsAll forms ++ []) = deepestFrom 0 _ [] :=
    deepestFrom_kindsAll (fun form _ => nestsAs form) [] (Nat.le_refl 0)
  rw [List.append_nil, Nat.zero_add, Nat.max_eq_right (Nat.zero_le _)] at deepest
  rw [sourceNesting, kinds_lines scannable, deepest, deepestFrom]

/-- Lines read back as the trees that the forms stand for, if they are not too long and unless brackets are
nested too deep. -/
theorem ofText_lines (scannable : ∀ form ∈ forms, form.Scannable)
    (short : (lines forms).utf8ByteSize ≤ maxSourceLength) :
    SExpr.ofText (lines forms) =
      if nestingAll forms ≤ maxNesting then .ok (forms.map toSExpr) else .error .tooDeep := by
  rw [SExpr.ofText_of_le short]
  exact ofTokens_of_kinds (kinds_lines scannable)

end Written

end MiniScheme
