import MiniScheme.Expr.Forms
import MiniScheme.Proofs.Lexemes

/-! # What the parser makes

The reader makes trees in which every word is a word, and the parser makes of them expressions that obey
the rules of the written language: names are no numbers, declared names are distinct and no keywords of
primitive operators, bodies are not empty, quoted data hold no procedures, and definitions stand at the
top level only. Such expressions are called legible. -/

namespace MiniScheme

/-- A computation that ends well after another one has. -/
theorem exists_of_bind_eq_ok {ε α β : Type} {first : Except ε α} {next : α → Except ε β} {result : β}
    (ended : first >>= next = .ok result) :
    ∃ value, first = .ok value ∧ next value = .ok result := by
  cases first with
  | ok value => exact ⟨value, rfl, ended⟩
  | error error => cases ended

/-- A computation goes on with the value of one that has ended well. -/
theorem ok_bind {ε α β : Type} (value : α) (next : α → Except ε β) :
    (Except.ok value >>= next) = next value := rfl

/-- A computation that goes on with the value of another one ends well exactly when both do. -/
theorem bind_eq_ok_iff {ε α β : Type} {first : Except ε α} {next : α → Except ε β} {result : β} :
    first >>= next = .ok result ↔ ∃ value, first = .ok value ∧ next value = .ok result := by
  refine ⟨exists_of_bind_eq_ok, ?_⟩
  rintro ⟨value, rfl, ended⟩
  exact ended

/-! ## Trees of words -/

/-- Whether all words of a tree are words. -/
inductive SExpr.Worded : SExpr → Prop
  /-- A word. -/
  | atom {text : String} (isWord : IsWord text) : Worded (.atom text)
  /-- A string literal. -/
  | str (content : String) : Worded (.str content)
  /-- A list. -/
  | list {items : List SExpr} (each : ∀ item ∈ items, Worded item) : Worded (.list items)

namespace SExpr

/-- The parts of a list of words have words only. -/
theorem Worded.items {items : List SExpr} (worded : (SExpr.list items).Worded) :
    ∀ item ∈ items, item.Worded := by
  cases worded with
  | list each => exact each

/-- Quote marks bring in words only. -/
theorem Worded.quotedTimes {tree : SExpr} (worded : tree.Worded) (marks : Nat) :
    (tree.quotedTimes marks).Worded := by
  induction marks generalizing tree with
  | zero => exact worded
  | succ marks ih =>
      refine ih (.list (List.forall_mem_cons.2 ⟨.atom (by decide), ?_⟩))
      exact List.forall_mem_singleton.2 worded

end SExpr

namespace Reader

/-- Whether all words of the trees in a level are words. -/
def Level.Worded (level : Level) : Prop :=
  ∀ tree ∈ level.reversed, tree.Worded

/-- A tree of words may be added. -/
theorem Level.Worded.push {level : Level} (worded : level.Worded) {tree : SExpr}
    (wordedTree : tree.Worded) : (level.push tree).Worded :=
  List.forall_mem_cons.2 ⟨wordedTree.quotedTimes level.marks, worded⟩

/-- What holds of the reader after any tokens. -/
structure Sound (reader : Reader) : Prop where
  /-- The innermost list has words only. -/
  level : reader.level.Worded
  /-- So have the lists around it. -/
  enclosing : ∀ entry ∈ reader.enclosing, entry.2.Worded

/-- Reading one token. -/
theorem Sound.step {reader next : Reader} (sound : reader.Sound) {token : Token}
    (worded : token.kind.Worded) (read : reader.step token = .ok next) : next.Sound := by
  rw [Reader.step] at read
  cases kind : token.kind with
  | atom text =>
      rw [kind] at read worded
      obtain rfl := Except.ok.inj read
      exact ⟨sound.level.push (.atom worded), sound.enclosing⟩
  | str content =>
      rw [kind] at read
      obtain rfl := Except.ok.inj read
      exact ⟨sound.level.push (.str content), sound.enclosing⟩
  | quoteMark =>
      rw [kind] at read
      obtain rfl := Except.ok.inj read
      exact ⟨sound.level, sound.enclosing⟩
  -- A bracket opens a level with nothing in it.
  | opening =>
      simp only [kind] at read
      split at read
      · cases read
      · obtain rfl := Except.ok.inj read
        exact ⟨by simp [Level.Worded, Level.empty],
          List.forall_mem_cons.2 ⟨sound.level, sound.enclosing⟩⟩
  -- A closing bracket pushes the list of its level on the level around it.
  | closing =>
      simp only [kind] at read
      split at read
      · cases read
      split at read
      · cases read
      · rename_i outer enclosing same
        obtain rfl := Except.ok.inj read
        have around := sound.enclosing
        rw [same, List.forall_mem_cons] at around
        refine ⟨around.1.push (.list fun item member => ?_), around.2⟩
        exact sound.level item (List.mem_reverse.1 member)
  | unterminated =>
      rw [kind] at read
      cases read

/-- Reading tokens. -/
theorem Sound.foldlM {reader last : Reader} (sound : reader.Sound) {tokens : List Token}
    (worded : ∀ token ∈ tokens, token.kind.Worded)
    (read : tokens.foldlM Reader.step reader = .ok last) : last.Sound := by
  induction tokens generalizing reader with
  | nil => exact Except.ok.inj read ▸ sound
  | cons token tokens ih =>
      rw [List.forall_mem_cons] at worded
      rw [List.foldlM_cons] at read
      obtain ⟨next, first, others⟩ := exists_of_bind_eq_ok read
      exact ih (sound.step worded.1 first) worded.2 others

end Reader

/-- The trees that are read have words only. -/
theorem SExpr.worded_of_ofText {source : String} {trees : List SExpr}
    (read : SExpr.ofText source = .ok trees) : ∀ tree ∈ trees, tree.Worded := by
  obtain ⟨last, tokens, finished⟩ := exists_of_bind_eq_ok (ofText_eq_ok_iff.1 read).2
  have initial : Reader.initial.Sound :=
    ⟨by simp [Reader.initial, Reader.Level.Worded, Reader.Level.empty], by simp [Reader.initial]⟩
  have sound := initial.foldlM (fun token member => Token.worded_of_mem_ofText member) tokens
  rw [Reader.finish] at finished
  split at finished
  · cases finished
  split at finished
  · obtain rfl := Except.ok.inj finished
    intro tree member
    exact sound.level tree (List.mem_reverse.1 member)
  · cases finished

/-! ## Legible data -/

/-- Data without procedures, in which no pair starts with a dot and every symbol reads as itself. -/
inductive Value.Legible : Value → Prop
  /-- A number. -/
  | number (value : Float) : Legible (.number value)
  /-- A truth value. -/
  | bool (value : Bool) : Legible (.bool value)
  /-- A string. -/
  | string (value : String) : Legible (.string value)
  /-- A symbol. -/
  | symbol {name : String} (isWord : IsWord name) (isName : Value.ofWord name = .symbol name) :
      Legible (.symbol name)
  /-- The empty list. -/
  | nil : Legible .nil
  /-- A pair. -/
  | cons {car cdr : Value} (noDot : car ≠ .symbol ".") (first : Legible car) (second : Legible cdr) :
      Legible (.cons car cdr)

namespace Value

/-- A word denotes legible data. -/
theorem legible_ofWord {word : String} (isWord : IsWord word) : (ofWord word).Legible := by
  unfold ofWord
  split
  · exact .bool true
  split
  · exact .bool false
  rename_i notTrue notFalse
  cases number : numberOfWord? word with
  | some value => exact .number value
  | none => exact .symbol isWord (by rw [ofWord, if_neg notTrue, if_neg notFalse, number])

/-- Only a dot denotes the symbol that consists of a dot. -/
theorem eq_dot_of_ofWord {word : String} (symbol : ofWord word = .symbol ".") : word = "." := by
  unfold ofWord at symbol
  split at symbol
  · cases symbol
  split at symbol
  · cases symbol
  split at symbol
  · cases symbol
  · exact Value.symbol.inj symbol

/-- Whether the first dot in a list, if there is one, stands before the last part. -/
def DotBeforeLast (items : List SExpr) : Prop :=
  ∀ position, items.findIdx? SExpr.isDot = some position → position + 2 = items.length

/-- A list that starts with a dot has one part more. -/
theorem DotBeforeLast.exists_last {item : SExpr} {items : List SExpr}
    (dots : DotBeforeLast (item :: items)) (dot : item.isDot = true) : ∃ last, items = [last] := by
  have length := dots 0 (by rw [List.findIdx?_cons, dot]; rfl)
  rw [List.length_cons] at length
  exact List.length_eq_one_iff.1 (by omega)

/-- The first dot stays where it is when a part that is none is left out. -/
theorem DotBeforeLast.tail {item : SExpr} {items : List SExpr}
    (dots : DotBeforeLast (item :: items)) (notDot : item.isDot = false) : DotBeforeLast items := by
  intro position found
  have length := dots (position + 1) (by rw [List.findIdx?_cons, notDot, found]; rfl)
  rw [List.length_cons] at length
  omega

/-- A list without a misplaced dot starts with no dot, and its first dot stands before the last part. -/
theorem dotBeforeLast_of_misplacesDot {items : List SExpr} (placed : SExpr.misplacesDot items = false) :
    DotBeforeLast items ∧ ∀ item ∈ items.head?, item.isDot = false := by
  unfold SExpr.misplacesDot at placed
  constructor
  · intro position found
    rw [found] at placed
    simp only [Bool.not_eq_false', Bool.and_eq_true, beq_iff_eq] at placed
    exact placed.2
  · intro item first
    obtain ⟨others, rfl⟩ : ∃ others, items = item :: others := by
      cases items with
      | nil => cases first
      | cons head others => exact ⟨others, by rw [Option.some.inj first]⟩
    cases dot : item.isDot with
    | false => rfl
    | true =>
        rw [List.findIdx?_cons, dot] at placed
        cases placed

/-- A part that is no dot becomes the first component of a pair. -/
theorem chainOf_cons {item : SExpr} (notDot : item.isDot = false) (items : List SExpr) :
    chainOf (item :: items) = do
      let cdr ← chainOf items
      let car ← ofSExpr item
      return .cons car cdr := by
  rw [chainOf]
  intro last dot
  rw [dot] at notDot
  cases notDot

/-- A dot before the last part makes this part the end of the chain. -/
theorem chainOf_dot {item last : SExpr} (dot : item.isDot = true) :
    chainOf [item, last] = ofSExpr last := by
  cases item with
  | atom text =>
      obtain rfl : text = "." := by simpa [SExpr.isDot] using dot
      rw [chainOf]
  | str content => cases dot
  | list items => cases dot

/-- A list denotes the empty list or a pair. -/
theorem ofSExpr_list_ne_symbol {items : List SExpr} {name : String} :
    ofSExpr (.list items) ≠ .ok (.symbol name) := by
  intro symbol
  rw [ofSExpr] at symbol
  split at symbol
  · cases symbol
  rename_i placed
  obtain ⟨-, first⟩ := dotBeforeLast_of_misplacesDot (Bool.not_eq_true _ ▸ placed)
  cases items with
  | nil => cases symbol
  | cons item items =>
      rw [chainOf_cons (first item rfl)] at symbol
      obtain ⟨cdr, -, rest⟩ := exists_of_bind_eq_ok symbol
      obtain ⟨car, -, pair⟩ := exists_of_bind_eq_ok rest
      cases pair

/-- Only a dot denotes the symbol that consists of a dot. -/
theorem isDot_of_ofSExpr {tree : SExpr} (symbol : ofSExpr tree = .ok (.symbol ".")) :
    tree.isDot = true := by
  cases tree with
  | atom text =>
      have dot : text = "." := eq_dot_of_ofWord (Except.ok.inj symbol)
      rw [dot]
      rfl
  | str content => cases symbol
  | list items => exact absurd symbol ofSExpr_list_ne_symbol

/-- The parts of a list denote legible data if each of them does. -/
theorem legible_chainOf {items : List SExpr}
    (each : ∀ item ∈ items, ∀ value, ofSExpr item = .ok value → value.Legible)
    (dots : DotBeforeLast items) {value : Value} (denotes : chainOf items = .ok value) :
    value.Legible := by
  induction items generalizing value with
  | nil =>
      rw [chainOf] at denotes
      obtain rfl := Except.ok.inj denotes
      exact .nil
  | cons item items ih =>
      rw [List.forall_mem_cons] at each
      -- A dot makes the part after it the end of the chain; any other part is a component.
      cases dot : item.isDot with
      | true =>
          obtain ⟨last, rfl⟩ := dots.exists_last dot
          rw [chainOf_dot dot] at denotes
          exact each.2 last (List.mem_singleton_self last) value denotes
      | false =>
          rw [chainOf_cons dot] at denotes
          obtain ⟨cdr, second, rest⟩ := exists_of_bind_eq_ok denotes
          obtain ⟨car, first, pair⟩ := exists_of_bind_eq_ok rest
          obtain rfl := Except.ok.inj pair
          -- Only a dot denotes the symbol of a dot, and this part is none.
          refine .cons (fun symbol => ?_) (each.1 car first) (ih each.2 (dots.tail dot) second)
          rw [symbol] at first
          rw [isDot_of_ofSExpr first] at dot
          cases dot

/-- What a tree of words denotes as data is legible. -/
theorem legible_ofSExpr {tree : SExpr} (worded : tree.Worded) {value : Value}
    (denotes : ofSExpr tree = .ok value) : value.Legible := by
  induction worded generalizing value with
  | atom isWord =>
      obtain rfl := Except.ok.inj denotes
      exact legible_ofWord isWord
  | str content =>
      obtain rfl := Except.ok.inj denotes
      exact .string content
  | list each ih =>
      rw [ofSExpr] at denotes
      split at denotes
      · cases denotes
      rename_i placed
      obtain ⟨dots, -⟩ := dotBeforeLast_of_misplacesDot (Bool.not_eq_true _ ▸ placed)
      exact legible_chainOf (fun item member value => ih item member) dots denotes

end Value

/-! ## Legible expressions -/

/-- A name that may be declared and defined. -/
structure Bindable (name : String) : Prop where
  /-- It is a word. -/
  isWord : IsWord name
  /-- It is neither a truth value nor a dot nor a number. -/
  isIdentifier : isIdentifier name = true
  /-- It is no keyword of a primitive operator. -/
  notKeyword : Primitive.ofKeyword? name = none

/-- Expressions that obey the rules of the written language. -/
inductive Expr.Legible : Expr → Prop
  /-- A number. -/
  | num (value : Float) : Legible (.num value)
  /-- A truth value. -/
  | bool (value : Bool) : Legible (.bool value)
  /-- A string. -/
  | str (value : String) : Legible (.str value)
  /-- A reference, by a word that denotes no other expression. -/
  | var {name : String} (isWord : IsWord name) (isName : Expr.ofWord name = .var name) :
      Legible (.var name)
  /-- A quoted datum. -/
  | lit {value : Value} (data : value.Legible) : Legible (.lit value)
  /-- A primitive operator. -/
  | prim (op : Primitive) : Legible (.prim op)
  /-- A conditional. -/
  | cond {test consequent alternative : Expr} (inTest : Legible test)
      (inConsequent : Legible consequent) (inAlternative : Legible alternative) :
      Legible (.cond test consequent alternative)
  /-- A procedure. -/
  | lambda {params : List String} {body : List Expr} (bindable : ∀ name ∈ params, Bindable name)
      (distinct : params.Nodup) (nonempty : body ≠ []) (inBody : ∀ form ∈ body, Legible form) :
      Legible (.lambda params body)
  /-- An application, the operator of which is no word for a special form. -/
  | app {operator : Expr} {operands : List Expr}
      (plain : ∀ name, operator = .var name → SpecialForm.ofWord? name = none)
      (inOperator : Legible operator) (inOperands : ∀ operand ∈ operands, Legible operand) :
      Legible (.app operator operands)
  /-- Local bindings. -/
  | letIn {bindings : List (String × Expr)} {body : List Expr}
      (bindable : ∀ binding ∈ bindings, Bindable binding.1)
      (distinct : (bindings.map Prod.fst).Nodup)
      (inBindings : ∀ binding ∈ bindings, Legible binding.2) (nonempty : body ≠ [])
      (inBody : ∀ form ∈ body, Legible form) : Legible (.letIn bindings body)

/-- Top-level forms that obey the rules of the written language. -/
inductive Expr.LegibleForm : Expr → Prop
  /-- A definition. -/
  | define {name : String} {value : Expr} (bindable : Bindable name) (inValue : value.Legible) :
      LegibleForm (.define name value)
  /-- An expression. -/
  | expr {expr : Expr} (legible : expr.Legible) : LegibleForm expr

/-- The word that a tree declares, after the given names. -/
theorem bindable_of_declare {seen : List String} {tree : SExpr} (worded : tree.Worded) {name : String}
    (declares : declare seen tree = .ok name) : Bindable name ∧ name ∉ seen := by
  cases worded with
  | atom isWord =>
      rename_i text
      rw [declare] at declares
      split at declares
      · rename_i identifier
        obtain ⟨bound, notKeyword, rest⟩ := exists_of_bind_eq_ok declares
        rw [bindable] at notKeyword
        split at notKeyword
        · cases notKeyword
        rename_i none
        obtain rfl := Except.ok.inj notKeyword
        split at rest
        · cases rest
        rename_i new
        obtain rfl := Except.ok.inj rest
        exact ⟨⟨isWord, identifier, none⟩, new⟩
      · cases declares
  | str content => cases declares
  | list each => cases declares

/-- The words that a list declares, after the given names. -/
theorem bindable_of_declareAll {seen : List String} {trees : List SExpr}
    (worded : ∀ tree ∈ trees, tree.Worded) {names : List String}
    (declares : declareAll seen trees = .ok names) :
    (∀ name ∈ names, Bindable name) ∧ names.Nodup ∧ ∀ name ∈ names, name ∉ seen := by
  induction trees generalizing seen names with
  | nil =>
      obtain rfl := Except.ok.inj declares
      simp
  | cons tree trees ih =>
      rw [List.forall_mem_cons] at worded
      rw [declareAll] at declares
      obtain ⟨name, first, rest⟩ := exists_of_bind_eq_ok declares
      obtain ⟨others, second, whole⟩ := exists_of_bind_eq_ok rest
      obtain rfl := Except.ok.inj whole
      obtain ⟨bindable, new⟩ := bindable_of_declare worded.1 first
      obtain ⟨bindables, distinct, apart⟩ := ih worded.2 second
      simp only [List.mem_cons, not_or] at apart
      -- The later names were declared with the first one already seen.
      refine ⟨List.forall_mem_cons.2 ⟨bindable, bindables⟩,
        List.nodup_cons.2 ⟨fun member => (apart name member).1 rfl, distinct⟩,
        List.forall_mem_cons.2 ⟨new, fun other member => (apart other member).2⟩⟩

namespace Expr

/-- A word denotes a legible expression. -/
theorem legible_ofWord {word : String} (isWord : IsWord word) : (ofWord word).Legible := by
  unfold ofWord
  split
  · exact .bool true
  split
  · exact .bool false
  rename_i notTrue notFalse
  cases number : numberOfWord? word with
  | some value => exact .num value
  | none =>
      cases keyword : Primitive.ofKeyword? word with
      | some op => exact .prim op
      | none => exact .var isWord (by rw [ofWord, if_neg notTrue, if_neg notFalse, number, keyword])

/-- Only the word itself denotes a reference. -/
theorem eq_of_ofWord_eq_var {word name : String} (denotes : ofWord word = .var name) :
    word = name := by
  unfold ofWord at denotes
  split at denotes
  · cases denotes
  split at denotes
  · cases denotes
  split at denotes
  · cases denotes
  split at denotes
  · cases denotes
  · exact Expr.var.inj denotes

/-- Only the word itself denotes a reference: a list denotes something else. -/
theorem eq_atom_of_ofSExpr_eq_var {tree : SExpr} {name : String}
    (denotes : ofSExpr tree = .ok (.var name)) : tree = .atom name := by
  cases tree with
  | atom text => rw [eq_of_ofWord_eq_var (Except.ok.inj denotes)]
  | str content => cases denotes
  | list items =>
      cases items with
      | nil => cases denotes
      | cons head parts =>
          -- Every form of a list has a constructor of its own, and none is a reference.
          rw [ofSExpr, ofList] at denotes
          split at denotes
          · cases denotes
          · unfold ofLambda at denotes
            split at denotes
            · obtain ⟨_, -, rest⟩ := exists_of_bind_eq_ok denotes
              obtain ⟨_, -, whole⟩ := exists_of_bind_eq_ok rest
              cases whole
            · cases denotes
          · unfold ofCond at denotes
            split at denotes
            · obtain ⟨_, -, rest⟩ := exists_of_bind_eq_ok denotes
              obtain ⟨_, -, rest⟩ := exists_of_bind_eq_ok rest
              obtain ⟨_, -, whole⟩ := exists_of_bind_eq_ok rest
              cases whole
            · cases denotes
          · unfold ofLet at denotes
            split at denotes
            · obtain ⟨_, -, rest⟩ := exists_of_bind_eq_ok denotes
              obtain ⟨_, -, whole⟩ := exists_of_bind_eq_ok rest
              cases whole
            · cases denotes
          · unfold ofQuote at denotes
            split at denotes
            · obtain ⟨_, -, whole⟩ := exists_of_bind_eq_ok denotes
              cases whole
            · cases denotes
          · obtain ⟨_, -, rest⟩ := exists_of_bind_eq_ok denotes
            obtain ⟨_, -, whole⟩ := exists_of_bind_eq_ok rest
            cases whole

mutual

/-- What a tree of words denotes is legible. -/
theorem legible_ofSExpr : ∀ {tree : SExpr}, tree.Worded → ∀ {expr : Expr},
    ofSExpr tree = .ok expr → expr.Legible
  | .atom _, .atom isWord, _, denotes => by
      obtain rfl := Except.ok.inj denotes
      exact legible_ofWord isWord
  | .str content, _, _, denotes => by
      obtain rfl := Except.ok.inj denotes
      exact .str content
  | .list items, .list each, _, denotes => legible_ofList each denotes

/-- What a list of trees of words denotes is legible. -/
theorem legible_ofList : ∀ {items : List SExpr}, (∀ item ∈ items, item.Worded) → ∀ {expr : Expr},
    ofList items = .ok expr → expr.Legible
  | [], _, _, denotes => by cases denotes
  | head :: parts, worded, _, denotes => by
      rw [List.forall_mem_cons] at worded
      rw [ofList] at denotes
      split at denotes
      · cases denotes
      · exact legible_ofLambda worded.2 denotes
      · exact legible_ofCond worded.2 denotes
      · exact legible_ofLet worded.2 denotes
      · exact legible_ofQuote worded.2 denotes
      -- An application: its operator is no word for a special form, or it would be that form.
      · rename_i noForm
        obtain ⟨operator, first, rest⟩ := exists_of_bind_eq_ok denotes
        obtain ⟨operands, others, whole⟩ := exists_of_bind_eq_ok rest
        obtain rfl := Except.ok.inj whole
        refine .app (fun name same => ?_) (legible_ofSExpr worded.1 first)
          (legible_ofAll worded.2 others)
        rw [same] at first
        rw [eq_atom_of_ofSExpr_eq_var first] at noForm
        exact noForm

/-- The procedure of parts that are trees of words is legible. -/
theorem legible_ofLambda : ∀ {parts : List SExpr}, (∀ part ∈ parts, part.Worded) → ∀ {expr : Expr},
    ofLambda parts = .ok expr → expr.Legible
  | .list params :: body, worded, _, denotes => by
      rw [List.forall_mem_cons] at worded
      obtain ⟨names, declares, rest⟩ := exists_of_bind_eq_ok denotes
      obtain ⟨forms, inBody, whole⟩ := exists_of_bind_eq_ok rest
      obtain rfl := Except.ok.inj whole
      obtain ⟨bindable, distinct, -⟩ := bindable_of_declareAll worded.1.items declares
      obtain ⟨nonempty, legible⟩ := legible_ofBody worded.2 inBody
      exact .lambda bindable distinct nonempty legible
  | [], _, _, denotes => by cases denotes
  | .atom _ :: _, _, _, denotes => by cases denotes
  | .str _ :: _, _, _, denotes => by cases denotes

/-- The conditional of parts that are trees of words is legible. -/
theorem legible_ofCond : ∀ {parts : List SExpr}, (∀ part ∈ parts, part.Worded) → ∀ {expr : Expr},
    ofCond parts = .ok expr → expr.Legible
  | [first, second, third], worded, _, denotes => by
      simp only [List.forall_mem_cons] at worded
      obtain ⟨test, inTest, rest⟩ := exists_of_bind_eq_ok denotes
      obtain ⟨consequent, inConsequent, rest⟩ := exists_of_bind_eq_ok rest
      obtain ⟨alternative, inAlternative, whole⟩ := exists_of_bind_eq_ok rest
      obtain rfl := Except.ok.inj whole
      exact .cond (legible_ofSExpr worded.1 inTest) (legible_ofSExpr worded.2.1 inConsequent)
        (legible_ofSExpr worded.2.2.1 inAlternative)
  | [], _, _, denotes => by cases denotes
  | [_], _, _, denotes => by cases denotes
  | [_, _], _, _, denotes => by cases denotes
  | _ :: _ :: _ :: _ :: _, _, _, denotes => by cases denotes

/-- The local bindings of parts that are trees of words are legible. -/
theorem legible_ofLet : ∀ {parts : List SExpr}, (∀ part ∈ parts, part.Worded) → ∀ {expr : Expr},
    ofLet parts = .ok expr → expr.Legible
  | .list bindings :: body, worded, _, denotes => by
      rw [List.forall_mem_cons] at worded
      obtain ⟨pairs, binds, rest⟩ := exists_of_bind_eq_ok denotes
      obtain ⟨forms, inBody, whole⟩ := exists_of_bind_eq_ok rest
      obtain rfl := Except.ok.inj whole
      obtain ⟨bindable, distinct, -, inBindings⟩ := legible_ofBindings worded.1.items binds
      obtain ⟨nonempty, legible⟩ := legible_ofBody worded.2 inBody
      exact .letIn bindable distinct inBindings nonempty legible
  | [], _, _, denotes => by cases denotes
  | .atom _ :: _, _, _, denotes => by cases denotes
  | .str _ :: _, _, _, denotes => by cases denotes

/-- The quotation of a tree of words is legible. -/
theorem legible_ofQuote : ∀ {parts : List SExpr}, (∀ part ∈ parts, part.Worded) → ∀ {expr : Expr},
    ofQuote parts = .ok expr → expr.Legible
  | [datum], worded, _, denotes => by
      obtain ⟨value, data, whole⟩ := exists_of_bind_eq_ok denotes
      obtain rfl := Except.ok.inj whole
      exact .lit (Value.legible_ofSExpr (worded datum (List.mem_singleton_self datum)) data)
  | [], _, _, denotes => by cases denotes
  | _ :: _ :: _, _, _, denotes => by cases denotes

/-- The bindings that trees of words denote have distinct names and legible expressions. -/
theorem legible_ofBindings : ∀ {trees : List SExpr}, (∀ tree ∈ trees, tree.Worded) →
    ∀ {seen : List String} {bindings : List (String × Expr)}, ofBindings seen trees = .ok bindings →
      (∀ binding ∈ bindings, Bindable binding.1) ∧ (bindings.map Prod.fst).Nodup ∧
        (∀ binding ∈ bindings, binding.1 ∉ seen) ∧ ∀ binding ∈ bindings, binding.2.Legible
  | [], _, _, _, denotes => by
      obtain rfl := Except.ok.inj denotes
      simp
  | .list [target, value] :: trees, worded, seen, _, denotes => by
      rw [List.forall_mem_cons] at worded
      have wordedPair := worded.1.items
      simp only [List.forall_mem_cons] at wordedPair
      obtain ⟨name, declares, rest⟩ := exists_of_bind_eq_ok denotes
      obtain ⟨expr, bound, rest⟩ := exists_of_bind_eq_ok rest
      obtain ⟨others, more, whole⟩ := exists_of_bind_eq_ok rest
      obtain rfl := Except.ok.inj whole
      obtain ⟨bindable, new⟩ := bindable_of_declare wordedPair.1 declares
      obtain ⟨bindables, distinct, apart, legible⟩ := legible_ofBindings worded.2 more
      simp only [List.mem_cons, not_or] at apart
      refine ⟨List.forall_mem_cons.2 ⟨bindable, bindables⟩, List.nodup_cons.2 ⟨?_, distinct⟩,
        List.forall_mem_cons.2 ⟨new, fun other member => (apart other member).2⟩,
        List.forall_mem_cons.2 ⟨legible_ofSExpr wordedPair.2.1 bound, legible⟩⟩
      intro member
      obtain ⟨other, known, same⟩ := List.mem_map.1 member
      exact (apart other known).1 same
  | .atom _ :: _, _, _, _, denotes => by cases denotes
  | .str _ :: _, _, _, _, denotes => by cases denotes
  | .list [] :: _, _, _, _, denotes => by cases denotes
  | .list [_] :: _, _, _, _, denotes => by cases denotes
  | .list (_ :: _ :: _ :: _) :: _, _, _, _, denotes => by cases denotes

/-- The body that trees of words denote is legible and not empty. -/
theorem legible_ofBody : ∀ {trees : List SExpr}, (∀ tree ∈ trees, tree.Worded) →
    ∀ {form : BodyForm} {exprs : List Expr}, ofBody form trees = .ok exprs →
      exprs ≠ [] ∧ ∀ expr ∈ exprs, expr.Legible
  | [], _, _, _, denotes => by cases denotes
  | tree :: trees, worded, _, _, denotes => by
      rw [List.forall_mem_cons] at worded
      obtain ⟨first, inFirst, rest⟩ := exists_of_bind_eq_ok denotes
      obtain ⟨others, inOthers, whole⟩ := exists_of_bind_eq_ok rest
      obtain rfl := Except.ok.inj whole
      exact ⟨List.cons_ne_nil first others, List.forall_mem_cons.2
        ⟨legible_ofSExpr worded.1 inFirst, legible_ofAll worded.2 inOthers⟩⟩

/-- The expressions that trees of words denote are legible. -/
theorem legible_ofAll : ∀ {trees : List SExpr}, (∀ tree ∈ trees, tree.Worded) →
    ∀ {exprs : List Expr}, ofAll trees = .ok exprs → ∀ expr ∈ exprs, expr.Legible
  | [], _, _, denotes => by
      obtain rfl := Except.ok.inj denotes
      simp
  | tree :: trees, worded, _, denotes => by
      rw [List.forall_mem_cons] at worded
      obtain ⟨first, inFirst, rest⟩ := exists_of_bind_eq_ok denotes
      obtain ⟨others, inOthers, whole⟩ := exists_of_bind_eq_ok rest
      obtain rfl := Except.ok.inj whole
      exact List.forall_mem_cons.2
        ⟨legible_ofSExpr worded.1 inFirst, legible_ofAll worded.2 inOthers⟩

end

/-- A definition of parts that are trees of words is legible. -/
theorem legible_ofDefine {parts : List SExpr} (worded : ∀ part ∈ parts, part.Worded) {expr : Expr}
    (denotes : ofDefine parts = .ok expr) : expr.LegibleForm := by
  unfold ofDefine at denotes
  split at denotes
  · cases denotes
  · cases denotes
  · rename_i name value
    simp only [List.forall_mem_cons] at worded
    split at denotes
    · rename_i identifier
      obtain ⟨target, notKeyword, rest⟩ := exists_of_bind_eq_ok denotes
      obtain ⟨result, inValue, whole⟩ := exists_of_bind_eq_ok rest
      obtain rfl := Except.ok.inj whole
      rw [bindable] at notKeyword
      split at notKeyword
      · cases notKeyword
      rename_i none
      obtain rfl := Except.ok.inj notKeyword
      cases worded.1 with
      | atom isWord =>
          exact .define ⟨isWord, identifier, none⟩ (legible_ofSExpr worded.2.1 inValue)
    · cases denotes
  · cases denotes
  · cases denotes

/-- A top-level form that a tree of words denotes is legible. -/
theorem legible_ofTopLevel {tree : SExpr} (worded : tree.Worded) {expr : Expr}
    (denotes : ofTopLevel tree = .ok expr) : expr.LegibleForm := by
  unfold ofTopLevel at denotes
  split at denotes
  · split at denotes
    · exact legible_ofDefine (List.forall_mem_cons.1 worded.items).2 denotes
    · exact .expr (legible_ofSExpr worded denotes)
  · exact .expr (legible_ofSExpr worded denotes)

end Expr

/-- What holds of the results of all items holds of the list of results. -/
theorem forall_of_mapM_eq_ok {ε α β : Type} {convert : α → Except ε β} {items : List α}
    {results : List β} {holds : β → Prop}
    (each : ∀ item ∈ items, ∀ result, convert item = .ok result → holds result)
    (ended : items.mapM convert = .ok results) :
    results.length = items.length ∧ ∀ result ∈ results, holds result := by
  induction items generalizing results with
  | nil =>
      obtain rfl := Except.ok.inj ended
      exact ⟨rfl, by simp⟩
  | cons item items ih =>
      rw [List.forall_mem_cons] at each
      rw [List.mapM_cons] at ended
      obtain ⟨first, here, rest⟩ := exists_of_bind_eq_ok ended
      obtain ⟨others, there, whole⟩ := exists_of_bind_eq_ok rest
      obtain rfl := Except.ok.inj whole
      obtain ⟨sameLength, all⟩ := ih each.2 there
      exact ⟨congrArg (· + 1) sameLength, List.forall_mem_cons.2 ⟨each.1 first here, all⟩⟩

/-- If it is known of each item when it is converted, and to what, then so of a list. -/
theorem mapM_eq_ok_iff {ε α β : Type} {convert : α → Except ε β} {converts : α → Prop} {result : α → β}
    {items : List α} {results : List β}
    (each : ∀ item ∈ items, ∀ converted, convert item = .ok converted ↔
      converts item ∧ result item = converted) :
    items.mapM convert = .ok results ↔ (∀ item ∈ items, converts item) ∧ items.map result = results := by
  induction items generalizing results with
  | nil => simp [pure, Except.pure]
  | cons item items ih =>
      rw [List.forall_mem_cons] at each
      rw [List.mapM_cons, bind_eq_ok_iff, List.forall_mem_cons, List.map_cons]
      simp only [each.1, bind_eq_ok_iff, ih each.2]
      constructor
      · rintro ⟨_, ⟨first, rfl⟩, _, ⟨others, rfl⟩, same⟩
        exact ⟨⟨first, others⟩, Except.ok.inj same⟩
      · rintro ⟨⟨first, others⟩, rfl⟩
        exact ⟨_, ⟨first, rfl⟩, _, ⟨others, rfl⟩, rfl⟩

/-- Items that are converted one by one are converted as a list. -/
theorem mapM_eq_pure_map {m : Type → Type} [Monad m] [LawfulMonad m] {α β : Type} {convert : α → m β}
    {items : List α} {result : α → β} (each : ∀ item ∈ items, convert item = pure (result item)) :
    items.mapM convert = pure (items.map result) := by
  induction items with
  | nil => exact List.mapM_nil
  | cons item items ih =>
      rw [List.forall_mem_cons] at each
      rw [List.mapM_cons, each.1, ih each.2, pure_bind, pure_bind, List.map_cons]

/-- Another error in place of each changes nothing where there is none. -/
theorem mapError_eq_ok_iff {ε δ α : Type} {other : ε → δ} {computed : Except ε α} {result : α} :
    computed.mapError other = .ok result ↔ computed = .ok result := by
  cases computed with
  | error error => exact iff_of_false nofun nofun
  | ok value =>
      constructor
      · rintro ⟨⟩
        rfl
      · rintro ⟨⟩
        rfl

/-- A source text is parsed exactly when it is read as trees, of which there is one at least, and each of them
denotes a form. -/
theorem Program.parse_eq_ok_iff {source : String} {program : Program} :
    Program.parse source = .ok program ↔ ∃ trees, SExpr.ofText source = .ok trees ∧ trees ≠ [] ∧
      trees.mapM Expr.ofTopLevel = .ok program.forms := by
  rw [parse, bind_eq_ok_iff]
  refine exists_congr fun trees => ?_
  rw [SExpr.parse, mapError_eq_ok_iff, mapError_eq_ok_iff, ofSExprs]
  refine and_congr_right fun _ => ?_
  by_cases empty : trees = []
  · rw [if_pos (List.isEmpty_iff.2 empty)]
    constructor
    · rintro ⟨⟩
    · rintro ⟨nonempty, -⟩
      exact absurd empty nonempty
  · rw [if_neg fun isEmpty => empty (List.isEmpty_iff.1 isEmpty), bind_eq_ok_iff]
    constructor
    · rintro ⟨forms, converted, whole⟩
      obtain rfl := Except.ok.inj whole
      exact ⟨empty, converted⟩
    · rintro ⟨-, converted⟩
      exact ⟨program.forms, converted, rfl⟩

/-- Programs of forms that obey the rules of the written language. -/
structure Program.Legible (program : Program) : Prop where
  /-- There is a form. -/
  nonempty : program.forms ≠ []
  /-- Each form obeys the rules. -/
  forms : ∀ form ∈ program.forms, form.LegibleForm

/-- A program that is parsed is legible. -/
theorem Program.legible_of_parse {source : String} {program : Program}
    (parsed : Program.parse source = .ok program) : program.Legible := by
  obtain ⟨trees, read, nonempty, converted⟩ := parse_eq_ok_iff.1 parsed
  have worded := SExpr.worded_of_ofText read
  obtain ⟨sameLength, legible⟩ := forall_of_mapM_eq_ok
    (fun tree member expr => Expr.legible_ofTopLevel (worded tree member)) converted
  -- There are as many forms as trees, and there is a tree.
  refine ⟨fun empty => nonempty ?_, legible⟩
  rw [← List.length_eq_zero_iff, ← sameLength]
  exact congrArg List.length empty

end MiniScheme
