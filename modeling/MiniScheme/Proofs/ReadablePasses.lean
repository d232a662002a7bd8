import MiniScheme.Proofs.AddressedViews
import MiniScheme.Proofs.LetElimination
import MiniScheme.Proofs.ProgramText
import MiniScheme.Proofs.RenamedAddresses

/-! # Passes keep programs readable

Replacing local bindings and renaming declared names lead from legible programs to legible programs: a
generated name is a word with an underscore in it, which is no number, no truth value, no keyword and no word
for a special form, whatever word it is made from. Neither changes a number. So after any passes over a
parsed program the text is parsed again, as the program that the passes have made, within the limits of the
reader. A pass keeps the number of declarations, so that the names it draws and mentions can be counted. -/

namespace MiniScheme

/-! ## Numbered names -/

/-- A numbered name is no numeral: no numeral has an underscore. -/
theorem numberOfWord?_numberedName (base : String) (number : Nat) :
    numberOfWord? (numberedName base number) = none :=
  numberOfWord?_eq_none_of_underscore (underscore_mem_numberedName base number)

/-- A word with a number is a word. -/
theorem isWord_numberedName {base : String} (isWord : IsWord base) (number : Nat) :
    IsWord (numberedName base number) := by
  obtain ⟨nonempty, inBase⟩ := isWord
  rw [IsWord, toList_numberedName]
  refine ⟨by simp [nonempty], ?_⟩
  intro c member
  rcases List.mem_append.1 member with member | digit
  · rcases List.mem_append.1 member with base | underscore
    · exact inBase c base
    · simp only [List.mem_cons, List.not_mem_nil, or_false, or_self] at underscore
      rw [underscore]
      decide
  · exact isDelimiter_of_isDigit (Nat.isDigit_of_mem_toDigits (by omega) (by omega) digit)

/-- A numbered name may be declared wherever its base is a word. -/
theorem bindable_numberedName {base : String} (isWord : IsWord base) (number : Nat) :
    Bindable (numberedName base number) where
  isWord := isWord_numberedName isWord number
  isIdentifier := by
    have notTrue : numberedName base number ≠ "#t" := numberedName_ne (by decide)
    have notFalse : numberedName base number ≠ "#f" := numberedName_ne (by decide)
    have notDot : numberedName base number ≠ "." := numberedName_ne (by decide)
    simp [isIdentifier, notTrue, notFalse, notDot, numberOfWord?_numberedName]
  notKeyword := Primitive.ofKeyword?_numberedName base number

/-- A numbered name is no word for a special form. -/
theorem SpecialForm.ofWord?_numberedName (base : String) (number : Nat) :
    ofWord? (numberedName base number) = none := by
  have ne {word : String} (without : '_' ∉ word.toList) : numberedName base number ≠ word :=
    numberedName_ne without
  rw [ofWord?, if_neg (ne (by decide)), if_neg (ne (by decide)), if_neg (ne (by decide)),
    if_neg (ne (by decide)), if_neg (ne (by decide))]

namespace Expr

/-- A name that may be declared denotes a reference. -/
theorem ofWord_of_bindable {name : String} (bindable : Bindable name) : ofWord name = .var name := by
  have identifier := bindable.isIdentifier
  simp only [isIdentifier, Bool.and_eq_true, bne_iff_ne, ne_eq, Option.isNone_iff_eq_none] at identifier
  obtain ⟨⟨⟨notTrue, notFalse⟩, -⟩, noNumber⟩ := identifier
  rw [ofWord, if_neg notTrue, if_neg notFalse, noNumber, bindable.notKeyword]

/-! ## References in place of references -/

/-- Names that may be declared and may stand first in a list. -/
structure Referable (name : String) : Prop where
  /-- The name may be declared. -/
  bindable : Bindable name
  /-- The name is no word for a special form. -/
  notForm : SpecialForm.ofWord? name = none

/-- A numbered name is referable if its base is a word. -/
theorem referable_numberedName {base : String} (isWord : IsWord base) (number : Nat) :
    Referable (numberedName base number) :=
  ⟨bindable_numberedName isWord number, SpecialForm.ofWord?_numberedName base number⟩

/-- Whether a substitution replaces names by referable names. -/
def RefersOnly (substitution : Substitution) : Prop :=
  ∀ entry ∈ substitution, ∃ name, entry.2 = .var name ∧ Referable name

/-- Where some names are left alone, the others are still replaced by referable names. -/
theorem RefersOnly.without {substitution : Substitution} (refers : RefersOnly substitution)
    (names : List String) : RefersOnly (substitution.without names) := by
  intro entry kept
  exact refers entry (Substitution.mem_of_mem_without kept)

/-- What becomes of a reference is the reference itself or a referable name. -/
theorem RefersOnly.apply {substitution : Substitution} (refers : RefersOnly substitution)
    (name : String) :
    ∃ result, substitution.apply name = .var result ∧ (result = name ∨ Referable result) := by
  rw [Substitution.apply]
  cases found : substitution.lookup name with
  | none => exact ⟨name, rfl, .inl rfl⟩
  | some replacement =>
      obtain ⟨result, same, referable⟩ := refers _ (mem_of_lookup_eq_some found)
      exact ⟨result, same, .inr referable⟩

/-- An operator that is no word for a special form is still none when names are replaced. -/
theorem RefersOnly.plain {substitution : Substitution} (refers : RefersOnly substitution)
    {operator : Expr} (plain : ∀ name, operator = .var name → SpecialForm.ofWord? name = none) :
    ∀ name, operator.subst substitution = .var name → SpecialForm.ofWord? name = none := by
  intro name becomes
  -- Only a reference can become a reference; no other operator becomes a word.
  cases operator with
  | var old =>
      obtain ⟨result, same, kept | referable⟩ := refers.apply old
      · rw [subst, same, kept] at becomes
        exact plain name becomes
      · rw [subst, same] at becomes
        obtain rfl := Expr.var.inj becomes
        exact referable.notForm
  | _ => cases becomes

/-- Legible expressions stay legible when names are replaced by referable names. -/
theorem Legible.subst {expr : Expr} (legible : expr.Legible) {substitution : Substitution}
    (refers : RefersOnly substitution) : (expr.subst substitution).Legible := by
  induction legible generalizing substitution with
  | num value => exact .num value
  | bool value => exact .bool value
  | str value => exact .str value
  | @var name isWord isName =>
      obtain ⟨result, same, kept | referable⟩ := refers.apply name
      · rw [Expr.subst, same, kept]
        exact .var isWord isName
      · rw [Expr.subst, same]
        exact .var referable.bindable.isWord (ofWord_of_bindable referable.bindable)
  | lit data => exact .lit data
  | prim op => exact .prim op
  | cond _ _ _ ihTest ihConsequent ihAlternative =>
      exact .cond (ihTest refers) (ihConsequent refers) (ihAlternative refers)
  | lambda bindable distinct nonempty _ ihBody =>
      rw [Expr.subst, substAll_eq_map]
      refine .lambda bindable distinct (by simpa using nonempty) (List.forall_mem_map.2 ?_)
      intro form member
      exact ihBody form member (refers.without _)
  | app plain _ _ ihOperator ihOperands =>
      rw [Expr.subst, substAll_eq_map]
      refine .app (refers.plain plain) (ihOperator refers) (List.forall_mem_map.2 ?_)
      intro operand member
      exact ihOperands operand member refers
  | letIn bindable distinct _ nonempty _ ihBindings ihBody =>
      rw [Expr.subst, substAll_eq_map, substBindings_eq_map]
      refine .letIn (List.forall_mem_map.2 bindable) ?_ (List.forall_mem_map.2 ?_)
        (by simpa using nonempty) (List.forall_mem_map.2 ?_)
      · rwa [List.map_map]
      · intro binding member
        exact ihBindings binding member refers
      · intro form member
        exact ihBody form member (refers.without _)

/-! ## Renaming -/

/-- Whether renaming leads from an expression to legible ones, whatever supply the names come from. -/
abbrev RenamesLegible (expr : Expr) : Prop :=
  ∀ supply : NameSupply, ((rename expr).run supply).1.Legible

/-- A list that is not empty is not empty after renaming. -/
theorem renameAll_ne_nil {exprs : List Expr} (nonempty : exprs ≠ []) (supply : NameSupply) :
    ((renameAll exprs).run supply).1 ≠ [] := by
  rw [← List.length_pos_iff] at nonempty ⊢
  rwa [length_renameAll]

/-- New declarations of words are distinct names that may be declared, and the body stays legible. -/
theorem redeclare_legible {names : List String} {body : List Expr}
    (words : ∀ name ∈ names, IsWord name) (nonempty : body ≠ [])
    (legible : ∀ form ∈ body, form.Legible) (supply : NameSupply) :
    ((∀ name ∈ ((redeclare names body).run supply).1.1, Bindable name) ∧
      ((redeclare names body).run supply).1.1.Nodup) ∧
    ((redeclare names body).run supply).1.2 ≠ [] ∧
      ∀ form ∈ ((redeclare names body).run supply).1.2, form.Legible := by
  let fresh := ((names.mapM NameSupply.fresh).run supply).1
  have referable : ∀ name ∈ fresh, Referable name := by
    intro name drawn
    obtain ⟨base, member, number, rfl⟩ := NameSupply.exists_numberedName_of_mem_mapM_fresh drawn
    exact referable_numberedName (words base member) number
  have refers : RefersOnly (.ofLists names (fresh.map .var)) := by
    intro entry member
    obtain ⟨name, drawn, same⟩ := exists_var_of_mem_ofLists member
    exact ⟨name, same, referable name drawn⟩
  rw [run_redeclare]
  refine ⟨⟨?_, (NameSupply.draws_mapM_fresh names supply).nodup⟩, by simpa using nonempty, ?_⟩
  · intro name drawn
    exact (referable name drawn).bindable
  · intro form member
    obtain ⟨old, inBody, rfl⟩ := List.mem_map.1 member
    exact (legible old inBody).subst refers

/-- Renaming makes a reference of a reference only, and leaves it as it is. -/
theorem eq_var_of_rename {expr : Expr} {supply : NameSupply} {name : String}
    (becomes : ((rename expr).run supply).1 = .var name) : expr = .var name := by
  cases expr with
  | var other => exact becomes
  | letIn bindings body =>
      rw [rename] at becomes
      cases becomes
  | _ => cases becomes

/-- Legible expressions stay legible when they are renamed. -/
theorem Legible.rename {expr : Expr} (legible : expr.Legible) : expr.RenamesLegible := by
  induction legible with
  | num value => exact fun _ => .num value
  | bool value => exact fun _ => .bool value
  | str value => exact fun _ => .str value
  | var isWord isName => exact fun _ => .var isWord isName
  | lit data => exact fun _ => .lit data
  | prim op => exact fun _ => .prim op
  | cond _ _ _ ihTest ihConsequent ihAlternative =>
      intro supply
      exact .cond (ihTest supply) (ihConsequent _) (ihAlternative _)
  | lambda bindable _ nonempty _ ihBody =>
      intro supply
      have words name member := (bindable name member).isWord
      -- The forms are renamed first, so they are legible when the new parameters come in.
      obtain ⟨⟨bindable, distinct⟩, nonempty, inBody⟩ := redeclare_legible words
        (renameAll_ne_nil nonempty supply) (forall_mem_renameAll ihBody supply) _
      rw [Expr.rename]
      exact .lambda bindable distinct nonempty inBody
  | app plain _ _ ihOperator ihOperands =>
      intro supply
      rw [Expr.rename]
      refine .app ?_ (ihOperator supply) (forall_mem_renameAll ihOperands _)
      intro name becomes
      exact plain name (eq_var_of_rename becomes)
  | @letIn bindings body bindable _ _ nonempty _ ihBindings ihBody =>
      intro supply
      let values := (renameAll (bindings.map Prod.snd)).run supply
      let inner := (renameAll body).run values.2
      obtain ⟨run, sameLength⟩ := run_rename_letIn bindings body supply
      have words : ∀ name ∈ bindings.map Prod.fst, IsWord name :=
        List.forall_mem_map.2 fun binding member => (bindable binding member).isWord
      have inValues := forall_mem_renameAll (List.forall_mem_map.2 ihBindings) supply
      obtain ⟨⟨bindable, distinct⟩, nonempty, inBody⟩ := redeclare_legible words
        (renameAll_ne_nil nonempty values.2) (forall_mem_renameAll ihBody values.2) inner.2
      rw [run]
      refine .letIn ?_ ?_ ?_ nonempty inBody
      · intro binding member
        exact bindable binding.1 (List.of_mem_zip member).1
      · rwa [List.map_fst_zip (Nat.le_of_eq sameLength)]
      · intro binding member
        exact inValues binding.2 (List.of_mem_zip member).2

/-- Legible forms stay legible when they are renamed. -/
theorem LegibleForm.rename {form : Expr} (legible : form.LegibleForm) (supply : NameSupply) :
    ((Expr.rename form).run supply).1.LegibleForm := by
  cases legible with
  | define bindable inValue => exact .define bindable (inValue.rename supply)
  | expr legible => exact .expr (legible.rename supply)

/-! ## Applications in place of local bindings -/

/-- Legible expressions stay legible without their local bindings. -/
theorem Legible.eliminateLets {expr : Expr} (legible : expr.Legible) : expr.eliminateLets.Legible := by
  induction legible with
  | num value => exact .num value
  | bool value => exact .bool value
  | str value => exact .str value
  | var isWord isName => exact .var isWord isName
  | lit data => exact .lit data
  | prim op => exact .prim op
  | cond _ _ _ ihTest ihConsequent ihAlternative => exact .cond ihTest ihConsequent ihAlternative
  | lambda bindable distinct nonempty _ ihBody =>
      rw [Expr.eliminateLets, eliminateLetsAll_eq_map]
      exact .lambda bindable distinct (by simpa using nonempty) (List.forall_mem_map.2 ihBody)
  | @app operator operands plain _ _ ihOperator ihOperands =>
      rw [Expr.eliminateLets, eliminateLetsAll_eq_map]
      refine .app ?_ ihOperator (List.forall_mem_map.2 ihOperands)
      intro name becomes
      cases operator with
      | var other => exact plain name becomes
      | _ => cases becomes
  | letIn bindable distinct _ nonempty _ ihBindings ihBody =>
      rw [Expr.eliminateLets, eliminateLetsAll_eq_map, eliminateLetsBound_eq_map]
      have procedure := Legible.lambda (List.forall_mem_map.2 bindable) distinct
        (by simpa using nonempty) (List.forall_mem_map.2 ihBody)
      refine .app ?_ procedure (List.forall_mem_map.2 ihBindings)
      intro name becomes
      cases becomes

/-- Legible forms stay legible without their local bindings. -/
theorem LegibleForm.eliminateLets {form : Expr} (legible : form.LegibleForm) :
    form.eliminateLets.LegibleForm := by
  cases legible with
  | define bindable inValue => exact .define bindable inValue.eliminateLets
  | expr legible => exact .expr legible.eliminateLets

end Expr

/-! ## Numbers -/

namespace Nameless

mutual

/-- The numbers in a nameless tree. -/
def numbers : Nameless Value → List Float
  | .num value => [value]
  | .bool _ | .str _ | .ref _ | .prim _ => []
  | .lit value => value.numbers
  | .cond test consequent alternative => numbers test ++ numbers consequent ++ numbers alternative
  | .lambda _ body => numbersAll body
  | .app operator operands => numbers operator ++ numbersAll operands
  | .letIn values body => numbersAll values ++ numbersAll body
  | .define _ value => numbers value

/-- The numbers in a list of nameless trees. -/
def numbersAll : List (Nameless Value) → List Float
  | [] => []
  | tree :: trees => numbers tree ++ numbersAll trees

end

/-- The numbers of a list are those of its trees. -/
@[simp] theorem numbersAll_eq_flatMap (trees : List (Nameless Value)) :
    numbersAll trees = trees.flatMap numbers := by
  induction trees with
  | nil => rfl
  | cons _ _ ih => simp only [numbersAll, List.flatMap_cons, ih]

end Nameless

namespace Expr

/-- The numbers in an expression show in its nameless view. -/
theorem numbers_nameless (contours : List (List String)) (expr : Expr) :
    (expr.nameless id contours).numbers = expr.numbers := by
  induction expr generalizing contours with
  | num | bool | str | var | lit | prim => rfl
  | cond test consequent alternative ihTest ihConsequent ihAlternative =>
      simp only [nameless, Nameless.numbers, numbers, ihTest, ihConsequent, ihAlternative]
  | lambda params body ihBody =>
      simp only [nameless, namelessAll_eq_map, Nameless.numbers, Nameless.numbersAll_eq_flatMap, numbers,
        numbersAll_eq_flatMap, List.flatMap_map]
      exact List.flatMap_congr fun form member => ihBody form member (params :: contours)
  | app operator operands ihOperator ihOperands =>
      simp only [nameless, namelessAll_eq_map, Nameless.numbers, Nameless.numbersAll_eq_flatMap, numbers,
        numbersAll_eq_flatMap, List.flatMap_map, ihOperator]
      congr 1
      exact List.flatMap_congr fun operand member => ihOperands operand member contours
  | letIn bindings body ihBindings ihBody =>
      simp only [nameless, namelessAll_eq_map, namelessBound_eq_map, Nameless.numbers,
        Nameless.numbersAll_eq_flatMap, numbers, numbersAll_eq_flatMap, numbersBound_eq_flatMap,
        List.flatMap_map]
      congr 1
      · exact List.flatMap_congr fun binding member => ihBindings binding member contours
      · exact List.flatMap_congr fun form member =>
          ihBody form member (bindings.map Prod.fst :: contours)
  | define name value ihValue => simp only [nameless, Nameless.numbers, numbers, ihValue]

/-- What holds of all numbers in an expression holds of them without local bindings. -/
theorem forall_numbers_eliminateLets {p : Float → Prop} {expr : Expr}
    (own : ∀ number ∈ expr.numbers, p number) : ∀ number ∈ expr.eliminateLets.numbers, p number := by
  induction expr with
  | num | bool | str | var | lit | prim => exact own
  | cond test consequent alternative ihTest ihConsequent ihAlternative =>
      simp only [eliminateLets, numbers, List.forall_mem_append] at own ⊢
      exact ⟨⟨ihTest own.1.1, ihConsequent own.1.2⟩, ihAlternative own.2⟩
  | lambda params body ihBody =>
      simp only [eliminateLets, eliminateLetsAll_eq_map, numbers, numbersAll_eq_flatMap,
        List.forall_mem_flatMap, List.forall_mem_map] at own ⊢
      exact fun form member => ihBody form member (own form member)
  | app operator operands ihOperator ihOperands =>
      simp only [eliminateLets, eliminateLetsAll_eq_map, numbers, numbersAll_eq_flatMap,
        List.forall_mem_append, List.forall_mem_flatMap, List.forall_mem_map] at own ⊢
      exact ⟨ihOperator own.1, fun operand member => ihOperands operand member (own.2 operand member)⟩
  | letIn bindings body ihBindings ihBody =>
      simp only [eliminateLets, eliminateLetsAll_eq_map, eliminateLetsBound_eq_map, numbers,
        numbersAll_eq_flatMap, numbersBound_eq_flatMap, List.forall_mem_append, List.forall_mem_flatMap,
        List.forall_mem_map] at own ⊢
      exact ⟨fun form member => ihBody form member (own.2 form member),
        fun binding member => ihBindings binding member (own.1 binding member)⟩
  | define name value ihValue => exact ihValue own

end Expr

/-! ## Passes -/

/-- A pass over programs. -/
inductive Pass where
  /-- Replaces local bindings by applications. -/
  | eliminateLets
  /-- Renames all declared names, numbering from 1. -/
  | rename
  /-- Renames all declared names with names from a supply that the passes share. -/
  | renameWith
  deriving DecidableEq, Repr

/-- What a pass makes of a program. -/
def Pass.run (pass : Pass) (program : Program) : StateM NameSupply Program :=
  match pass with
  | .eliminateLets => return program.eliminateLets
  | .rename => return program.rename
  | .renameWith => program.renameWith

namespace Program

/-- What passes make of a program one after the other. -/
def runPasses (program : Program) (passes : List Pass) : StateM NameSupply Program :=
  passes.foldlM (fun program pass => pass.run program) program

/-- Legible programs whose numbers have some property. -/
structure LegibleWith (p : Float → Prop) (program : Program) : Prop where
  /-- The program is legible. -/
  legible : program.Legible
  /-- Its numbers have the property. -/
  numbers : ∀ number ∈ program.numbers, p number

variable {p : Float → Prop} {program : Program}

/-- A program without local bindings is legible with its numbers. -/
theorem LegibleWith.eliminateLets (readable : program.LegibleWith p) :
    program.eliminateLets.LegibleWith p := by
  have inForms := List.forall_mem_flatMap.1 readable.numbers
  refine ⟨⟨?_, List.forall_mem_map.2 ?_⟩, List.forall_mem_flatMap.2 (List.forall_mem_map.2 ?_)⟩
  · simpa [Program.eliminateLets] using readable.legible.nonempty
  · intro form member
    exact (readable.legible.forms form member).eliminateLets
  · intro form member
    exact Expr.forall_numbers_eliminateLets (inForms form member)

/-- A renamed program is legible with its numbers. -/
theorem LegibleWith.renameWith (readable : program.LegibleWith p) (supply : NameSupply) :
    (program.renameWith.run supply).1.LegibleWith p := by
  have views := Expr.map_nameless_renameApart id program.forms supply
  have sameNumbers : (program.renameWith.run supply).1.numbers = program.numbers := by
    have shown (program : Program) :
        program.numbers = (program.forms.map (Expr.nameless id [])).flatMap Nameless.numbers := by
      rw [List.flatMap_map]
      exact List.flatMap_congr fun form _ => (Expr.numbers_nameless [] form).symm
    rw [shown, shown program]
    exact congrArg _ views
  refine ⟨⟨?_, ?_⟩, ?_⟩
  · exact Expr.renameAll_ne_nil readable.legible.nonempty _
  · exact Expr.forall_mem_renameAll (fun form member => (readable.legible.forms form member).rename) _
  · rw [sameNumbers]
    exact readable.numbers

/-- A pass leads from a legible program to a legible one with the same numbers. -/
theorem LegibleWith.runPass (readable : program.LegibleWith p) (pass : Pass) (supply : NameSupply) :
    ((pass.run program).run supply).1.LegibleWith p := by
  cases pass with
  | eliminateLets => exact readable.eliminateLets
  | rename => exact readable.renameWith .initial
  | renameWith => exact readable.renameWith supply

/-- So do any number of passes. -/
theorem LegibleWith.runPasses (readable : program.LegibleWith p) (passes : List Pass)
    (supply : NameSupply) : ((program.runPasses passes).run supply).1.LegibleWith p := by
  induction passes generalizing program supply with
  | nil => exact readable
  | cons pass passes ih =>
      have first := readable.runPass pass supply
      exact ih first _

/-! ## Room for the names of passes -/

/-- The number that the counter of a supply comes to at most by passing reserved names, with the names of the
program reserved. -/
def reach (program : Program) (supply : NameSupply) : Nat :=
  (supply.reserve (Expr.allNamesAll program.forms)).reach

/-- A program without local bindings declares as much and mentions the same names. -/
theorem reach_eliminateLets_le (program : Program) (supply : NameSupply) :
    program.eliminateLets.declarations = program.declarations ∧
      program.eliminateLets.reach supply ≤ program.reach supply := by
  have forms : program.eliminateLets.forms = program.forms.map Expr.eliminateLets := rfl
  have bound : (Expr.boundNamesAll program.eliminateLets.forms).Perm (Expr.boundNamesAll program.forms) := by
    rw [forms, Expr.boundNamesAll_eq_flatMap, Expr.boundNamesAll_eq_flatMap, List.flatMap_map]
    exact List.Perm.flatMap_left program.forms fun form _ => form.boundNames_eliminateLets
  have mentioned : (Expr.allNamesAll program.eliminateLets.forms).Perm (Expr.allNamesAll program.forms) := by
    rw [forms, Expr.allNamesAll_eq_flatMap, Expr.allNamesAll_eq_flatMap, List.flatMap_map]
    exact List.Perm.flatMap_left program.forms fun form _ => form.allNames_eliminateLets
  exact ⟨bound.length_eq, NameSupply.reach_mono rfl (mentioned.append_right supply.reserved).subset⟩

/-- A renamed program declares as much and mentions the fresh names in addition at most. -/
theorem reach_rename_le (program : Program) (supply : NameSupply) :
    program.rename.declarations = program.declarations ∧
      program.rename.reach supply ≤ program.reach supply + program.declarations := by
  have drawn := (Expr.declaresFresh_renameApart program.forms .initial).draws
  have mentioned : Expr.allNamesAll program.rename.forms ⊆
      Expr.boundNamesAll program.rename.forms ++ Expr.allNamesAll program.forms := by
    intro name found
    have reserved := Expr.allNamesAll_renameApart_subset program.forms .initial found
    rw [drawn.mem_reserved, NameSupply.reserve] at reserved
    exact List.mem_append.2 (reserved.imp_right fun before =>
      (List.mem_append.1 before).resolve_right List.not_mem_nil)
  have within : Expr.allNamesAll program.rename.forms ++ supply.reserved ⊆
      Expr.boundNamesAll program.rename.forms ++ (Expr.allNamesAll program.forms ++ supply.reserved) := by
    rw [← List.append_assoc]
    exact List.append_subset.2
      ⟨fun name found => List.mem_append_left _ (mentioned found), List.subset_append_right _ _⟩
  refine ⟨drawn.length_eq, ?_⟩
  calc
    program.rename.reach supply
      ≤ ((supply.reserve (Expr.allNamesAll program.forms)).reserve
          (Expr.boundNamesAll program.rename.forms)).reach := NameSupply.reach_mono rfl within
    _ ≤ program.reach supply + (Expr.boundNamesAll program.rename.forms).length :=
        NameSupply.reach_reserve_le _ _
    _ = program.reach supply + program.declarations := by
        rw [declarations, ← drawn.length_eq]
        rfl

/-- A program that is renamed with names from the supply declares as much, and its names are reserved. -/
theorem reach_renameWith_le (program : Program) (supply : NameSupply) :
    (program.renameWith.run supply).1.declarations = program.declarations ∧
      (program.renameWith.run supply).1.reach (program.renameWith.run supply).2 ≤
        program.reach supply + program.declarations := by
  have drawn := (Expr.declaresFresh_renameApart program.forms supply).draws
  have reserved : Expr.allNamesAll (program.renameWith.run supply).1.forms ++
      (program.renameWith.run supply).2.reserved ⊆ (program.renameWith.run supply).2.reserved :=
    List.append_subset.2 ⟨Expr.allNamesAll_renameApart_subset program.forms supply, List.Subset.refl _⟩
  refine ⟨drawn.length_eq, ?_⟩
  calc
    (program.renameWith.run supply).1.reach (program.renameWith.run supply).2
      ≤ (program.renameWith.run supply).2.reach := NameSupply.reach_mono rfl reserved
    _ ≤ program.reach supply + program.declarations := drawn.reach_le

/-- A pass keeps the number of declarations and moves the reach of the counter by as much at most. -/
theorem reach_runPass_le (pass : Pass) (program : Program) (supply : NameSupply) :
    let outcome := (pass.run program).run supply
    outcome.1.declarations = program.declarations ∧
      outcome.1.reach outcome.2 ≤ program.reach supply + program.declarations := by
  cases pass with
  | eliminateLets =>
      obtain ⟨asMany, noFurther⟩ := program.reach_eliminateLets_le supply
      exact ⟨asMany, Nat.le_trans noFurther (Nat.le_add_right _ _)⟩
  | rename => exact program.reach_rename_le supply
  | renameWith => exact program.reach_renameWith_le supply

/-- Passes move the reach of the counter by the number of declarations each at most. -/
theorem reach_runPasses_le (passes : List Pass) (program : Program) (supply : NameSupply) :
    ((program.runPasses passes).run supply).2.reach ≤
      program.reach supply + passes.length * program.declarations := by
  induction passes generalizing program supply with
  | nil =>
      have noFurther : supply.reach ≤ program.reach supply :=
        NameSupply.reach_mono rfl (List.subset_append_right _ _)
      exact Nat.le_trans noFurther (Nat.le_add_right _ _)
  | cons pass passes ih =>
      let outcome := (pass.run program).run supply
      obtain ⟨asMany, first⟩ := reach_runPass_le pass program supply
      calc
        ((program.runPasses (pass :: passes)).run supply).2.reach
          ≤ outcome.1.reach outcome.2 + passes.length * outcome.1.declarations := ih outcome.1 outcome.2
        _ ≤ program.reach supply + program.declarations + passes.length * program.declarations := by
            rw [asMany]
            exact Nat.add_le_add_right first _
        _ = program.reach supply + (pass :: passes).length * program.declarations := by
            rw [List.length_cons, Nat.add_one_mul, Nat.add_assoc, Nat.add_comm (program.declarations)]

/-- After any passes over a parsed program whose numbers are finite, the program is legible: names are read
as names again, no operator as a word for a special form, and no contour is refused. Its text is parsed as
the program without needless quotations, unless it is too long or brackets are nested too deep in it. What is
assumed is that the text of a finite number in the program denotes this number. The passes have a result unless
the counter of the supply that they share runs over, which it does not if there is room for the names of as many
renamings. -/
theorem parse_text_afterPasses {source : String} (parsed : Program.parse source = .ok program)
    (finite : ∀ number ∈ program.numbers, IsFinite number)
    (readsBack : ∀ number ∈ program.numbers, ReadsBack number) (passes : List Pass)
    (supply : NameSupply) :
    ((supply.reserve (Expr.allNamesAll program.forms)).HasRoom (passes.length * program.declarations) →
        ∃ result after, NameSupply.inWord (program.runPasses passes) supply = some (result, after)) ∧
      ∀ result after, NameSupply.inWord (program.runPasses passes) supply = some (result, after) →
        result.Legible ∧
          Program.parse result.text =
            if maxSourceLength < result.text.utf8ByteSize then
              .error (.unreadable (.tooLong result.text.utf8ByteSize))
            else if Written.sourceNesting result.text ≤ maxNesting then .ok result.unquoted
            else .error (.unreadable .tooDeep) := by
  refine ⟨fun room => NameSupply.exists_inWord (room.next_lt (reach_runPasses_le passes program supply)),
    fun result after found => ?_⟩
  obtain rfl := NameSupply.result_eq_of_inWord found
  have readable : program.LegibleWith fun number => IsFinite number ∧ ReadsBack number :=
    ⟨legible_of_parse parsed, fun number member => ⟨finite number member, readsBack number member⟩⟩
  obtain ⟨legible, numbers⟩ := readable.runPasses passes supply
  have finite number member := (numbers number member).1
  have readsBack number member := (numbers number member).2
  refine ⟨legible, ?_⟩
  rw [parse_text legible readsBack, reread_eq_unquoted readsBack finite]

/-- A local binding with the name of a special form is renamed, replaced, renamed again and read back. -/
theorem parse_text_afterPasses_twice :
    Program.parse "(let ((let '5)) (lambda (x) let))" =
        .ok { forms := [.letIn [("let", .lit (.number 5))] [.lambda ["x"] [.var "let"]]] } ∧
      IsFinite 5 ∧ ReadsBack 5 ∧
      (∃ after, NameSupply.inWord
          (runPasses { forms := [.letIn [("let", .lit (.number 5))] [.lambda ["x"] [.var "let"]]] }
            [.renameWith, .eliminateLets, .rename]) (.startingAt 8) =
        some ({ forms := [.app (.lambda ["let__9__2"] [.lambda ["x__8__1"] [.var "let__9__2"]])
          [.lit (.number 5)]] }, after)) ∧
      Program.parse "((lambda (let__9__2) (lambda (x__8__1) let__9__2)) 5)" =
        .ok { forms := [.app (.lambda ["let__9__2"] [.lambda ["x__8__1"] [.var "let__9__2"]])
          [.num 5]] } := by
  have tokens : Token.ofText "(let ((let '5)) (lambda (x) let))" =
      [⟨.opening, 0, 1⟩, ⟨.atom "let", 1, 4⟩, ⟨.opening, 5, 6⟩, ⟨.opening, 6, 7⟩, ⟨.atom "let", 7, 10⟩,
        ⟨.quoteMark, 11, 12⟩, ⟨.atom "5", 12, 13⟩, ⟨.closing, 13, 14⟩, ⟨.closing, 14, 15⟩,
        ⟨.opening, 16, 17⟩, ⟨.atom "lambda", 17, 23⟩, ⟨.opening, 24, 25⟩, ⟨.atom "x", 25, 26⟩,
        ⟨.closing, 26, 27⟩, ⟨.atom "let", 28, 31⟩, ⟨.closing, 31, 32⟩, ⟨.closing, 32, 33⟩] := by
    decide +kernel
  have trees : SExpr.parse "(let ((let '5)) (lambda (x) let))" =
      .ok [.list [.atom "let", .list [.list [.atom "let", .quoted (.atom "5")]],
        .list [.atom "lambda", .list [.atom "x"], .atom "let"]]] := by
    rw [SExpr.parse, SExpr.ofText_of_le (by decide +kernel), tokens]
    rfl
  have five : Value.ofWord "5" = .number 5 := Value.ofWord_of_numeral (by decide +kernel)
  have form : Expr.ofTopLevel (.list [.atom "let", .list [.list [.atom "let", .quoted (.atom "5")]],
      .list [.atom "lambda", .list [.atom "x"], .atom "let"]]) =
        .ok (.letIn [("let", .lit (.number 5))] [.lambda ["x"] [.var "let"]]) :=
    congrArg (fun value => Except.ok (Expr.letIn [("let", .lit value)] [.lambda ["x"] [.var "let"]])) five
  have parsed : Program.parse "(let ((let '5)) (lambda (x) let))" =
      .ok { forms := [.letIn [("let", .lit (.number 5))] [.lambda ["x"] [.var "let"]]] } := by
    rw [Program.parse, trees, ok_bind, ofSExprs, List.mapM_cons, form]
    rfl
  have finite : IsFinite 5 := by decide +kernel
  have readsBack : ReadsBack 5 := fun _ => by decide +kernel
  have room : ((NameSupply.startingAt 8).reserve (Expr.allNamesAll
      [.letIn [("let", .lit (.number 5))] [.lambda ["x"] [.var "let"]]])).HasRoom
        ([Pass.renameWith, .eliminateLets, .rename].length * 2) := by
    decide
  have run : ((runPasses { forms := [.letIn [("let", .lit (.number 5))] [.lambda ["x"] [.var "let"]]] }
      [.renameWith, .eliminateLets, .rename]).run (.startingAt 8)).1 =
        { forms := [.app (.lambda ["let__9__2"] [.lambda ["x__8__1"] [.var "let__9__2"]])
          [.lit (.number 5)]] } := rfl
  have text : text { forms := [.app (.lambda ["let__9__2"] [.lambda ["x__8__1"] [.var "let__9__2"]])
      [.lit (.number 5)]] } = "((lambda (let__9__2) (lambda (x__8__1) let__9__2)) 5)" := by
    decide +kernel
  have length : String.utf8ByteSize "((lambda (let__9__2) (lambda (x__8__1) let__9__2)) 5)" = 53 := by
    decide +kernel
  have nesting : Written.sourceNesting "((lambda (let__9__2) (lambda (x__8__1) let__9__2)) 5)" = 4 := by
    decide +kernel
  obtain ⟨hasResult, readsAgain⟩ := parse_text_afterPasses parsed (List.forall_mem_singleton.2 finite)
    (List.forall_mem_singleton.2 readsBack) [.renameWith, .eliminateLets, .rename] (.startingAt 8)
  obtain ⟨result, after, found⟩ := hasResult room
  obtain rfl := run.symm.trans (NameSupply.result_eq_of_inWord found)
  have again := (readsAgain _ after found).2
  rw [text, nesting, length] at again
  exact ⟨parsed, finite, readsBack, ⟨after, found⟩, again⟩

end Program

end MiniScheme
