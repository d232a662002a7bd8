import MiniScheme.Proofs.Legible
import MiniScheme.Proofs.Written

/-! # What the reader accepts

The reader accepts a token sequence exactly when it is the yield of written forms in which brackets are not
nested too deep, and makes the trees that these forms stand for. A text is accepted when its tokens are and when
it is not too long. In between, the tokens that have been read
are the forms in each open list and the quote marks that wait behind them. No token sequence is the yield of
two lists of forms, so that the trees are determined by the tokens. -/

namespace MiniScheme

namespace Written

/-! ## Forms are determined by their tokens -/

/-- No form begins with a closing bracket. -/
theorem exists_kinds_eq_cons (form : Written) :
    ∃ first others, form.kinds = first :: others ∧ first ≠ .closing := by
  cases form with
  | word text => exact ⟨.atom text, [], rfl, nofun⟩
  | literal content => exact ⟨.str content, [], rfl, nofun⟩
  | marked form => exact ⟨.quoteMark, form.kinds, rfl, nofun⟩
  | bracketed items => exact ⟨.opening, kindsAll items ++ [.closing], rfl, nofun⟩

/-- Whether no form begins here: there are no tokens left, or the next one is a closing bracket. -/
def Stops (kinds : List Token.Kind) : Prop :=
  ∀ first ∈ kinds.head?, first = .closing

/-- Where no form begins, there is none. -/
theorem Stops.ne_kinds_append {kinds : List Token.Kind} (stops : Stops kinds) (form : Written)
    (rest : List Token.Kind) : kinds ≠ form.kinds ++ rest := by
  rintro rfl
  obtain ⟨first, others, begins, notClosing⟩ := form.exists_kinds_eq_cons
  rw [begins] at stops
  exact notClosing (stops first rfl)

/-- Whether the form and the place where it ends are determined by tokens that begin with it. -/
def Determined (form : Written) : Prop :=
  ∀ (other : Written) (rest rest' : List Token.Kind),
    form.kinds ++ rest = other.kinds ++ rest' → form = other ∧ rest = rest'

/-- Forms one after the other are determined if each is and no form begins behind them. -/
theorem kindsAll_append_inj {forms others : List Written} (each : ∀ form ∈ forms, form.Determined)
    {rest rest' : List Token.Kind} (stops : Stops rest) (stops' : Stops rest')
    (same : kindsAll forms ++ rest = kindsAll others ++ rest') : forms = others ∧ rest = rest' := by
  induction forms generalizing others with
  | nil =>
      cases others with
      | nil => exact ⟨rfl, same⟩
      | cons other others =>
          rw [kindsAll, kindsAll, List.nil_append, List.append_assoc] at same
          exact absurd same (stops.ne_kinds_append other _)
  | cons form forms ih =>
      rw [List.forall_mem_cons] at each
      cases others with
      | nil =>
          rw [kindsAll, kindsAll, List.nil_append, List.append_assoc] at same
          exact absurd same.symm (stops'.ne_kinds_append form _)
      | cons other others =>
          rw [kindsAll, kindsAll, List.append_assoc, List.append_assoc] at same
          obtain ⟨rfl, tails⟩ := each.1 other _ _ same
          obtain ⟨rfl, ends⟩ := ih each.2 tails
          exact ⟨rfl, ends⟩

/-- Every form is determined by its tokens. -/
theorem determined (form : Written) : form.Determined := by
  induction form with
  | word text =>
      intro other rest rest' same
      cases other with
      | word text' =>
          obtain ⟨head, tail⟩ := List.cons.inj same
          exact ⟨congrArg Written.word (Token.Kind.atom.inj head), tail⟩
      | literal | marked | bracketed => cases (List.cons.inj same).1
  | literal content =>
      intro other rest rest' same
      cases other with
      | literal content' =>
          obtain ⟨head, tail⟩ := List.cons.inj same
          exact ⟨congrArg Written.literal (Token.Kind.str.inj head), tail⟩
      | word | marked | bracketed => cases (List.cons.inj same).1
  | marked form ih =>
      intro other rest rest' same
      cases other with
      | marked form' =>
          obtain ⟨rfl, ends⟩ := ih form' rest rest' (List.cons.inj same).2
          exact ⟨rfl, ends⟩
      | word | literal | bracketed => cases (List.cons.inj same).1
  | bracketed items ih =>
      intro other rest rest' same
      cases other with
      | bracketed items' =>
          -- The closing bracket ends the items on both sides.
          have inside : kindsAll items ++ (.closing :: rest) = kindsAll items' ++ (.closing :: rest') := by
            simpa [kinds] using same
          have stops (kinds : List Token.Kind) : Stops (.closing :: kinds) :=
            fun first begins => (Option.some.inj begins).symm
          obtain ⟨rfl, ends⟩ := kindsAll_append_inj ih (stops rest) (stops rest') inside
          exact ⟨rfl, (List.cons.inj ends).2⟩
      | word | literal | marked => cases (List.cons.inj same).1

/-- No token sequence is the yield of two lists of forms. -/
theorem kindsAll_inj {forms others : List Written} (same : kindsAll forms = kindsAll others) :
    forms = others := by
  have ends : Stops [] := fun first begins => nomatch begins
  refine (kindsAll_append_inj (fun form _ => form.determined) ends ends ?_).1
  rw [List.append_nil, List.append_nil, same]

/-- No string literal in a form is unterminated. -/
theorem unterminated_notMem_kindsAll (forms : List Written) :
    Token.Kind.unterminated ∉ kindsAll forms := by
  have all {forms : List Written} (each : ∀ form ∈ forms, Token.Kind.unterminated ∉ form.kinds) :
      Token.Kind.unterminated ∉ kindsAll forms := by
    induction forms with
    | nil => exact List.not_mem_nil
    | cons form forms ih =>
        rw [List.forall_mem_cons] at each
        rw [kindsAll, List.mem_append, not_or]
        exact ⟨each.1, ih each.2⟩
  have one (form : Written) : Token.Kind.unterminated ∉ form.kinds := by
    induction form with
    | word text => simp [kinds]
    | literal content => simp [kinds]
    | marked form ih => simpa [kinds] using ih
    | bracketed items ih => simpa [kinds] using all ih
  exact all fun form _ => one form

/-! ## Quote marks -/

/-- A form behind several quote marks. -/
def markedTimes : Nat → Written → Written
  | 0, form => form
  | marks + 1, form => markedTimes marks form.marked

/-- The tree of a form behind quote marks. -/
theorem toSExpr_markedTimes (marks : Nat) (form : Written) :
    (form.markedTimes marks).toSExpr = form.toSExpr.quotedTimes marks := by
  induction marks generalizing form with
  | zero => rfl
  | succ marks ih => exact ih form.marked

/-- The tokens of a form behind quote marks. -/
theorem kinds_markedTimes (marks : Nat) (form : Written) :
    (form.markedTimes marks).kinds = List.replicate marks .quoteMark ++ form.kinds := by
  induction marks generalizing form with
  | zero => rfl
  | succ marks ih =>
      rw [markedTimes, ih, kinds, List.replicate_succ', List.append_assoc, List.singleton_append]

/-- Quote marks are no brackets. -/
theorem nesting_markedTimes (marks : Nat) (form : Written) :
    (form.markedTimes marks).nesting = form.nesting := by
  induction marks generalizing form with
  | zero => rfl
  | succ marks ih => exact ih form.marked

/-! ## More forms -/

/-- The tokens of forms and of more forms behind them. -/
theorem kindsAll_append (forms more : List Written) :
    kindsAll (forms ++ more) = kindsAll forms ++ kindsAll more := by
  induction forms with
  | nil => rfl
  | cons form forms ih => rw [List.cons_append, kindsAll, kindsAll, ih, List.append_assoc]

/-- The nesting of forms and of more forms behind them. -/
theorem nestingAll_append (forms more : List Written) :
    nestingAll (forms ++ more) = max (nestingAll forms) (nestingAll more) := by
  induction forms with
  | nil => exact (Nat.zero_max _).symm
  | cons form forms ih => rw [List.cons_append, nestingAll, nestingAll, ih, Nat.max_assoc]

end Written

/-! ## What has been read -/

namespace Reader

open Written (kindsAll nestingAll)

/-- Whether a level holds the trees of forms and the quote marks behind them, and so stands for tokens of
the given kinds. Brackets are nested no deeper in the forms than there is room. -/
def Level.Holds (level : Level) (room : Nat) (kinds : List Token.Kind) : Prop :=
  ∃ forms : List Written, level.reversed = (forms.map Written.toSExpr).reverse ∧
    kinds = kindsAll forms ++ List.replicate level.marks .quoteMark ∧ nestingAll forms ≤ room

/-- A level with nothing in it stands for no tokens. -/
theorem Level.holds_empty (room : Nat) : Level.empty.Holds room [] :=
  ⟨[], rfl, rfl, Nat.zero_le room⟩

namespace Level.Holds

variable {level : Level} {room : Nat} {kinds : List Token.Kind}

/-- One more quote mark waits. -/
theorem mark (holds : level.Holds room kinds) :
    Level.Holds { level with marks := level.marks + 1 } room (kinds ++ [.quoteMark]) := by
  obtain ⟨forms, trees, rfl, fits⟩ := holds
  refine ⟨forms, trees, ?_, fits⟩
  rw [List.append_assoc, ← List.replicate_succ']

/-- One more form is read, which takes the quote marks that wait. -/
theorem push (holds : level.Holds room kinds) {form : Written} (fits : form.nesting ≤ room) :
    (level.push form.toSExpr).Holds room (kinds ++ form.kinds) := by
  obtain ⟨forms, trees, rfl, fitsBefore⟩ := holds
  refine ⟨forms ++ [form.markedTimes level.marks], ?_, ?_, ?_⟩
  · rw [Level.push, trees, List.map_append, List.reverse_append, List.map_singleton,
      Written.toSExpr_markedTimes]
    rfl
  · rw [Written.kindsAll_append, Written.kindsAll, Written.kindsAll, Written.kinds_markedTimes,
      List.append_nil, List.append_assoc]
    exact (List.append_nil _).symm
  · rw [Written.nestingAll_append, Written.nestingAll, Written.nestingAll, Written.nesting_markedTimes]
    exact Nat.max_le.2 ⟨fitsBefore, Nat.max_le.2 ⟨fits, Nat.zero_le room⟩⟩

end Level.Holds

/-- Whether the reader, with these lists open, has read tokens of the given kinds: those around an open list,
then its bracket, then those in it. -/
inductive HasRead : Level → List (Nat × Level) → List Token.Kind → Prop
  /-- No list is open. -/
  | outermost {level : Level} {kinds : List Token.Kind} (holds : level.Holds maxNesting kinds) :
      HasRead level [] kinds
  /-- A list is open. -/
  | inside {level outer : Level} {enclosing : List (Nat × Level)} {offset room : Nat}
      {before inner : List Token.Kind} (around : HasRead outer enclosing before)
      (holds : level.Holds room inner) (deep : enclosing.length + 1 + room = maxNesting) :
      HasRead level ((offset, outer) :: enclosing) (before ++ .opening :: inner)

namespace HasRead

variable {level : Level} {enclosing : List (Nat × Level)} {kinds : List Token.Kind}

/-- One more quote mark is read. -/
theorem mark (hasRead : HasRead level enclosing kinds) :
    HasRead { level with marks := level.marks + 1 } enclosing (kinds ++ [.quoteMark]) := by
  cases hasRead with
  | outermost holds => exact .outermost holds.mark
  | inside around holds deep =>
      rw [List.append_assoc]
      exact .inside around holds.mark deep

/-- One more form is read. -/
theorem push (hasRead : HasRead level enclosing kinds) {form : Written}
    (fits : enclosing.length + form.nesting ≤ maxNesting) :
    HasRead (level.push form.toSExpr) enclosing (kinds ++ form.kinds) := by
  cases hasRead with
  | outermost holds =>
      rw [List.length_nil, Nat.zero_add] at fits
      exact .outermost (holds.push fits)
  | inside around holds deep =>
      rw [List.length_cons] at fits
      rw [List.append_assoc]
      exact .inside around (holds.push (by omega)) deep

/-- A closing bracket makes a form of the innermost list. -/
theorem close {outer : Level} {offset : Nat}
    (hasRead : HasRead level ((offset, outer) :: enclosing) kinds) (unmarked : level.marks = 0) :
    HasRead (outer.push (.list level.reversed.reverse)) enclosing (kinds ++ [.closing]) := by
  cases hasRead with
  | @inside _ _ _ _ room before inner around holds deep =>
      obtain ⟨forms, trees, rfl, fits⟩ := holds
      have whole : before ++ .opening :: (kindsAll forms ++ List.replicate level.marks .quoteMark) ++
          [.closing] = before ++ (Written.bracketed forms).kinds := by
        rw [unmarked, List.replicate_zero, List.append_nil, Written.kinds, List.append_assoc,
          List.cons_append]
      have tree : SExpr.list level.reversed.reverse = (Written.bracketed forms).toSExpr := by
        rw [trees, List.reverse_reverse, Written.toSExpr, Written.toSExprs_eq_map]
      rw [whole, tree]
      refine around.push ?_
      rw [Written.nesting]
      omega

/-- No more lists are open than may be. -/
theorem length_le (hasRead : HasRead level enclosing kinds) : enclosing.length ≤ maxNesting := by
  cases hasRead with
  | outermost holds => exact Nat.zero_le maxNesting
  | inside around holds deep => exact Nat.le.intro deep

/-- Reading one token. -/
theorem step {reader next : Reader} {token : Token}
    (hasRead : HasRead reader.level reader.enclosing kinds) (read : reader.step token = .ok next) :
    HasRead next.level next.enclosing (kinds ++ [token.kind]) := by
  rw [Reader.step] at read
  cases kind : token.kind with
  | atom text =>
      rw [kind] at read
      obtain rfl := Except.ok.inj read
      exact @push _ _ _ hasRead (.word text) hasRead.length_le
  | str content =>
      rw [kind] at read
      obtain rfl := Except.ok.inj read
      exact @push _ _ _ hasRead (.literal content) hasRead.length_le
  | quoteMark =>
      rw [kind] at read
      obtain rfl := Except.ok.inj read
      exact hasRead.mark
  | opening =>
      simp only [kind] at read
      split at read
      · cases read
      · obtain rfl := Except.ok.inj read
        exact .inside hasRead (Level.holds_empty (maxNesting - (reader.enclosing.length + 1))) (by omega)
  | closing =>
      simp only [kind] at read
      split at read
      · cases read
      rename_i unmarked
      split at read
      · cases read
      · rename_i offset outer enclosing same
        obtain rfl := Except.ok.inj read
        rw [same] at hasRead
        exact hasRead.close (Nat.eq_zero_of_not_pos unmarked)
  | unterminated =>
      rw [kind] at read
      cases read

/-- Reading tokens. -/
theorem foldlM {reader last : Reader} {tokens : List Token}
    (hasRead : HasRead reader.level reader.enclosing kinds)
    (read : tokens.foldlM Reader.step reader = .ok last) :
    HasRead last.level last.enclosing (kinds ++ tokens.map Token.kind) := by
  induction tokens generalizing reader kinds with
  | nil =>
      obtain rfl := Except.ok.inj read
      rw [List.map_nil, List.append_nil]
      exact hasRead
  | cons token tokens ih =>
      rw [List.foldlM_cons] at read
      obtain ⟨next, first, others⟩ := exists_of_bind_eq_ok read
      have further := ih (hasRead.step first) others
      rwa [List.append_assoc, List.singleton_append, ← List.map_cons] at further

end HasRead

end Reader

/-! ## Acceptance -/

namespace SExpr

open Written (kindsAll nestingAll)

/-- The trees of a token sequence are those of the forms whose yield it is, if there are such forms and
their brackets are not nested too deep. -/
theorem ofTokens_eq_ok_iff {tokens : List Token} {trees : List SExpr} :
    ofTokens tokens = .ok trees ↔ ∃ forms, tokens.map Token.kind = kindsAll forms ∧
      nestingAll forms ≤ maxNesting ∧ forms.map Written.toSExpr = trees := by
  constructor
  · intro accepted
    obtain ⟨last, read, finished⟩ := exists_of_bind_eq_ok accepted
    have hasRead := (Reader.HasRead.outermost (Reader.Level.holds_empty maxNesting)).foldlM read
    rw [Reader.finish] at finished
    split at finished
    · cases finished
    rename_i unmarked
    split at finished
    · rename_i closed
      obtain rfl := Except.ok.inj finished
      rw [closed, List.nil_append] at hasRead
      -- No list is open and no mark waits, so the tokens are those of the forms at the top level.
      cases hasRead with
      | outermost holds =>
          obtain ⟨forms, same, kinds, fits⟩ := holds
          rw [Nat.eq_zero_of_not_pos unmarked, List.replicate_zero, List.append_nil] at kinds
          exact ⟨forms, kinds, fits, by rw [same, List.reverse_reverse]⟩
    · cases finished
  · rintro ⟨forms, kinds, fits, rfl⟩
    rw [Written.ofTokens_of_kinds kinds, if_pos fits]

/-- Every string literal ends where tokens are read. -/
theorem kind_ne_unterminated_of_ofTokens {tokens : List Token} {trees : List SExpr}
    (read : ofTokens tokens = .ok trees) : ∀ token ∈ tokens, token.kind ≠ .unterminated := by
  obtain ⟨forms, kinds, -, -⟩ := ofTokens_eq_ok_iff.1 read
  intro token member unterminated
  apply Written.unterminated_notMem_kindsAll forms
  rw [← kinds, ← unterminated]
  exact List.mem_map_of_mem member

/-- The reader accepts a source text exactly when it is not too long, no string literal in it is unterminated
and its tokens are the yield of words, string literals, forms behind a quote mark and forms between brackets,
with no more brackets nested in one another than may be. There is only one such list of forms, and the result is
the list of the trees that they stand for, in which a quote mark is a list of the word `quote` and a tree. -/
theorem ofText_accepts_grammar (source : String) :
    ((∃ trees, ofText source = .ok trees) ↔
        source.utf8ByteSize ≤ maxSourceLength ∧
          (∀ token ∈ Token.ofText source, token.kind ≠ .unterminated) ∧
          ∃ forms, kindsAll forms = (Token.ofText source).map Token.kind ∧
            nestingAll forms ≤ maxNesting) ∧
      ∀ trees, ofText source = .ok trees →
        ∃ forms, kindsAll forms = (Token.ofText source).map Token.kind ∧
          (∀ others, kindsAll others = (Token.ofText source).map Token.kind → others = forms) ∧
            trees = forms.map Written.toSExpr := by
  constructor
  · constructor
    · rintro ⟨trees, accepted⟩
      obtain ⟨short, read⟩ := ofText_eq_ok_iff.1 accepted
      obtain ⟨forms, kinds, fits, -⟩ := ofTokens_eq_ok_iff.1 read
      exact ⟨short, kind_ne_unterminated_of_ofTokens read, forms, kinds.symm, fits⟩
    · rintro ⟨short, -, forms, kinds, fits⟩
      exact ⟨_, ofText_eq_ok_iff.2 ⟨short, ofTokens_eq_ok_iff.2 ⟨forms, kinds.symm, fits, rfl⟩⟩⟩
  · intro trees accepted
    obtain ⟨forms, kinds, -, same⟩ := ofTokens_eq_ok_iff.1 (ofText_eq_ok_iff.1 accepted).2
    exact ⟨forms, kinds.symm, fun others kinds' => Written.kindsAll_inj (kinds'.trans kinds), same.symm⟩

/-- A quoted list with a string literal in it, and a word behind it, are read in one way only. -/
theorem ofText_accepts_grammar_quoted :
    ofText "'(a \"b\") c" = .ok [.quoted (.list [.atom "a", .str "b"]), .atom "c"] ∧
      ∃ forms, kindsAll forms = (Token.ofText "'(a \"b\") c").map Token.kind ∧
        (∀ others, kindsAll others = (Token.ofText "'(a \"b\") c").map Token.kind → others = forms) ∧
          [.quoted (.list [.atom "a", .str "b"]), .atom "c"] = forms.map Written.toSExpr := by
  have tokens : Token.ofText "'(a \"b\") c" = [⟨.quoteMark, 0, 1⟩, ⟨.opening, 1, 2⟩, ⟨.atom "a", 2, 3⟩,
      ⟨.str "b", 4, 7⟩, ⟨.closing, 7, 8⟩, ⟨.atom "c", 9, 10⟩] := by
    decide +kernel
  have accepted : ofText "'(a \"b\") c" =
      .ok [.quoted (.list [.atom "a", .str "b"]), .atom "c"] := by
    rw [ofText_of_le (by decide +kernel), tokens]
    rfl
  exact ⟨accepted, (ofText_accepts_grammar _).2 _ accepted⟩

end SExpr

end MiniScheme
