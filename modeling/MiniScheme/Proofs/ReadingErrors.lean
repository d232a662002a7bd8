import MiniScheme.Proofs.TokenSpans
import MiniScheme.SExpr.Reader

/-! # Where a reading fails

A text that is too long is rejected for its length alone. Otherwise reading fails at the first token that is at
fault: a string literal without an end, an opening bracket inside of as many lists as may be nested, or a
closing bracket that has nothing to close or stands behind a quote mark. A text without such a token is
rejected only if it ends too early: behind a quote mark, or in a list, and then the bracket of the innermost
list that is left open is reported. All of this is told by counting brackets. -/

namespace MiniScheme

/-- One for an opening bracket, minus one for a closing bracket and nothing for any other token. -/
def Token.Kind.turn : Token.Kind → Int
  | .opening => 1
  | .closing => -1
  | _ => 0

namespace Token

/-- The number of opening brackets less the number of closing ones. -/
def openLists : List Token → Int
  | [] => 0
  | token :: tokens => token.kind.turn + openLists tokens

/-- Whether the last of the tokens is a quote mark. -/
def EndsInMark (tokens : List Token) : Prop :=
  tokens.getLast?.map Token.kind = some .quoteMark

/-- Whether a token behind others is at fault, and the message about it. -/
inductive Fault (before : List Token) (token : Token) : String → Prop where
  /-- A string literal without an end. -/
  | unterminated (kind : token.kind = .unterminated) :
      Fault before token ("unterminated string literal at offset " ++ toString token.start)
  /-- One more list inside of 512 open ones. -/
  | tooDeep (kind : token.kind = .opening) (deep : 512 ≤ openLists before) :
      Fault before token "nesting depth limit exceeded (limit: 512)"
  /-- A closing bracket where no list is open, or behind a quote mark. -/
  | unexpected (kind : token.kind = .closing) (misplaced : openLists before = 0 ∨ EndsInMark before) :
      Fault before token ("unexpected ')' at offset " ++ toString token.start)

/-- Whether none of the tokens is at fault. -/
def Faultless (tokens : List Token) : Prop :=
  ∀ before token after, tokens = before ++ token :: after → ∀ text, ¬ Fault before token text

/-- Whether the message is about the first of the tokens that is at fault. -/
def FirstFault (tokens : List Token) (text : String) : Prop :=
  ∃ before token after, tokens = before ++ token :: after ∧ Faultless before ∧ Fault before token text

/-- Whether the tokens behind an opening bracket never close it: as far as one looks, no more brackets are
closed than are opened. -/
def NeverClosed (behind : List Token) : Prop :=
  ∀ front, front <+: behind → 0 ≤ openLists front

/-- Whether a token is the last opening bracket that is never closed. -/
def LastUnclosed (tokens : List Token) (opening : Token) : Prop :=
  ∃ before behind, tokens = before ++ opening :: behind ∧ opening.kind = .opening ∧ NeverClosed behind ∧
    ∀ middle other rest, behind = middle ++ other :: rest → other.kind = .opening → ¬ NeverClosed rest

/-- Whether more tokens are missing at the end, and the message about it. -/
inductive EndsEarly (tokens : List Token) : String → Prop where
  /-- A quote mark with nothing behind it. -/
  | mark (endsInMark : EndsInMark tokens) : EndsEarly tokens "unexpected end of input"
  /-- A list that is left open. -/
  | unclosed {opening : Token} (noMark : ¬ EndsInMark tokens) (last : LastUnclosed tokens opening) :
      EndsEarly tokens ("unclosed '(' at offset " ++ toString opening.start)

variable {tokens before behind inner : List Token} {token opening closing : Token} {text : String}

/-! ## Faults -/

/-- A quote mark comes last. -/
theorem endsInMark_concat_iff : EndsInMark (tokens ++ [token]) ↔ token.kind = .quoteMark := by
  rw [EndsInMark, List.getLast?_concat, Option.map_some, Option.some_inj]

/-- The tokens that are at fault, with the errors that are reported for them. -/
theorem fault_iff :
    Fault before token text ↔
      token.kind = .unterminated ∧ text = (ReadError.unterminatedString token.start).message ∨
      token.kind = .opening ∧ 512 ≤ openLists before ∧ text = ReadError.tooDeep.message ∨
      token.kind = .closing ∧ (openLists before = 0 ∨ EndsInMark before) ∧
        text = (ReadError.unexpectedClosing token.start).message := by
  constructor
  · rintro (kind | ⟨kind, deep⟩ | ⟨kind, misplaced⟩)
    · exact .inl ⟨kind, rfl⟩
    · exact .inr (.inl ⟨kind, deep, rfl⟩)
    · exact .inr (.inr ⟨kind, misplaced, rfl⟩)
  · rintro (⟨kind, rfl⟩ | ⟨kind, deep, rfl⟩ | ⟨kind, misplaced, rfl⟩)
    · exact .unterminated kind
    · exact .tooDeep kind deep
    · exact .unexpected kind misplaced

/-- A place in the tokens is the last one, or it is among the others. -/
theorem split_concat {after : List Token} {other : Token}
    (split : tokens ++ [token] = before ++ other :: after) :
    before = tokens ∧ other = token ∨ ∃ others, tokens = before ++ other :: others := by
  rcases List.eq_nil_or_concat after with rfl | ⟨others, last, rfl⟩
  · obtain ⟨rfl, rfl⟩ := List.append_singleton_inj.1 split
    exact .inl ⟨rfl, rfl⟩
  · rw [List.concat_eq_append, ← List.cons_append, ← List.append_assoc] at split
    exact .inr ⟨others, (List.append_singleton_inj.1 split).1⟩

/-- No token is at fault if none of the others is and neither is the last one. -/
theorem faultless_concat_iff :
    Faultless (tokens ++ [token]) ↔ Faultless tokens ∧ ∀ text, ¬ Fault tokens token text := by
  constructor
  · intro faultless
    refine ⟨fun before other after split => faultless before other (after ++ [token]) ?_,
      faultless tokens token [] rfl⟩
    rw [split, List.append_assoc, List.cons_append]
  · rintro ⟨faultless, last⟩ before other after split
    rcases split_concat split with ⟨rfl, rfl⟩ | ⟨others, rfl⟩
    · exact last
    · exact faultless before other others rfl

/-- Where there is a first fault, there is one. -/
theorem FirstFault.not_faultless (fault : FirstFault tokens text) : ¬ Faultless tokens := by
  obtain ⟨before, token, after, split, -, atFault⟩ := fault
  exact fun faultless => faultless before token after split text atFault

/-- The first token at fault is the last one only if no other is. -/
theorem firstFault_concat_iff :
    FirstFault (tokens ++ [token]) text ↔
      FirstFault tokens text ∨ Faultless tokens ∧ Fault tokens token text := by
  constructor
  · rintro ⟨before, other, after, split, faultless, atFault⟩
    rcases split_concat split with ⟨rfl, rfl⟩ | ⟨others, rfl⟩
    · exact .inr ⟨faultless, atFault⟩
    · exact .inl ⟨before, other, others, rfl, faultless, atFault⟩
  · rintro (⟨before, other, after, rfl, faultless, atFault⟩ | ⟨faultless, atFault⟩)
    · refine ⟨before, other, after ++ [token], ?_, faultless, atFault⟩
      rw [List.append_assoc, List.cons_append]
    · exact ⟨tokens, token, [], rfl, faultless, atFault⟩

/-! ## Brackets -/

/-- No tokens. -/
@[simp] theorem openLists_nil : openLists [] = 0 := rfl

/-- A token in front of others. -/
@[simp] theorem openLists_cons (token : Token) (tokens : List Token) :
    openLists (token :: tokens) = token.kind.turn + openLists tokens := rfl

/-- An opening bracket in front of others. -/
theorem openLists_opening (opens : opening.kind = .opening) (tokens : List Token) :
    openLists (opening :: tokens) = 1 + openLists tokens := by
  rw [openLists_cons, opens]
  rfl

/-- Tokens in front of others. -/
@[simp] theorem openLists_append (tokens more : List Token) :
    openLists (tokens ++ more) = openLists tokens + openLists more := by
  induction tokens with
  | nil => exact (Int.zero_add _).symm
  | cons token tokens ih => rw [List.cons_append, openLists_cons, openLists_cons, ih, Int.add_assoc]

/-- Whether tokens close the lists that they open and no others. -/
structure Balanced (tokens : List Token) : Prop where
  /-- No list around them is closed. -/
  within : NeverClosed tokens
  /-- Every list in them is closed. -/
  settled : openLists tokens = 0

/-- No tokens are balanced. -/
theorem Balanced.nil : Balanced [] := by
  refine ⟨fun front isPrefix => ?_, rfl⟩
  rw [List.prefix_nil.1 isPrefix, openLists_nil]

/-- Two balanced pieces. -/
theorem Balanced.append {more : List Token} (balanced : Balanced tokens) (further : Balanced more) :
    Balanced (tokens ++ more) := by
  refine ⟨fun front isPrefix => ?_, ?_⟩
  · rcases List.prefix_or_prefix_of_prefix isPrefix (List.prefix_append tokens more) with inFirst | ⟨rest, rfl⟩
    · exact balanced.within front inFirst
    · have bound := further.within rest ((List.prefix_append_right_inj tokens).1 isPrefix)
      rwa [openLists_append, balanced.settled, Int.zero_add]
  · rw [openLists_append, balanced.settled, further.settled, Int.add_zero]

/-- A token that is no bracket. -/
theorem Balanced.singleton (noBracket : token.kind.turn = 0) : Balanced [token] := by
  refine ⟨fun front isPrefix => ?_, ?_⟩
  · rcases List.prefix_cons_iff.1 isPrefix with rfl | ⟨rest, rfl, nothing⟩
    · exact le_rfl
    · rw [List.prefix_nil.1 nothing, openLists_cons, noBracket, openLists_nil, Int.add_zero]
  · rw [openLists_cons, noBracket, openLists_nil, Int.add_zero]

/-- Balanced tokens between brackets. -/
theorem Balanced.bracketed (opens : opening.kind = .opening) (balanced : Balanced inner)
    (closes : closing.kind = .closing) : Balanced (opening :: inner ++ [closing]) := by
  have last : closing.kind.turn = -1 := by rw [closes]; rfl
  have settled : openLists (opening :: inner ++ [closing]) = 0 := by
    rw [openLists_append, openLists_opening opens, balanced.settled, openLists_cons, last]
    rfl
  refine ⟨fun front isPrefix => ?_, settled⟩
  rcases List.prefix_concat_iff.1 isPrefix with rfl | isPrefix
  · exact settled.ge
  rcases List.prefix_cons_iff.1 isPrefix with rfl | ⟨rest, rfl, inside⟩
  · exact le_rfl
  · have bound := balanced.within rest inside
    rw [openLists_opening opens]
    omega

/-- In balanced tokens every bracket is closed. -/
theorem Balanced.not_neverClosed (balanced : Balanced tokens)
    (split : tokens = before ++ opening :: behind) (opens : opening.kind = .opening) :
    ¬ NeverClosed behind := by
  intro unclosed
  have settled := balanced.settled
  have front := balanced.within before (split ▸ List.prefix_append before (opening :: behind))
  have back := unclosed behind (List.prefix_refl behind)
  rw [split, openLists_append, openLists_opening opens] at settled
  omega

/-- There is only one last bracket that is never closed. -/
theorem LastUnclosed.unique {other : Token} (last : LastUnclosed tokens opening)
    (last' : LastUnclosed tokens other) : opening = other := by
  obtain ⟨before, behind, split, opens, unclosed, further⟩ := last
  obtain ⟨before', behind', split', opens', unclosed', further'⟩ := last'
  rw [split] at split'
  -- Neither of them stands behind the other.
  rcases List.append_eq_append_iff.1 split' with ⟨middle, -, same⟩ | ⟨middle, -, same⟩
  · cases middle with
    | nil => exact (List.cons.inj same).1
    | cons _ middle => exact absurd unclosed' (further middle other behind' (List.cons.inj same).2 opens')
  · cases middle with
    | nil => exact (List.cons.inj same).1.symm
    | cons _ middle => exact absurd unclosed (further' middle opening behind (List.cons.inj same).2 opens)

/-- Whether the lists that tokens leave open begin at these offsets, the innermost first. -/
inductive LeavesOpen : List Token → List Nat → Prop where
  /-- All lists are closed. -/
  | nothing {tokens : List Token} (balanced : Balanced tokens) : LeavesOpen tokens []
  /-- Behind a bracket there are closed lists only. -/
  | list {before inner : List Token} {opening : Token} {offsets : List Nat}
      (around : LeavesOpen before offsets) (opens : opening.kind = .opening) (balanced : Balanced inner) :
      LeavesOpen (before ++ opening :: inner) (opening.start :: offsets)

namespace LeavesOpen

variable {offset : Nat} {offsets : List Nat}

/-- Closed lists behind the tokens. -/
theorem append (leavesOpen : LeavesOpen tokens offsets) {more : List Token} (balanced : Balanced more) :
    LeavesOpen (tokens ++ more) offsets := by
  cases leavesOpen with
  | nothing inFront => exact .nothing (inFront.append balanced)
  | list around opens inFront =>
      rw [List.append_assoc, List.cons_append]
      exact .list around opens (inFront.append balanced)

/-- One more list is opened. -/
theorem opened (leavesOpen : LeavesOpen tokens offsets) (opens : opening.kind = .opening) :
    LeavesOpen (tokens ++ [opening]) (opening.start :: offsets) :=
  .list leavesOpen opens .nil

/-- The innermost list is closed. -/
theorem closed (leavesOpen : LeavesOpen tokens (offset :: offsets)) (closes : closing.kind = .closing) :
    LeavesOpen (tokens ++ [closing]) offsets := by
  cases leavesOpen with
  | list around opens balanced =>
      rw [List.append_assoc]
      exact around.append (.bracketed opens balanced closes)

/-- The number of lists that are left open. -/
theorem openLists_eq (leavesOpen : LeavesOpen tokens offsets) : openLists tokens = offsets.length := by
  induction leavesOpen with
  | nothing balanced => exact balanced.settled
  | @list before inner opening offsets _ opens balanced ih =>
      rw [openLists_append, openLists_opening opens, ih, balanced.settled, List.length_cons]
      omega

/-- The innermost list that is left open begins with the last bracket that is never closed. -/
theorem exists_lastUnclosed (leavesOpen : LeavesOpen tokens (offset :: offsets)) :
    ∃ opening, LastUnclosed tokens opening ∧ opening.start = offset := by
  cases leavesOpen with
  | @list before inner opening _ _ opens balanced =>
      refine ⟨opening, ⟨before, inner, rfl, opens, balanced.within, ?_⟩, rfl⟩
      exact fun _ _ _ split opens' => balanced.not_neverClosed split opens'

/-- If all lists are closed, every bracket is. -/
theorem not_lastUnclosed (leavesOpen : LeavesOpen tokens []) : ¬ LastUnclosed tokens opening := by
  cases leavesOpen with
  | nothing balanced =>
      rintro ⟨before, behind, split, opens, unclosed, -⟩
      exact balanced.not_neverClosed split opens unclosed

end LeavesOpen

end Token

/-! ## What the reader knows -/

namespace Reader

open Token

variable {reader : Reader} {tokens : List Token}

/-- Whether what the reader keeps tells how tokens that it has read end. -/
structure Follows (reader : Reader) (tokens : List Token) : Prop where
  /-- A quote mark waits if it came last. -/
  marked : 0 < reader.level.marks ↔ EndsInMark tokens
  /-- The open lists are those that the tokens leave open. -/
  leavesOpen : LeavesOpen tokens (reader.enclosing.map Prod.fst)

/-- The reader starts without tokens. -/
theorem follows_initial : Follows initial [] :=
  ⟨by simp [initial, Level.empty, EndsInMark], .nothing .nil⟩

namespace Follows

variable {token : Token}

/-- A tree is read, which takes the quote marks that wait. -/
theorem push (follows : Follows reader tokens) (noBracket : token.kind.turn = 0)
    (noMark : token.kind ≠ .quoteMark) (tree : SExpr) :
    Follows { reader with level := reader.level.push tree } (tokens ++ [token]) := by
  refine ⟨?_, follows.leavesOpen.append (.singleton noBracket)⟩
  exact iff_of_false (Nat.lt_irrefl 0) (mt endsInMark_concat_iff.1 noMark)

/-- A quote mark is read. -/
theorem mark (follows : Follows reader tokens) (kind : token.kind = .quoteMark) :
    Follows { reader with level := { reader.level with marks := reader.level.marks + 1 } }
      (tokens ++ [token]) := by
  refine ⟨?_, follows.leavesOpen.append (.singleton (by rw [kind]; rfl))⟩
  exact iff_of_true (Nat.succ_pos _) (endsInMark_concat_iff.2 kind)

/-- A list is opened. -/
theorem opened (follows : Follows reader tokens) (kind : token.kind = .opening) :
    Follows { level := .empty, enclosing := (token.start, reader.level) :: reader.enclosing }
      (tokens ++ [token]) := by
  refine ⟨?_, follows.leavesOpen.opened kind⟩
  exact iff_of_false (Nat.lt_irrefl 0) (mt endsInMark_concat_iff.1 (by rw [kind]; nofun))

/-- A list is closed. -/
theorem closed {offset : Nat} {outer : Level} {enclosing : List (Nat × Level)}
    (follows : Follows reader tokens) (inList : reader.enclosing = (offset, outer) :: enclosing)
    (kind : token.kind = .closing) (tree : SExpr) :
    Follows { level := outer.push tree, enclosing } (tokens ++ [token]) := by
  have leavesOpen := follows.leavesOpen
  rw [inList, List.map_cons] at leavesOpen
  refine ⟨?_, leavesOpen.closed kind⟩
  exact iff_of_false (Nat.lt_irrefl 0) (mt endsInMark_concat_iff.1 (by rw [kind]; nofun))

/-- Reading one token fails just if it is at fault, with the message about it. -/
theorem step (follows : Follows reader tokens) (token : Token) :
    (∃ next, reader.step token = .ok next ∧ Follows next (tokens ++ [token]) ∧
        ∀ text, ¬ Fault tokens token text) ∨
      ∃ error, reader.step token = .error error ∧ ∀ text, Fault tokens token text ↔ text = error.message := by
  have depth := follows.leavesOpen.openLists_eq
  rw [List.length_map] at depth
  cases kind : token.kind with
  | atom text | str text =>
      refine .inl ⟨_, by rw [Reader.step, kind], follows.push (by rw [kind]; rfl) (by rw [kind]; nofun) _, ?_⟩
      simp [fault_iff, kind]
  | quoteMark =>
      refine .inl ⟨_, by rw [Reader.step, kind], follows.mark kind, ?_⟩
      simp [fault_iff, kind]
  | opening =>
      by_cases deep : maxNesting ≤ reader.enclosing.length
      · have overfull : 512 ≤ openLists tokens := depth ▸ Int.ofNat_le.2 deep
        refine .inr ⟨.tooDeep, by rw [Reader.step, kind]; exact if_pos deep, ?_⟩
        simp [fault_iff, kind, overfull]
      · have room : ¬ 512 ≤ openLists tokens := fun overfull => deep (Int.ofNat_le.1 (depth ▸ overfull))
        refine .inl ⟨_, by rw [Reader.step, kind]; exact if_neg deep, follows.opened kind, ?_⟩
        simp [fault_iff, kind, room]
  | closing =>
      by_cases marks : 0 < reader.level.marks
      · refine .inr ⟨.unexpectedClosing token.start, by rw [Reader.step, kind]; exact if_pos marks, ?_⟩
        simp [fault_iff, kind, follows.marked.1 marks]
      have noMark := mt follows.marked.2 marks
      cases inList : reader.enclosing with
      | nil =>
          rw [inList, List.length_nil] at depth
          refine .inr ⟨.unexpectedClosing token.start, ?_, ?_⟩
          · simp only [Reader.step, kind, if_neg marks, inList]
          · simp [fault_iff, kind, depth]
      | cons entry enclosing =>
          have inside : openLists tokens ≠ 0 := by
            rw [depth, inList, List.length_cons]
            omega
          refine .inl ⟨_, ?_, follows.closed inList kind (.list reader.level.reversed.reverse), ?_⟩
          · simp only [Reader.step, kind, if_neg marks, inList]
          · simp [fault_iff, kind, inside, noMark]
  | unterminated =>
      refine .inr ⟨.unterminatedString token.start, by rw [Reader.step, kind], ?_⟩
      simp [fault_iff, kind]

end Follows

/-- Reading tokens fails just if one is at fault, with the message about the first such token. -/
theorem run_follows (tokens : List Token) :
    (∃ reader, tokens.foldlM Reader.step initial = .ok reader ∧ Follows reader tokens ∧ Faultless tokens) ∨
      ∃ error, tokens.foldlM Reader.step initial = .error error ∧ ¬ Faultless tokens ∧
        ∀ text, FirstFault tokens text ↔ text = error.message := by
  induction tokens using List.reverseRecOn with
  | nil =>
      refine .inl ⟨initial, rfl, follows_initial, fun before token after split => ?_⟩
      exact absurd split.symm (List.append_ne_nil_of_right_ne_nil before (List.cons_ne_nil token after))
  | append_singleton tokens token ih =>
      rw [List.foldlM_append]
      rcases ih with ⟨reader, read, follows, faultless⟩ | ⟨error, failed, faulty, first⟩
      · rcases follows.step token with ⟨next, step, further, noFault⟩ | ⟨error, failed, atFault⟩
        · refine .inl ⟨next, ?_, further, faultless_concat_iff.2 ⟨faultless, noFault⟩⟩
          simp only [read, List.foldlM_cons, List.foldlM_nil, bind, Except.bind, step, pure, Except.pure]
        · refine .inr ⟨error, ?_, fun both => ?_, fun text => ?_⟩
          · simp only [read, List.foldlM_cons, bind, Except.bind, failed]
          · exact (faultless_concat_iff.1 both).2 error.message ((atFault _).2 rfl)
          · rw [firstFault_concat_iff, or_iff_right fun fault => fault.not_faultless faultless,
              and_iff_right faultless, atFault]
      · refine .inr ⟨error, ?_, fun both => faulty (faultless_concat_iff.1 both).1, fun text => ?_⟩
        · rw [failed]
          rfl
        · rw [firstFault_concat_iff, or_iff_left fun both => faulty both.1, first]

/-- Where no token is at fault, the end of the tokens is an error just if it comes too early, with the message
about that. -/
theorem Follows.finish (follows : Follows reader tokens) (text : String) :
    (∃ error, reader.finish = .error error ∧ error.message = text) ↔ EndsEarly tokens text := by
  by_cases marks : 0 < reader.level.marks
  · have failed : reader.finish = .error .unexpectedEnd := if_pos marks
    have endsInMark := follows.marked.1 marks
    constructor
    · rintro ⟨error, failed', rfl⟩
      obtain rfl := Except.error.inj (failed.symm.trans failed')
      exact .mark endsInMark
    · rintro (_ | ⟨noMark, -⟩)
      · exact ⟨.unexpectedEnd, failed, rfl⟩
      · exact absurd endsInMark noMark
  have noMark := mt follows.marked.2 marks
  have leavesOpen := follows.leavesOpen
  cases inList : reader.enclosing with
  | nil =>
      have finished : reader.finish = .ok reader.level.reversed.reverse := by
        simp only [Reader.finish, if_neg marks, inList]
      rw [inList, List.map_nil] at leavesOpen
      constructor
      · rintro ⟨error, failed, -⟩
        rw [finished] at failed
        cases failed
      · rintro (endsInMark | ⟨-, last⟩)
        · exact absurd endsInMark noMark
        · exact absurd last leavesOpen.not_lastUnclosed
  | cons entry enclosing =>
      have failed : reader.finish = .error (.unclosed entry.1) := by
        simp only [Reader.finish, if_neg marks, inList]
      rw [inList, List.map_cons] at leavesOpen
      obtain ⟨opening, last, start⟩ := leavesOpen.exists_lastUnclosed
      constructor
      · rintro ⟨error, failed', rfl⟩
        obtain rfl := Except.error.inj (failed.symm.trans failed')
        rw [← start]
        exact .unclosed noMark last
      · rintro (endsInMark | ⟨-, last'⟩)
        · exact absurd endsInMark noMark
        · obtain rfl := last.unique last'
          exact ⟨.unclosed entry.1, failed, by rw [← start]; rfl⟩

end Reader

namespace SExpr

open Token

/-- Reading tokens fails at the first that is at fault, or else at the end if it comes too early. -/
theorem ofTokens_error_iff (tokens : List Token) (text : String) :
    (∃ error, ofTokens tokens = .error error ∧ error.message = text) ↔
      FirstFault tokens text ∨ Faultless tokens ∧ EndsEarly tokens text := by
  rcases Reader.run_follows tokens with ⟨reader, read, follows, faultless⟩ | ⟨error, failed, faulty, first⟩
  · have run : ofTokens tokens = reader.finish := by
      rw [ofTokens, read]
      rfl
    rw [run, follows.finish, or_iff_right fun fault => fault.not_faultless faultless, and_iff_right faultless]
  · have run : ofTokens tokens = .error error := by
      rw [ofTokens, failed]
      rfl
    rw [run, or_iff_left fun both => faulty both.1, first]
    constructor
    · rintro ⟨error', same, rfl⟩
      rw [Except.error.inj same]
    · rintro rfl
      exact ⟨error, rfl, rfl⟩

/-- A source text that is too long is rejected with the message about its length and with no other. -/
theorem ofText_error_of_gt {source : String} (exceeds : maxSourceLength < source.utf8ByteSize) (text : String) :
    (∃ error, ofText source = .error error ∧ error.message = text) ↔
      text = "source is " ++ toString source.utf8ByteSize ++ " bytes; at most 4294967295 bytes can be parsed" := by
  rw [ofText_of_gt exceeds, ← ReadError.message_tooLong]
  constructor
  · rintro ⟨error, same, rfl⟩
    rw [← Except.error.inj same]
  · rintro rfl
    exact ⟨_, rfl, rfl⟩

/-- A source text is rejected with a message exactly when it is too long and the message tells its length, or
when it is not and the message is about the first token at fault, or, where there is none, about the end that
comes too early. The offsets in messages are those of tokens, which stand there in the source. -/
theorem ofText_error_iff (source text : String) :
    ((∃ error, ofText source = .error error ∧ error.message = text) ↔
        4294967295 < source.utf8ByteSize ∧
            text = "source is " ++ toString source.utf8ByteSize ++
              " bytes; at most 4294967295 bytes can be parsed" ∨
          source.utf8ByteSize ≤ 4294967295 ∧
            (FirstFault (Token.ofText source) text ∨
              Faultless (Token.ofText source) ∧ EndsEarly (Token.ofText source) text)) ∧
      ∀ token ∈ Token.ofText source, ∃ lexeme rest : List Char, token.kind.Spells lexeme rest ∧
        StandsBetween source token.start token.stop (String.ofList lexeme) (String.ofList rest) := by
  refine ⟨?_, fun token member => ?_⟩
  · rcases Nat.lt_or_ge 4294967295 source.utf8ByteSize with exceeds | fits
    · rw [ofText_error_of_gt exceeds, and_iff_right exceeds]
      exact (or_iff_left fun both => Nat.not_le_of_lt exceeds both.1).symm
    · rw [ofText_of_le fits, ofTokens_error_iff, and_iff_right (show source.utf8ByteSize ≤ 4294967295 from fits)]
      exact (or_iff_right fun both => Nat.not_le_of_lt both.1 fits).symm
  · obtain ⟨lexeme, rest, spells, -, stands⟩ := exists_lexeme_of_mem member
    exact ⟨lexeme, rest, spells, stands⟩

/-- Of two lists that are left open, the inner one is reported, although a list in front of it is closed. -/
example : ofTokens [⟨.opening, 0, 1⟩, ⟨.opening, 1, 2⟩, ⟨.closing, 2, 3⟩, ⟨.opening, 4, 5⟩] =
    .error (.unclosed 4) := rfl

end SExpr

end MiniScheme
