import MiniScheme.Proofs.ExactAddresses

/-! # Addressing what is addressed

Addressing goes through a tree from left to right and refuses the first address that it meets. Where every
contour is accepted, nothing else can go wrong. A tree that has been addressed keeps its contours and has an
address at each reference, so it is refused with its first address; only a tree without references can be
addressed again, and nothing changes in it. -/

namespace MiniScheme

/-- The outcome of addressing a part, given the first address in it and what becomes of it if there is
none. -/
def unlessAddressed {α : Type} (first? : Option Reference) (result : α) : Except ScopeError α :=
  match first? with
  | some reference => .error (.malformed (.addressed reference))
  | none => .ok result

/-- The first address in a part counts, and that in the next part only if there is none. -/
theorem unlessAddressed_bind {α β : Type} (first? next? : Option Reference) (result : α) (next : α → β) :
    (unlessAddressed first? result >>= fun value => unlessAddressed next? (next value)) =
      unlessAddressed (first?.or next?) (next result) := by
  cases first? <;> rfl

/-- What is done with the results of a part does not matter if it is refused. -/
theorem unlessAddressed_map {α β : Type} (first? : Option Reference) (result : α) (next : α → β) :
    (unlessAddressed first? result >>= fun value => pure (next value)) =
      unlessAddressed first? (next result) := by
  cases first? <;> rfl

/-- The parts of a list are addressed from left to right. -/
theorem mapM_unlessAddressed {α β γ : Type} {items : List α} {addressed : α → Except ScopeError β}
    {parts : α → List γ} {address? : γ → Option Reference} {result : α → β}
    (each : ∀ item ∈ items,
      addressed item = unlessAddressed ((parts item).findSome? address?) (result item)) :
    items.mapM addressed =
      unlessAddressed ((items.flatMap parts).findSome? address?) (items.map result) := by
  induction items with
  | nil => rfl
  | cons item items ih =>
      rw [List.forall_mem_cons] at each
      rw [List.mapM_cons, each.1, ih each.2, List.flatMap_cons, List.findSome?_append, List.map_cons]
      simp only [unlessAddressed_map, unlessAddressed_bind]

namespace LexExpr

variable {around : List (List String)}

/-- In a tree with accepted contours, addressing fails only at an address, and at the first. -/
theorem addressFrom_eq_unlessAddressed {tree : LexExpr}
    (accepted : ∀ names ∈ tree.contours, AcceptedContour names) :
    tree.addressFrom (Address.visibleIn around) =
      unlessAddressed ((tree.occurrences around).findSome? Occurrence.address?) (tree.resolved around) := by
  induction tree generalizing around with
  | num | bool | str | lit | var | ref => rfl
  | cond test consequent alternative ihTest ihConsequent ihAlternative =>
      simp only [contours, List.forall_mem_append] at accepted
      obtain ⟨⟨inTest, inConsequent⟩, inAlternative⟩ := accepted
      rw [addressFrom, ihTest inTest, ihConsequent inConsequent, ihAlternative inAlternative, occurrences,
        List.findSome?_append, List.findSome?_append, resolved]
      simp only [unlessAddressed_map, unlessAddressed_bind, Option.or_assoc]
  | lambda params body ihBody =>
      simp only [contours, contoursAll_eq_flatMap, List.forall_mem_cons, List.forall_mem_flatMap] at accepted
      obtain ⟨ownAccepted, inBody⟩ := accepted
      rw [addressFrom, checkContour_eq_ok_iff.2 ownAccepted, addressAllFrom_eq_mapM, ← Address.visibleIn,
        mapM_unlessAddressed fun form member => ihBody form member (inBody form member), occurrences,
        occurrencesAll_eq_flatMap, resolved, resolvedAll_eq_map]
      exact unlessAddressed_map _ _ _
  | app operator operands ihOperator ihOperands =>
      simp only [contours, contoursAll_eq_flatMap, List.forall_mem_append, List.forall_mem_flatMap] at accepted
      obtain ⟨inOperator, inOperands⟩ := accepted
      rw [addressFrom, ihOperator inOperator, addressAllFrom_eq_mapM,
        mapM_unlessAddressed fun operand member => ihOperands operand member (inOperands operand member),
        occurrences, occurrencesAll_eq_flatMap, List.findSome?_append, resolved, resolvedAll_eq_map]
      simp only [unlessAddressed_map, unlessAddressed_bind]

/-- Resolving references changes no contour. -/
theorem contours_resolved (tree : LexExpr) : (tree.resolved around).contours = tree.contours := by
  induction tree generalizing around with
  | num | bool | str | lit | var | ref => rfl
  | cond test consequent alternative ihTest ihConsequent ihAlternative =>
      rw [resolved, contours, contours, ihTest, ihConsequent, ihAlternative]
  | lambda params body ihBody =>
      rw [resolved, contours, contours, resolvedAll_eq_map, contoursAll_eq_flatMap, contoursAll_eq_flatMap,
        List.flatMap_map]
      congr 1
      exact List.flatMap_congr fun form member => ihBody form member
  | app operator operands ihOperator ihOperands =>
      rw [resolved, contours, contours, resolvedAll_eq_map, contoursAll_eq_flatMap, contoursAll_eq_flatMap,
        List.flatMap_map, ihOperator]
      congr 1
      exact List.flatMap_congr fun operand member => ihOperands operand member

/-- There is nothing to resolve in a tree without references. -/
theorem resolved_eq_self {tree : LexExpr} (plain : tree.occurrences around = []) :
    tree.resolved around = tree := by
  induction tree generalizing around with
  | num | bool | str | lit => rfl
  | var | ref => cases plain
  | cond test consequent alternative ihTest ihConsequent ihAlternative =>
      simp only [occurrences, List.append_eq_nil_iff] at plain
      obtain ⟨⟨inTest, inConsequent⟩, inAlternative⟩ := plain
      rw [resolved, ihTest inTest, ihConsequent inConsequent, ihAlternative inAlternative]
  | lambda params body ihBody =>
      simp only [occurrences, occurrencesAll_eq_flatMap, List.flatMap_eq_nil_iff] at plain
      rw [resolved, resolvedAll_eq_map, map_eq_self fun form member => ihBody form member (plain form member)]
  | app operator operands ihOperator ihOperands =>
      simp only [occurrences, occurrencesAll_eq_flatMap, List.append_eq_nil_iff,
        List.flatMap_eq_nil_iff] at plain
      obtain ⟨inOperator, inOperands⟩ := plain
      rw [resolved, resolvedAll_eq_map, ihOperator inOperator,
        map_eq_self fun operand member => ihOperands operand member (inOperands operand member)]

/-- A tree that has been addressed is refused when it is addressed again, with the address of its first
reference, from left to right. Only a tree without references is accepted; addressing it, and addressing it
again, gives the tree itself. -/
theorem address_addressed {tree addressed : LexExpr} (succeeded : tree.address = .ok addressed) :
    (tree.occurrences [] ≠ [] → ∃ first reference, (addressed.occurrences []).head? = some first ∧
        first.address? = some reference ∧
        addressed.address = .error (.malformed (.addressed reference)) ∧
        (AddressFault.addressed reference).message = "unexpected lexical address " ++ reference.text) ∧
      (tree.occurrences [] = [] → addressed.address = .ok addressed ∧ addressed = tree) := by
  obtain ⟨accepted, rfl⟩ := (@addressFrom_eq_ok_iff [] tree addressed).1 succeeded
  have contoursAccepted : ∀ names ∈ (tree.resolved []).contours, AcceptedContour names := by
    rw [contours_resolved]
    exact accepted.2
  have again : (tree.resolved []).address =
      unlessAddressed (((tree.resolved []).occurrences []).findSome? Occurrence.address?)
        ((tree.resolved []).resolved []) :=
    @addressFrom_eq_unlessAddressed [] (tree.resolved []) contoursAccepted
  rw [again, accepted.occurrences_resolved]
  constructor
  · intro refers
    obtain ⟨first, others, listed⟩ := List.exists_cons_of_ne_nil refers
    rw [listed]
    exact ⟨first.resolved, _, rfl, rfl, rfl, rfl⟩
  · intro plain
    rw [plain, resolved_eq_self plain, resolved_eq_self plain]
    exact ⟨rfl, rfl⟩

/-- The second address in the tree is not reported, and no contour is found at fault before the first. -/
theorem address_addressed_procedure :
    let tree : LexExpr := .cond (.num 1) (.lambda ["a"] [.app (.var "f") [.var "a"]]) (.lit .nil)
    let addressed : LexExpr := .cond (.num 1)
      (.lambda ["a"] [.app (.ref (.free "f")) [.ref (.bound ⟨"a", 0, 0⟩)]]) (.lit .nil)
    let plain : LexExpr := .lambda ["a"] [.str "a"]
    tree.address = .ok addressed ∧ tree.occurrences [] ≠ [] ∧
      addressed.address = .error (.malformed (.addressed (.free "f"))) ∧
      plain.occurrences [] = [] ∧ plain.address = .ok plain := by
  intro tree addressed plain
  have succeeded : tree.address = .ok addressed := rfl
  have refers : tree.occurrences [] ≠ [] := List.cons_ne_nil _ _
  have none : plain.occurrences [] = [] := rfl
  obtain ⟨first, reference, listed, found, refused, -⟩ := (address_addressed succeeded).1 refers
  obtain rfl := Option.some.inj listed
  obtain rfl := Option.some.inj found
  have unchanged : plain.address = .ok plain := rfl
  exact ⟨succeeded, refers, refused, none, ((address_addressed unchanged).2 none).1⟩

end LexExpr

end MiniScheme
