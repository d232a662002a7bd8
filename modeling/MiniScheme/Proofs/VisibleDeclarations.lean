import MiniScheme.Contour.Addressing
import MiniScheme.Proofs.Nameless

/-! # Visible declarations

Going into contours keeps a list of the declarations that are visible, in which hidden ones stay. The first
of them with a name is nevertheless the declaration in the innermost contour that has the name, with the
number of contours in between; so it is found in the contour with the name that one has gone into last.
Contours are accepted when they repeat no name and declare no keyword. -/

namespace MiniScheme

/-! ## Where a name is declared -/

namespace Pointer

/-- A name refers to the contour that declares it when no contour in between does, and there to its first
position. -/
theorem locate_eq_bound_iff {name : String} {contours : List (List String)} {depth position : Nat} :
    locate name contours = .bound depth position ↔
      ∃ between declaring outer, contours = between ++ declaring :: outer ∧ between.length = depth ∧
        name ∉ between.flatten ∧ name ∈ declaring ∧ declaring.idxOf name = position := by
  induction contours generalizing depth with
  | nil => simp [locate]
  | cons names contours ih =>
      rw [locate]
      by_cases here : name ∈ names
      · rw [if_pos here]
        constructor
        · intro found
          obtain ⟨rfl, rfl⟩ := bound.inj found
          exact ⟨[], names, contours, rfl, rfl, by simp, here, rfl⟩
        · rintro ⟨between, declaring, outer, parts, rfl, undeclared, -, rfl⟩
          -- The first contour declares the name, so no contour stands in between.
          cases between with
          | nil =>
              obtain ⟨rfl, rfl⟩ := List.cons.inj parts
              rfl
          | cons first between =>
              obtain ⟨rfl, -⟩ := List.cons.inj parts
              exact absurd (List.mem_append_left _ here) undeclared
      · rw [if_neg here]
        constructor
        · intro found
          cases located : locate name contours with
          | free other =>
              rw [located] at found
              cases found
          | bound less index =>
              rw [located] at found
              obtain ⟨rfl, rfl⟩ := bound.inj found
              obtain ⟨between, declaring, outer, rfl, rfl, undeclared, declared⟩ := ih.1 located
              refine ⟨names :: between, declaring, outer, rfl, Nat.add_comm _ _, ?_, declared⟩
              rw [List.flatten_cons, List.mem_append, not_or]
              exact ⟨here, undeclared⟩
        · rintro ⟨between, declaring, outer, parts, rfl, undeclared, declared, rfl⟩
          cases between with
          | nil =>
              obtain ⟨rfl, -⟩ := List.cons.inj parts
              exact absurd declared here
          | cons first between =>
              obtain ⟨rfl, rfl⟩ := List.cons.inj parts
              rw [List.flatten_cons, List.mem_append, not_or] at undeclared
              rw [ih.2 ⟨between, declaring, outer, rfl, rfl, undeclared.2, declared, rfl⟩, deeper,
                List.length_cons, Nat.add_comm]

end Pointer

/-! ## The list of visible declarations -/

namespace Address

/-- The declarations that are visible inside some contours, the innermost of which comes first. -/
def visibleIn : List (List String) → List Address
  | [] => []
  | names :: outer => crossContour names (visibleIn outer)

/-- The first declaration of a name in its contour is the one that is found. -/
theorem find?_contour (names : List String) (name : String) :
    (names.map fun declared => ({ name := declared, depth := 0, position := names.idxOf declared } :
        Address)).find? (fun address => address.name == name) =
      if name ∈ names then some { name, depth := 0, position := names.idxOf name } else none := by
  have first : names.find? (· == name) = if name ∈ names then some name else none := by
    by_cases declared : name ∈ names
    · rw [if_pos declared]
      cases found : names.find? (· == name) with
      | none => simpa using List.find?_eq_none.1 found name declared
      | some other =>
          have same : other = name := by simpa using List.find?_some found
          rw [same]
    · rw [if_neg declared, List.find?_eq_none]
      intro other member same
      exact declared (eq_of_beq same ▸ member)
  rw [List.find?_map]
  refine (congrArg (Option.map _) first).trans ?_
  by_cases declared : name ∈ names
  · rw [if_pos declared, if_pos declared]
    rfl
  · rw [if_neg declared, if_neg declared]
    rfl

/-- The first visible declaration of a name is the one that the name refers to. -/
theorem find?_visibleIn (name : String) (contours : List (List String)) :
    ((visibleIn contours).find? fun address => address.name == name) =
      match Pointer.locate name contours with
      | .free _ => none
      | .bound depth position => some { name, depth, position } := by
  induction contours with
  | nil => rfl
  | cons names outer ih =>
      -- Going one contour further out changes the depth of a declaration and not its name.
      have further : ((visibleIn outer).map deeper).find? (fun address => address.name == name) =
          ((visibleIn outer).find? fun address => address.name == name).map deeper :=
        List.find?_map
      rw [visibleIn, crossContour, List.find?_append, find?_contour, further, ih, Pointer.locate]
      by_cases here : name ∈ names
      · rw [if_pos here, if_pos here]
        rfl
      · rw [if_neg here, if_neg here, Option.none_or]
        cases Pointer.locate name outer with
        | free other => rfl
        | bound depth position =>
            rw [Pointer.deeper, Nat.add_comm]
            rfl

end Address

namespace Reference

/-- A name resolves to what it refers to inside the contours. -/
theorem resolve_visibleIn (name : String) (contours : List (List String)) :
    resolve name (Address.visibleIn contours) =
      match Pointer.locate name contours with
      | .free _ => .free name
      | .bound depth position => .bound { name, depth, position } := by
  rw [resolve, Address.find?_visibleIn]
  cases Pointer.locate name contours <;> rfl

/-- A name resolves to an address exactly when it refers there. -/
theorem resolve_eq_bound_iff {name : String} {contours : List (List String)} {depth position : Nat} :
    resolve name (Address.visibleIn contours) = .bound { name, depth, position } ↔
      Pointer.locate name contours = .bound depth position := by
  rw [resolve_visibleIn]
  cases Pointer.locate name contours <;> simp

/-- A name resolves as free exactly when no contour declares it. -/
theorem resolve_eq_free_iff {name : String} {contours : List (List String)} :
    resolve name (Address.visibleIn contours) = .free name ↔ name ∉ contours.flatten := by
  rw [resolve_visibleIn]
  by_cases declared : name ∈ contours.flatten
  · obtain ⟨depth, position, located, -⟩ := Pointer.exists_locate_of_mem declared
    simp [located, declared]
  · simp [Pointer.locate_of_notMem declared, declared]

end Reference

/-! ## Going through contours -/

/-- Going into contours one after the other, the outermost first, makes visible what is visible inside
them. -/
theorem Address.foldl_crossContour (contours : List (List String)) :
    contours.foldl (fun visible names => crossContour names visible) [] = visibleIn contours.reverse := by
  have inward (innermostFirst : List (List String)) :
      visibleIn innermostFirst = innermostFirst.foldr crossContour [] := by
    induction innermostFirst with
    | nil => rfl
    | cons names outer ih => rw [visibleIn, List.foldr_cons, ih]
  rw [inward, List.foldr_reverse]

/-- A name of a list has the position at which it stands first. -/
theorem mem_and_idxOf_eq_iff {name : String} {names : List String} {position : Nat} :
    name ∈ names ∧ names.idxOf name = position ↔
      ∃ earlier later, names = earlier ++ name :: later ∧ earlier.length = position ∧ name ∉ earlier := by
  have first {earlier later : List String} (new : name ∉ earlier) :
      (earlier ++ name :: later).idxOf name = earlier.length := by
    rw [List.idxOf_append_of_notMem new, List.idxOf_cons_self, Nat.add_zero]
  constructor
  · rintro ⟨member, rfl⟩
    obtain ⟨earlier, later, rfl, new⟩ := List.eq_append_cons_of_mem member
    exact ⟨earlier, later, rfl, (first new).symm, new⟩
  · rintro ⟨earlier, later, rfl, rfl, new⟩
    exact ⟨List.mem_append_right _ List.mem_cons_self, first new⟩

/-- Whether a name is declared last by a contour with so many contours after it, and first at a position
there. The contours come in the order in which one goes into them. -/
def LastDeclaredAt (name : String) (contours : List (List String)) (depth position : Nat) : Prop :=
  ∃ before declaring after, contours = before ++ declaring :: after ∧ after.length = depth ∧
    (∀ names ∈ after, name ∉ names) ∧
      ∃ earlier later, declaring = earlier ++ name :: later ∧ earlier.length = position ∧ name ∉ earlier

/-- Inside contours that one has gone into, a name refers to where it is declared last. -/
theorem Pointer.locate_reverse_eq_bound_iff {name : String} {contours : List (List String)}
    {depth position : Nat} :
    locate name contours.reverse = .bound depth position ↔
      LastDeclaredAt name contours depth position := by
  rw [locate_eq_bound_iff]
  constructor
  · rintro ⟨between, declaring, outer, parts, rfl, undeclared, declared⟩
    refine ⟨outer.reverse, declaring, between.reverse, ?_, List.length_reverse, ?_,
      mem_and_idxOf_eq_iff.1 declared⟩
    · rw [← contours.reverse_reverse, parts]
      simp
    · simpa using undeclared
  · rintro ⟨before, declaring, after, rfl, rfl, undeclared, declared⟩
    refine ⟨after.reverse, declaring, before.reverse, by simp, List.length_reverse, ?_,
      mem_and_idxOf_eq_iff.2 declared⟩
    simpa using undeclared

namespace Reference

/-- After one has gone into contours, the outermost first, a name is free exactly when none of them declares
it. Otherwise it is bound, and exactly to the first position in the contour that declares it last, with as
many contours in between as one has gone into after it. -/
theorem resolve_foldl_crossContour (name : String) (contours : List (List String)) :
    let visible := contours.foldl (fun visible names => Address.crossContour names visible) []
    (resolve name visible = .free name ↔ ∀ names ∈ contours, name ∉ names) ∧
      ((∃ names ∈ contours, name ∈ names) →
        ∃ depth position, resolve name visible = .bound { name, depth, position }) ∧
      ∀ depth position, resolve name visible = .bound { name, depth, position } ↔
        LastDeclaredAt name contours depth position := by
  intro visible
  have inside : visible = Address.visibleIn contours.reverse := Address.foldl_crossContour contours
  rw [inside]
  refine ⟨?_, ?_, fun depth position => ?_⟩
  · rw [resolve_eq_free_iff]
    simp
  · rintro ⟨names, member, declared⟩
    have declared : name ∈ contours.reverse.flatten :=
      List.mem_flatten.2 ⟨names, List.mem_reverse.2 member, declared⟩
    obtain ⟨depth, position, located, -⟩ := Pointer.exists_locate_of_mem declared
    exact ⟨depth, position, resolve_eq_bound_iff.2 located⟩
  · rw [resolve_eq_bound_iff, Pointer.locate_reverse_eq_bound_iff]

/-- The second contour hides what the first declares, and a name that it repeats has its first position. -/
theorem resolve_foldl_crossContour_repeated :
    let contours := [["x", "y"], ["a", "x", "b", "x"], ["z", "z"]]
    let visible := contours.foldl (fun visible names => Address.crossContour names visible) []
    resolve "x" visible = .bound ⟨"x", 1, 1⟩ ∧ (∃ names ∈ contours, "x" ∈ names) ∧
      (∃ depth position, resolve "x" visible = .bound ⟨"x", depth, position⟩) ∧
      LastDeclaredAt "x" contours 1 1 := by
  intro contours visible
  have declared : ∃ names ∈ contours, "x" ∈ names := by decide
  have bound : resolve "x" visible = .bound ⟨"x", 1, 1⟩ := by decide
  obtain ⟨-, exists_bound, bound_iff⟩ := resolve_foldl_crossContour "x" contours
  exact ⟨bound, declared, exists_bound declared, (bound_iff 1 1).1 bound⟩

end Reference

/-! ## Accepted contours -/

/-- Whether a contour repeats no name and declares no keyword of a primitive operator. -/
def AcceptedContour (names : List String) : Prop :=
  names.Nodup ∧ ∀ name ∈ names, Primitive.ofKeyword? name = none

/-- Among names without keywords there is no keyword of an operator. -/
theorem Primitive.keyword_notMem {names : List String} (noKeyword : ∀ name ∈ names, ofKeyword? name = none)
    (op : Primitive) : op.keyword ∉ names := by
  intro declared
  have none := noKeyword op.keyword declared
  rw [ofKeyword?_keyword] at none
  cases none

/-- No name is repeated exactly among distinct names. -/
theorem firstRepeated?_eq_none_iff {names : List String} :
    firstRepeated? names = none ↔ names.Nodup := by
  -- The names before must be remembered, so the induction is for any of them.
  have apart (seen : List String) :
      firstRepeated?.go seen names = none ↔ names.Nodup ∧ ∀ name ∈ names, name ∉ seen := by
    induction names generalizing seen with
    | nil => simp [firstRepeated?.go]
    | cons name names ih =>
        rw [firstRepeated?.go, List.nodup_cons, List.forall_mem_cons]
        by_cases known : name ∈ seen
        · simp [known]
        · rw [if_neg known, ih]
          simp only [List.mem_cons, not_or, forall_and]
          constructor
          · rintro ⟨distinct, new, unseen⟩
            exact ⟨⟨fun member => new name member rfl, distinct⟩, known, unseen⟩
          · rintro ⟨⟨notAmong, distinct⟩, -, unseen⟩
            exact ⟨distinct, fun other member same => notAmong (same ▸ member), unseen⟩
  rw [firstRepeated?, apart]
  simp

/-- The contours that pass the check are those that are accepted. -/
theorem checkContour_eq_ok_iff {names : List String} :
    checkContour names = .ok () ↔ AcceptedContour names := by
  rw [AcceptedContour, ← firstRepeated?_eq_none_iff, checkContour]
  cases firstRepeated? names with
  | some repeated => simp
  | none =>
      cases found : names.find? fun name => (Primitive.ofKeyword? name).isSome with
      | none =>
          rw [List.find?_eq_none] at found
          simpa using found
      | some name =>
          have keyword := List.find?_some found
          have member := List.mem_of_find?_eq_some found
          simp only [reduceCtorEq, true_and, false_iff]
          intro plain
          rw [plain name member] at keyword
          cases keyword

end MiniScheme
