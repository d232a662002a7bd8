import Mathlib.Data.List.Nodup
import MiniScheme.Primitive.Basic

/-! # Nameless trees

Expressions in which no declaration has a name. A contour keeps only the number of the names that it
declares, and a reference points either to a free name or to a declaration, by the number of contours
between the two and by the position in the contour. Two expressions that differ only in declared names
have the same nameless tree. Operations that change references and nothing else are instances of
`Nameless.mapRefs`: replacing free names, closing a tree under contours, and filling the references to
contours around a tree with what stands there. -/

namespace MiniScheme

/-- A function that changes no element of a list does not change the list. -/
theorem map_eq_self {α : Type} {f : α → α} {items : List α} (each : ∀ item ∈ items, f item = item) :
    items.map f = items :=
  (List.map_congr_left each).trans (List.map_id' items)

/-- What a reference refers to. -/
inductive Pointer where
  /-- A name that no contour around the reference declares. -/
  | free (name : String)
  /-- The declaration at a position of the contour that lies behind so many others. -/
  | bound (depth position : Nat)
  deriving DecidableEq, Repr

namespace Pointer

/-- The same declaration, seen from inside so many more contours. -/
def deeper (count : Nat) : Pointer → Pointer
  | .free name => .free name
  | .bound depth position => .bound (count + depth) position

/-- Whether the pointer is free or points into contours that declare so many names each. -/
def InScope (arities : List Nat) : Pointer → Prop
  | .free _ => True
  | .bound depth position => ∃ arity, arities[depth]? = some arity ∧ position < arity

end Pointer

/-- An expression without the names of its declarations, with literals of some type. -/
inductive Nameless (α : Type) : Type where
  /-- A number. -/
  | num (value : Float)
  /-- A truth value. -/
  | bool (value : Bool)
  /-- A string. -/
  | str (value : String)
  /-- A reference. -/
  | ref (pointer : Pointer)
  /-- A literal. -/
  | lit (value : α)
  /-- A primitive operator. -/
  | prim (op : Primitive)
  /-- A conditional. -/
  | cond (test consequent alternative : Nameless α)
  /-- A procedure with the number of its parameters and the forms of its body. -/
  | lambda (arity : Nat) (body : List (Nameless α))
  /-- An application of an operator to operands. -/
  | app (operator : Nameless α) (operands : List (Nameless α))
  /-- Local bindings; the contour of the body has one name for each bound expression. -/
  | letIn (values body : List (Nameless α))
  /-- A definition of a global name. -/
  | define (name : String) (value : Nameless α)

namespace Nameless

variable {α : Type}

/-- Induction on nameless trees that looks into lists of sub-trees. -/
@[induction_eliminator, elab_as_elim]
theorem induction {motive : Nameless α → Prop}
    (num : ∀ value, motive (.num value))
    (bool : ∀ value, motive (.bool value))
    (str : ∀ value, motive (.str value))
    (ref : ∀ pointer, motive (.ref pointer))
    (lit : ∀ value, motive (.lit value))
    (prim : ∀ op, motive (.prim op))
    (cond : ∀ test consequent alternative, motive test → motive consequent → motive alternative →
      motive (.cond test consequent alternative))
    (lambda : ∀ arity body, (∀ form ∈ body, motive form) → motive (.lambda arity body))
    (app : ∀ operator operands, motive operator → (∀ operand ∈ operands, motive operand) →
      motive (.app operator operands))
    (letIn : ∀ values body, (∀ value ∈ values, motive value) → (∀ form ∈ body, motive form) →
      motive (.letIn values body))
    (define : ∀ name value, motive value → motive (.define name value))
    (tree : Nameless α) : motive tree :=
  @Nameless.rec α motive (fun trees => ∀ tree ∈ trees, motive tree)
    num bool str ref lit prim cond lambda app letIn define
    (by simp) (fun _ _ head tail => List.forall_mem_cons.2 ⟨head, tail⟩) tree

/-! ## Changing references -/

mutual

/-- Replaces every reference by what a function makes of it. The function is also given the number of
contours around the reference, counted from the given number on. -/
def mapRefs (change : Nat → Pointer → Nameless α) (depth : Nat) : Nameless α → Nameless α
  | .num value => .num value
  | .bool value => .bool value
  | .str value => .str value
  | .ref pointer => change depth pointer
  | .lit value => .lit value
  | .prim op => .prim op
  | .cond test consequent alternative =>
      .cond (mapRefs change depth test) (mapRefs change depth consequent)
        (mapRefs change depth alternative)
  | .lambda arity body => .lambda arity (mapRefsAll change (depth + 1) body)
  | .app operator operands =>
      .app (mapRefs change depth operator) (mapRefsAll change depth operands)
  | .letIn values body =>
      .letIn (mapRefsAll change depth values) (mapRefsAll change (depth + 1) body)
  | .define name value => .define name (mapRefs change depth value)

/-- Replaces every reference of a list of trees. -/
def mapRefsAll (change : Nat → Pointer → Nameless α) (depth : Nat) :
    List (Nameless α) → List (Nameless α)
  | [] => []
  | tree :: trees => mapRefs change depth tree :: mapRefsAll change depth trees

end

/-- Changing the references of a list changes those of each tree. -/
@[simp] theorem mapRefsAll_eq_map (change : Nat → Pointer → Nameless α) (depth : Nat)
    (trees : List (Nameless α)) :
    mapRefsAll change depth trees = trees.map (mapRefs change depth) := by
  induction trees with
  | nil => rfl
  | cons _ _ ih => simp only [mapRefsAll, List.map_cons, ih]

/-- Two changes one after the other are one change, also where the first counts from some contours
more. -/
theorem mapRefs_mapRefs (first second : Nat → Pointer → Nameless α) (depth more : Nat)
    (tree : Nameless α) :
    (tree.mapRefs first (depth + more)).mapRefs second depth =
      tree.mapRefs (fun depth pointer => (first (depth + more) pointer).mapRefs second depth)
        depth := by
  -- The depth grows under contours, so the induction is for every depth.
  induction tree generalizing depth with
  | num | bool | str | ref | lit | prim => rfl
  | cond test consequent alternative ihTest ihConsequent ihAlternative =>
      simp only [mapRefs, ihTest, ihConsequent, ihAlternative]
  | lambda arity body ihBody =>
      simp only [mapRefs, mapRefsAll_eq_map, List.map_map, Nat.add_right_comm depth more 1]
      congr 1
      exact List.map_congr_left fun form member => ihBody form member (depth + 1)
  | app operator operands ihOperator ihOperands =>
      simp only [mapRefs, mapRefsAll_eq_map, List.map_map, ihOperator]
      congr 1
      exact List.map_congr_left fun operand member => ihOperands operand member depth
  | letIn values body ihValues ihBody =>
      simp only [mapRefs, mapRefsAll_eq_map, List.map_map, Nat.add_right_comm depth more 1]
      congr 1
      · exact List.map_congr_left fun value member => ihValues value member depth
      · exact List.map_congr_left fun form member => ihBody form member (depth + 1)
  | define name value ihValue => simp only [mapRefs, ihValue]

/-- Changing no reference changes nothing. -/
@[simp] theorem mapRefs_ref (depth : Nat) (tree : Nameless α) :
    tree.mapRefs (fun _ pointer => .ref pointer) depth = tree := by
  induction tree generalizing depth with
  | num | bool | str | ref | lit | prim => rfl
  | cond test consequent alternative ihTest ihConsequent ihAlternative =>
      simp only [mapRefs, ihTest, ihConsequent, ihAlternative]
  | lambda arity body ihBody =>
      simp only [mapRefs, mapRefsAll_eq_map]
      rw [map_eq_self fun form member => ihBody form member (depth + 1)]
  | app operator operands ihOperator ihOperands =>
      simp only [mapRefs, mapRefsAll_eq_map, ihOperator]
      rw [map_eq_self fun operand member => ihOperands operand member depth]
  | letIn values body ihValues ihBody =>
      simp only [mapRefs, mapRefsAll_eq_map]
      rw [map_eq_self fun value member => ihValues value member depth,
        map_eq_self fun form member => ihBody form member (depth + 1)]
  | define name value ihValue => simp only [mapRefs, ihValue]

/-! ## Free names -/

mutual

/-- The free names of a tree, one entry for each reference. -/
def freeNames : Nameless α → List String
  | .ref (.free name) => [name]
  | .ref (.bound _ _) | .num _ | .bool _ | .str _ | .lit _ | .prim _ => []
  | .cond test consequent alternative =>
      freeNames test ++ freeNames consequent ++ freeNames alternative
  | .lambda _ body => freeNamesAll body
  | .app operator operands => freeNames operator ++ freeNamesAll operands
  | .letIn values body => freeNamesAll values ++ freeNamesAll body
  | .define _ value => freeNames value

/-- The free names of a list of trees. -/
def freeNamesAll : List (Nameless α) → List String
  | [] => []
  | tree :: trees => freeNames tree ++ freeNamesAll trees

end

/-- The free names of a list are those of its trees. -/
@[simp] theorem freeNamesAll_eq_flatMap (trees : List (Nameless α)) :
    freeNamesAll trees = trees.flatMap freeNames := by
  induction trees with
  | nil => rfl
  | cons _ _ ih => simp only [freeNamesAll, List.flatMap_cons, ih]

/-! ## Scopes -/

mutual

/-- Whether every reference that is not free points to a declaration, in a contour of the tree or in
one of the contours around it, which declare so many names each. -/
def Scoped (arities : List Nat) : Nameless α → Prop
  | .ref pointer => pointer.InScope arities
  | .num _ | .bool _ | .str _ | .lit _ | .prim _ => True
  | .cond test consequent alternative =>
      Scoped arities test ∧ Scoped arities consequent ∧ Scoped arities alternative
  | .lambda arity body => ScopedAll (arity :: arities) body
  | .app operator operands => Scoped arities operator ∧ ScopedAll arities operands
  | .letIn values body => ScopedAll arities values ∧ ScopedAll (values.length :: arities) body
  | .define _ value => Scoped arities value

/-- Whether all references of a list of trees point to declarations. -/
def ScopedAll (arities : List Nat) : List (Nameless α) → Prop
  | [] => True
  | tree :: trees => Scoped arities tree ∧ ScopedAll arities trees

end

/-- The references of a list are in scope when those of each tree are. -/
@[simp] theorem scopedAll_iff (arities : List Nat) (trees : List (Nameless α)) :
    ScopedAll arities trees ↔ ∀ tree ∈ trees, tree.Scoped arities := by
  induction trees with
  | nil => simp [ScopedAll]
  | cons _ _ ih => simp only [ScopedAll, List.forall_mem_cons, ih]

/-- Two changes that agree on the free names of a tree and on pointers into its own contours have the
same result. -/
theorem mapRefs_congr {first second : Nat → Pointer → Nameless α} {arities : List Nat}
    {tree : Nameless α} (inScope : tree.Scoped arities)
    (free : ∀ depth, ∀ name ∈ tree.freeNames, first depth (.free name) = second depth (.free name))
    (bound : ∀ depth inner position, inner < depth →
      first depth (.bound inner position) = second depth (.bound inner position)) :
    tree.mapRefs first arities.length = tree.mapRefs second arities.length := by
  induction tree generalizing arities with
  | num | bool | str | lit | prim => rfl
  | ref pointer =>
      cases pointer with
      | free name => exact free _ name (by simp [freeNames])
      | bound depth position =>
          -- A bound pointer in scope points into one of the contours around it.
          obtain ⟨arity, found, -⟩ := inScope
          exact bound _ _ _ (List.getElem?_eq_some_iff.1 found).1
  | cond test consequent alternative ihTest ihConsequent ihAlternative =>
      obtain ⟨scopedTest, scopedConsequent, scopedAlternative⟩ := inScope
      simp only [freeNames, List.mem_append] at free
      simp only [mapRefs,
        ihTest scopedTest fun depth name member => free depth name (.inl (.inl member)),
        ihConsequent scopedConsequent fun depth name member => free depth name (.inl (.inr member)),
        ihAlternative scopedAlternative fun depth name member => free depth name (.inr member)]
  | lambda arity body ihBody =>
      simp only [Scoped, scopedAll_iff] at inScope
      simp only [freeNames, freeNamesAll_eq_flatMap, List.mem_flatMap] at free
      simp only [mapRefs, mapRefsAll_eq_map]
      congr 1
      exact List.map_congr_left fun form member =>
        ihBody form member (inScope form member) fun depth name found =>
          free depth name ⟨form, member, found⟩
  | app operator operands ihOperator ihOperands =>
      simp only [Scoped, scopedAll_iff] at inScope
      simp only [freeNames, freeNamesAll_eq_flatMap, List.mem_append, List.mem_flatMap] at free
      simp only [mapRefs, mapRefsAll_eq_map,
        ihOperator inScope.1 fun depth name member => free depth name (.inl member)]
      congr 1
      exact List.map_congr_left fun operand member =>
        ihOperands operand member (inScope.2 operand member) fun depth name found =>
          free depth name (.inr ⟨operand, member, found⟩)
  | letIn values body ihValues ihBody =>
      simp only [Scoped, scopedAll_iff] at inScope
      simp only [freeNames, freeNamesAll_eq_flatMap, List.mem_append, List.mem_flatMap] at free
      simp only [mapRefs, mapRefsAll_eq_map]
      congr 1
      · exact List.map_congr_left fun value member =>
          ihValues value member (inScope.1 value member) fun depth name found =>
            free depth name (.inl ⟨value, member, found⟩)
      · exact List.map_congr_left fun form member =>
          ihBody form member (inScope.2 form member) fun depth name found =>
            free depth name (.inr ⟨form, member, found⟩)
  | define name value ihValue => simp only [mapRefs, ihValue inScope free]

/-- A tree whose references are in scope stays so with more contours around it. -/
theorem Scoped.append {arities : List Nat} {tree : Nameless α} (inScope : tree.Scoped arities)
    (more : List Nat) : tree.Scoped (arities ++ more) := by
  -- The further contours stand outside, so no pointer into the others changes.
  induction tree generalizing arities with
  | num | bool | str | lit | prim => trivial
  | ref pointer =>
      cases pointer with
      | free name => trivial
      | bound depth position =>
          obtain ⟨arity, found, less⟩ := inScope
          have known := (List.getElem?_eq_some_iff.1 found).1
          exact ⟨arity, by rw [List.getElem?_append_left known, found], less⟩
  | cond test consequent alternative ihTest ihConsequent ihAlternative =>
      obtain ⟨scopedTest, scopedConsequent, scopedAlternative⟩ := inScope
      exact ⟨ihTest scopedTest, ihConsequent scopedConsequent, ihAlternative scopedAlternative⟩
  | lambda arity body ihBody =>
      simp only [Scoped, scopedAll_iff] at inScope ⊢
      intro form member
      exact ihBody form member (inScope form member)
  | app operator operands ihOperator ihOperands =>
      simp only [Scoped, scopedAll_iff] at inScope ⊢
      exact ⟨ihOperator inScope.1, fun operand member =>
        ihOperands operand member (inScope.2 operand member)⟩
  | letIn values body ihValues ihBody =>
      simp only [Scoped, scopedAll_iff] at inScope ⊢
      exact ⟨fun value member => ihValues value member (inScope.1 value member),
        fun form member => ihBody form member (inScope.2 form member)⟩
  | define name value ihValue => exact ihValue inScope

end Nameless

/-! ## Replacing, closing and filling -/

/-- Looking up a name among converted items. -/
theorem lookup_map {β γ : Type} (convert : β → γ) (entries : List (String × β)) (name : String) :
    (entries.map fun entry => (entry.1, convert entry.2)).lookup name =
      (entries.lookup name).map convert := by
  induction entries with
  | nil => rfl
  | cons entry entries ih =>
      rw [List.map_cons, List.lookup_cons, List.lookup_cons, ih]
      cases name == entry.1 <;> rfl

/-- The item that belongs to a name in two parallel lists, the first one if the name is repeated. -/
theorem lookup_zip {β : Type} (names : List String) (items : List β) (name : String) :
    (names.zip items).lookup name = if name ∈ names then items[names.idxOf name]? else none := by
  induction names generalizing items with
  | nil => rfl
  | cons first names ih =>
      cases items with
      | nil => simp
      | cons item items =>
          -- The first pair decides if it has the name; else the position moves by one.
          by_cases same : name = first
          · subst same
            simp
          · have unequal : (name == first) = false := by simpa using same
            rw [List.zip_cons_cons, List.lookup_cons, unequal, ih,
              List.idxOf_cons_ne _ (Ne.symm same)]
            simp [same]

namespace Pointer

variable {α : Type}

/-- What becomes of a pointer when free names are replaced. Where a name has several replacements, the
first counts. -/
def replace (replacements : List (String × Nameless α)) : Pointer → Nameless α
  | .free name => (replacements.lookup name).getD (.ref (.free name))
  | pointer => .ref pointer

/-- The declaration that a name refers to inside some contours, the innermost of which comes first. -/
def locate (name : String) : List (List String) → Pointer
  | [] => .free name
  | names :: outer =>
      if name ∈ names then .bound 0 (names.idxOf name) else (locate name outer).deeper 1

/-- What becomes of a pointer inside so many contours when some contours are put around these. -/
def enclose (contours : List (List String)) (depth : Nat) : Pointer → Pointer
  | .free name => (locate name contours).deeper depth
  | pointer => pointer

/-- What becomes of a pointer inside so many contours when trees are put in place of the declarations
around these. -/
def fill (frames : List (List (Nameless α))) (depth : Nat) : Pointer → Nameless α
  | .bound inner position =>
      if inner < depth then .ref (.bound inner position)
      else (frames[inner - depth]?.bind (·[position]?)).getD (.ref (.bound inner position))
  | pointer => .ref pointer

/-- A name that no contour declares is free. -/
theorem locate_of_notMem {name : String} {contours : List (List String)}
    (undeclared : name ∉ contours.flatten) : locate name contours = .free name := by
  induction contours with
  | nil => rfl
  | cons names outer ih =>
      rw [List.flatten_cons, List.mem_append, not_or] at undeclared
      rw [locate, if_neg undeclared.1, ih undeclared.2, deeper]

/-- A declared name is bound in one of the contours. -/
theorem exists_locate_of_mem {name : String} {contours : List (List String)}
    (declared : name ∈ contours.flatten) :
    ∃ depth position, locate name contours = .bound depth position ∧ depth < contours.length := by
  induction contours with
  | nil => simp at declared
  | cons names outer ih =>
      rw [locate]
      by_cases here : name ∈ names
      · exact ⟨0, names.idxOf name, if_pos here, Nat.zero_lt_succ _⟩
      · rw [List.flatten_cons, List.mem_append] at declared
        obtain ⟨depth, position, found, less⟩ := ih (declared.resolve_left here)
        refine ⟨1 + depth, position, ?_, ?_⟩
        · rw [if_neg here, found, deeper]
        · rw [List.length_cons]
          omega

/-- Contours around others matter for the names only that these do not declare. -/
theorem locate_append (name : String) (inner outer : List (List String)) :
    locate name (inner ++ outer) =
      if name ∈ inner.flatten then locate name inner
      else (locate name outer).deeper inner.length := by
  induction inner with
  | nil => cases found : locate name outer <;> simp [found, deeper]
  | cons names inner ih =>
      rw [List.cons_append, locate, locate, ih]
      -- The name is declared here, or further in, or not by the inner contours at all.
      by_cases here : name ∈ names
      · simp [here]
      · by_cases further : name ∈ inner.flatten
        · simp [here, further]
        · rw [if_neg here, if_neg further, if_neg (by simp [here, further])]
          cases found : locate name outer with
          | free name => rfl
          | bound depth position =>
              simp only [deeper, List.length_cons, bound.injEq, and_true]
              omega

/-- What a name refers to is in the scope of the contours. -/
theorem inScope_locate (name : String) (contours : List (List String)) :
    (locate name contours).InScope (contours.map List.length) := by
  induction contours with
  | nil => trivial
  | cons names outer ih =>
      rw [locate]
      by_cases here : name ∈ names
      · rw [if_pos here]
        exact ⟨names.length, rfl, List.idxOf_lt_length_of_mem here⟩
      · rw [if_neg here]
        cases found : locate name outer with
        | free name => trivial
        | bound depth position =>
            rw [found] at ih
            simpa [deeper, InScope, Nat.add_comm 1 depth] using ih

end Pointer

namespace Nameless

variable {α : Type}

/-- Replaces free names at once. The replacements have no reference to contours around them, and a free
name in them stays free, so that nothing is captured. -/
def replaceFree (replacements : List (String × Nameless α)) (tree : Nameless α) : Nameless α :=
  tree.mapRefs (fun _ pointer => pointer.replace replacements) 0

/-- Puts contours around the contours of a tree, which are so many. -/
def close (contours : List (List String)) (depth : Nat) (tree : Nameless α) : Nameless α :=
  tree.mapRefs (fun depth pointer => .ref (pointer.enclose contours depth)) depth

/-- Puts trees in place of the declarations around the contours of a tree, which are so many. -/
def fill (frames : List (List (Nameless α))) (depth : Nat) (tree : Nameless α) : Nameless α :=
  tree.mapRefs (Pointer.fill frames) depth

/-- If each tree of a list passes its free names on in the same way, so does the list. -/
theorem mem_flatMap_freeNames_map {change : Nameless α → Nameless α} {trees : List (Nameless α)}
    {name : String} {passed : String → Prop}
    (each : ∀ tree ∈ trees, (name ∈ (change tree).freeNames ↔ ∃ old ∈ tree.freeNames, passed old)) :
    name ∈ (trees.map change).flatMap freeNames ↔
      ∃ old ∈ trees.flatMap freeNames, passed old := by
  simp only [List.mem_flatMap, List.mem_map]
  constructor
  · rintro ⟨_, ⟨tree, member, rfl⟩, found⟩
    obtain ⟨old, free, here⟩ := (each tree member).1 found
    exact ⟨old, ⟨tree, member, free⟩, here⟩
  · rintro ⟨old, ⟨tree, member, free⟩, here⟩
    exact ⟨_, ⟨tree, member, rfl⟩, (each tree member).2 ⟨old, free, here⟩⟩

/-- After a replacement, the free names are those of what has come in place of the free names. -/
theorem mem_freeNames_replaceFree {replacements : List (String × Nameless α)} {tree : Nameless α}
    {name : String} :
    name ∈ (tree.replaceFree replacements).freeNames ↔
      ∃ old ∈ tree.freeNames, name ∈ ((Pointer.free old).replace replacements).freeNames := by
  rw [replaceFree]
  generalize 0 = depth
  induction tree generalizing depth with
  | num | bool | str | lit | prim => simp [mapRefs, freeNames]
  | ref pointer => cases pointer <;> simp [mapRefs, freeNames, Pointer.replace]
  | cond test consequent alternative ihTest ihConsequent ihAlternative =>
      simp only [mapRefs, freeNames, List.mem_append, ihTest, ihConsequent, ihAlternative,
        or_and_right, exists_or]
  | lambda arity body ihBody =>
      simp only [mapRefs, mapRefsAll_eq_map, freeNames, freeNamesAll_eq_flatMap]
      exact mem_flatMap_freeNames_map fun form member => ihBody form member (depth + 1)
  | app operator operands ihOperator ihOperands =>
      simp only [mapRefs, mapRefsAll_eq_map, freeNames, freeNamesAll_eq_flatMap, List.mem_append,
        ihOperator, or_and_right, exists_or]
      rw [mem_flatMap_freeNames_map fun operand member => ihOperands operand member depth]
  | letIn values body ihValues ihBody =>
      simp only [mapRefs, mapRefsAll_eq_map, freeNames, freeNamesAll_eq_flatMap, List.mem_append,
        or_and_right, exists_or]
      rw [mem_flatMap_freeNames_map fun value member => ihValues value member depth,
        mem_flatMap_freeNames_map fun form member => ihBody form member (depth + 1)]
  | define name value ihValue => simpa only [mapRefs, freeNames] using ihValue depth

/-! ### Parameters as free names -/

variable {names : List String} {trees : List (Nameless α)}

/-- Replacing names through intermediate names that are distinct and not free in the tree. -/
theorem replaceFree_replaceFree {fresh : List String} {tree : Nameless α} (inScope : tree.Scoped [])
    (sameLength : names.length = fresh.length) (sameNumber : names.length = trees.length)
    (distinct : fresh.Nodup) (unused : ∀ name ∈ fresh, name ∉ tree.freeNames) :
    (tree.replaceFree (names.zip (fresh.map fun name => .ref (.free name)))).replaceFree
        (fresh.zip trees) =
      tree.replaceFree (names.zip trees) := by
  rw [replaceFree, replaceFree, replaceFree, ← Nat.add_zero 0, mapRefs_mapRefs]
  refine mapRefs_congr inScope ?_ fun _ _ _ _ => rfl
  intro depth name free
  -- A replaced name goes to the fresh name at its position, and from there to the tree there.
  by_cases declared : name ∈ names
  · have known : names.idxOf name < fresh.length := sameLength ▸ List.idxOf_lt_length_of_mem declared
    have given : names.idxOf name < trees.length :=
      sameNumber ▸ List.idxOf_lt_length_of_mem declared
    simp only [Pointer.replace, lookup_zip, if_pos declared, List.getElem?_map,
      List.getElem?_eq_getElem known, List.getElem?_eq_getElem given, Option.map_some,
      Option.getD_some, mapRefs, if_pos (List.getElem_mem known), distinct.idxOf_getElem]
  · have other : name ∉ fresh := fun member => unused name member free
    simp only [Pointer.replace, lookup_zip, if_neg declared, Option.getD_none, mapRefs,
      if_neg other]

/-- Renaming free names and then declaring the new names is declaring the old ones, if the new names are
distinct and not free in the tree. -/
theorem close_replaceFree {fresh : List String} {tree : Nameless α} (inScope : tree.Scoped [])
    (sameLength : names.length = fresh.length) (distinct : fresh.Nodup)
    (unused : ∀ name ∈ fresh, name ∉ tree.freeNames) :
    (tree.replaceFree (names.zip (fresh.map fun name => .ref (.free name)))).close [fresh] 0 =
      tree.close [names] 0 := by
  rw [close, close, replaceFree, ← Nat.add_zero 0, mapRefs_mapRefs]
  refine mapRefs_congr inScope ?_ fun _ _ _ _ => rfl
  intro depth name free
  -- The fresh name is at the position in its contour that the old name had.
  by_cases declared : name ∈ names
  · have known : names.idxOf name < fresh.length := sameLength ▸ List.idxOf_lt_length_of_mem declared
    simp only [Pointer.replace, lookup_zip, if_pos declared, List.getElem?_map,
      List.getElem?_eq_getElem known, Option.map_some, Option.getD_some, mapRefs, Pointer.enclose,
      Pointer.locate, if_pos (List.getElem_mem known), distinct.idxOf_getElem]
  · have other : name ∉ fresh := fun member => unused name member free
    simp only [Pointer.replace, lookup_zip, if_neg declared, Option.getD_none, mapRefs,
      Pointer.enclose, Pointer.locate, if_neg other]

/-- Declaring names and filling the references to them is replacing the names. -/
theorem fill_close {tree : Nameless α} (inScope : tree.Scoped [])
    (sameNumber : names.length = trees.length) :
    (tree.close [names] 0).fill [trees] 0 = tree.replaceFree (names.zip trees) := by
  rw [close, fill, replaceFree, ← Nat.add_zero 0, mapRefs_mapRefs]
  refine mapRefs_congr inScope ?_ ?_
  · intro depth name _
    -- A declared name is found by its position, in the contour and then in the frame.
    by_cases declared : name ∈ names
    · have given : names.idxOf name < trees.length :=
        sameNumber ▸ List.idxOf_lt_length_of_mem declared
      simp [Pointer.replace, lookup_zip, declared, mapRefs, Pointer.enclose, Pointer.locate,
        Pointer.deeper, Pointer.fill, List.getElem?_eq_getElem given]
    · simp [Pointer.replace, lookup_zip, declared, mapRefs, Pointer.enclose, Pointer.locate,
        Pointer.deeper, Pointer.fill]
  · intro depth inner position less
    simp [mapRefs, Pointer.enclose, Pointer.fill, Pointer.replace, less]

/-! ### Filling in steps -/

variable {frames : List (List (Nameless α))}

/-- A tree without references to contours around it stays as it is. -/
theorem Scoped.fill_eq_self {tree : Nameless α} (closed : tree.Scoped [])
    (frames : List (List (Nameless α))) (depth : Nat) : tree.fill frames depth = tree := by
  -- Inside any number of empty contours the tree has still no pointer out of its own contours.
  have inScope : tree.Scoped (List.replicate depth 0) := closed.append _
  have unchanged := @mapRefs_congr α (Pointer.fill frames) (fun _ pointer => .ref pointer) _ _ inScope
    (fun _ _ _ => rfl) (fun _ _ _ less => if_pos less)
  rw [List.length_replicate, mapRefs_ref] at unchanged
  exact unchanged

/-- What comes in place of a reference into a contour stands in one of the frames. -/
theorem exists_mem_of_bind_eq_some {depth position : Nat} {tree : Nameless α}
    (found : frames[depth]?.bind (·[position]?) = some tree) :
    ∃ frame ∈ frames, tree ∈ frame := by
  obtain ⟨frame, here, there⟩ := Option.bind_eq_some_iff.1 found
  exact ⟨frame, List.mem_of_getElem? here, List.mem_of_getElem? there⟩

/-- Filling the references to the outer contours first, and then those to the innermost one, is filling
all of them at once, if what is filled in has no references to contours. -/
theorem fill_fill (closed : ∀ frame ∈ frames, ∀ tree ∈ frame, tree.Scoped [])
    (arguments : List (Nameless α)) (depth : Nat) (tree : Nameless α) :
    (tree.fill frames (depth + 1)).fill [arguments] depth =
      tree.fill (arguments :: frames) depth := by
  rw [fill, fill, fill, mapRefs_mapRefs]
  congr 1
  funext depth pointer
  cases pointer with
  | free name => rfl
  | bound inner position =>
      by_cases own : inner < depth
      · simp only [Pointer.fill, mapRefs, if_pos own, if_pos (Nat.lt_succ_of_lt own)]
      by_cases innermost : inner = depth
      · subst innermost
        simp [Pointer.fill, mapRefs]
      -- Here the reference is to one of the outer contours.
      obtain ⟨outer, rfl⟩ : ∃ outer, inner = depth + 1 + outer := ⟨inner - (depth + 1), by omega⟩
      have less : depth + 1 + outer - depth = outer + 1 := by omega
      rw [Pointer.fill, Pointer.fill, if_neg (by omega), if_neg own, Nat.add_sub_cancel_left, less,
        List.getElem?_cons_succ]
      cases found : frames[outer]?.bind (·[position]?) with
      | some tree =>
          obtain ⟨frame, inFrames, inFrame⟩ := exists_mem_of_bind_eq_some found
          exact (closed frame inFrames tree inFrame).fill_eq_self [arguments] depth
      | none =>
          rw [Option.getD_none, mapRefs, Pointer.fill, if_neg own, less]
          rfl

/-- After filling, references are in scope of the contours that are left. -/
theorem Scoped.fill {arities : List Nat} {tree : Nameless α}
    (inScope : tree.Scoped (arities ++ frames.map List.length))
    (closed : ∀ frame ∈ frames, ∀ tree ∈ frame, tree.Scoped []) :
    (tree.fill frames arities.length).Scoped arities := by
  rw [Nameless.fill]
  induction tree generalizing arities with
  | num | bool | str | lit | prim => trivial
  | ref pointer =>
      cases pointer with
      | free name => trivial
      | bound depth position =>
          obtain ⟨arity, found, less⟩ := inScope
          rw [mapRefs, Pointer.fill]
          -- A pointer into a contour that is left stays; any other is filled with a closed tree.
          by_cases own : depth < arities.length
          · rw [if_pos own]
            exact ⟨arity, by rwa [List.getElem?_append_left own] at found, less⟩
          · rw [if_neg own]
            rw [List.getElem?_append_right (Nat.le_of_not_lt own), List.getElem?_map] at found
            obtain ⟨frame, here, rfl⟩ := Option.map_eq_some_iff.1 found
            rw [here, Option.bind_some, List.getElem?_eq_getElem less, Option.getD_some]
            exact (closed frame (List.mem_of_getElem? here) _ (List.getElem_mem less)).append arities
  | cond test consequent alternative ihTest ihConsequent ihAlternative =>
      obtain ⟨scopedTest, scopedConsequent, scopedAlternative⟩ := inScope
      exact ⟨ihTest scopedTest, ihConsequent scopedConsequent, ihAlternative scopedAlternative⟩
  | lambda arity body ihBody =>
      simp only [Scoped, scopedAll_iff] at inScope
      simp only [mapRefs, mapRefsAll_eq_map, Scoped, scopedAll_iff]
      exact List.forall_mem_map.2 fun form member =>
        @ihBody form member (arity :: arities) (inScope form member)
  | app operator operands ihOperator ihOperands =>
      simp only [Scoped, scopedAll_iff] at inScope
      simp only [mapRefs, mapRefsAll_eq_map, Scoped, scopedAll_iff]
      exact ⟨ihOperator inScope.1, List.forall_mem_map.2 fun operand member =>
        ihOperands operand member (inScope.2 operand member)⟩
  | letIn values body ihValues ihBody =>
      simp only [Scoped, scopedAll_iff] at inScope
      simp only [mapRefs, mapRefsAll_eq_map, Scoped, scopedAll_iff, List.length_map]
      exact ⟨List.forall_mem_map.2 fun value member =>
          ihValues value member (inScope.1 value member),
        List.forall_mem_map.2 fun form member =>
          @ihBody form member (values.length :: arities) (inScope.2 form member)⟩
  | define name value ihValue => exact ihValue inScope

end Nameless

end MiniScheme
