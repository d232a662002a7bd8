import MiniScheme.Proofs.AddressedViews
import MiniScheme.Proofs.ContourMachine

/-! # Unloading the machine

What a procedure of the machine stands for is its body with the argument frames filled in, and that is a
nameless procedure without references to contours around it. Unloading a run of the machine in this way
gives the run of the unloaded tree, at every depth: an argument frame that the machine pushes is what an
application fills in. The invariant is that the addresses in a body point into its frames. -/

namespace MiniScheme

mutual

/-- The nameless procedure that a procedure of the machine stands for. -/
def Closure.unload : Closure → Abstraction
  | { params, body, frames } =>
      { arity := params.length
        body := body.map fun tree => tree.nameless.fill (ValueOver.unloadFrames frames) 1 }

/-- The value that a value of the machine stands for. -/
def ValueOver.unload : ValueOver Closure → ValueOver Abstraction
  | .number value => .number value
  | .bool value => .bool value
  | .string value => .string value
  | .symbol name => .symbol name
  | .nil => .nil
  | .cons car cdr => .cons car.unload cdr.unload
  | .prim op => .prim op
  | .procedure code => .procedure code.unload

/-- The trees that evaluate to what the entries of an argument frame stand for. -/
def ValueOver.unloadFrame : List (ValueOver Closure) → List Term
  | [] => []
  | value :: values => value.unload.toTerm :: ValueOver.unloadFrame values

/-- The trees for the entries of some argument frames. -/
def ValueOver.unloadFrames : List (List (ValueOver Closure)) → List (List Term)
  | [] => []
  | frame :: frames => ValueOver.unloadFrame frame :: ValueOver.unloadFrames frames

end

namespace ValueOver

/-- Unloading a value unloads its procedures. -/
theorem unload_eq_map (value : ValueOver Closure) : value.unload = value.map Closure.unload := by
  induction value with
  | cons car cdr ihCar ihCdr => rw [unload, map, ihCar, ihCdr]
  | number | bool | string | symbol | nil | prim | procedure => simp only [unload, map]

/-- The trees of a frame are those of its entries. -/
@[simp] theorem unloadFrame_eq_map (frame : List (ValueOver Closure)) :
    unloadFrame frame = frame.map fun value => value.unload.toTerm := by
  induction frame with
  | nil => rfl
  | cons _ _ ih => simp only [unloadFrame, List.map_cons, ih]

/-- The trees of frames are those of each frame. -/
@[simp] theorem unloadFrames_eq_map (frames : List (List (ValueOver Closure))) :
    unloadFrames frames = frames.map unloadFrame := by
  induction frames with
  | nil => rfl
  | cons _ _ ih => simp only [unloadFrames, List.map_cons, ih]

/-- Frames have as many trees as entries. -/
theorem map_length_unloadFrames (frames : List (List (ValueOver Closure))) :
    (unloadFrames frames).map List.length = frames.map List.length := by
  rw [unloadFrames_eq_map, List.map_map]
  refine List.map_congr_left fun frame _ => ?_
  rw [Function.comp_apply, unloadFrame_eq_map, List.length_map]

/-! ## The invariant -/

/-- Values of the machine in which every address in a procedure points into the frames of the
procedure. -/
inductive Sound : ValueOver Closure → Prop
  /-- A number. -/
  | number (value : Float) : Sound (.number value)
  /-- A truth value. -/
  | bool (value : Bool) : Sound (.bool value)
  /-- A string. -/
  | string (value : String) : Sound (.string value)
  /-- A symbol. -/
  | symbol (name : String) : Sound (.symbol name)
  /-- The empty list. -/
  | nil : Sound .nil
  /-- A pair. -/
  | cons {car cdr : ValueOver Closure} (first : Sound car) (second : Sound cdr) : Sound (.cons car cdr)
  /-- A primitive operator. -/
  | prim (op : Primitive) : Sound (.prim op)
  /-- A procedure. -/
  | procedure {params : List String} {body : List LexExpr} {frames : List (List (ValueOver Closure))}
      (entries : ∀ frame ∈ frames, ∀ value ∈ frame, Sound value)
      (inScope : ∀ tree ∈ body, tree.nameless.Scoped (params.length :: frames.map List.length)) :
      Sound (.procedure { params, body, frames })

/-- Frames with closed trees leave no reference open in the body of a procedure. -/
theorem scoped_fill_unloadFrames {frames : List (List (ValueOver Closure))}
    (closed : ∀ frame ∈ frames, ∀ value ∈ frame, value.unload.toTerm.Scoped []) {arities : List Nat}
    {tree : Term} (inScope : tree.Scoped (arities ++ frames.map List.length)) :
    (tree.fill (unloadFrames frames) arities.length).Scoped arities := by
  rw [← map_length_unloadFrames] at inScope
  refine inScope.fill ?_
  simpa only [unloadFrames_eq_map, unloadFrame_eq_map, List.forall_mem_map] using closed

/-- What a sound value stands for has no references to contours around it. -/
theorem Sound.closed {value : ValueOver Closure} (sound : value.Sound) :
    value.unload.toTerm.Scoped [] := by
  induction sound with
  | procedure entries inScope ih =>
      rename_i params body frames
      rw [unload, toTerm, Nameless.Scoped, Nameless.scopedAll_iff, Closure.unload]
      -- The references that the frames leave open are those to the parameters.
      refine List.forall_mem_map.2 fun tree member => ?_
      exact @scoped_fill_unloadFrames frames ih [params.length] tree.nameless (inScope tree member)
  | number | bool | string | symbol | nil | cons | prim => trivial

/-- Data are sound. -/
theorem sound_ofData (value : Value) : (ofData value).Sound := by
  induction value with
  | number value => exact .number value
  | bool value => exact .bool value
  | string value => exact .string value
  | symbol name => exact .symbol name
  | nil => exact .nil
  | cons car cdr ihCar ihCdr => exact .cons ihCar ihCdr
  | prim op => exact .prim op
  | closure params body => exact .nil

/-- A list of sound values is sound. -/
theorem sound_ofList {items : List (ValueOver Closure)} (sound : ∀ item ∈ items, item.Sound) :
    (ofList items).Sound := by
  induction items with
  | nil => exact .nil
  | cons item items ih =>
      rw [List.forall_mem_cons] at sound
      exact .cons sound.1 (ih sound.2)

/-- The components of a sound pair are sound. -/
theorem Sound.components {car cdr : ValueOver Closure} (sound : (ValueOver.cons car cdr).Sound) :
    car.Sound ∧ cdr.Sound := by
  cases sound with
  | cons first second => exact ⟨first, second⟩

end ValueOver

/-- What an operator hands on is sound if the arguments are. -/
theorem Primitive.sound_handedOn {op : Primitive} {arguments : List (ValueOver Closure)}
    (sound : ∀ argument ∈ arguments, argument.Sound) {value : ValueOver Closure}
    (handed : op.handedOn arguments = some value) : value.Sound := by
  unfold handedOn at handed
  split at handed
  · obtain rfl := Option.some.inj handed
    rw [List.forall_mem_cons, List.forall_mem_singleton] at sound
    exact .cons sound.1 sound.2
  · obtain rfl := Option.some.inj handed
    exact (List.forall_mem_singleton.1 sound).components.1
  · obtain rfl := Option.some.inj handed
    exact (List.forall_mem_singleton.1 sound).components.2
  · obtain rfl := Option.some.inj handed
    exact ValueOver.sound_ofList sound
  · cases handed

/-- The result of an operator is sound if the arguments are. -/
theorem Primitive.sound_applyOver {op : Primitive} {arguments : List (ValueOver Closure)}
    (sound : ∀ argument ∈ arguments, argument.Sound) {value : ValueOver Closure}
    (applied : op.applyOver arguments = .ok value) : value.Sound := by
  rw [applyOver] at applied
  -- What is handed on is a component or a list of arguments; any other result is data.
  cases handed : op.handedOn arguments with
  | some result =>
      rw [handed] at applied
      obtain rfl := Except.ok.inj applied
      exact sound_handedOn sound handed
  | none =>
      rw [handed] at applied
      cases result : op.apply (arguments.map ValueOver.outline) with
      | ok data =>
          rw [result] at applied
          obtain rfl := Except.ok.inj applied
          exact ValueOver.sound_ofData data
      | error error =>
          rw [result] at applied
          cases applied

end MiniScheme
