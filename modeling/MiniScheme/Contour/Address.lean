/-! # Lexical addresses

A contour is the list of names that one procedure declares. The address of a reference gives the number
of contours between it and the contour that declares its name, and the position of the name in that
contour. Going into a contour pushes the visible declarations one contour further out and puts those of
the contour in front, so the first visible declaration of a name is the innermost one. -/

namespace MiniScheme

/-- A visible declaration, as seen from some place in a tree. -/
structure Address where
  /-- The declared name. -/
  name : String
  /-- The number of contours between the place and the declaring contour. -/
  depth : Nat
  /-- The position of the name in the declaring contour. -/
  position : Nat
  deriving DecidableEq, Repr

/-- What a reference refers to. -/
inductive Reference where
  /-- A name that no contour around the reference declares. -/
  | free (name : String)
  /-- A declaration of a contour around the reference. -/
  | bound (address : Address)
  deriving DecidableEq, Repr

namespace Address

/-- The same declaration, seen from inside one more contour. -/
def deeper (address : Address) : Address :=
  { address with depth := address.depth + 1 }

/-- The declarations visible inside a contour, given those visible around it. A name that the contour
repeats has the position of its first occurrence. -/
def crossContour (names : List String) (visible : List Address) : List Address :=
  names.map (fun name => { name, depth := 0, position := names.idxOf name }) ++ visible.map deeper

end Address

namespace Reference

/-- What a name refers to where the given declarations are visible. -/
def resolve (name : String) (visible : List Address) : Reference :=
  match visible.find? fun address => address.name == name with
  | some address => .bound address
  | none => .free name

/-- The text of a reference with its address. -/
def text : Reference → String
  | .free name => "[" ++ name ++ " free]"
  | .bound address =>
      "[" ++ address.name ++ " : " ++ toString address.depth ++ " " ++
        toString address.position ++ "]"

end Reference

end MiniScheme
