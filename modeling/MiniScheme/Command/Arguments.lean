/-! # Command-line arguments

A command line names a command, the source file it works on, and options, which may stand before or after
the file. An option takes its value after an equals sign or from the next argument, which must not look
like an option itself. Two hyphens end the options. A command line that repeats an option, or has one that
the command does not know, or too few or too many arguments, is rejected. -/

namespace MiniScheme

/-- How a parsed program is shown. -/
inductive Listing where
  /-- As an outline. -/
  | outline
  /-- As a JSON document. -/
  | json
  deriving DecidableEq, Repr

/-- A command with the source file it works on. -/
inductive Command where
  /-- Evaluates the program and shows its value. -/
  | run (file : String)
  /-- Shows the parsed program. -/
  | parse (file : String) (listing : Listing)
  /-- Shows the forms of the program with lexical addresses. -/
  | address (file : String)
  /-- Shows the program with all declared names renamed apart, numbered from the given number on. -/
  | rename (file : String) (start : Nat)
  deriving DecidableEq, Repr

namespace Command

/-- The arguments of a command, sorted out. -/
structure Arguments where
  /-- The arguments that belong to no option. -/
  positional : List String
  /-- The options with their values, in the order given. -/
  options : List (String × String)
  deriving DecidableEq, Repr

/-- Whether an argument looks like an option; a lone hyphen does not. -/
def looksLikeOption (argument : String) : Bool :=
  match argument.toList with
  | '-' :: _ :: _ => true
  | _ => false

/-- The name of a long option and its value, if the argument holds one after an equals sign. -/
def longOption? (argument : String) : Option (String × Option String) :=
  match argument.toList with
  | '-' :: '-' :: rest =>
      let name := String.ofList (rest.takeWhile (· != '='))
      match rest.dropWhile (· != '=') with
      | [] => some (name, none)
      | _ :: value => some (name, some (String.ofList value))
  | _ => none

/-- Sorts out the arguments of a command that knows the given options. -/
def Arguments.ofList? (known : List String) : List String → Option Arguments
  | [] => some { positional := [], options := [] }
  | argument :: arguments =>
      if argument = "--" then some { positional := arguments, options := [] }
      else if !looksLikeOption argument then do
        let rest ← ofList? known arguments
        return { rest with positional := argument :: rest.positional }
      else
        match longOption? argument with
        | none => none
        | some (name, some value) => do
            guard (name ∈ known)
            let rest ← ofList? known arguments
            return { rest with options := (name, value) :: rest.options }
        | some (name, none) =>
            match arguments with
            | [] => none
            | value :: arguments => do
                guard (name ∈ known ∧ !looksLikeOption value)
                let rest ← ofList? known arguments
                return { rest with options := (name, value) :: rest.options }

/-- The only argument that belongs to no option, given that no option is repeated. -/
def Arguments.file? (arguments : Arguments) : Option String :=
  match arguments.positional with
  | [file] => if (arguments.options.map Prod.fst).Nodup then some file else none
  | _ => none

/-- The listing that a word denotes. -/
def listingOf? (word : String) : Option Listing :=
  if word = "pretty" then some .outline
  else if word = "json" then some .json
  else none

/-- The greatest number that may be given as an argument. -/
def greatestNumber : Nat := Nat.pow 2 64 - 1

/-- The natural number that a word denotes: digits, with an optional plus sign in front. -/
def numberOf? (word : String) : Option Nat :=
  let digits :=
    match word.toList with
    | '+' :: rest => rest
    | characters => characters
  let value := Nat.ofDigitChars 10 digits 0
  if digits ≠ [] ∧ digits.all Char.isDigit ∧ value ≤ greatestNumber then some value else none

/-- The value of an option, or the default if it is not given. -/
def optionValue? {α : Type} (arguments : Arguments) (name : String) (read : String → Option α)
    (default : α) : Option α :=
  match arguments.options.lookup name with
  | some word => read word
  | none => some default

/-- The command that a command line denotes, if it is not rejected. -/
def ofArguments? : List String → Option Command
  | "run" :: arguments => do
      let arguments ← Arguments.ofList? [] arguments
      return .run (← arguments.file?)
  | "parse" :: arguments => do
      let arguments ← Arguments.ofList? ["format"] arguments
      let file ← arguments.file?
      return .parse file (← optionValue? arguments "format" listingOf? .outline)
  | "address" :: arguments => do
      let arguments ← Arguments.ofList? [] arguments
      return .address (← arguments.file?)
  | "rename" :: arguments => do
      let arguments ← Arguments.ofList? ["start"] arguments
      let file ← arguments.file?
      return .rename file (← optionValue? arguments "start" numberOf? 1)
  | _ => none

/-- The source file that a command works on. -/
def file : Command → String
  | .run file | .parse file _ | .address file | .rename file _ => file

/-- How to write a command line. -/
def usage : String :=
  "usage: minischeme run FILE\n" ++
  "       minischeme parse [--format pretty|json] FILE\n" ++
  "       minischeme address FILE\n" ++
  "       minischeme rename [--start N] FILE\n"

end Command

end MiniScheme
