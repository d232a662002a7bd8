import MiniScheme.Command.Arguments
import MiniScheme.Contour.Addressing
import MiniScheme.Evaluation.Evaluator
import MiniScheme.Expr.Json
import MiniScheme.Expr.Outline
import MiniScheme.Expr.Text

/-! # Executing commands

What a command prints and its exit code, as a function of what reading its source file gives. -/

namespace MiniScheme

/-- Why a source file cannot be read. -/
inductive FileError where
  /-- There is no such file. -/
  | notFound
  /-- The path names a directory. -/
  | isDirectory
  /-- The bytes of the file are no text. -/
  | notText
  /-- Any other reason, in words. -/
  | other (reason : String)
  deriving DecidableEq, Repr

/-- Why a source file cannot be read, in words. -/
def FileError.message : FileError → String
  | .notFound => "No such file or directory (os error 2)"
  | .isDirectory => "Is a directory (os error 21)"
  | .notText => "stream did not contain valid UTF-8"
  | .other reason => reason

/-- The text that the bytes of a file encode. -/
def decodeSource (bytes : ByteArray) : Except FileError String :=
  match String.fromUTF8? bytes with
  | some source => .ok source
  | none => .error .notText

/-- What a command leaves behind. -/
structure Report where
  /-- The exit code. -/
  exitCode : Nat
  /-- What is written on the standard output. -/
  output : String
  /-- What is written on the standard error. -/
  errors : String
  deriving DecidableEq, Repr

namespace Report

/-- A success with the given lines of output. -/
def success (lines : List String) : Report :=
  { exitCode := 0, output := String.join (lines.map (· ++ "\n")), errors := "" }

/-- A failure with its message, under a heading that tells the kind of failure. -/
def failure (heading message : String) : Report :=
  { exitCode := 1, output := "", errors := heading ++ ": " ++ message ++ "\n" }

end Report

namespace Command

/-- The greatest number of bytes of a source file. -/
def greatestSourceSize : Nat := 1000000

/-- The depth at which the evaluation of a program is cut off. -/
def evaluationDepth : Nat := 1000000

/-- The program in a source file, or the report of why there is none. -/
def load (file : String) (content : Except FileError String) : Except Report Program :=
  match content with
  | .error error =>
      .error (.failure "Error" ("Failed to read '" ++ file ++ "': " ++ error.message))
  | .ok source =>
      if greatestSourceSize < source.utf8ByteSize then
        .error (.failure "Error" s!"source file exceeds 1MB limit ({source.utf8ByteSize} bytes)")
      else
        match Program.parse source with
        | .error error => .error (.failure "Error" error.message)
        | .ok program => .ok program

/-- Evaluates a program and shows its value. -/
def runProgram (program : Program) : Report :=
  match program.eliminateLets.eval evaluationDepth with
  | .result value => .success [value.text]
  | .failure error => .failure "Runtime error" error.message
  | .cutOff => .failure "Runtime error" "evaluation is nested too deeply"

/-- Shows a parsed program. -/
def showProgram (listing : Listing) (program : Program) : Report :=
  match listing with
  | .outline => .success [program.outline.multiline 0]
  | .json => .success [program.toJson.text]

/-- Shows the forms of a program with lexical addresses. -/
def addressProgram (program : Program) : Report :=
  match program.address with
  | .ok forms => .success (forms.map AddressedForm.text)
  | .error error => .failure "Scope error" error.message

/-- Shows a program with all declared names renamed apart. It is taken for granted that there are numbers for the
names from the given one on. -/
def renameProgram (start : Nat) (program : Program) : Report :=
  .success [(program.renameWith.run (.startingAt start)).1.text]

/-- Executes a command on what reading its source file gives. -/
def execute (command : Command) (content : Except FileError String) : Report :=
  match load command.file content with
  | .error report => report
  | .ok program =>
      match command with
      | .run _ => runProgram program
      | .parse _ listing => showProgram listing program
      | .address _ => addressProgram program
      | .rename _ start => renameProgram start program

end Command

end MiniScheme
