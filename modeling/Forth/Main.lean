import Forth.Console.Terminal

/-! The command line: the terminal that the program is performed on, and its arguments. -/

namespace Forth.Main
open Console

/-- More steps than any run can take, and more lines than any input has. -/
def patience : Nat := Nat.pow 2 62

/-- Reads up to a line feed, which is left out, or to the end of the input. -/
partial def readLine (input : IO.FS.Stream) (read : ByteArray) : IO (Option ByteArray) := do
  let bytes ← input.read 1
  match bytes.toList with
  | [] => return if read.isEmpty then none else some read
  | byte :: _ => if byte = 10 then return some read else readLine input (read.push byte)

def readFile (path : String) : IO (Option ByteArray) := do
  try
    return some (← IO.FS.readBinFile path)
  catch _ =>
    return none

def terminal : Terminal IO where
  print := IO.print
  complain := IO.eprint
  nextLine := do
    (← IO.getStdout).flush
    return (← readLine (← IO.getStdin) ByteArray.empty).map decode
  contents := readFile

/-- A flag may be given once. -/
def setFlag (name : String) (isSet : Bool) (set : Options) : Except String Options :=
  if isSet then .error s!"given twice: {name}" else .ok set

def addLine (options : Options) (line : String) : Options :=
  { options with evaluations := options.evaluations ++ [line] }

def addScript (options : Options) (path : String) : Except String Options :=
  match options.script with
  | none => .ok { options with script := some path }
  | some _ => .error s!"unexpected argument: {path}"

/-- Reads letters that follow one hyphen, and whether the line for the last of them is still to come. -/
def readLetters (options : Options) : List Char → Except String (Options × Bool)
  | [] => .ok (options, false)
  | ['e'] => .ok (options, true)
  | 'e' :: '=' :: line => .ok (addLine options (String.ofList line), false)
  | 'e' :: line => .ok (addLine options (String.ofList line), false)
  | 'q' :: letters => do
      readLetters (← setFlag "-q" options.quiet { options with quiet := true }) letters
  | letter :: _ => .error s!"unexpected argument: -{letter}"

/-- Reads an argument that begins with a hyphen. -/
def readOption (options : Options) : List Char → Except String (Options × Bool)
  | '-' :: '-' :: 'e' :: 'v' :: 'a' :: 'l' :: '=' :: line =>
      .ok (addLine options (String.ofList line), false)
  | argument =>
      match String.ofList argument with
      | "--eval" => .ok (options, true)
      | "--quiet" => do
          return (← setFlag "--quiet" options.quiet { options with quiet := true }, false)
      | "--no-prelude" => do
          return (← setFlag "--no-prelude" (!options.withPrelude) { options with withPrelude := false }, false)
      | other =>
          match argument with
          | '-' :: '-' :: _ => .error s!"unexpected argument: {other}"
          | _ => readLetters options argument.tail

/-- Reads the arguments of a command line. Two hyphens by themselves end the options; the usage and version texts
are left out. -/
def readArguments (options : Options) (lineToCome : Bool) : List String → Except String Options
  | [] => if lineToCome then .error "a line is missing" else .ok options
  | "--" :: rest => rest.foldlM addScript options
  | argument :: rest => do
      if argument.startsWith "-" && argument != "-" then
        if lineToCome then .error s!"unexpected argument: {argument}"
        let (read, awaited) ← readOption options argument.toList
        readArguments read awaited rest
      else if lineToCome then readArguments (addLine options argument) false rest
      else readArguments (← addScript options argument) false rest

end Forth.Main

def main (arguments : List String) : IO UInt32 := do
  match Forth.Main.readArguments {} false arguments with
  | .error complaint =>
      IO.eprint (complaint ++ "\n")
      return 2
  | .ok options =>
      let code ← Forth.Main.terminal.perform Forth.Main.patience Forth.Main.patience options
      return code.toUInt32
