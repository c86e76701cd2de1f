import Microcode.Command.Basic
/-!
# Command-Line Arguments

Reading an invocation from the words of a command line.

A command line is a subcommand with operands and options. An option has a long name behind two
hyphens and may have a single letter behind one. Its value is the next argument, or stands
behind an equals sign, or directly behind the letter; letters may be joined, `-tm4`. An argument
that begins with a hyphen is never taken as a value, a lone hyphen excepted. Behind `--`
everything is an operand. No option is given twice.

The log file may be named in front of the subcommand and behind it; the later one counts.

The arguments are read from left to right. A request for help or for the version ends the
reading, so it wins over mistakes behind it and loses to mistakes in front of it.

## Main definitions

* `OptionSpec`: An option that a subcommand knows.
* `Stop`: Why the reading of arguments ends early.
* `Given`: The options and operands read so far.
* `Given.scan`: Reading the arguments of a subcommand.
* `Invocation.ofArguments?`: Reading a whole command line.
-/

namespace Microcode

/-- What an option takes. -/
inductive OptionValue where
  /-- Nothing: the option is on or off. -/
  | flag
  /-- A text that satisfies a condition. -/
  | text (accepts : String → Bool)

/-- An option that a subcommand knows. -/
structure OptionSpec where
  long : String
  short : Option Char := none
  value : OptionValue := .flag

/-- Why the reading of arguments ends early. -/
inductive Stop where
  /-- The arguments make no sense. -/
  | usage
  /-- The arguments ask for help. -/
  | help
  /-- The arguments ask for the version. -/
  | version
  deriving DecidableEq, Repr

/-- An option that waits for its value. -/
structure Pending where
  name : String
  accepts : String → Bool

/-- The options and operands read so far. -/
structure Given where
  flags : List String := []
  values : List (String × String) := []
  operands : List String := []

namespace Given

/-- Notes an option without a value. Help and version end the reading. -/
def addFlag (g : Given) (name : String) : Except Stop Given :=
  if name = "help" then .error .help
  else if name = "version" then .error .version
  else if name ∈ g.flags then .error .usage
  else .ok { g with flags := name :: g.flags }

/-- Notes an option with its value. -/
def addValue (g : Given) (option : Pending) (value : String) : Except Stop Given :=
  if !option.accepts value ∨ (g.values.lookup option.name).isSome then .error .usage
  else .ok { g with values := (option.name, value) :: g.values }

/-- Whether an argument may be the value of the option in front of it. -/
def isValue (argument : String) : Bool :=
  argument == "-" || argument.toList.head? != some '-'

/-- What the arguments turned out to be: the options and operands, and the subcommand with the
    arguments behind it, if there is one. -/
abbrev Scanned := Given × Option (String × List String)

/-- The letters behind a single hyphen. The second component is the option that takes the next
    argument as its value, if the last letter does. -/
def addLetters (specs : List OptionSpec) (g : Given) :
    List Char → Except Stop (Given × Option Pending)
  | [] => .ok (g, none)
  | letter :: rest =>
    match specs.find? (fun spec => spec.short == some letter) with
    | none => .error .usage
    | some spec => match spec.value with
      | .flag => do addLetters specs (← g.addFlag spec.long) rest
      | .text accepts => match rest with
        | [] => .ok (g, some ⟨spec.long, accepts⟩)
        | '=' :: value => do return (← g.addValue ⟨spec.long, accepts⟩ (String.ofList value), none)
        | value => do return (← g.addValue ⟨spec.long, accepts⟩ (String.ofList value), none)

/-- The name behind two hyphens, with the text behind its equals sign. The second component is
    the option if it takes the next argument as its value. -/
def addLong (specs : List OptionSpec) (g : Given) (argument : List Char) :
    Except Stop (Given × Option Pending) :=
  let name := String.ofList (argument.takeWhile (· != '='))
  let attached := argument.dropWhile (· != '=')
  match specs.find? (fun spec => spec.long == name) with
  | none => .error .usage
  | some spec => match spec.value, attached with
    | .flag, [] => do return (← g.addFlag spec.long, none)
    | .flag, _ => .error .usage
    | .text accepts, [] => .ok (g, some ⟨spec.long, accepts⟩)
    | .text accepts, _ :: value => do
      return (← g.addValue ⟨spec.long, accepts⟩ (String.ofList value), none)

/-- Notes operands, of which there may be `limit` in all. -/
def addOperands (g : Given) (limit : Nat) (operands : List String) : Except Stop Given :=
  if g.operands.length + operands.length ≤ limit
  then .ok { g with operands := g.operands ++ operands }
  else .error .usage

/-- Reads arguments, where the option in front of them may wait for its value. A subcommand,
    where there are any, ends the reading. -/
def scan (specs : List OptionSpec) (subcommands : List String) (limit : Nat) (g : Given)
    (pending : Option Pending) : List String → Except Stop Scanned
  | [] => match pending with
    | some _ => .error .usage
    | none => .ok (g, none)
  | argument :: rest => match pending with
    | some option => do
      if isValue argument then
        scan specs subcommands limit (← g.addValue option argument) none rest
      else .error .usage
    | none =>
      if argument ∈ subcommands then .ok (g, some (argument, rest))
      else match argument.toList with
        | ['-', '-'] => do return (← g.addOperands limit rest, none)
        | '-' :: '-' :: name => do
          let (g, pending) ← g.addLong specs name
          scan specs subcommands limit g pending rest
        | '-' :: letter :: letters => do
          let (g, pending) ← g.addLetters specs (letter :: letters)
          scan specs subcommands limit g pending rest
        | _ => do scan specs subcommands limit (← g.addOperands limit [argument]) none rest

/-- Whether an option was given. -/
def has (g : Given) (name : String) : Bool :=
  g.flags.contains name

/-- The value of an option. -/
def value? (g : Given) (name : String) : Option String :=
  g.values.lookup name

end Given

/-- The number that decimal digits behind an optional plus sign spell, if it has at most
    sixty-four bits. -/
def readCount? (s : String) : Option UInt64 :=
  let digits := match s.toList with
    | '+' :: rest => rest
    | all => all
  if digits.isEmpty ∨ !digits.all Char.isDigit then none
  else
    let n := Nat.ofDigitChars 10 digits 0
    if n < 18446744073709551616 then some (UInt64.ofNat n) else none

namespace Invocation

/-- The option for the log file. -/
def logFileSpec : OptionSpec :=
  { long := "log-file", value := .text (fun path => path != "") }

/-- The option that asks for help. -/
def helpSpec : OptionSpec :=
  { long := "help", short := some 'h' }

/-- The option for a decode table. -/
def tableSpec : OptionSpec :=
  { long := "table", value := .text (fun _ => true) }

/-- The option for a trace. -/
def traceSpec : OptionSpec :=
  { long := "trace", short := some 't' }

/-- The option for output as JSON. -/
def jsonSpec : OptionSpec :=
  { long := "json" }

/-- The subcommands. -/
def subcommands : List String :=
  ["run", "debug", "asm", "disasm", "table", "demo", "help"]

/-- The option for the number of cycles. -/
def maxCyclesSpec : OptionSpec where
  long := "max-cycles"
  short := some 'm'
  value := .text (fun s => (readCount? s).isSome)

/-- The option for an output file. -/
def outputSpec : OptionSpec where
  long := "output"
  short := some 'o'
  value := .text (fun _ => true)

/-- The option for the log of the assembler. -/
def verboseSpec : OptionSpec :=
  { long := "verbose", short := some 'v' }

/-- The option that asks for the version. -/
def versionSpec : OptionSpec :=
  { long := "version", short := some 'V' }

/-- The options of a subcommand besides those that all have, and the number of its operands. -/
def specs : String → List OptionSpec × Nat
  | "run" => ([maxCyclesSpec, traceSpec, tableSpec, jsonSpec], 1)
  | "debug" => ([tableSpec], 1)
  | "asm" => ([outputSpec, verboseSpec], 1)
  | "disasm" => ([tableSpec], 1)
  | "table" => ([jsonSpec], 0)
  | "demo" => ([traceSpec], 0)
  | _ => ([], 0)

/-- The command that a subcommand with its options and operands is. -/
def commandOf (subcommand : String) (g : Given) : Except Stop Command :=
  match subcommand, g.operands with
  | "run", [program] => .ok (.run program
      (((g.value? "max-cycles").bind readCount?).getD 1000) (g.has "trace") (g.value? "table")
      (g.has "json"))
  | "debug", [program] => .ok (.debug program (g.value? "table"))
  | "asm", [source] => .ok (.asm source (g.value? "output") (g.has "verbose"))
  | "disasm", [listing] => .ok (.disasm listing (g.value? "table"))
  | "table", [] => .ok (.table (g.has "json"))
  | "demo", [] => .ok (.demo (g.has "trace"))
  | _, _ => .error .usage

/-- The request for help on subcommands that the given words name. -/
def helpOn : List String → Stop
  | [] => .help
  | [word] => if word ∈ subcommands then .help else .usage
  | _ => .usage

/-- The invocation that the arguments behind a subcommand complete. -/
def ofSubcommand (outerLog : Option String) (subcommand : String) (arguments : List String) :
    Except Stop Invocation := do
  if subcommand = "help" then .error (helpOn arguments)
  let (options, operands) := specs subcommand
  let (g, _) ← Given.scan (options ++ [logFileSpec, helpSpec]) [] operands {} none arguments
  return {
    command := ← commandOf subcommand g
    logFile := (g.value? "log-file").orElse (fun _ => outerLog) }

/-- The invocation that a whole command line spells out. -/
def read (arguments : List String) : Except Stop Invocation := do
  match ← Given.scan [logFileSpec, helpSpec, versionSpec] subcommands 0 {} none arguments with
  | (g, some (subcommand, rest)) => ofSubcommand (g.value? "log-file") subcommand rest
  | (g, none) => return { command := .overview, logFile := g.value? "log-file" }

/-- The invocation that a command line asks for, if it makes sense. -/
def ofArguments? (arguments : List String) : Option Invocation :=
  match read arguments with
  | .ok i => some i
  | .error .help => some { command := .help }
  | .error .version => some { command := .version }
  | .error .usage => none

end Invocation

end Microcode
