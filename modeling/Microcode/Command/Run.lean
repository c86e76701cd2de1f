import Microcode.Command.Basic
import Microcode.Files.Host
import Microcode.Machine.Run
/-!
# Carrying Out Commands

What each command reads, shows and writes.

A command works step by step on its host and ends with an exit code. What it has shown and
written by the time that something goes wrong stays, and the report of what went wrong comes
last.

Log lines go to the channel for reports and, where a log file is named, to its end. The file is
opened before anything else happens, and not at all if nothing is to be logged.

## Main definitions

* `ExitCode`: How a command ends.
* `Logger`: Which entries are logged, and where.
* `Command.outputPath`: Where a listing is written unless the command line says so.
* `Command.carryOut`: The steps of each command.
* `Invocation.carryOut`: A command with its log, down to its exit code.
-/

namespace Microcode

/-- How a command ends: zero if it succeeded. -/
abbrev ExitCode := UInt32

/-- Steps on a host that may end with an exit code before the last one. -/
abbrev Steps (m : Type → Type) := ExceptT ExitCode m

/-- Which entries are logged, and the file that they go to besides the channel for reports. -/
structure Logger where
  targets : List Trace.Target
  file : Option String

namespace Command

variable {m : Type → Type} [Monad m] [Host m]

/-- Shows a line on the channel for results. -/
def line (s : String) : Steps m Unit :=
  ExceptT.lift (Host.print (s ++ "\n"))

/-- Shows a line on the channel for reports and ends with exit code one. -/
def fail {α : Type} (s : String) : Steps m α := do
  ExceptT.lift (Host.report ("❌ " ++ s ++ "\n"))
  throw 1

/-- The logger for the given targets. Its file is made if it does not exist. -/
def openLog (targets : List Trace.Target) (file : Option String) : Steps m Logger := do
  match targets, file with
  | [], _ => return { targets, file := none }
  | _, none => return { targets, file }
  | _, some path => match ← ExceptT.lift (Host.appendText path "") with
    | .ok () => return { targets, file }
    | .error e => fail ("Failed to set up logging: IO Error initializing logger: " ++ e.message)

/-- Logs those entries that belong to a logged target. -/
def log (logger : Logger) (entries : List Trace.Entry) : Steps m Unit :=
  (entries.filter (fun e => logger.targets.contains e.target)).forM fun e => do
    ExceptT.lift (Host.report (e.line ++ "\n"))
    match logger.file with
    | some path => let _ ← ExceptT.lift (Host.appendText path (e.line ++ "\n"))
    | none => pure ()

/-- The control table of the given file, or the built-in one. -/
def table? (path : Option String) : Steps m ControlTable := do
  match path with
  | none => return .builtin
  | some path => match ← ExceptT.lift (loadTable path) with
    | .ok t =>
      line ("📂 Loaded decode table from " ++ path)
      return t
    | .error e => fail ("Failed to load decode table: " ++ e.message)

/-- The words of a listing file, which has to have some. -/
def program (logger : Logger) (path : String) : Steps m (List MicroWord) := do
  match ← ExceptT.lift (loadListing path) with
  | .error e => fail ("Failed to load listing: " ++ e.message)
  | .ok assembly =>
    log logger [assembly.entry]
    let words := assembly.words.toList
    if words.isEmpty then fail ("No microinstructions in " ++ path)
    line ("📂 Loaded " ++ toString words.length ++ " microinstructions")
    return words

/-- A machine with a listing file in its control store. -/
def prepare (logger : Logger) (path : String) (table : Option String) : Steps m Machine := do
  let words ← program logger path
  let t ← table? table
  match (Machine.new t).load words with
  | (machine, .ok ()) => return machine
  | (_, .error e) => fail ("Failed to load microcode: " ++ e.message)

/-- Shows the state of a machine, as text or as JSON. -/
def showState (machine : Machine) (json : Bool) : Steps m Unit :=
  line (if json then machine.snapshot.toText else machine.snapshot.text)

/-- Runs a listing file and shows how the run ended. -/
def runProgram (logger : Logger) (path : String) (maxCycles : UInt64) (table : Option String)
    (json : Bool) : Steps m Unit := do
  line ("🔧 Running: " ++ path)
  let machine ← prepare logger path table
  let outcome := machine.runLimited maxCycles
  log logger outcome.log
  line ""
  line "━━━ Result ━━━"
  line ("Cycles: " ++ toString outcome.machine.cycles.toNat)
  match outcome.result with
  | .ok _ =>
    line ("⚠️  Reached max cycles limit (" ++ toString maxCycles.toNat ++
      "). Use --max-cycles to increase.")
    showState outcome.machine json
  | .error (.emptyAddress address) =>
    line ("Stopped: nothing programmed at micro-address " ++ Text.hexByte address)
    showState outcome.machine json
  | .error e =>
    ExceptT.lift (Host.report ("❌ CPU error at MPC=" ++
      Text.hexByte outcome.machine.sequencer.mpc ++ ": " ++ e.message ++ "\n"))
    showState outcome.machine json
    throw 1

/-- Loads a listing file for the debugger, which cannot open without a terminal. -/
def debugProgram (logger : Logger) (path : String) (table : Option String) : Steps m Unit := do
  line ("🔍 Loading: " ++ path)
  let _ ← prepare logger path table
  line "🚀 Launching debugger..."
  line ""
  fail ("Debugger error: " ++ FileError.noDevice.message)

/-- A path without the endings `.mcl` that it has. -/
def stem (path : List Char) : List Char :=
  if h : ".mcl".toList.isSuffixOf path then
    stem (path.take (path.length - 4))
  else path
termination_by path.length
decreasing_by
  have : ".mcl".toList.length ≤ path.length := (List.isSuffixOf_iff_suffix.mp h).length_le
  simp at this ⊢
  omega

/-- Where the normal form of a listing is written unless the command line says so. -/
def outputPath (source : String) : String :=
  String.ofList (stem source.toList) ++ ".out.mcl"

/-- Assembles a listing file and writes it back in its normal form. -/
def assembleFile (logger : Logger) (source : String) (output : Option String) :
    Steps m Unit := do
  let path := output.getD (outputPath source)
  line ("📝 Assembling: " ++ source ++ " → " ++ path)
  let words ← program logger source
  match ← ExceptT.lift (saveListing path words .builtin) with
  | .error e => fail ("Failed to save listing: " ++ e.message)
  | .ok () => line ("✓ Saved to " ++ path)

/-- Shows a listing file in register-transfer notation. -/
def disassembleFile (logger : Logger) (path : String) (table : Option String) :
    Steps m Unit := do
  line ("📖 Disassembling: " ++ path)
  line ""
  let t ← table? table
  let words ← program logger path
  line (disassemble words t)

/-- A line of the decode table. -/
def tableLine (code write read alu jump : String) : String :=
  Text.padRight 6 code ++ " " ++ Text.padRight 10 write ++ " " ++ Text.padRight 10 read ++ " " ++
    Text.padRight 10 alu ++ " " ++ Text.padRight 10 jump

/-- Prints the built-in decode table. -/
def printTable (json : Bool) : Steps m Unit := do
  if json then line ControlTable.builtin.toText
  else
    line (tableLine "Code" "Write" "Read" "ALU" "Jump")
    (ControlTable.builtin.toRows.zipIdx).forM fun (row, code) =>
      line (tableLine (String.singleton (Text.hexDigit code)) row.write row.read row.alu row.jump)

/-- The machine of the worked example. -/
def exampleMachine : Machine :=
  { registers := ((((RegisterFile.initial.set .marLo 0x11).set .marHi 0x22).set .acLo 0x50).set
      .acHi 0x42).set .spHi 0x50 }

/-- The program of the worked example: it adds AClo to SPhi and puts the sum into SPlo. -/
def exampleProgram : List MicroWord := [
  { write := 0xD, read := 0x9, alu := 0x0, jump := 0x0, jumpAddress := 0x00 },
  { write := 0x5, read := 0x2, alu := 0x0, jump := 0x0, jumpAddress := 0x00 },
  { write := 0xE, read := 0x0, alu := 0x0, jump := 0x0, jumpAddress := 0x00 },
  { write := 0x8, read := 0x5, alu := 0x8, jump := 0x0, jumpAddress := 0x00 }]

/-- Executes words one by one and shows the state after each. -/
def showSteps (logger : Logger) (machine : Machine) : List MicroWord → Steps m Machine
  | [] => return machine
  | word :: rest => do
    line ""
    line ("━━━ " ++ word.text ++ "  " ++ disassembleWord word machine.table ++ " ━━━")
    let outcome := machine.step word
    log logger outcome.log
    match outcome.result with
    | .error e => fail ("CPU error: " ++ e.message)
    | .ok _ =>
      showState outcome.machine false
      showSteps logger outcome.machine rest

/-- Steps through the worked example. -/
def demonstrate (logger : Logger) : Steps m Unit := do
  line "━━━ Medusa Demo ━━━"
  line ""
  line "Initial state:"
  showState exampleMachine false
  let machine ← showSteps logger exampleMachine exampleProgram
  line ""
  line ("✓ SPlo = " ++ Text.hexByte (machine.registers.get .spLo))

/-- What the program is. -/
def overviewLines : List String :=
  ["Medusa Simulator v0.1.0", "A microcode-level Medusa emulator", "",
    "Use --help for available commands"]

/-- How the program is used. -/
def helpLines : List String :=
  ["A microcode-level emulator of the Medusa microprocessor", "",
    "Usage: medusa-sim [--log-file <FILE>] [COMMAND]", "",
    "  run <LISTING> [-m <N>] [-t] [--table <FILE>] [--json]",
    "  debug <LISTING> [--table <FILE>]",
    "  asm <LISTING> [-o <FILE>] [-v]",
    "  disasm <LISTING> [--table <FILE>]",
    "  table [--json]",
    "  demo [-t]"]

/-- The targets that a command logs. -/
def targets : Command → List Trace.Target
  | run _ _ true _ _ | demo true => [.sequencer, .alu]
  | asm _ _ true => [.assembler]
  | _ => []

/-- The steps of a command. -/
def carryOut (logger : Logger) : Command → Steps m Unit
  | overview => overviewLines.forM line
  | version => line "medusa-sim 0.1.0"
  | help => helpLines.forM line
  | run path maxCycles _ tableFile json => runProgram logger path maxCycles tableFile json
  | debug path tableFile => debugProgram logger path tableFile
  | asm source output _ => assembleFile logger source output
  | disasm path tableFile => disassembleFile logger path tableFile
  | table json => printTable json
  | demo _ => demonstrate logger

end Command

/-- Carries out an invocation, down to its exit code. -/
def Invocation.carryOut {m : Type → Type} [Monad m] [Host m] (i : Invocation) : m ExitCode := do
  let steps : Steps m Unit := do
    let logger ← Command.openLog i.command.targets i.logFile
    i.command.carryOut logger
  match ← steps.run with
  | .ok () => return 0
  | .error code => return code

end Microcode
