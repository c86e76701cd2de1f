/-!
# Commands

What the simulator can be asked to do from a command line.

## Main definitions

* `Command`: The commands.
* `Invocation`: A command together with the file for its log.
-/

namespace Microcode

/-- What the simulator is asked to do. -/
inductive Command where
  /-- Say what the program is. -/
  | overview
  | version
  | help
  /-- Run a listing from micro-address zero. -/
  | run (program : String) (maxCycles : UInt64) (trace : Bool) (table : Option String)
    (json : Bool)
  /-- Open the debugger on a listing. -/
  | debug (program : String) (table : Option String)
  /-- Assemble a listing and write it back in its normal form. -/
  | asm (source : String) (output : Option String) (verbose : Bool)
  /-- Show a listing in register-transfer notation. -/
  | disasm (listing : String) (table : Option String)
  /-- Print the decode table. -/
  | table (json : Bool)
  /-- Step through the worked example. -/
  | demo (trace : Bool)
  deriving DecidableEq, Repr

/-- A command together with the file that its log is written to. -/
structure Invocation where
  command : Command
  logFile : Option String := none
  deriving DecidableEq, Repr

end Microcode
