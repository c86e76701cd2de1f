import Microcode.Json.Parser
import Microcode.Json.Printer
import Microcode.RegisterFile
import Microcode.Sequencer
/-!
# Snapshots

A copy of what a person at the machine can see: registers, sequencer, status word and cycle
count.

A snapshot that was taken from a machine lists all registers in file order. One that was read
from a text lists whatever the text lists, so a register may be missing or may occur twice.

## Main definitions

* `Snapshot`: The copy.
* `Snapshot.get`: The contents of a register.
* `Snapshot.text`: The lines that are shown for a snapshot.
* `Snapshot.toText`, `Snapshot.ofText?`: Between snapshots and JSON text.
-/

namespace Microcode

/-- A copy of the visible state of a machine. -/
structure Snapshot where
  registers : List (Register × UInt8)
  pipeline : Pipeline
  mux : UInt8
  mrtn : UInt8
  mpc : UInt8
  status : StatusWord
  cycles : UInt64
  deriving DecidableEq

namespace Snapshot

/-- The contents of a register: its first entry, or zero if it has none. -/
def get (s : Snapshot) (r : Register) : UInt8 :=
  (s.registers.lookup r).getD 0

/-- The contents of a register in hexadecimal. -/
def hex (s : Snapshot) (r : Register) : String :=
  Text.hexByte (s.get r)

/-- The lines that are shown for a snapshot: MAR, the other registers, the sequencer and the
    status word. -/
def text (s : Snapshot) : String :=
  let others := s.registers.filter (fun entry => !(entry.1 == .marLo || entry.1 == .marHi))
  "MAR:  " ++ s.hex .marHi ++ " " ++ s.hex .marLo ++ "\n" ++
    "  ".intercalate (others.map (fun entry => entry.1.name ++ ":" ++ Text.hexByte entry.2)) ++
    "\nPipelineWrite:" ++ Text.hexByte s.pipeline.write ++
    "  PipelineRead:" ++ Text.hexByte s.pipeline.read ++
    "  PipelineALU:" ++ Text.hexByte s.pipeline.alu ++
    "  PipelineJump:" ++ Text.hexByte s.pipeline.jump ++
    "  MUX:" ++ Text.hexByte s.mux ++
    "  MRTN:" ++ Text.hexByte s.mrtn ++
    "  MPC:" ++ Text.hexByte s.mpc ++
    "\n " ++ s.status.text

/-- A snapshot as JSON. -/
def toJson (s : Snapshot) : Json :=
  .record [
    ("registers", .array (s.registers.map (fun entry => .array [entry.1.toJson, .byte entry.2]))),
    ("pipeline", s.pipeline.toJson),
    ("mux", .byte s.mux),
    ("mrtn", .byte s.mrtn),
    ("mpc", .byte s.mpc),
    ("status", s.status.toJson),
    ("cycles", .natural s.cycles.toNat)]

/-- The snapshot that a JSON value gives. -/
def ofJson? (j : Json) : Option Snapshot := do
  let [registers, pipeline, mux, mrtn, mpc, status, cycles] ←
    j.members? ["registers", "pipeline", "mux", "mrtn", "mpc", "status", "cycles"] | none
  return {
    registers := ← Json.required (Json.items? (Json.pair? Register.ofJson? Json.byte?)) registers
    pipeline := ← Json.required Pipeline.ofJson? pipeline
    mux := ← Json.required Json.byte? mux
    mrtn := ← Json.required Json.byte? mrtn
    mpc := ← Json.required Json.byte? mpc
    status := ← Json.required StatusWord.ofJson? status
    cycles := ← Json.required Json.count? cycles }

/-- A snapshot as JSON text. -/
def toText (s : Snapshot) : String :=
  s.toJson.pretty

/-- The snapshot that a JSON text gives. -/
def ofText? (text : String) : Option Snapshot :=
  (Json.parse? text).bind ofJson?

end Snapshot

end Microcode
