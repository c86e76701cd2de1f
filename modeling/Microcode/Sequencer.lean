import Microcode.Control.JumpCondition
import Microcode.MicroWord
import Microcode.Status
/-!
# The Microsequencer

The registers that decide which microinstruction comes next.

The sequencer holds the micro-program counter MPC, the MUX register that feeds the next fetch,
and a single micro-return register MRTN, so a call inside a called sequence forgets the first
return address. The pipeline latches keep the select codes of the last executed word.

The next address is resolved first and committed later, so that a word that turns out to be
invalid leaves the sequencer as it was.

## Main definitions

* `Pipeline`: The latches for the select codes.
* `Sequencer`: The registers of the sequencer.
* `NextAddress`: Where the sequencer goes next.
* `Sequencer.resolve`: The next address for a jump condition.
* `Sequencer.commit`: Latching a word and moving on.
-/

namespace Microcode

/-- The select codes of the last executed word. -/
structure Pipeline where
  write : UInt8 := 0
  read : UInt8 := 0
  alu : UInt8 := 0
  jump : UInt8 := 0
  deriving DecidableEq, Inhabited, Repr

namespace Pipeline

/-- The latches as JSON. -/
def toJson (p : Pipeline) : Json :=
  .record [("write", .byte p.write), ("read", .byte p.read), ("alu", .byte p.alu),
    ("jump", .byte p.jump)]

/-- The latches that a JSON value gives. -/
def ofJson? (j : Json) : Option Pipeline := do
  let [write, read, alu, jump] ← j.members? ["write", "read", "alu", "jump"] | none
  return {
    write := ← Json.required Json.byte? write
    read := ← Json.required Json.byte? read
    alu := ← Json.required Json.byte? alu
    jump := ← Json.required Json.byte? jump }

end Pipeline

/-- The registers of the sequencer. -/
structure Sequencer where
  pipeline : Pipeline := {}
  /-- The address of the next fetch. -/
  mux : UInt8 := 0
  /-- The micro-return address. -/
  mrtn : UInt8 := 0
  /-- The micro-program counter. -/
  mpc : UInt8 := 0
  deriving DecidableEq, Inhabited, Repr

/-- Where the sequencer goes next, and the return address that it takes along. -/
structure NextAddress where
  mpc : UInt8
  mrtn : UInt8
  deriving DecidableEq, Repr

namespace Sequencer

/-- The next address for a condition. Dispatch on an opcode needs main memory, which is not
    modelled, and goes on to the following address. -/
def resolve (s : Sequencer) (condition : JumpCondition) (target : UInt8) (status : StatusWord) :
    NextAddress :=
  let following := s.mpc + 1
  let jumpIf (flag : Bool) : NextAddress := ⟨if flag then target else following, s.mrtn⟩
  match condition with
  | .fallThrough | .opcodeIn => ⟨following, s.mrtn⟩
  | .always => ⟨target, s.mrtn⟩
  | .call => ⟨target, following⟩
  | .return => ⟨s.mrtn, s.mrtn⟩
  | .ifNegative => jumpIf status.negative
  | .ifZero => jumpIf status.zero
  | .ifPositive => jumpIf status.positive
  | .ifCarry => jumpIf status.carry
  | .ifDataUnavailable => jumpIf status.dataNotAvailable

/-- Latches the codes of a word and moves to the resolved address. -/
def commit (word : MicroWord) (next : NextAddress) : Sequencer where
  pipeline := ⟨word.write, word.read, word.alu, word.jump⟩
  mux := next.mpc
  mrtn := next.mrtn
  mpc := next.mpc

/-- The sequencer as JSON. -/
def toJson (s : Sequencer) : Json :=
  .record [("pipeline", s.pipeline.toJson), ("mux", .byte s.mux), ("mrtn", .byte s.mrtn),
    ("mpc", .byte s.mpc)]

/-- The sequencer that a JSON value gives. -/
def ofJson? (j : Json) : Option Sequencer := do
  let [pipeline, mux, mrtn, mpc] ← j.members? ["pipeline", "mux", "mrtn", "mpc"] | none
  return {
    pipeline := ← Json.required Pipeline.ofJson? pipeline
    mux := ← Json.required Json.byte? mux
    mrtn := ← Json.required Json.byte? mrtn
    mpc := ← Json.required Json.byte? mpc }

end Sequencer

end Microcode
