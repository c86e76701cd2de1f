import Microcode.Listing.Transfer
import Microcode.Machine.Step
import Microcode.Text.Blank
/-!
# The Debugger

A machine under observation: stepping, running up to breakpoints, and what is shown of it.

The debugger runs a program one tick at a time, and a tick executes one word. A tick that finds
the machine at a breakpoint stops the run instead, unless the run has just been started: the
first breakpoint that a run meets may be passed once, so that a run can leave the breakpoint at
which the last one stopped.

A word that cannot be executed stops the run as well. What happened last is kept as a notice,
and the registers as they were before the last executed word are kept for comparison.

## Main definitions

* `Breakpoints`: A set of micro-addresses.
* `Notice`: What the debugger has to say.
* `Debugger`: The state of the debugger.
* `Debugger.step`, `Debugger.run`, `Debugger.tick`: Executing words.
* `Debugger.toggleBreakpoint`, `Debugger.toggleDataAvailable`, `Debugger.pause`,
  `Debugger.interrupt`, `Debugger.reset`: The other commands.
* `Debugger.press`, `Debugger.attend`: What keys do, one at a time and in the loop of the debugger.
* `Debugger.listing`: The control store around the micro-program counter.

## Theorems

* `Breakpoints.contains_insert`, `Breakpoints.contains_erase`: The members of a changed set.
* `Breakpoints.mem_toList`: The list of a set holds its members.
-/

namespace Microcode

/-- A set of micro-addresses. -/
structure Breakpoints where
  marks : Vector Bool 256
  deriving DecidableEq

namespace Breakpoints

/-- The set without an address. -/
def empty : Breakpoints :=
  ⟨Vector.replicate 256 false⟩

instance : Inhabited Breakpoints := ⟨empty⟩

/-- Whether an address is in the set. -/
def contains (b : Breakpoints) (address : UInt8) : Bool :=
  getElem b.marks address.toNat address.toNat_lt

/-- The set with an address. -/
def insert (b : Breakpoints) (address : UInt8) : Breakpoints :=
  ⟨b.marks.set address.toNat true address.toNat_lt⟩

/-- The set without an address. -/
def erase (b : Breakpoints) (address : UInt8) : Breakpoints :=
  ⟨b.marks.set address.toNat false address.toNat_lt⟩

/-- The addresses of the set in ascending order. -/
def toList (b : Breakpoints) : List UInt8 :=
  ((List.range 256).map UInt8.ofNat).filter b.contains

@[simp] theorem contains_empty (address : UInt8) : empty.contains address = false := by
  simp [contains, empty]

theorem contains_insert (s : Breakpoints) (a b : UInt8) :
    (s.insert a).contains b = (a == b || s.contains b) := by
  simp only [contains, insert, Vector.getElem_set, UInt8.toNat_inj]
  by_cases h : a = b <;> simp [h]

theorem contains_erase (s : Breakpoints) (a b : UInt8) :
    (s.erase a).contains b = (a != b && s.contains b) := by
  simp only [contains, erase, Vector.getElem_set, UInt8.toNat_inj]
  by_cases h : a = b <;> simp [h]

theorem mem_toList {s : Breakpoints} {a : UInt8} : a ∈ s.toList ↔ s.contains a := by
  simp only [toList, List.mem_filter, List.mem_map, List.mem_range, and_iff_right_iff_imp]
  exact fun _ => ⟨a.toNat, a.toNat_lt, by simp⟩

end Breakpoints

/-- What the debugger has to say. -/
inductive Notice where
  | ready
  | running
  /-- A run was ended on request. -/
  | paused
  /-- The word at an address was executed and chose the next address. -/
  | executed (address : UInt8) (transfer : String) (next : UInt8)
  /-- The word at an address was not executed. -/
  | failed (address : UInt8) (error : StepError)
  /-- The run stopped at a breakpoint. -/
  | breakpoint (address : UInt8)
  | breakpointSet (address : UInt8)
  | breakpointRemoved (address : UInt8)
  /-- The /CDAV input was flipped. -/
  | dataLine (unavailable : Bool)
  | reset
  deriving DecidableEq, Repr

/-- The text of a notice. -/
def Notice.text : Notice → String
  | ready => "Ready. Press 's' to step, 'r' to run, 'q' to quit."
  | running => "Running..."
  | paused => "Paused."
  | executed address transfer next =>
    Text.hexByte address ++ ": " ++ transfer ++ "  -> " ++ Text.hexByte next
  | failed address error => "Error at " ++ Text.hexByte address ++ ": " ++ error.message
  | breakpoint address => "Breakpoint at " ++ Text.hexByte address
  | breakpointSet address => "Set breakpoint at " ++ Text.hexByte address
  | breakpointRemoved address => "Removed breakpoint at " ++ Text.hexByte address
  | dataLine unavailable => "/CDAV = " ++ (if unavailable then "1" else "0")
  | reset => "Reset. Ready."

/-- A line of the listing that the debugger shows. -/
structure ListingLine where
  address : UInt8
  text : String
  /-- Whether the line is that of the micro-program counter. -/
  current : Bool
  deriving DecidableEq, Repr

/-- The state of the debugger. -/
structure Debugger where
  machine : Machine
  /-- The machine before the last executed word. -/
  previous : Option Snapshot := none
  breakpoints : Breakpoints := .empty
  running : Bool := false
  /-- Whether the next breakpoint may be passed once. -/
  resume : Bool := false
  notice : Notice := .ready
  deriving DecidableEq, Inhabited

namespace Debugger

/-- The address of the next word. -/
def mpc (d : Debugger) : UInt8 :=
  d.machine.sequencer.mpc

/-- The register-transfer notation of the word at an address, or nothing if there is none. -/
def transferAt (m : Machine) (address : UInt8) : String :=
  match m.store.read address with
  | some word => disassembleWord word m.table
  | none => ""

/-- Executes one word. -/
def step (d : Debugger) : Debugger :=
  let outcome := d.machine.cycle
  match outcome.result with
  | .ok r =>
    { d with
      machine := outcome.machine
      previous := some d.machine.snapshot
      notice := .executed d.mpc (transferAt outcome.machine d.mpc) r.next }
  | .error e =>
    { d with
      machine := outcome.machine
      running := false
      notice := .failed d.mpc e }

/-- Starts a run. -/
def run (d : Debugger) : Debugger :=
  { d with running := true, resume := true, notice := .running }

/-- One moment of a run: stops at a breakpoint, or executes one word. -/
def tick (d : Debugger) : Debugger :=
  if d.running then
    if d.breakpoints.contains d.mpc then
      if d.resume then step { d with resume := false }
      else { d with running := false, notice := .breakpoint d.mpc }
    else d.step
  else d

/-- Ends a run, and says nothing of it. -/
def pause (d : Debugger) : Debugger :=
  { d with running := false }

/-- Ends a run on request. -/
def interrupt (d : Debugger) : Debugger :=
  { d.pause with notice := .paused }

/-- Sets or removes the breakpoint at the micro-program counter. -/
def toggleBreakpoint (d : Debugger) : Debugger :=
  if d.breakpoints.contains d.mpc then
    { d with breakpoints := d.breakpoints.erase d.mpc, notice := .breakpointRemoved d.mpc }
  else
    { d with breakpoints := d.breakpoints.insert d.mpc, notice := .breakpointSet d.mpc }

/-- Sets a breakpoint. The second component says whether it is new. -/
def setBreakpoint (d : Debugger) (address : UInt8) : Debugger × Bool :=
  ({ d with breakpoints := d.breakpoints.insert address }, !d.breakpoints.contains address)

/-- Flips the /CDAV input. -/
def toggleDataAvailable (d : Debugger) : Debugger :=
  let unavailable := !d.machine.status.dataNotAvailable
  { d with
    machine := d.machine.setDataNotAvailable unavailable
    notice := .dataLine unavailable }

/-- Resets the machine and ends a run. -/
def reset (d : Debugger) : Debugger :=
  { d with machine := d.machine.reset, previous := none, running := false, notice := .reset }

/-- The debugger after a key was pressed. A single step ends a run first, and other keys than these
    do nothing to the debugger. -/
def press (d : Debugger) : Char → Debugger
  | 's' => d.pause.step
  | 'r' => d.run
  | 'p' => d.interrupt
  | 'b' => d.toggleBreakpoint
  | 'd' => d.toggleDataAvailable
  | 'x' => d.reset
  | _ => d

/-- The debugger after some rounds of its loop, with the key that was pressed in each round, if
    there was one. Every round ends with a tick, and the key `q` ends the loop behind it. -/
def attend (d : Debugger) : List (Option Char) → Debugger
  | [] => d
  | key :: rest =>
    let next := (key.elim d d.press).tick
    if key = some 'q' then next else next.attend rest

/-- A word as a line of the listing shows it. -/
def wordText (m : Machine) (word : MicroWord) : String :=
  Text.padRight 8 (word.label.getD "") ++ " " ++ word.text ++ "  " ++ disassembleWord word m.table

/-- The line of the listing for an address. -/
def listingLine (d : Debugger) (address : UInt8) : ListingLine where
  address
  text := match d.machine.store.read address with
    | some word => wordText d.machine word
    | none => "--"
  current := address == d.mpc

/-- The addresses that a listing of the given number of lines shows: they are centred on the
    micro-program counter as far as the ends of the store permit. -/
def listedAddresses (d : Debugger) (lines : Nat) : List UInt8 :=
  let start := d.mpc.toNat - lines / 2
  let stop := min (start + lines) 256
  (List.range' start (stop - start)).map UInt8.ofNat

/-- The control store around the micro-program counter, in the given number of lines. -/
def listing (d : Debugger) (lines : Nat) : List ListingLine :=
  (d.listedAddresses lines).map d.listingLine

end Debugger

end Microcode
