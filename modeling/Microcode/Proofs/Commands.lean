import Microcode.Proofs.Breakpoints
import Microcode.Proofs.Rejection
/-!
# Commands

The debugger as a state that commands change.

Whoever sits at the debugger, and the clock that lets a run go on, can do nothing but give
commands, so a property of the debugger over time is one of all lists of commands. One command
starts a run and no other does; a debugger that is at rest stays at rest until then, and the
clock has no effect on it.

## Main definitions

* `Debugger.Command`: What can be asked of the debugger.
* `Debugger.obey`: The debugger after a command.
* `Debugger.obeyAll`: The debugger after a list of commands.

## Theorems

* `step_of_ok`, `step_of_error`: The two ways of a step.
* `tick_of_stopped`, `tick_iterate_of_stopped`: Without a run, a tick does nothing.
* `tick_of_running`: A tick of a run is a step, or a breakpoint ends the run.
* `exists_press`, `exists_attend`: Keys, and so the loop of the debugger, come to commands.
* `running_of_obey`: Only one command starts a run.
* `stopped_obeyAll`: A debugger at rest stays at rest until a run is started.
-/

namespace Microcode

namespace Debugger

/-- What can be asked of the debugger. -/
inductive Command where
  | step
  | run
  | tick
  | pause
  | toggleBreakpoint
  | setBreakpoint (address : UInt8)
  | toggleDataAvailable
  | reset
  deriving DecidableEq, Repr

/-- The debugger after a command. -/
def obey (d : Debugger) : Command → Debugger
  | .step => d.step
  | .run => d.run
  | .tick => d.tick
  | .pause => d.interrupt
  | .toggleBreakpoint => d.toggleBreakpoint
  | .setBreakpoint address => (d.setBreakpoint address).1
  | .toggleDataAvailable => d.toggleDataAvailable
  | .reset => d.reset

/-- The debugger after a list of commands. -/
def obeyAll (d : Debugger) (commands : List Command) : Debugger :=
  commands.foldl obey d

/-- A step that succeeds keeps the machine that it found for comparison, and leaves a run on. -/
theorem step_of_ok (d : Debugger) (r : StepResult) (h : d.machine.cycle.result = .ok r) :
    d.step = { d with
      machine := d.machine.cycle.machine
      previous := some d.machine.snapshot
      notice := .executed d.mpc (transferAt d.machine.cycle.machine d.mpc) r.next } := by
  unfold step
  simp only [h]

/-- A step that fails ends a run, and nothing happens to the machine. -/
theorem step_of_error (d : Debugger) (e : StepError) (h : d.machine.cycle.result = .error e) :
    d.step = { d with running := false, notice := .failed d.mpc e } := by
  unfold step
  simp only [h, d.machine.cycle_machine_of_error e h]

/-- Without a run, a tick does nothing. -/
theorem tick_of_stopped (d : Debugger) (h : d.running = false) : d.tick = d := by
  rw [tick, if_neg (by rw [h]; exact Bool.false_ne_true)]

/-- A tick of a run is a step, unless there is a breakpoint that may not be passed. At a breakpoint
    the exemption is gone afterwards. -/
theorem tick_of_running (d : Debugger) (h : d.running = true) :
    d.tick = if d.resume || !d.breakpoints.contains d.mpc then
        { d with resume := d.resume && !d.breakpoints.contains d.mpc }.step
      else d.stopped := by
  rw [tick, if_pos h]
  cases hb : d.breakpoints.contains d.mpc with
  | false =>
      rw [Bool.not_false, Bool.or_true, Bool.and_true]
      rfl
  | true =>
      rw [Bool.not_true, Bool.or_false, Bool.and_false]
      rfl

/-- Without a run, no number of ticks does anything. -/
theorem tick_iterate_of_stopped (d : Debugger) (h : d.running = false) (n : Nat) :
    tick^[n] d = d :=
  Function.iterate_fixed (d.tick_of_stopped h) n

/-- A step says what became of the word, whatever was said before it. -/
theorem step_interrupt (d : Debugger) : d.interrupt.step = d.pause.step := by
  have hcycle : d.interrupt.machine.cycle = d.pause.machine.cycle := rfl
  unfold step
  simp only [hcycle]
  split <;> rfl

/-- What a key does is what some commands do. -/
theorem exists_press (d : Debugger) (key : Char) :
    ∃ commands, d.press key = d.obeyAll commands := by
  unfold press
  split
  · exact ⟨[.pause, .step], d.step_interrupt.symm⟩
  · exact ⟨[.run], rfl⟩
  · exact ⟨[.pause], rfl⟩
  · exact ⟨[.toggleBreakpoint], rfl⟩
  · exact ⟨[.toggleDataAvailable], rfl⟩
  · exact ⟨[.reset], rfl⟩
  · exact ⟨[], rfl⟩

/-- Commands that are given in two parts are obeyed one part after the other. -/
theorem obeyAll_append (d : Debugger) (commands later : List Command) :
    d.obeyAll (commands ++ later) = (d.obeyAll commands).obeyAll later :=
  List.foldl_append

/-- The loop of the debugger does nothing but commands, so that what holds after any commands holds
    whenever the debugger waits for a key. -/
theorem exists_attend (d : Debugger) (keys : List (Option Char)) :
    ∃ commands, d.attend keys = d.obeyAll commands := by
  induction keys generalizing d with
  | nil => exact ⟨[], rfl⟩
  | cons key rest ih =>
      have hround : ∃ commands, (key.elim d d.press).tick = d.obeyAll commands := by
        cases key with
        | none => exact ⟨[.tick], rfl⟩
        | some c =>
            rcases d.exists_press c with ⟨commands, hc⟩
            refine ⟨commands ++ [.tick], ?_⟩
            rw [obeyAll_append, ← hc]
            rfl
      rcases hround with ⟨commands, hc⟩
      rw [attend, hc]
      by_cases hquit : key = some 'q'
      · rw [if_pos hquit]
        exact ⟨commands, rfl⟩
      · rcases ih (d.obeyAll commands) with ⟨later, hl⟩
        rw [if_neg hquit, hl]
        exact ⟨commands ++ later, (d.obeyAll_append commands later).symm⟩

/-- Only one command starts a run. -/
theorem running_of_obey (d : Debugger) (c : Command) (h : (d.obey c).running = true) :
    d.running = true ∨ c = .run := by
  cases c with
  | run => exact Or.inr rfl
  | step =>
      rw [obey] at h
      cases hc : d.machine.cycle.result with
      | ok r => rw [d.step_of_ok r hc] at h; exact Or.inl h
      | error e => rw [d.step_of_error e hc] at h; exact absurd h Bool.false_ne_true
  | tick => exact Or.inl (d.running_of_tick h)
  | toggleBreakpoint =>
      rw [obey, toggleBreakpoint] at h
      split at h <;> exact Or.inl h
  | setBreakpoint address => exact Or.inl h
  | toggleDataAvailable => exact Or.inl h
  | pause => exact absurd h Bool.false_ne_true
  | reset => exact absurd h Bool.false_ne_true

/-- A debugger at rest stays at rest until a run is started. -/
theorem stopped_obeyAll (d : Debugger) (commands : List Command) (h : d.running = false)
    (hc : Command.run ∉ commands) : (d.obeyAll commands).running = false := by
  induction commands generalizing d with
  | nil => exact h
  | cons c commands ih =>
      rw [List.mem_cons, not_or] at hc
      refine ih (d.obey c) ?_ hc.2
      cases hrun : (d.obey c).running with
      | false => rfl
      | true =>
          rcases d.running_of_obey c hrun with hd | hstart
          · exact absurd (h.symm.trans hd) Bool.false_ne_true
          · exact absurd hstart.symm hc.1

end Debugger

end Microcode
