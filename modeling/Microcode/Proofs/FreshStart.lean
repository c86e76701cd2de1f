import Microcode.Proofs.Commands
/-!
# Starting Afresh

A reset leaves nothing of what was before.

A reset gives the machine its first state, forgets what there was to compare with and ends the run.
One thing it does not touch is whether the next breakpoint may be passed, so a debugger that was
reset during a run differs from a new one. The difference cannot be seen. Only the tick of a run
looks at that exemption, after a reset there is no run, and the command that starts one grants the
exemption anew.

`BehavesLike` puts this into a relation: two debuggers show the same, and have the same exemption
while they run. Every command keeps it, which is `BehavesLike.obey`, so two debuggers that behave
alike once behave alike under all commands.

## Main definitions

* `Debugger.LooksLike`: Two debuggers show the same machine, comparison, breakpoints and run.
* `Debugger.BehavesLike`: They also have the same exemption while they run.

## Theorems

* `behavesLike_step`, `behavesLike_tick`: A word on two debuggers that behave alike.
* `BehavesLike.obey`, `BehavesLike.obeyAll`: Commands to two debuggers that behave alike.
* `reset_behavesLike`: A debugger after a reset and a new one.
* `reset_is_fresh_start`: What follows a reset is what follows a fresh start.
-/

namespace Microcode

namespace Debugger

/-- Two debuggers show the same: the machine, the machine before the last word, the breakpoints,
    and whether there is a run. -/
structure LooksLike (d d' : Debugger) : Prop where
  machine : d'.machine = d.machine
  previous : d'.previous = d.previous
  breakpoints : d'.breakpoints = d.breakpoints
  running : d'.running = d.running

/-- Two debuggers show the same, and in a run they agree on whether the next breakpoint may be
    passed. -/
structure BehavesLike (d d' : Debugger) : Prop extends LooksLike d d' where
  resume : d.running = true → d'.resume = d.resume

/-- Two debuggers that behave alike execute the same word, or fail alike. -/
theorem behavesLike_step (d d' : Debugger) (h : BehavesLike d d') :
    BehavesLike d.step d'.step := by
  cases hc : d.machine.cycle.result with
  | ok r =>
      have hc' : d'.machine.cycle.result = .ok r := by rw [h.machine, hc]
      rw [d.step_of_ok r hc, d'.step_of_ok r hc', h.machine]
      exact ⟨⟨rfl, rfl, h.breakpoints, h.running⟩, h.resume⟩
  | error e =>
      have hc' : d'.machine.cycle.result = .error e := by rw [h.machine, hc]
      rw [d.step_of_error e hc, d'.step_of_error e hc']
      exact ⟨⟨h.machine, h.previous, h.breakpoints, rfl⟩, fun hrun => Bool.noConfusion hrun⟩

/-- A tick of two debuggers that behave alike. -/
theorem behavesLike_tick (d d' : Debugger) (h : BehavesLike d d') :
    BehavesLike d.tick d'.tick := by
  cases hrun : d.running with
  | false =>
      -- Without a run neither of them looks at the exemption.
      rw [d.tick_of_stopped hrun, d'.tick_of_stopped (h.running.trans hrun)]
      exact h
  | true =>
      have hmpc : d'.mpc = d.mpc := by rw [mpc, mpc, h.machine]
      rw [d.tick_of_running hrun, d'.tick_of_running (h.running.trans hrun), h.resume hrun,
        h.breakpoints, hmpc]
      by_cases hpass : (d.resume || !d.breakpoints.contains d.mpc) = true
      · rw [if_pos hpass, if_pos hpass]
        exact behavesLike_step _ _
          ⟨⟨h.machine, h.previous, rfl, h.running⟩, fun _ => rfl⟩
      · rw [if_neg hpass, if_neg hpass]
        exact ⟨⟨h.machine, h.previous, h.breakpoints, rfl⟩, fun hc => Bool.noConfusion hc⟩

/-- A command to two debuggers that behave alike. -/
theorem BehavesLike.obey {d d' : Debugger} (h : BehavesLike d d') (c : Command) :
    BehavesLike (d.obey c) (d'.obey c) := by
  have hmpc : d'.mpc = d.mpc := by rw [mpc, mpc, h.machine]
  cases c with
  | step => exact behavesLike_step d d' h
  | tick => exact behavesLike_tick d d' h
  | run => exact ⟨⟨h.machine, h.previous, h.breakpoints, rfl⟩, fun _ => rfl⟩
  | pause => exact ⟨⟨h.machine, h.previous, h.breakpoints, rfl⟩, fun hc => Bool.noConfusion hc⟩
  | toggleBreakpoint =>
      rw [Debugger.obey, Debugger.obey, toggleBreakpoint, toggleBreakpoint, hmpc, h.breakpoints]
      by_cases hb : d.breakpoints.contains d.mpc = true
      · rw [if_pos hb, if_pos hb]
        exact ⟨⟨h.machine, h.previous, rfl, h.running⟩, h.resume⟩
      · rw [if_neg hb, if_neg hb]
        exact ⟨⟨h.machine, h.previous, rfl, h.running⟩, h.resume⟩
  | setBreakpoint address =>
      rw [Debugger.obey, Debugger.obey, setBreakpoint, setBreakpoint, h.breakpoints]
      exact ⟨⟨h.machine, h.previous, rfl, h.running⟩, h.resume⟩
  | toggleDataAvailable =>
      rw [Debugger.obey, Debugger.obey, toggleDataAvailable, toggleDataAvailable, h.machine]
      exact ⟨⟨rfl, h.previous, h.breakpoints, h.running⟩, h.resume⟩
  | reset =>
      rw [Debugger.obey, Debugger.obey, Debugger.reset, Debugger.reset, h.machine]
      exact ⟨⟨rfl, rfl, h.breakpoints, rfl⟩, fun hc => Bool.noConfusion hc⟩

/-- Commands to two debuggers that behave alike. -/
theorem BehavesLike.obeyAll {d d' : Debugger} (h : BehavesLike d d') (commands : List Command) :
    BehavesLike (d.obeyAll commands) (d'.obeyAll commands) := by
  induction commands generalizing d d' with
  | nil => exact h
  | cons c commands ih => exact ih (h.obey c)

/-- A debugger after a reset behaves like a new one, around a new machine with the same table and
    the same store, that has the same breakpoints. -/
theorem reset_behavesLike (d : Debugger) :
    BehavesLike d.reset
      { machine := { Machine.new d.machine.table with store := d.machine.store }
        breakpoints := d.breakpoints } :=
  ⟨⟨rfl, rfl, rfl, rfl⟩, fun hrun => Bool.noConfusion hrun⟩

/-- Whatever was asked of a debugger before a reset, and whatever is asked of it afterwards, it
    shows what a new debugger shows that is asked the same: one around a new machine with the table
    and the store that the debugger had at the reset, and with its breakpoints. -/
theorem reset_is_fresh_start (d : Debugger) (history further : List Command) :
    let before : Debugger := d.obeyAll history
    let fresh : Debugger :=
      { machine := { Machine.new before.machine.table with store := before.machine.store }
        breakpoints := before.breakpoints }
    LooksLike (d.obeyAll (history ++ .reset :: further)) (fresh.obeyAll further) := by
  intro before fresh
  have hafter : d.obeyAll (history ++ .reset :: further) = before.reset.obeyAll further :=
    d.obeyAll_append history (.reset :: further)
  rw [hafter]
  exact ((reset_behavesLike before).obeyAll further).toLooksLike

-- A run that a reset has ended leaves its exemption behind.
example (m : Machine) : (({ machine := m } : Debugger).obeyAll [.run, .reset]).resume = true :=
  rfl

end Debugger

end Microcode
