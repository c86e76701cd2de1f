import Mathlib.Data.Nat.Find
import Mathlib.Logic.Function.Iterate
import Microcode.Debugger.Basic
/-!
# Breakpoints

When a run stops at a breakpoint.

A run has to be able to leave the breakpoint at which the last one stopped, so `run` grants an
exemption, which is spent at the first breakpoint that the run meets. The exemption is not tied
to the address at which the run starts. If that address has a breakpoint, the exemption is spent
there and every other breakpoint stops the run. If not, it is carried along, for as many words
as it takes, and the first breakpoint on the way is passed as if it were not there.

`resume_during` is the invariant behind this: while a run goes on, the exemption is unspent
exactly if no breakpoint has been met. `run_stops_iff` draws the consequences. A tick that finds
the machine at a breakpoint stops the run exactly if an earlier tick of the run was at one, so
that all breakpoints after the start stop a run exactly if the run starts at a breakpoint or
comes to none.

## Main definitions

* `Debugger.during`: The debugger after some ticks of a run.
* `Debugger.AtBreakpoint`: The debugger runs and has come to a breakpoint.
* `Debugger.stopped`: The debugger when a breakpoint has ended the run.

## Theorems

* `step_breakpoints`, `step_resume`: What a step leaves alone.
* `tick_of_clear`, `tick_of_exempt`, `tick_of_spent`: The three ways of a tick.
* `breakpoints_during`: A run keeps the breakpoints.
* `resume_during`: The exemption is unspent exactly if no breakpoint has been met.
* `tick_at_first`, `tick_at_later`: The first breakpoint is passed, a later one stops the run.
* `run_stops_iff`: When the breakpoints of a run stop it.
* `run_passes_breakpoint`: A run that executes the word at a breakpoint.
-/

namespace Microcode

namespace Debugger

/-- The debugger after some ticks of a run. -/
def during (d : Debugger) (n : Nat) : Debugger :=
  tick^[n] d.run

/-- The debugger runs and has come to a breakpoint. -/
def AtBreakpoint (d : Debugger) : Prop :=
  d.running = true ∧ d.breakpoints.contains d.mpc = true

/-- The debugger when a breakpoint has ended the run: nothing was executed, and the notice says
    where the run has stopped. -/
def stopped (d : Debugger) : Debugger :=
  { d with running := false, notice := .breakpoint d.mpc }

theorem during_succ (d : Debugger) (n : Nat) : d.during (n + 1) = (d.during n).tick :=
  Function.iterate_succ_apply' tick n d.run

theorem step_breakpoints (d : Debugger) : d.step.breakpoints = d.breakpoints := by
  unfold step
  simp only []
  split <;> rfl

theorem step_resume (d : Debugger) : d.step.resume = d.resume := by
  unfold step
  simp only []
  split <;> rfl

-- A step reports what became of the word, never a breakpoint.
theorem step_notice_ne (d : Debugger) (address : UInt8) :
    d.step.notice ≠ .breakpoint address := by
  unfold step
  simp only []
  split <;> exact Notice.noConfusion

/-- Away from the breakpoints a tick is a step. -/
theorem tick_of_clear (d : Debugger) (hrun : d.running = true) (h : ¬ d.AtBreakpoint) :
    d.tick = d.step := by
  have hb : d.breakpoints.contains d.mpc ≠ true := fun hc => h ⟨hrun, hc⟩
  rw [tick, if_pos hrun, if_neg hb]

/-- At a breakpoint a tick spends the exemption, if there is one. -/
theorem tick_of_exempt (d : Debugger) (h : d.AtBreakpoint) (hr : d.resume = true) :
    d.tick = { d with resume := false }.step := by
  rw [tick, if_pos h.1, if_pos h.2, if_pos hr]

/-- Without an exemption the breakpoint ends the run. -/
theorem tick_of_spent (d : Debugger) (h : d.AtBreakpoint) (hr : d.resume = false) :
    d.tick = d.stopped := by
  rw [tick, if_pos h.1, if_pos h.2, if_neg (by rw [hr]; exact Bool.false_ne_true)]
  rfl

theorem tick_breakpoints (d : Debugger) : d.tick.breakpoints = d.breakpoints := by
  unfold tick
  split
  · split
    · split
      · rw [step_breakpoints]
      · rfl
    · rw [step_breakpoints]
  · rfl

/-- A tick does not start a run. -/
theorem running_of_tick (d : Debugger) (h : d.tick.running = true) : d.running = true := by
  by_contra hrun
  rw [tick, if_neg hrun] at h
  exact hrun h

/-- A run keeps the breakpoints. -/
theorem breakpoints_during (d : Debugger) (n : Nat) : (d.during n).breakpoints = d.breakpoints := by
  induction n with
  | zero => rfl
  | succ n ih => rw [during_succ, tick_breakpoints, ih]

/-- While a run goes on, the exemption is unspent exactly if no breakpoint has been met. -/
theorem resume_during (d : Debugger) (n : Nat) (hrun : (d.during n).running = true) :
    (d.during n).resume = true ↔ ∀ k, k < n → ¬ (d.during k).AtBreakpoint := by
  induction n with
  | zero => exact ⟨fun _ k hk => absurd hk (Nat.not_lt_zero k), fun _ => rfl⟩
  | succ n ih =>
      rw [during_succ] at hrun ⊢
      have hbefore := (d.during n).running_of_tick hrun
      have ih := ih hbefore
      by_cases hat : (d.during n).AtBreakpoint
      · -- The run goes on, so the exemption was there, and this tick has spent it.
        cases hr : (d.during n).resume with
        | false =>
            rw [tick_of_spent _ hat hr] at hrun
            cases hrun
        | true =>
            rw [tick_of_exempt _ hat hr, step_resume]
            refine ⟨fun hc => absurd hc Bool.false_ne_true, fun hall => ?_⟩
            exact absurd hat (hall n (Nat.lt_succ_self n))
      · rw [tick_of_clear _ hbefore hat, step_resume, ih]
        constructor
        · intro hall k hk
          rcases Nat.lt_or_eq_of_le (Nat.le_of_lt_succ hk) with hlt | heq
          · exact hall k hlt
          · rw [heq]
            exact hat
        · intro hall k hk
          exact hall k (Nat.lt_succ_of_lt hk)

/-- The first breakpoint that a run meets is passed. -/
theorem tick_at_first (d : Debugger) (n : Nat) (hat : (d.during n).AtBreakpoint)
    (hfirst : ∀ k, k < n → ¬ (d.during k).AtBreakpoint) :
    d.during (n + 1) = { d.during n with resume := false }.step := by
  rw [during_succ]
  exact tick_of_exempt _ hat ((d.resume_during n hat.1).mpr hfirst)

/-- A breakpoint behind the first one that a run meets ends the run. -/
theorem tick_at_later (d : Debugger) (n k : Nat) (hat : (d.during n).AtBreakpoint) (hk : k < n)
    (hearlier : (d.during k).AtBreakpoint) : d.during (n + 1) = (d.during n).stopped := by
  rw [during_succ]
  refine tick_of_spent _ hat ?_
  cases hr : (d.during n).resume with
  | false => rfl
  | true => exact absurd hearlier ((d.resume_during n hat.1).mp hr k hk)

/-- The breakpoints of a run stay, and the first tick attempts the word at the micro-program
    counter. Any tick that finds the machine at a breakpoint ends the run if an earlier one did,
    and attempts the word if none did. So the breakpoints after the start all stop the run
    exactly if the run starts at a breakpoint, where the exemption is spent, or meets none. -/
theorem run_stops_iff (d : Debugger) :
    (∀ n, (d.during n).breakpoints = d.breakpoints) ∧
    d.during 1 = { d.run with resume := !d.breakpoints.contains d.mpc }.step ∧
    (∀ n, (d.during n).AtBreakpoint →
      ((∃ k, k < n ∧ (d.during k).AtBreakpoint) → d.during (n + 1) = (d.during n).stopped) ∧
      ((¬ ∃ k, k < n ∧ (d.during k).AtBreakpoint) →
        d.during (n + 1) = { d.during n with resume := false }.step)) ∧
    ((∀ n, 0 < n → (d.during n).AtBreakpoint → d.during (n + 1) = (d.during n).stopped) ↔
      (d.breakpoints.contains d.mpc = true ∨ ∀ n, 0 < n → ¬ (d.during n).AtBreakpoint)) := by
  have hstart : (d.during 0).AtBreakpoint ↔ d.breakpoints.contains d.mpc = true :=
    ⟨fun h => h.2, fun h => ⟨rfl, h⟩⟩
  refine ⟨d.breakpoints_during, ?_, ?_, ?_⟩
  · rw [during_succ]
    cases hb : d.breakpoints.contains d.mpc with
    | true => exact tick_of_exempt _ (hstart.mpr hb) rfl
    | false =>
        refine tick_of_clear _ rfl (fun hat => ?_)
        rw [hstart.mp hat] at hb
        cases hb
  · intro n hat
    refine ⟨fun ⟨k, hk, hatk⟩ => d.tick_at_later n k hat hk hatk, fun hnone => ?_⟩
    exact d.tick_at_first n hat (fun k hk hatk => hnone ⟨k, hk, hatk⟩)
  · constructor
    · intro hall
      by_contra hnot
      rw [not_or] at hnot
      rcases hnot with ⟨hclear, hmeets⟩
      have hex : ∃ n, (d.during n).AtBreakpoint := by
        by_contra hnone
        exact hmeets (fun n _ hat => hnone ⟨n, hat⟩)
      classical
      -- The first breakpoint is not at the start, so it is passed although it should stop.
      have hat := Nat.find_spec hex
      have hpos : 0 < Nat.find hex := by
        rcases Nat.eq_zero_or_pos (Nat.find hex) with hzero | hpos
        · rw [hzero] at hat
          exact absurd (hstart.mp hat) hclear
        · exact hpos
      have hpassed := d.tick_at_first _ hat (fun k hk => Nat.find_min hex hk)
      rw [hall _ hpos hat] at hpassed
      exact step_notice_ne _ _ (congrArg Debugger.notice hpassed).symm
    · rintro (hb | hnone) n hpos hat
      · exact d.tick_at_later n 0 hat hpos (hstart.mpr hb)
      · exact absurd hat (hnone n hpos)

/-- A run that starts where there is no breakpoint executes the word at the first one. -/
theorem run_passes_breakpoint :
    let word : MicroWord := { write := 0, read := 0, alu := 0, jump := 0, jumpAddress := 0 }
    let d : Debugger :=
      { machine := ((Machine.new .builtin).load [word, word, word]).1
        breakpoints := Breakpoints.empty.insert 1 }
    (d.during 1).AtBreakpoint ∧ (d.during 2).running = true ∧
      (d.during 2).machine.cycles = 2 ∧ d.during 2 ≠ (d.during 1).stopped := by
  refine ⟨⟨rfl, rfl⟩, rfl, rfl, fun hc => ?_⟩
  exact absurd (congrArg Debugger.running hc) Bool.noConfusion

end Debugger

end Microcode
