import Mathlib.Data.Nat.Count
import Microcode.Proofs.BoundedRuns
import Microcode.Proofs.Commands
/-!
# Continuous Runs

The debugger's run is the machine's run.

The machine runs by a loop that counts, and the debugger by ticks that look at a flag. A tick of
a run either executes one word and lets the run go on, or it ends the run without touching the
machine, because there is a breakpoint or because the word fails. `Ticks` is that alternative.
`executed` counts the ticks of the first kind, and `machine_during` is the invariant of a run:
the machine is where as many cycles lead, all of which succeed, and the run is still on exactly
if every tick was of the first kind.

Without breakpoints only a failing word ends a run. The ticks then are the cycles of a bounded
run one by one, up to the same failing cycle, and the notice that the debugger is left with is
the error that the bounded run returns.

## Main definitions

* `Debugger.executes`: The next tick executes a word.
* `Debugger.executed`: How many of the first ticks of a run execute a word.
* `Debugger.Ticks`: What a tick of a run comes to.

## Theorems

* `tick_ticks`: A tick of a run executes one word or ends the run.
* `during_of_stopped`: A run that has ended does not go on.
* `machine_during`: The machine of a run is the machine after the words that were executed.
* `running_during_iff`: A run is on exactly if every tick has executed a word.
* `executed_of_completes`: Without breakpoints, words are executed as long as they succeed.
* `during_of_fails`: Without breakpoints, a run ends at the first word that fails.
* `run_follows_machine`: A run of the debugger against a run of the machine.
-/

namespace Microcode

namespace Machine

-- One more cycle that succeeds.
theorem completes_succ (m : Machine) (n : Nat) (r : StepResult) (h : m.Completes n)
    (hr : (m.after n).cycle.result = .ok r) : m.Completes (n + 1) := by
  intro k hk
  rcases Nat.lt_or_eq_of_le (Nat.le_of_lt_succ hk) with hlt | rfl
  · exact h k hlt
  · exact ⟨r, hr⟩

end Machine

namespace Debugger

/-- Whether the next tick executes a word: there is a run, no breakpoint ends it, and the word at
    the micro-program counter does not fail. -/
def executes (d : Debugger) : Bool :=
  d.running && (d.resume || !d.breakpoints.contains d.mpc) && d.machine.cycle.result.isOk

/-- How many of the first ticks of a run execute a word. -/
def executed (d : Debugger) (n : Nat) : Nat :=
  Nat.count (fun k => (d.during k).executes = true) n

/-- What a tick of a run comes to. -/
inductive Ticks (d d' : Debugger) : Prop where
  /-- One word is executed, and the run goes on. -/
  | word (hx : d.executes = true) (r : StepResult) (hr : d.machine.cycle.result = .ok r)
      (hm : d'.machine = d.machine.cycle.machine) (hrun : d'.running = true) : Ticks d d'
  /-- A breakpoint ends the run. -/
  | breakpoint (hx : d.executes = false) (hb : d.breakpoints.contains d.mpc = true)
      (hm : d'.machine = d.machine) (hrun : d'.running = false)
      (hn : d'.notice = .breakpoint d.mpc) : Ticks d d'
  /-- A word that fails ends the run. -/
  | failure (hx : d.executes = false) (e : StepError) (he : d.machine.cycle.result = .error e)
      (hm : d'.machine = d.machine) (hrun : d'.running = false)
      (hn : d'.notice = .failed d.mpc e) : Ticks d d'

-- A tick that is a step, whatever has become of the exemption.
theorem ticks_of_step (d : Debugger) (b : Bool) (hrun : d.running = true)
    (hpass : (d.resume || !d.breakpoints.contains d.mpc) = true) :
    Ticks d { d with resume := b }.step := by
  cases hc : d.machine.cycle.result with
  | ok r =>
      have hx : d.executes = true := by rw [executes, hrun, hpass, hc]; rfl
      rw [step_of_ok { d with resume := b } r hc]
      exact .word hx r hc rfl hrun
  | error e =>
      have hx : d.executes = false := by rw [executes, hrun, hpass, hc]; rfl
      rw [step_of_error { d with resume := b } e hc]
      exact .failure hx e hc rfl rfl rfl

/-- A tick of a run executes one word or ends the run. -/
theorem tick_ticks (d : Debugger) (hrun : d.running = true) : Ticks d d.tick := by
  rw [d.tick_of_running hrun]
  by_cases hpass : (d.resume || !d.breakpoints.contains d.mpc) = true
  · rw [if_pos hpass]
    exact d.ticks_of_step _ hrun hpass
  · rw [if_neg hpass]
    rw [Bool.not_eq_true, Bool.or_eq_false_iff, Bool.not_eq_false'] at hpass
    have hx : d.executes = false := by rw [executes, hrun, hpass.1, hpass.2]; rfl
    exact .breakpoint hx hpass.2 rfl rfl rfl

/-- Nothing is executed without a run. -/
theorem running_of_executes (d : Debugger) (h : d.executes = true) : d.running = true := by
  rw [executes, Bool.and_eq_true, Bool.and_eq_true] at h
  exact h.1.1

/-- A run that has ended does not go on. -/
theorem during_of_stopped (d : Debugger) (k n : Nat) (hk : k ≤ n)
    (h : (d.during k).running = false) : d.during n = d.during k := by
  have hsplit : d.during n = tick^[n - k] (d.during k) := by
    rw [during, during, ← Function.iterate_add_apply, Nat.sub_add_cancel hk]
  rw [hsplit, tick_iterate_of_stopped _ h]

theorem executed_succ (d : Debugger) (n : Nat) :
    d.executed (n + 1) = d.executed n + if (d.during n).executes = true then 1 else 0 :=
  Nat.count_succ _ n

/-- The machine of a run is the machine after as many cycles as words were executed, and all of
    these cycles succeed. -/
theorem machine_during (d : Debugger) (n : Nat) :
    d.machine.Completes (d.executed n) ∧
      (d.during n).machine = d.machine.after (d.executed n) := by
  induction n with
  | zero => exact ⟨fun k hk => absurd hk (Nat.not_lt_zero k), rfl⟩
  | succ n ih =>
      rcases ih with ⟨hc, hm⟩
      rw [during_succ, executed_succ]
      cases hrun : (d.during n).running with
      | false =>
          -- At rest a tick does nothing, and it executes no word either.
          have hx : (d.during n).executes ≠ true := by
            intro hx
            rw [(d.during n).running_of_executes hx] at hrun
            exact Bool.noConfusion hrun
          rw [tick_of_stopped _ hrun, if_neg hx]
          exact ⟨hc, hm⟩
      | true =>
          cases (d.during n).tick_ticks hrun with
          | word hx r hr hm' _ =>
              rw [if_pos hx, hm', hm, Machine.after_succ]
              rw [hm] at hr
              exact ⟨d.machine.completes_succ _ r hc hr, rfl⟩
          | breakpoint hx _ hm' _ _ =>
              rw [if_neg (by rw [hx]; exact Bool.false_ne_true), hm']
              exact ⟨hc, hm⟩
          | failure hx _ _ hm' _ _ =>
              rw [if_neg (by rw [hx]; exact Bool.false_ne_true), hm']
              exact ⟨hc, hm⟩

/-- A run is on exactly if every tick has executed a word. -/
theorem running_during_iff (d : Debugger) (n : Nat) :
    (d.during n).running = true ↔ d.executed n = n := by
  induction n with
  | zero => exact ⟨fun _ => rfl, fun _ => rfl⟩
  | succ n ih =>
      -- A tick executes one word at most, so a count that keeps up has missed none.
      have hle : d.executed n ≤ n := Nat.count_le _
      rw [during_succ, executed_succ]
      constructor
      · intro h
        have hrun := (d.during n).running_of_tick h
        cases (d.during n).tick_ticks hrun with
        | word hx _ _ _ _ => rw [if_pos hx, ih.mp hrun]
        | breakpoint _ _ _ hstop _ => exact absurd (hstop.symm.trans h) Bool.false_ne_true
        | failure _ _ _ _ hstop _ => exact absurd (hstop.symm.trans h) Bool.false_ne_true
      · intro h
        by_cases hx : (d.during n).executes = true
        · cases (d.during n).tick_ticks (running_of_executes _ hx) with
          | word _ _ _ _ hrun => exact hrun
          | breakpoint hnot _ _ _ _ => exact absurd (hnot.symm.trans hx) Bool.false_ne_true
          | failure hnot _ _ _ _ _ => exact absurd (hnot.symm.trans hx) Bool.false_ne_true
        · rw [if_neg hx] at h
          omega

/-- Without breakpoints, words are executed for as long as they succeed. -/
theorem executed_of_completes (d : Debugger) (n : Nat)
    (hclear : ∀ address, d.breakpoints.contains address = false) (h : d.machine.Completes n) :
    d.executed n = n := by
  induction n with
  | zero => rfl
  | succ n ih =>
      have hn := ih (fun k hk => h k (Nat.lt_succ_of_lt hk))
      rcases h n (Nat.lt_succ_self n) with ⟨r, hr⟩
      have hrun := (d.running_during_iff n).mpr hn
      have hx : (d.during n).executes = true := by
        rw [executes, hrun, breakpoints_during, hclear, (d.machine_during n).2, hn, hr,
          Bool.not_false, Bool.or_true]
        rfl
      rw [executed_succ, if_pos hx, hn]

/-- Without breakpoints, a run ends at the first word that fails, with a notice of its error. -/
theorem during_of_fails (d : Debugger) (k n : Nat) (e : StepError)
    (hclear : ∀ address, d.breakpoints.contains address = false) (hk : k < n)
    (h : d.machine.Completes k) (he : (d.machine.after k).cycle.result = .error e) :
    (d.during n).machine = d.machine.after k ∧ (d.during n).running = false ∧
      (d.during n).notice = .failed (d.machine.after k).sequencer.mpc e := by
  have hall := d.executed_of_completes k hclear h
  have hm := (d.machine_during k).2
  rw [hall] at hm
  have hmpc : (d.during k).mpc = (d.machine.after k).sequencer.mpc := by rw [mpc, hm]
  have hticks := (d.during k).tick_ticks ((d.running_during_iff k).mpr hall)
  rw [← during_succ] at hticks
  cases hticks with
  | word _ r hr _ _ => rw [hm, he] at hr; cases hr
  | breakpoint _ hb _ _ _ => rw [breakpoints_during, hclear] at hb; cases hb
  | failure _ e' he' hm' hstop hn =>
      rw [hm, he] at he'
      cases he'
      rw [d.during_of_stopped (k + 1) n hk hstop]
      exact ⟨hm'.trans hm, hstop, hmpc ▸ hn⟩

/-- A run of the debugger against a run of the machine. A tick of a run executes one word, or it
    ends the run and leaves the machine as it was; a run that has ended does not go on until it is
    started again. So the machine of a run is always the machine after some cycles, one for each
    word that was executed. Without breakpoints it is the machine after a bounded run with as many
    cycles as there were ticks, which returns its limit exactly if the run of the debugger is
    still on; and if it returns an error, that error is the notice of the debugger. -/
theorem run_follows_machine (d : Debugger) :
    (d.running = true → Ticks d d.tick) ∧
    (∀ commands, d.running = false → Command.run ∉ commands →
      ∀ n, tick^[n] (d.obeyAll commands) = d.obeyAll commands) ∧
    (∀ n, d.machine.Completes (d.executed n) ∧
      (d.during n).machine = d.machine.after (d.executed n) ∧
      ((d.during n).running = true ↔ d.executed n = n)) ∧
    ((∀ address, d.breakpoints.contains address = false) → ∀ limit : UInt64,
      (d.during limit.toNat).machine = (d.machine.runLimited limit).machine ∧
      ((d.during limit.toNat).running = true ↔
        ∃ n, (d.machine.runLimited limit).result = .ok n) ∧
      (∀ e, (d.machine.runLimited limit).result = .error e →
        (d.during limit.toNat).notice.text = "Error at " ++
          Text.hexByte (d.machine.runLimited limit).machine.sequencer.mpc ++ ": " ++
            e.message)) := by
  refine ⟨d.tick_ticks, ?_, ?_, ?_⟩
  · intro commands hstop hc n
    exact tick_iterate_of_stopped _ (d.stopped_obeyAll commands hstop hc) n
  · intro n
    exact ⟨(d.machine_during n).1, (d.machine_during n).2, d.running_during_iff n⟩
  · intro hclear limit
    -- Either every cycle up to the limit succeeds, or there is a first one that fails.
    by_cases hall : d.machine.Completes limit.toNat
    · have hx := d.executed_of_completes limit.toNat hclear hall
      have hrun := d.machine.runLimited_of_completes limit hall
      refine ⟨?_, ⟨fun _ => ⟨limit, by rw [hrun]⟩, fun _ => ?_⟩, fun e he => ?_⟩
      · rw [(d.machine_during _).2, hx, hrun]
      · exact (d.running_during_iff _).mpr hx
      · rw [hrun] at he; cases he
    · rcases d.machine.first_failure _ hall with ⟨k, e, hk, hbefore, he⟩
      have hrun := d.machine.runLimited_of_fails limit k e hk hbefore he
      rcases d.during_of_fails k limit.toNat e hclear hk hbefore he with ⟨hm, hstop, hn⟩
      refine ⟨?_, ⟨fun hon => ?_, fun ⟨n, hok⟩ => ?_⟩, fun e' he' => ?_⟩
      · rw [hm, hrun]
      · exact absurd (hstop.symm.trans hon) Bool.false_ne_true
      · rw [hrun] at hok; cases hok
      · rw [hrun] at he' ⊢
        cases he'
        rw [hn]
        rfl

/-- A run whose second word has an unused write code. Five ticks come to the same as a run of five
    cycles, and at rest the ticks do nothing. -/
theorem run_follows_machine_unused :
    let idle : MicroWord := { write := 0, read := 0, alu := 0, jump := 0, jumpAddress := 0 }
    let unused : MicroWord := { write := 12, read := 0, alu := 0, jump := 0, jumpAddress := 0 }
    let d : Debugger :=
      { machine := ((Machine.new .builtin).load [idle, unused]).1, running := true }
    Ticks d d.tick ∧
      tick^[5] (d.pause.obeyAll [.step, .toggleDataAvailable]) =
        d.pause.obeyAll [.step, .toggleDataAvailable] ∧
      (d.during 5).machine = (d.machine.runLimited 5).machine ∧
      (d.during 5).notice.text = "Error at 01: decode error: write code 0xc is not used" := by
  intro idle unused d
  have hfirst : d.machine.Completes 1 := by
    intro k hk
    rw [Nat.lt_one_iff.mp hk]
    exact ⟨_, rfl⟩
  have hlimited := d.machine.runLimited_of_fails 5 1 (.decode (.unusedCode .write 12)) (by decide)
    hfirst rfl
  have hclear : ∀ address, d.breakpoints.contains address = false := Breakpoints.contains_empty
  have hfive := d.run_follows_machine.2.2.2 hclear 5
  have hnotice := hfive.2.2 (.decode (.unusedCode .write 12)) (by rw [hlimited])
  rw [hlimited] at hnotice
  exact ⟨d.run_follows_machine.1 rfl,
    d.pause.run_follows_machine.2.1 [.step, .toggleDataAvailable] rfl (by decide) 5,
    hfive.1, hnotice.trans (by decide +kernel)⟩

end Debugger

end Microcode
