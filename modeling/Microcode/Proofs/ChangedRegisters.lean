import Microcode.Debugger.Screen
import Microcode.Proofs.ContinuousRuns
import Microcode.Proofs.Decoding
import Microcode.Proofs.SequencerHistory
/-!
# Changed Registers

What the debugger's comparison is with.

The debugger marks the registers that the last executed word has changed. It does not look at the
word for that. Before each attempt it takes a snapshot of the machine, it keeps the snapshot if the
attempt succeeds, and when the registers are drawn it compares. So the marks are right only if
nothing but an executed word comes between the snapshot and the drawing that could change a
register, and if the snapshot of an attempt that failed is never kept.

Here that is said of all lists of commands. `sinceReset` names the words that the debugger has
executed since the last reset, whether by a step or by a tick of a run. `Obeyed` are the three
things that a command can come to: it executes one word, it resets, or it leaves the registers, the
sequencer, the store and the comparison alone. The last kind has failed attempts, breakpoints,
pauses and the serial line in it, so none of them has to be looked at again. `Compares` is the
invariant, and a debugger that has it marks what its last word has changed.

## Main definitions

* `Debugger.executedBy?`: The word that a command executes.
* `Debugger.sinceReset`: The words that were executed since the last reset.
* `Debugger.Marks`: A register stands out on the screen.
* `Debugger.Obeyed`: What a command comes to.
* `Debugger.Follows`: Nothing but the last word stands between two machines.
* `Debugger.Compares`: The debugger compares with the machine before the last word.
* `Debugger.ComparesWith`: What the comparison and the screen tell of an executed word.

## Theorems

* `obeyed_step`, `obeyed_tick`, `obeyed`: A command executes one word, resets, or changes nothing
  that is compared.
* `compares_obey`, `compares_obeyAll`: Every command keeps the comparison up to date.
* `marks_iff`: The registers that stand out are those that differ.
* `comparesWith_of_follows`: What the snapshot and the screen have to do with the word.
* `comparison_remembers`: The debugger compares with the machine before its last word.
-/

namespace Microcode

namespace Machine

/-- A snapshot lists every register once. -/
theorem get_snapshot (m : Machine) (r : Register) : m.snapshot.get r = m.registers.get r := by
  cases r <;> rfl

end Machine

namespace Debugger

/-- The word that a command executes, if it executes one. -/
def executedBy? (d : Debugger) : Command → Option ExecutedWord
  | .step => d.machine.executedBy? .cycle
  | .tick => if d.executes then d.machine.executedBy? .cycle else none
  | _ => none

/-- The words that were executed since the last reset, once the commands have followed on the
    words that were there before. -/
def sinceReset (d : Debugger) (past : List ExecutedWord) : List Command → List ExecutedWord
  | [] => past
  | c :: commands =>
    (d.obey c).sinceReset (if c = .reset then [] else past ++ (d.executedBy? c).toList) commands

/-- A register stands out on the screen: something in its line is bold and yellow. -/
def Marks (d : Debugger) (r : Register) : Prop :=
  ∃ line, d.registerPanel.blocks[r.index.val]? = some [line] ∧
    ∃ span ∈ line.spans, span.style = some { color := .yellow, bold := true }

/-- A machine still is what an executed word has left behind, up to the serial line, and the word
    is still in its store. -/
structure Follows (x : ExecutedWord) (m : Machine) : Prop where
  rests : x.after.Rests m
  word : m.store.read x.address = some x.word

/-- What a command comes to. -/
inductive Obeyed (d : Debugger) (c : Command) (d' : Debugger) : Prop where
  /-- One word is executed, and compared with the machine before. -/
  | word (x : ExecutedWord) (hc : c ≠ .reset) (hx : d.executedBy? c = some x)
      (hprev : d'.previous = some x.machine.snapshot) (hm : Follows x d'.machine) : Obeyed d c d'
  /-- There is nothing to compare with. -/
  | reset (hc : c = .reset) (hprev : d'.previous = none) : Obeyed d c d'
  /-- Nothing that is compared changes. -/
  | rest (hc : c ≠ .reset) (hx : d.executedBy? c = none) (hprev : d'.previous = d.previous)
      (hm : d.machine.Rests d'.machine) (hstore : d'.machine.store = d.machine.store) :
      Obeyed d c d'

/-- The debugger compares with the machine before the last of some words. -/
structure Compares (past : List ExecutedWord) (d : Debugger) : Prop where
  previous : d.previous = past.getLast?.map (fun x => x.machine.snapshot)
  follows : ∀ x, past.getLast? = some x → Follows x d.machine

-- A step, taken by whichever command, when the breakpoints and the run do not matter.
theorem obeyed_step (d : Debugger) (c : Command) (b : Bool) (hc : c ≠ .reset)
    (hx : d.executedBy? c = d.machine.executedBy? .cycle) :
    Obeyed d c { d with resume := b }.step := by
  cases hr : d.machine.cycle.result with
  | ok r =>
      rcases d.machine.executedBy?_cycle_of_ok r hr with ⟨x, hcycle, hm, hafter, hword⟩
      rw [step_of_ok { d with resume := b } r hr]
      refine .word x hc (hx.trans hcycle) ?_ ⟨?_, ?_⟩
      · rw [hm]
      · rw [← hafter]
        exact .refl _
      · exact (congrArg (·.read x.address) d.machine.cycle_store_table.1).trans hword
  | error e =>
      rw [step_of_error { d with resume := b } e hr]
      exact .rest hc (hx.trans (d.machine.executedBy?_cycle_of_error e hr)) rfl (.refl _) rfl

-- A command that leaves the machine and the comparison as they are.
theorem obeyed_idle (d d' : Debugger) (c : Command) (hc : c ≠ .reset)
    (hx : d.executedBy? c = none) (hm : d'.machine = d.machine)
    (hprev : d'.previous = d.previous) : Obeyed d c d' :=
  .rest hc hx hprev (hm ▸ .refl _) (by rw [hm])

/-- A tick executes one word, or changes nothing that is compared. -/
theorem obeyed_tick (d : Debugger) : Obeyed d .tick d.tick := by
  have hc : Command.tick ≠ .reset := by decide
  cases hrun : d.running with
  | false =>
      have hx : d.executes = false := by rw [executes, hrun]; rfl
      rw [d.tick_of_stopped hrun]
      refine d.obeyed_idle d .tick hc ?_ rfl rfl
      rw [executedBy?, hx]
      rfl
  | true =>
      rw [d.tick_of_running hrun]
      by_cases hpass : (d.resume || !d.breakpoints.contains d.mpc) = true
      · rw [if_pos hpass]
        refine d.obeyed_step .tick _ hc ?_
        -- A tick that is a step executes what the cycle executes, be it nothing.
        rw [executedBy?, executes, hrun, hpass]
        cases hr : d.machine.cycle.result with
        | ok r => rfl
        | error e => rw [d.machine.executedBy?_cycle_of_error e hr]; rfl
      · have hx : d.executes = false := by
          rw [executes, hrun, Bool.eq_false_iff.mpr hpass]; rfl
        rw [if_neg hpass]
        refine d.obeyed_idle _ .tick hc ?_ rfl rfl
        rw [executedBy?, hx]
        rfl

/-- A command executes one word, resets, or changes nothing that is compared. -/
theorem obeyed (d : Debugger) (c : Command) : Obeyed d c (d.obey c) := by
  cases c with
  | step => exact d.obeyed_step .step d.resume (by decide) rfl
  | tick => exact d.obeyed_tick
  | reset => exact .reset rfl rfl
  | toggleDataAvailable => exact .rest (by decide) rfl rfl ⟨rfl, rfl, rfl, rfl⟩ rfl
  | run => exact d.obeyed_idle _ .run (by decide) rfl rfl rfl
  | pause => exact d.obeyed_idle _ .pause (by decide) rfl rfl rfl
  | setBreakpoint address => exact d.obeyed_idle _ _ (by simp) rfl rfl rfl
  | toggleBreakpoint =>
      rw [obey, toggleBreakpoint]
      split <;> exact d.obeyed_idle _ .toggleBreakpoint (by decide) rfl rfl rfl

/-- Every command keeps the comparison up to date. -/
theorem compares_obey (d : Debugger) (past : List ExecutedWord) (c : Command)
    (h : Compares past d) :
    Compares (if c = .reset then [] else past ++ (d.executedBy? c).toList) (d.obey c) := by
  cases d.obeyed c with
  | word x hc hx hprev hm =>
      rw [if_neg hc, hx, Option.toList_some]
      refine ⟨?_, ?_⟩
      · rw [hprev, List.getLast?_concat, Option.map_some]
      · intro y hy
        rw [List.getLast?_concat, Option.some.injEq] at hy
        exact hy ▸ hm
  | reset hc hprev =>
      rw [if_pos hc]
      exact ⟨hprev, fun x hx => nomatch hx⟩
  | rest hc hx hprev hm hstore =>
      rw [if_neg hc, hx, Option.toList_none, List.append_nil]
      refine ⟨hprev.trans h.previous, ?_⟩
      intro x hlast
      have hlatest := h.follows x hlast
      exact ⟨hlatest.rests.trans hm, by rw [hstore, hlatest.word]⟩

/-- The comparison after any commands is with the machine before the last word. -/
theorem compares_obeyAll (d : Debugger) (past : List ExecutedWord) (commands : List Command)
    (h : Compares past d) : Compares (d.sinceReset past commands) (d.obeyAll commands) := by
  induction commands generalizing d past with
  | nil => exact h
  | cons c commands ih => exact ih (d.obey c) _ (d.compares_obey past c h)

-- The line of a register.
theorem registerPanel_line (d : Debugger) (r : Register) :
    d.registerPanel.blocks[r.index.val]? = some [{
      spans := [
        { text := Text.padRight 6 r.name },
        { text := Text.hexByte (d.machine.registers.get r)
          style := some (if d.changed r then { color := .yellow, bold := true }
            else { color := .white }) },
        { text := "  " ++ binary (d.machine.registers.get r) }] }] := by
  cases r <;> rfl

/-- The registers that stand out are those that differ from the snapshot, if there is one. -/
theorem marks_iff (d : Debugger) (r : Register) :
    d.Marks r ↔ ∃ before, d.previous = some before ∧
      before.get r ≠ d.machine.registers.get r := by
  have hmarks : d.Marks r ↔ d.changed r = true := by
    rw [Marks, registerPanel_line]
    cases d.changed r <;> simp
  rw [hmarks, changed]
  cases d.previous with
  | none => simp only [reduceCtorEq, false_and, exists_false, Bool.false_eq_true]
  | some before => simp only [Option.some.injEq, exists_eq_left', bne_iff_ne]

/-- What the comparison and the screen tell of an executed word: the machine as it was before the
    word, where the word was, and what it has changed. -/
structure ComparesWith (x : ExecutedWord) (d : Debugger) (before : Snapshot) : Prop where
  snapshot : before = x.machine.snapshot
  mpc : before.mpc = x.address
  cycles : before.cycles + 1 = d.machine.cycles
  word : d.machine.store.read before.mpc = some x.word
  pipeline : d.machine.sequencer.pipeline = x.codes
  marks : ∀ r, d.Marks r ↔ x.after.registers.get r ≠ x.machine.registers.get r

/-- A machine that is still what a word has left behind, beside the snapshot from before the
    word. -/
theorem comparesWith_of_follows (x : ExecutedWord) (d : Debugger)
    (hprev : d.previous = some x.machine.snapshot) (h : Follows x d.machine) :
    ComparesWith x d x.machine.snapshot := by
  rcases advances_of_executed x with ⟨condition, _, hadv, _, hcycles⟩
  refine ⟨rfl, rfl, ?_, h.word, ?_, ?_⟩
  · rw [h.rests.cycles, hcycles]
    rfl
  · rw [h.rests.sequencer, hadv.pipeline]
    rfl
  · intro r
    rw [d.marks_iff r, hprev, h.rests.registers, ne_comm, ← x.machine.get_snapshot r]
    simp only [Option.some.injEq, exists_eq_left']

/-- Whatever is asked of a new debugger, the comparison is with the machine as it was right before
    the last word that was executed, and there is none exactly if no word was executed since the
    start or the last reset. The snapshot has the address of that word, whose codes are in the
    latches and which was the last to be counted. The registers that stand out on the screen are
    those that the word has changed, whatever has failed, stopped or been toggled since. -/
theorem comparison_remembers (m : Machine) (commands : List Command) :
    let new : Debugger := { machine := m }
    let d := new.obeyAll commands
    let past := new.sinceReset [] commands
    (d.previous = none ↔ past = []) ∧
      ∀ x, past.getLast? = some x →
        ∃ before, d.previous = some before ∧ ComparesWith x d before := by
  intro new d past
  have hstart : Compares [] new := ⟨rfl, fun x hx => nomatch hx⟩
  have h : Compares past d := new.compares_obeyAll [] commands hstart
  refine ⟨?_, ?_⟩
  · rw [h.previous, Option.map_eq_none_iff, List.getLast?_eq_none_iff]
  · intro x hx
    have hprev : d.previous = some x.machine.snapshot := by rw [h.previous, hx, Option.map_some]
    exact ⟨_, hprev, comparesWith_of_follows x d hprev (h.follows x hx)⟩

/-- A word that counts ALUin into AClo, after a reset. The store is empty behind it, so the next
    step and the run fail, and the serial line is driven between them. -/
theorem comparison_remembers_failed :
    let count : MicroWord := { write := 2, read := 0, alu := 7, jump := 0, jumpAddress := 0 }
    let m : Machine := ((Machine.new .builtin).load [count]).1
    let new : Debugger := { machine := m }
    let commands : List Command :=
      [.step, .reset, .step, .step, .toggleDataAvailable, .run, .tick]
    let d := new.obeyAll commands
    ∃ x before, (new.sinceReset [] commands).getLast? = some x ∧ d.previous = some before ∧
      ComparesWith x d before ∧ before.mpc = 0 ∧ d.mpc = 1 ∧ d.running = false ∧
      d.Marks .acLo ∧ ¬ d.Marks .acHi := by
  intro count m new commands d
  have hword : (new.sinceReset [] commands).getLast?.map
      (fun x => (x.address, x.machine.registers, x.after.registers)) =
      some (0, .initial, RegisterFile.initial.set .acLo 0) := by decide +kernel
  rcases Option.map_eq_some_iff.mp hword with ⟨x, hlast, hx⟩
  rw [Prod.mk.injEq, Prod.mk.injEq] at hx
  rcases hx with ⟨haddress, hbefore, hafter⟩
  rcases (comparison_remembers m commands).2 x hlast with ⟨before, hprev, h⟩
  refine ⟨x, before, hlast, hprev, h, h.mpc.trans haddress, by decide +kernel, by decide +kernel,
    ?_, ?_⟩
  · rw [h.marks, hbefore, hafter]
    decide +kernel
  · rw [h.marks, hbefore, hafter]
    decide +kernel

end Debugger

end Microcode
