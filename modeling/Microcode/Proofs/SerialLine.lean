import Microcode.Proofs.Decoding
import Microcode.Proofs.Placement
/-!
# The Serial Line

What the /CDAV input has an effect on.

The line may change at any moment, so the cycles of a machine come in between changes of the line
that the machine has no part in. A word takes the flag of the line over, and the only place where
it is looked at is the condition that jumps on it. In a store without a word of that kind the line
is carried along and nothing depends on it: neither a register nor another flag, neither the next
address nor the return address, neither success nor the error of a failure.

Two runs with different lines are not compared with each other but each with the same undisturbed
run. `withoutLine` leaves the line out of account. `step_drive` is the step, where the relation
`Performs` shows that the line is not among the things that a word looks at, and
`outcomes_undisturbed` is the run.

## Main definitions

* `Beat`: What happens in a run with a serial line.
* `Machine.outcomes`: What the cycles of such a run come to.
* `Machine.LineUnread`: No word of the store jumps on the line.
* `StatusWord.withoutLine`, `StepResult.withoutLine`, `Machine.withoutLine`,
  `Outcome.withoutLine`: The line left out of account.

## Theorems

* `ofValue_drive`, `resolve_drive`: The flags of a result and the next address.
* `performs_drive`: A word performs the same with another line.
* `step_drive`, `cycle_withoutLine`: One step with another line.
* `LineUnread.cycle`: A cycle leaves the words where they are.
* `outcomes_undisturbed`: The cycles of a run are those of the run whose line does not change.
* `runs_ignore_line`: Runs with different lines.
-/

namespace Microcode

/-- What happens in a run: a cycle of the machine, or a change of the line. -/
inductive Beat where
  | cycle
  | drive (unavailable : Bool)
  deriving DecidableEq

/-- The flags without that of the line. -/
def StatusWord.withoutLine (s : StatusWord) : StatusWord :=
  { s with dataNotAvailable := false }

/-- The result of a word without the flag of the line. -/
def StepResult.withoutLine (r : StepResult) : StepResult :=
  { r with status := r.status.withoutLine }

/-- A machine without the flag of the line. -/
def Machine.withoutLine (m : Machine) : Machine :=
  { m with status := m.status.withoutLine }

/-- The machine that a word has left, and its result or its error, without the flag of the line. -/
def Outcome.withoutLine (o : Outcome StepResult) : Machine × Except StepError StepResult :=
  (o.machine.withoutLine, o.result.map StepResult.withoutLine)

/-- The flags of a result are the same for every line. -/
theorem StatusWord.ofValue_drive (value : Int) (line line' : Bool) :
    ofValue value line' = { ofValue value line with dataNotAvailable := line' } := by
  unfold ofValue
  split <;> rfl

-- Only one condition looks at the line.
theorem Sequencer.resolve_drive (s : Sequencer) (condition : JumpCondition) (target : UInt8)
    (status : StatusWord) (line : Bool) (h : condition ≠ .ifDataUnavailable) :
    s.resolve condition target { status with dataNotAvailable := line } =
      s.resolve condition target status := by
  cases condition with
  | ifDataUnavailable => exact absurd rfl h
  | _ => rfl

/-- A word performs with another line what it performs with this one. -/
theorem performs_drive (m : Machine) (word : MicroWord) (s : Selected) (action : Action)
    (status : StatusWord) (line : Bool) (hp : Performs m word s action status) :
    Performs (m.setDataNotAvailable line) word s action
      { status with dataNotAvailable := line } := by
  cases hp with
  | both h => exact .both h
  | pc hw hr => exact .pc hw hr
  | mar hw hr => exact .mar hw hr
  | idle h hw => exact .idle h hw
  | transfer d f b h hw hf hb =>
      have ht := Performs.transfer (m := m.setDataNotAvailable line) d f b h hw hf hb
      rw [AluFunction.evaluate, ← StatusWord.ofValue_drive]
      exact ht

namespace Machine

/-- What the cycles of a run come to, in their order. -/
def outcomes (m : Machine) : List Beat → List (Outcome StepResult)
  | [] => []
  | .cycle :: beats => m.cycle :: m.cycle.machine.outcomes beats
  | .drive unavailable :: beats => (m.setDataNotAvailable unavailable).outcomes beats

/-- No word of the store has a jump code that selects the jump on the line. -/
def LineUnread (m : Machine) : Prop :=
  ∀ address word, m.store.read address = some word →
    m.table.decodeJump word.jump ≠ .ok .ifDataUnavailable

/-- A word that does not jump on the line ends with another line as it ends with this one. -/
theorem step_drive (m : Machine) (word : MicroWord) (line : Bool)
    (h : m.table.decodeJump word.jump ≠ .ok .ifDataUnavailable) :
    ((m.setDataNotAvailable line).step word).withoutLine = (m.step word).withoutLine := by
  unfold Outcome.withoutLine
  cases hr : (m.step word).result with
  | ok r =>
      rcases (m.step_eq_ok_iff word r _).mp ⟨hr, rfl⟩ with
        ⟨s, action, status, hs, hp, hresult, hleft⟩
      have hcondition : s.condition ≠ .ifDataUnavailable := by
        intro hc
        refine h ((ControlTable.entry_eq_ok_iff _ _ _ _).mpr ?_)
        rw [hs.condition, hc]
      have hp' := performs_drive m word s action status line hp
      rcases ((m.setDataNotAvailable line).step_eq_ok_iff word _ _).mpr
        ⟨s, action, _, hs, hp', rfl, rfl⟩ with ⟨hr', hleft'⟩
      -- The line is copied into the flags and the rest of the plan is the same.
      have hnext : (m.setDataNotAvailable line).sequencer.resolve s.condition word.jumpAddress
          { status with dataNotAvailable := line } =
          m.sequencer.resolve s.condition word.jumpAddress status :=
        m.sequencer.resolve_drive s.condition word.jumpAddress status line hcondition
      rw [hr', hleft, hleft', hresult, hnext]
      rfl
  | error e =>
      -- Whether a word is rejected is a matter of the table.
      have hr' : ((m.setDataNotAvailable line).step word).result = .error e :=
        ((m.setDataNotAvailable line).step_eq_error_iff word e).mpr
          ((m.step_eq_error_iff word e).mp hr)
      rw [hr', m.step_machine_of_error word e hr, step_machine_of_error _ word e hr']
      rfl

/-- A cycle of a machine that does not read the line ends like a cycle without the line. -/
theorem cycle_withoutLine (m : Machine) (h : m.LineUnread) :
    m.withoutLine.cycle.withoutLine = m.cycle.withoutLine := by
  have hword := h m.sequencer.mpc
  unfold cycle
  rw [show m.withoutLine.store.read m.withoutLine.sequencer.mpc =
    m.store.read m.sequencer.mpc from rfl]
  cases hread : m.store.read m.sequencer.mpc with
  | none => rfl
  | some word => exact m.step_drive word false (hword word hread)

/-- A cycle leaves the words where they are, so that it reads the line as little as before. -/
theorem LineUnread.cycle {m : Machine} (h : m.LineUnread) : m.cycle.machine.LineUnread := by
  unfold LineUnread
  rw [m.cycle_store_table.1, m.cycle_store_table.2]
  exact h

/-- The cycles of a run come to the same as the cycles of a machine that differs in the line at
    most and whose line does not change. -/
theorem outcomes_undisturbed (m m' : Machine) (beats : List Beat) (h : m.LineUnread)
    (hm : m.withoutLine = m'.withoutLine) :
    (m.outcomes beats).map Outcome.withoutLine =
      (List.range (beats.count .cycle)).map (fun k => (m'.after k).cycle.withoutLine) := by
  induction beats generalizing m m' with
  | nil => rfl
  | cons beat beats ih =>
      cases beat with
      | drive line =>
          -- A line that is not read can be driven without being noticed.
          rw [List.count_cons_of_ne Beat.noConfusion]
          exact ih (m.setDataNotAvailable line) m' h hm
      | cycle =>
          have h' : m'.LineUnread := by
            unfold LineUnread at h ⊢
            rw [show m'.table = m.table from (congrArg Machine.table hm).symm,
              show m'.store = m.store from (congrArg Machine.store hm).symm]
            exact h
          have hhead : m.cycle.withoutLine = m'.cycle.withoutLine := by
            rw [← m.cycle_withoutLine h, hm, m'.cycle_withoutLine h']
          have htail := ih m.cycle.machine m'.cycle.machine h.cycle (congrArg Prod.fst hhead)
          rw [outcomes, List.map_cons, List.count_cons_self, List.range_succ_eq_map,
            List.map_cons, List.map_map, htail, hhead]
          rfl

/-- Two runs of a machine whose store has no word that jumps on the line. However differently the
    line is driven in between, as long as they have the same number of cycles each cycle of the
    one comes to what that cycle of the other comes to: both succeed or both fail with the same
    error, and the machines and the results differ in the flag of the line at most. -/
theorem runs_ignore_line (m : Machine) (h : m.LineUnread) (first second : List Beat)
    (hcount : first.count .cycle = second.count .cycle) :
    (m.outcomes first).map Outcome.withoutLine = (m.outcomes second).map Outcome.withoutLine := by
  rw [m.outcomes_undisturbed m first h rfl, m.outcomes_undisturbed m second h rfl, hcount]

/-- Two words with a jump on the carry and one that leads out of the program, under two lines. -/
theorem runs_ignore_line_carry :
    let count : MicroWord := { write := 13, read := 0, alu := 7, jump := 7, jumpAddress := 1 }
    let pass : MicroWord := { write := 2, read := 13, alu := 0, jump := 1, jumpAddress := 0x40 }
    let m : Machine := ((Machine.new .builtin).load [count, pass]).1
    let first : List Beat := [.drive true, .cycle, .cycle, .drive false, .cycle]
    let second : List Beat := [.cycle, .drive false, .drive true, .cycle, .cycle, .drive true]
    m.LineUnread ∧ first.count .cycle = second.count .cycle ∧
      (m.outcomes first).map Outcome.withoutLine = (m.outcomes second).map Outcome.withoutLine ∧
      (m.outcomes first).map (fun o => o.result.isOk) = [true, true, false] := by
  intro count pass m first second
  have hunread : m.LineUnread := by
    intro address word hread
    rcases ControlStore.empty.mem_of_read_load [count, pass] address word hread with hno | hmem
    · cases (ControlStore.read_empty address).symm.trans hno
    · simp only [List.mem_cons, List.not_mem_nil, or_false] at hmem
      rcases hmem with rfl | rfl
      · exact fun hc => by cases hc
      · exact fun hc => by cases hc
  have hcount : first.count .cycle = second.count .cycle := by decide
  exact ⟨hunread, hcount, m.runs_ignore_line hunread first second hcount, by decide +kernel⟩

end Machine

end Microcode
