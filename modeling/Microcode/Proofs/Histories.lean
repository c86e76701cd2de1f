import Mathlib.Data.List.Induction
import Microcode.Proofs.Rejection
/-!
# Histories

What has happened to a machine, as the list of the words that it has executed.

A machine is operated from outside. It is handed words or told to execute those in its store,
the store and the control table are exchanged, and the serial line is driven. Some of the words
are rejected. What a machine holds after all that is best said of the words that were executed,
each with the machine that executed it: the table that gave its codes their meaning may be gone
by now, and so may the word.

`history_induction` is the induction over all operations, done once. A property that relates a
machine to its history holds at every point if it holds at the start, if it is carried over an
executed word, and if it depends on nothing that the other operations touch. `history_split` says
the same of the machine that executed a given word of the history, with what came before it.

## Main definitions

* `Operation`: What is done to a machine from outside.
* `Machine.operate`, `Machine.operateAll`: The machine after one operation, and after a list.
* `ExecutedWord`: A word that was executed.
* `ExecutedWord.latest?`: The latest word of a kind.
* `Machine.history`: The words that were executed.
* `Machine.Fresh`: A machine that was just created or reset.
* `Machine.Rests`: Two machines differ in nothing but table, store and serial line.

## Theorems

* `latest?_concat`, `latest?_of_split`: Which word is the latest of its kind.
* `attempt?_of_ok`, `attempt?_of_error`: A word is executed or rejected.
* `operate_cases`: An operation executes one word, or the machine rests.
* `executedBy?_cycle_of_ok`, `executedBy?_cycle_of_error`: The word that a cycle executes.
* `history_concat`: What one more operation adds to the history.
* `history_of_executed`, `history_of_none`: What an operation in front adds to it.
* `history_induction`: A property of a machine and its history.
* `history_split`: The same property where a word of the history was executed.
* `performs_of_executed`: What an executed word was, and what it has left behind.
-/

namespace Microcode

/-- What is done to a machine from outside. -/
inductive Operation where
  | step (word : MicroWord)
  | cycle
  /-- The store gets other contents. -/
  | program (store : ControlStore)
  /-- The /CDAV input is driven. -/
  | drive (unavailable : Bool)
  /-- Another control table is put in. -/
  | exchange (table : ControlTable)

/-- A word that was executed, and the machine that executed it, as it was before. -/
structure ExecutedWord where
  machine : Machine
  word : MicroWord
  result : StepResult
  accepted : (machine.step word).result = .ok result

namespace ExecutedWord

/-- The machine behind the word. -/
def after (x : ExecutedWord) : Machine :=
  (x.machine.step x.word).machine

/-- The address at which the word was executed. -/
def address (x : ExecutedWord) : UInt8 :=
  x.machine.sequencer.mpc

/-- The jump condition that the table of the time had for the word. -/
def condition? (x : ExecutedWord) : Option JumpCondition :=
  x.machine.table.jump[x.word.jump.toNat]?

/-- The latest word of a kind. -/
def latest? (kind : ExecutedWord → Bool) (past : List ExecutedWord) : Option ExecutedWord :=
  (past.filter kind).getLast?

/-- One more word is the latest one if it is of the kind, and changes nothing if it is not. -/
theorem latest?_concat (kind : ExecutedWord → Bool) (past : List ExecutedWord)
    (x : ExecutedWord) :
    latest? kind (past ++ [x]) = if kind x = true then some x else latest? kind past := by
  rw [latest?, latest?, List.filter_append]
  by_cases h : kind x = true
  · rw [if_pos h, List.filter_cons_of_pos h, List.filter_nil, List.getLast?_concat]
  · rw [if_neg h, List.filter_cons_of_neg h, List.filter_nil, List.append_nil]

/-- A word after which there was no other of its kind is the latest one. -/
theorem latest?_of_split (kind : ExecutedWord → Bool) (earlier between : List ExecutedWord)
    (x : ExecutedWord) (hx : kind x = true) (hbetween : ∀ y ∈ between, kind y = false) :
    latest? kind (earlier ++ x :: between) = some x := by
  have hnone : between.filter kind = [] :=
    List.filter_eq_nil_iff.mpr (fun y hy hc => by
      rw [hbetween y hy] at hc
      exact Bool.noConfusion hc)
  rw [latest?, List.filter_append, List.filter_cons_of_pos hx, hnone, List.getLast?_concat]

end ExecutedWord

namespace Machine

/-- The machine after an operation. -/
def operate (m : Machine) : Operation → Machine
  | .step word => (m.step word).machine
  | .cycle => m.cycle.machine
  | .program store => { m with store }
  | .drive unavailable => m.setDataNotAvailable unavailable
  | .exchange table => { m with table }

/-- The machine after a list of operations. -/
def operateAll (m : Machine) (ops : List Operation) : Machine :=
  ops.foldl operate m

/-- The word that an operation offers to the machine. -/
def offered? (m : Machine) : Operation → Option MicroWord
  | .step word => some word
  | .cycle => m.store.read m.sequencer.mpc
  | _ => none

/-- What becomes of a word that is offered: nothing if it is rejected. -/
def attempt? (m : Machine) (word : MicroWord) : Option ExecutedWord :=
  match h : (m.step word).result with
  | .ok result => some ⟨m, word, result, h⟩
  | .error _ => none

/-- The word that an operation executes, if it executes one. -/
def executedBy? (m : Machine) (op : Operation) : Option ExecutedWord :=
  (m.offered? op).bind m.attempt?

/-- The words that operations execute, in their order. -/
def history (m : Machine) : List Operation → List ExecutedWord
  | [] => []
  | op :: ops => (m.executedBy? op).toList ++ (m.operate op).history ops

/-- A machine that was just created or reset. -/
inductive Fresh : Machine → Prop where
  | created (table : ControlTable) : Fresh (.new table)
  | reset (m : Machine) : Fresh m.reset

/-- The second machine is the first one with another table, another store and another serial
    line, at most. -/
structure Rests (m m' : Machine) : Prop where
  registers : m'.registers = m.registers
  sequencer : m'.sequencer = m.sequencer
  cycles : m'.cycles = m.cycles
  status : m'.status = { m.status with dataNotAvailable := m'.status.dataNotAvailable }

theorem Fresh.sequencer {m : Machine} (h : m.Fresh) : m.sequencer = {} := by
  cases h <;> rfl

theorem Fresh.cycles {m : Machine} (h : m.Fresh) : m.cycles = 0 := by
  cases h <;> rfl

theorem Fresh.status {m : Machine} (h : m.Fresh) : m.status = {} := by
  cases h <;> rfl

theorem Rests.refl (m : Machine) : m.Rests m :=
  ⟨rfl, rfl, rfl, rfl⟩

/-- A machine that has rested twice has rested. -/
theorem Rests.trans {a b c : Machine} (h : a.Rests b) (h' : b.Rests c) : a.Rests c :=
  ⟨h'.registers.trans h.registers, h'.sequencer.trans h.sequencer, h'.cycles.trans h.cycles,
    by rw [h'.status, h.status]⟩

theorem attempt?_of_ok (m : Machine) (word : MicroWord) (r : StepResult)
    (h : (m.step word).result = .ok r) : m.attempt? word = some ⟨m, word, r, h⟩ := by
  unfold attempt?
  split
  · rename_i r' h'
    cases h.symm.trans h'
    rfl
  · rename_i e h'
    cases h.symm.trans h'

theorem attempt?_of_error (m : Machine) (word : MicroWord) (e : StepError)
    (h : (m.step word).result = .error e) : m.attempt? word = none := by
  unfold attempt?
  split
  · rename_i r' h'
    cases h.symm.trans h'
  · rfl

/-- A word that is offered is executed, or nothing happens. -/
theorem attempt?_step (m : Machine) (word : MicroWord) :
    (∃ x, m.attempt? word = some x ∧ x.machine = m ∧ (m.step word).machine = x.after) ∨
    (m.attempt? word = none ∧ (m.step word).machine = m) := by
  cases h : (m.step word).result with
  | ok r => exact Or.inl ⟨_, m.attempt?_of_ok word r h, rfl, rfl⟩
  | error e => exact Or.inr ⟨m.attempt?_of_error word e h, m.step_machine_of_error word e h⟩

/-- An operation executes one word, or the machine rests. -/
theorem operate_cases (m : Machine) (op : Operation) :
    (∃ x, m.executedBy? op = some x ∧ x.machine = m ∧ m.operate op = x.after) ∨
    (m.executedBy? op = none ∧ m.Rests (m.operate op)) := by
  cases op with
  | step word =>
      refine (m.attempt?_step word).imp_right (fun ⟨hx, hm⟩ => ⟨hx, ?_⟩)
      rw [operate, hm]
      exact .refl m
  | cycle =>
      -- A cycle is a step with the word that it fetches, if it fetches one.
      rw [executedBy?, offered?, operate, cycle]
      cases m.store.read m.sequencer.mpc with
      | none => exact Or.inr ⟨rfl, .refl m⟩
      | some word =>
          refine (m.attempt?_step word).imp_right (fun ⟨hx, hm⟩ => ⟨hx, ?_⟩)
          rw [hm]
          exact .refl m
  | program store => exact Or.inr ⟨rfl, rfl, rfl, rfl, rfl⟩
  | drive unavailable => exact Or.inr ⟨rfl, rfl, rfl, rfl, rfl⟩
  | exchange table => exact Or.inr ⟨rfl, rfl, rfl, rfl, rfl⟩

/-- A cycle is a step with the word that it fetches. -/
theorem cycle_of_read (m : Machine) (word : MicroWord)
    (h : m.store.read m.sequencer.mpc = some word) : m.cycle = m.step word := by
  simp only [cycle, h]

/-- A cycle that succeeds executes the word at the micro-program counter. -/
theorem executedBy?_cycle_of_ok (m : Machine) (r : StepResult) (h : m.cycle.result = .ok r) :
    ∃ x, m.executedBy? .cycle = some x ∧ x.machine = m ∧ m.cycle.machine = x.after ∧
      m.store.read x.address = some x.word := by
  cases hread : m.store.read m.sequencer.mpc with
  | none =>
      simp only [cycle, hread] at h
      cases h
  | some word =>
      rw [m.cycle_of_read word hread] at h ⊢
      refine ⟨⟨m, word, r, h⟩, ?_, rfl, rfl, hread⟩
      rw [executedBy?, offered?, hread, Option.bind_some, m.attempt?_of_ok word r h]

/-- A cycle that fails executes nothing. -/
theorem executedBy?_cycle_of_error (m : Machine) (e : StepError)
    (h : m.cycle.result = .error e) : m.executedBy? .cycle = none := by
  cases hread : m.store.read m.sequencer.mpc with
  | none => rw [executedBy?, offered?, hread, Option.bind_none]
  | some word =>
      rw [m.cycle_of_read word hread] at h
      rw [executedBy?, offered?, hread, Option.bind_some, m.attempt?_of_error word e h]

theorem operateAll_concat (m : Machine) (ops : List Operation) (op : Operation) :
    m.operateAll (ops ++ [op]) = (m.operateAll ops).operate op := by
  rw [operateAll, List.foldl_append]
  rfl

/-- One more operation adds the word that it executes. -/
theorem history_concat (m : Machine) (ops : List Operation) (op : Operation) :
    m.history (ops ++ [op]) = m.history ops ++ ((m.operateAll ops).executedBy? op).toList := by
  induction ops generalizing m with
  | nil => exact List.append_nil _
  | cons first ops ih =>
      rw [List.cons_append, history, history, ih, List.append_assoc]
      rfl

/-- A word that is executed opens the history. -/
theorem history_of_executed (x : ExecutedWord) (ops : List Operation) :
    x.machine.history (.step x.word :: ops) = x :: x.after.history ops := by
  rw [history, executedBy?, offered?, Option.bind_some,
    x.machine.attempt?_of_ok x.word _ x.accepted]
  rfl

/-- An operation that executes nothing leaves no trace. -/
theorem history_of_none (m : Machine) (op : Operation) (ops : List Operation)
    (h : m.executedBy? op = none) : m.history (op :: ops) = (m.operate op).history ops := by
  rw [history, h]
  rfl

section Induction

variable {P : List ExecutedWord → Machine → Prop} {m : Machine}

/-- A property of a machine and its history holds after every list of operations if it holds at
    the start, is carried over executed words, and is kept while the machine rests. -/
theorem history_induction (hstart : P [] m)
    (hword : ∀ past x, P past x.machine → P (past ++ [x]) x.after)
    (hrest : ∀ past m m', m.Rests m' → P past m → P past m') (ops : List Operation) :
    P (m.history ops) (m.operateAll ops) := by
  induction ops using List.reverseRecOn with
  | nil => exact hstart
  | append_singleton ops op ih =>
      rw [history_concat, operateAll_concat]
      rcases (m.operateAll ops).operate_cases op with ⟨x, hx, hm, hop⟩ | ⟨hx, hop⟩
      · rw [hx, hop]
        rw [← hm] at ih
        exact hword _ x ih
      · rw [hx, Option.toList_none, List.append_nil]
        exact hrest _ _ _ hop ih

/-- The machine that executed a word of the history has the property with what came before. -/
theorem history_split (hstart : P [] m)
    (hword : ∀ past x, P past x.machine → P (past ++ [x]) x.after)
    (hrest : ∀ past m m', m.Rests m' → P past m → P past m') (ops : List Operation)
    (past : List ExecutedWord) (x : ExecutedWord) (later : List ExecutedWord)
    (h : m.history ops = past ++ x :: later) : P past x.machine := by
  induction ops using List.reverseRecOn generalizing later with
  | nil => exact absurd h.symm (List.append_ne_nil_of_right_ne_nil past (List.cons_ne_nil _ _))
  | append_singleton ops op ih =>
      rw [history_concat] at h
      rcases (m.operateAll ops).operate_cases op with ⟨y, hy, hm, _⟩ | ⟨hy, _⟩
      · rw [hy, Option.toList_some] at h
        rcases List.eq_nil_or_concat later with rfl | ⟨rest, z, rfl⟩
        · -- The word is the one that this operation has executed.
          rcases List.append_inj' h rfl with ⟨hpast, hx⟩
          cases hx
          rw [← hpast, hm]
          exact history_induction hstart hword hrest ops
        · rw [List.concat_eq_append, ← List.cons_append, ← List.append_assoc] at h
          exact ih rest (List.append_inj' h rfl).1
      · rw [hy, Option.toList_none, List.append_nil] at h
        exact ih later h

end Induction

end Machine

/-- What an executed word was under the table of the time, and what it has left behind. -/
theorem performs_of_executed (x : ExecutedWord) :
    ∃ s action status, Selects x.machine.table x.word s ∧
      Performs x.machine x.word s action status ∧
      let next := x.machine.sequencer.resolve s.condition x.word.jumpAddress status
      x.result = { next := next.mpc, status,
                   mutated := (action.perform x.machine.registers).2.1,
                   destination := (action.perform x.machine.registers).2.2 } ∧
      x.after = { x.machine with
        registers := (action.perform x.machine.registers).1, status,
        sequencer := .commit x.word next, cycles := x.machine.cycles + 1 } :=
  (x.machine.step_eq_ok_iff x.word x.result x.after).mp ⟨x.accepted, rfl⟩

end Microcode
