import Microcode.Proofs.BoundedRuns
import Microcode.Proofs.Loading
import Microcode.Proofs.Workspaces
/-!
# What a Run Reports

The command that runs a listing, said of the cycles that the machine can make.

The command does not count either. It has the machine that the run has left and the bare fact
whether the run has failed, and from these it tells four outcomes apart: it came to its limit, it
came to an address with nothing programmed, it came to a word that is rejected, or there was
nothing to run. The number that it prints is the counter of the machine, which a rejected word has
not moved.

All of this is one number: the cycles that the machine can make before one fails, cut off at the
limit. `Machine.Manages` names it, `exists_manages` finds it, and how a run ends behind it is
decided by the word that comes next. `runLimited_of_ends` brings the run itself to that form, and
`perform_runProgram` the command.

## Main definitions

* `Machine.Manages`: So many cycles succeed, and no more within a limit.
* `Ending`: The ways in which a run ends.
* `Ending.result`, `Ending.tell`, `Ending.code`: What the run returns, what the command says, and
  its exit code.
* `Machine.Ends`: How a run ends behind the cycles that it manages.
* `Workspace.showRun`: A workspace behind what a run logs and shows.

## Theorems

* `exists_manages`: A machine manages a number of cycles.
* `exists_ends`, `code_eq_one_iff`: A run ends in one way, and when that is a failure.
* `runLimited_of_ends`: What a run is, by its cycles and its ending.
* `load_listing`: The words of a listing are loaded.
* `perform_prepare_of_ok`, `perform_prepare_of_table`, `perform_prepare_of_program`: The effects of
  preparing a machine.
* `perform_runProgram`: What a run shows and logs.
* `run_reports_execution`: The command reports what was executed.
-/

namespace Microcode

/-- How a run ends. -/
inductive Ending where
  | limit
  /-- Nothing is programmed at the address. -/
  | stopped (address : UInt8)
  /-- The word at the address is rejected. -/
  | failed (address : UInt8) (e : StepError)

namespace Ending

/-- What a run with the limit returns. -/
def result (limit : UInt64) : Ending → Except StepError UInt64
  | .limit => .ok limit
  | .stopped address => .error (.emptyAddress address)
  | .failed _ e => .error e

/-- A workspace behind the report of an ending. -/
def tell (limit : UInt64) (w : Workspace) : Ending → Workspace
  | .limit => w.line ("⚠️  Reached max cycles limit (" ++ toString limit.toNat ++
      "). Use --max-cycles to increase.")
  | .stopped address =>
    w.line ("Stopped: nothing programmed at micro-address " ++ Text.hexByte address)
  | .failed address e =>
    w.report ("❌ CPU error at MPC=" ++ Text.hexByte address ++ ": " ++ e.message ++ "\n")

/-- The exit code of a run that has ended. -/
def code : Ending → ExitCode
  | .failed _ _ => 1
  | _ => 0

end Ending

namespace Machine

/-- So many cycles succeed, and no more within a limit. -/
structure Manages (m : Machine) (limit k : Nat) : Prop where
  within : k ≤ limit
  completes : m.Completes k
  most : ∀ j, j ≤ limit → m.Completes j → j ≤ k

/-- How a run ends behind `k` cycles: at its limit, or with what the next cycle finds. -/
inductive Ends (m : Machine) (limit k : Nat) : Ending → Prop where
  | limit (hk : k = limit) : Ends m limit k .limit
  | stopped (hk : k < limit) (h : (m.after k).store.read (m.after k).sequencer.mpc = none) :
      Ends m limit k (.stopped (m.after k).sequencer.mpc)
  | failed (hk : k < limit) (word : MicroWord)
      (h : (m.after k).store.read (m.after k).sequencer.mpc = some word) (e : StepError)
      (he : Rejects (m.after k).table word e) :
      Ends m limit k (.failed (m.after k).sequencer.mpc e)

/-- A machine manages a number of cycles, which is the limit unless the next one fails. -/
theorem exists_manages (m : Machine) (limit : Nat) :
    ∃ k, m.Manages limit k ∧ (k < limit → ∃ e, (m.after k).cycle.result = .error e) := by
  by_cases hall : m.Completes limit
  · exact ⟨limit, ⟨Nat.le_refl limit, hall, fun j hj _ => hj⟩,
      fun h => absurd h (Nat.lt_irrefl limit)⟩
  · rcases m.first_failure limit hall with ⟨k, e, hk, hbefore, he⟩
    refine ⟨k, ⟨Nat.le_of_lt hk, hbefore, fun j _ hj => ?_⟩, fun _ => ⟨e, he⟩⟩
    -- More cycles would include the one that fails.
    by_contra hlt
    rcases hj k (Nat.lt_of_not_le hlt) with ⟨r, hr⟩
    rw [he] at hr
    cases hr

/-- A run ends in one of the ways behind the cycles that it manages. -/
theorem exists_ends (m : Machine) (limit : Nat) :
    ∃ k ending, m.Manages limit k ∧ m.Ends limit k ending := by
  rcases m.exists_manages limit with ⟨k, hk, hfails⟩
  rcases Nat.eq_or_lt_of_le hk.within with heq | hlt
  · exact ⟨k, .limit, hk, .limit heq⟩
  · rcases hfails hlt with ⟨e, he⟩
    cases ((m.after k).cycle_eq_error_iff e).mp he with
    | empty h => exact ⟨k, _, hk, .stopped hlt h⟩
    | rejected word e h he => exact ⟨k, _, hk, .failed hlt word h e he⟩

/-- A run fails exactly if it ends in front of its limit and a word is there. -/
theorem code_eq_one_iff (m : Machine) (limit k : Nat) (ending : Ending)
    (h : m.Ends limit k ending) : ending.code = 1 ↔
      k < limit ∧ (m.after k).store.read (m.after k).sequencer.mpc ≠ none := by
  have hzero : (0 : ExitCode) ≠ 1 := by decide
  cases h with
  | limit hk =>
      rw [hk]
      exact ⟨fun h => absurd h hzero, fun h => absurd h.1 (Nat.lt_irrefl limit)⟩
  | stopped hk hread => exact ⟨fun h => absurd h hzero, fun h => absurd hread h.2⟩
  | failed hk word hread e he =>
      refine ⟨fun _ => ⟨hk, ?_⟩, fun _ => rfl⟩
      rw [hread]
      exact Option.some_ne_none word

/-- What a run is, by the cycles that it manages and the way in which it ends. The cycle that fails
    is recorded too. -/
theorem runLimited_of_ends (m : Machine) (limit : UInt64) (k : Nat) (ending : Ending)
    (hk : m.Manages limit.toNat k) (h : m.Ends limit.toNat k ending) :
    m.runLimited limit =
      ⟨m.after k, ending.result limit, m.recorded (min (k + 1) limit.toNat)⟩ := by
  have hfails (e : StepError) (hlt : k < limit.toNat) (he : Faults (m.after k) e) :
      m.runLimited limit = ⟨m.after k, .error e, m.recorded (min (k + 1) limit.toNat)⟩ := by
    have hcycle := ((m.after k).cycle_eq_error_iff e).mpr he
    rw [m.runLimited_of_fails limit k e hlt hk.completes hcycle, Nat.min_eq_left hlt]
  cases h with
  | limit heq =>
      have hall := hk.completes
      rw [heq] at hall ⊢
      rw [m.runLimited_of_completes limit hall, Nat.min_eq_right (Nat.le_succ _)]
      rfl
  | stopped hlt hread => exact hfails _ hlt (.empty hread)
  | failed hlt word hread e he => exact hfails e hlt (.rejected word e hread he)

/-- The counter of a new machine shows the cycles that it has made. -/
theorem cycles_of_manages (m : Machine) (limit : UInt64) (k : Nat) (h0 : m.cycles = 0)
    (hk : m.Manages limit.toNat k) : (m.after k).cycles.toNat = k := by
  rw [m.cycles_after k hk.completes, h0, UInt64.zero_add]
  exact UInt64.toNat_ofNat_of_lt' (Nat.lt_of_le_of_lt hk.within limit.toNat_lt)

end Machine

/-- A word is never rejected because there is none. -/
theorem Rejects.ne_emptyAddress {t : ControlTable} {word : MicroWord} {e : StepError}
    (h : Rejects t word e) (address : UInt8) : e ≠ .emptyAddress address := by
  cases h with
  | transfer s e hs ht he => cases he <;> exact StepError.noConfusion
  | _ => exact StepError.noConfusion

/-- A workspace behind what a run logs and shows: the entries of its cycles, the one that fails
    included; the number of those that have succeeded; how the run has ended; and the machine. -/
def Workspace.showRun (w : Workspace) (logger : Logger) (m : Machine) (limit : UInt64) (k : Nat)
    (ending : Ending) (json : Bool) : Workspace :=
  let w' := w.logged logger (m.recorded (min (k + 1) limit.toNat))
  let w'' := ((w'.line "").line "━━━ Result ━━━").line ("Cycles: " ++ toString k)
  (ending.tell limit w'').line
    (if json then (m.after k).snapshot.toText else (m.after k).snapshot.text)

/-- The words of a listing are loaded. -/
theorem load_listing (t : FileTree) (path : String) (a : Assembly) (m : Machine)
    (h : t.listing path = .ok a) :
    m.load a.words.toList = ((m.load a.words.toList).1, .ok ()) := by
  rcases readText_of_listing t path a h with ⟨source, _, hsource⟩
  have hload : (m.store.load a.words.toList).2 = .ok () := by
    rw [ControlStore.load_eq_ok_iff]
    exact ControlStore.lt_of_addressed 0 _
      (fun w hw => ((printable_of_assemble source _ hsource).each w hw).placed)
  exact Prod.ext rfl hload

namespace Command

section Prepare

variable (logger : Logger) (path : String) (table : Option String) (w : Workspace)
  (hquiet : .assembler ∉ logger.targets)

include hquiet in
-- What is recorded of a listing belongs to a target of its own.
theorem logged_entry (a : Assembly) : w.logged logger [a.entry] = w :=
  w.logged_of_forall logger _ (fun e he => by rw [List.mem_singleton.mp he]; exact hquiet)

/-- A listing that is not loaded ends the preparation. -/
theorem perform_prepare_of_program (code : ExitCode) (w' : Workspace)
    (h : perform (program logger path) w = (.error code, w')) :
    perform (prepare logger path table) w = (.error code, w') :=
  perform_bind_of_error _ _ w w' code h

include hquiet in
/-- A table that is not loaded ends the preparation behind the listing. -/
theorem perform_prepare_of_table (a : Assembly) (e : TableFileError)
    (ha : w.tree.listing path = .ok a) (hwords : a.words.toList ≠ [])
    (he : w.tree.controlTable table = .error e) :
    perform (prepare logger path table) w =
      (.error 1, (w.noteWords a.words.toList).complain
        ("Failed to load decode table: " ++ e.message)) := by
  have hprogram := perform_program_of_ok logger path w a ha hwords
  rw [logged_entry logger w hquiet] at hprogram
  unfold prepare
  rw [perform_bind_of_ok _ _ w _ _ hprogram]
  exact perform_bind_of_error _ _ _ _ 1 (perform_table?_of_error table (w.noteWords _) e he)

include hquiet in
/-- The preparation loads the words into a new machine with the table. -/
theorem perform_prepare_of_ok (a : Assembly) (t : ControlTable)
    (ha : w.tree.listing path = .ok a) (hwords : a.words.toList ≠ [])
    (ht : w.tree.controlTable table = .ok t) :
    perform (prepare logger path table) w =
      (.ok ((Machine.new t).load a.words.toList).1,
        (w.noteWords a.words.toList).noteTable table) := by
  have hprogram := perform_program_of_ok logger path w a ha hwords
  rw [logged_entry logger w hquiet] at hprogram
  unfold prepare
  rw [perform_bind_of_ok _ _ w _ _ hprogram,
    perform_bind_of_ok _ _ _ _ _ (perform_table?_of_ok table (w.noteWords _) t ht),
    load_listing w.tree path a (Machine.new t) ha]
  rfl

end Prepare

/-- What a run shows and logs, behind the preparation of a new machine. -/
theorem perform_runProgram (logger : Logger) (path : String) (limit : UInt64)
    (table : Option String) (json : Bool) (w w₁ : Workspace) (m : Machine) (k : Nat)
    (ending : Ending) (h0 : m.cycles = 0)
    (hprepare : perform (prepare logger path table) (w.line ("🔧 Running: " ++ path)) = (.ok m, w₁))
    (hk : m.Manages limit.toNat k) (h : m.Ends limit.toNat k ending) :
    perform (runProgram logger path limit table json) w =
      (if ending.code = 0 then .ok () else .error ending.code,
        w₁.showRun logger m limit k ending json) := by
  unfold runProgram
  rw [perform_bind_of_ok _ _ w _ () (perform_line _ w),
    perform_bind_of_ok _ _ _ _ _ hprepare]
  simp only [m.runLimited_of_ends limit k ending hk h]
  rw [perform_bind_of_ok _ _ _ _ () (perform_log logger _ w₁),
    perform_bind_of_ok _ _ _ _ () (perform_line _ _),
    perform_bind_of_ok _ _ _ _ () (perform_line _ _),
    perform_bind_of_ok _ _ _ _ () (perform_line _ _),
    m.cycles_of_manages limit k h0 hk]
  cases h with
  | limit _ => rfl
  | stopped _ _ => rfl
  | failed _ word _ e he =>
      -- The word that fails is there, so the address is not empty.
      cases e with
      | emptyAddress address => exact absurd rfl (he.ne_emptyAddress address)
      | decode e => rfl
      | unsupported e => rfl

/-- The command that runs a listing reports what was executed. It shows the largest number of
    cycles up to the limit that succeed, and the new machine with the listing after exactly these
    cycles. It has come to the limit if that many succeed; otherwise it has stopped where nothing is
    programmed or failed at a word that is rejected, and only then it exits with one. Without a
    listing that has words or without a table it exits with one as well, and nothing is executed:
    no entry is logged, and the tree of files is the one that opening the log has left. -/
theorem run_reports_execution (w w₁ : Workspace) (logger : Logger) (path : String)
    (limit : UInt64) (trace json : Bool) (table logFile : Option String)
    (hlog : perform (openLog (targets (.run path limit trace table json)) logFile) w =
      (.ok logger, w₁)) :
    let i : Invocation := { command := .run path limit trace table json, logFile }
    let w₂ := w₁.line ("🔧 Running: " ++ path)
    (∀ e, w₁.tree.listing path = .error e →
      i.perform w = (1, w₂.complain ("Failed to load listing: " ++ e.message))) ∧
    (∀ a, w₁.tree.listing path = .ok a → a.words.toList = [] →
      i.perform w = (1, w₂.complain ("No microinstructions in " ++ path))) ∧
    (∀ a e, w₁.tree.listing path = .ok a → a.words.toList ≠ [] →
      w₁.tree.controlTable table = .error e →
      i.perform w = (1, (w₂.noteWords a.words.toList).complain
        ("Failed to load decode table: " ++ e.message))) ∧
    ∀ a t, w₁.tree.listing path = .ok a → a.words.toList ≠ [] →
      w₁.tree.controlTable table = .ok t →
      ∃ m k ending, (Machine.new t).load a.words.toList = (m, .ok ()) ∧
        m.Manages limit.toNat k ∧ m.Ends limit.toNat k ending ∧
        (ending.code = 1 ↔
          k < limit.toNat ∧ (m.after k).store.read (m.after k).sequencer.mpc ≠ none) ∧
        i.perform w = (ending.code, ((w₂.noteWords a.words.toList).noteTable table).showRun
          logger m limit k ending json) := by
  intro i w₂
  have hquiet : .assembler ∉ logger.targets := by
    rw [targets_of_openLog _ _ _ _ _ hlog]
    cases trace with
    | false => exact List.not_mem_nil
    | true =>
        have hnone : Trace.Target.assembler ∉ [Trace.Target.sequencer, .alu] := by decide
        exact hnone
  have hfails (code : ExitCode) (w' : Workspace)
      (h : perform (prepare logger path table) w₂ = (.error code, w')) :
      i.perform w = (code, w') := by
    refine i.perform_eq w w₁ w' logger (.error code) hlog ?_
    exact (perform_bind_of_ok _ _ w₁ w₂ () (perform_line _ w₁)).trans
      (perform_bind_of_error _ _ w₂ w' code h)
  refine ⟨fun e he => hfails _ _ ?_, fun a ha hwords => hfails _ _ ?_,
    fun a e ha hwords he => hfails _ _ ?_, fun a t ha hwords ht => ?_⟩
  · exact perform_prepare_of_program logger path table w₂ 1 _
      (perform_program_of_error logger path w₂ e he)
  · have hprogram := perform_program_of_empty logger path w₂ a ha hwords
    rw [logged_entry logger w₂ hquiet] at hprogram
    exact perform_prepare_of_program logger path table w₂ 1 _ hprogram
  · exact perform_prepare_of_table logger path table w₂ hquiet a e ha hwords he
  · have hprepare := perform_prepare_of_ok logger path table w₂ hquiet a t ha hwords ht
    have hload := load_listing w₁.tree path a (Machine.new t) ha
    rcases ((Machine.new t).load a.words.toList).1.exists_ends limit.toNat with
      ⟨k, ending, hk, hends⟩
    refine ⟨_, k, ending, hload, hk, hends, Machine.code_eq_one_iff _ _ _ _ hends, ?_⟩
    have hrun := perform_runProgram logger path limit table json w₁ _ _ k ending rfl hprepare hk
      hends
    rw [i.perform_eq w w₁ _ logger _ hlog hrun]
    cases ending <;> rfl

/-- A run that fails on the last cycle that is permitted, with its log in a file. -/
theorem run_reports_execution_last_cycle :
    let w : Workspace := { tree := .ofWorking [(["a.mcl"], .text "00 00 00\nC0 00 00\n")] }
    let w₁ := (w.appendText "a.log" "").2
    let i : Invocation := { command := .run "a.mcl" 2 true none false, logFile := some "a.log" }
    let logger : Logger := { targets := [.sequencer, .alu], file := some "a.log" }
    perform (openLog (targets i.command) i.logFile) w = (.ok logger, w₁) ∧
      ∃ (words : List MicroWord) (m : Machine) (e : StepError), m.Manages 2 1 ∧
        i.perform w = (1, ((w₁.line "🔧 Running: a.mcl").noteWords words).showRun logger m 2 1
          (.failed 1 e) false) := by
  intro w w₁ i logger
  have hopen : (w.appendText "a.log" "").1 = .ok () := by decide +kernel
  have hlog : perform (openLog (targets i.command) i.logFile) w = (.ok logger, w₁) := by
    have hfile := perform_openLog_of_file .sequencer [.alu] "a.log" w
    rw [hopen] at hfile
    exact hfile
  let words : List MicroWord := [
    { write := 0, read := 0, alu := 0, jump := 0, jumpAddress := 0, address := some 0 },
    { write := 12, read := 0, alu := 0, jump := 0, jumpAddress := 0, address := some 1 }]
  have hwords : (w₁.tree.listing "a.mcl").toOption.map (·.words.toList) = some words := by
    decide +kernel
  refine ⟨hlog, words, ?_⟩
  cases ha : w₁.tree.listing "a.mcl" with
  | error e =>
      rw [ha] at hwords
      cases hwords
  | ok a =>
      rw [ha] at hwords
      have hlist : a.words.toList = words := Option.some.inj hwords
      have hne : a.words.toList ≠ [] := by
        rw [hlist]
        exact List.cons_ne_nil _ _
      rcases (run_reports_execution w w₁ logger "a.mcl" 2 true false none (some "a.log")
        hlog).2.2.2 a .builtin ha hne rfl with ⟨m, k, ending, hload, hk, hends, _, hrun⟩
      rw [hlist] at hload hrun
      have hm : m = ((Machine.new .builtin).load words).1 := (congrArg Prod.fst hload).symm
      have hfirst : m.Completes 1 := by
        intro j hj
        rw [hm, Nat.lt_one_iff.mp hj]
        exact ⟨_, rfl⟩
      have hsecond : (m.after 1).cycle.result = .error (.decode (.unusedCode .write 12)) := by
        rw [hm]
        rfl
      have hone : k = 1 := by
        by_contra hne1
        have hlow := hk.most 1 (by decide) hfirst
        rcases hk.completes 1 (by omega) with ⟨r, hr⟩
        rw [hsecond] at hr
        cases hr
      subst hone
      have hread : (m.after 1).store.read (m.after 1).sequencer.mpc ≠ none := by
        rw [hm]
        exact Option.some_ne_none _
      cases hends with
      | limit h => exact absurd h (by decide)
      | stopped _ h => exact absurd h hread
      | failed _ word h e he =>
          refine ⟨m, e, hk, ?_⟩
          have hmpc : (m.after 1).sequencer.mpc = 1 := by
            rw [hm]
            rfl
          rw [hmpc] at hrun
          exact hrun

end Command

end Microcode
