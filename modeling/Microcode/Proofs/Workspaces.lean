import Microcode.Command.Run
import Microcode.Proofs.Outcomes
/-!
# Commands on a Workspace

What commands come to if their host is a workspace.

A command is written for any host, step by step, and each step may end it. On a workspace a step is
a function: it has a result, and it leaves another workspace behind. `Command.perform` is that
function, and the theorems here give its value for the steps that commands have in common, so that
the effect of a whole command is put together from them without opening any of them again.

Results and reports are shown line by line, and what is loaded from files depends on the tree
alone. A log is different from both: its lines are reported, but they may also go to a file, and so
the log of a command can change the tree that a later step reads. `Workspace.logged` keeps that
order.

## Main definitions

* `FileTree.listing`, `FileTree.controlTable`: What is loaded from the files of a tree.
* `Workspace.line`, `Workspace.complain`: A workspace behind a line of either channel.
* `Workspace.noteWords`, `Workspace.noteTable`: A workspace behind the lines that say what was
  loaded.
* `Workspace.logged`: A workspace behind the entries of a log.
* `Command.perform`: The result of steps, and the workspace that they leave.
* `Invocation.perform`: The exit code of a command, and the workspace that it leaves.

## Theorems

* `readText_of_listing`, `listing_of_readText`: A listing is loaded as the words of its text.
* `logged_of_forall`, `tree_logged`: Entries that are not logged leave nothing behind, and without a
  file the others leave the tree alone.
* `perform_bind_of_ok`, `perform_bind_of_error`: Steps behind a step that goes on or ends.
* `perform_line`, `perform_fail`, `perform_log`: The effects of showing and logging.
* `perform_loadListing`, `perform_loadTable`: Loading depends on the tree alone, and keeps it.
* `perform_saveListing`: Saving a listing writes its text.
* `perform_table?_of_ok`, `perform_table?_of_error`: The effects of loading a table.
* `perform_program_of_ok`, `perform_program_of_empty`, `perform_program_of_error`: The effects of
  loading a listing that has to have words.
* `perform_openLog_of_none`, `perform_openLog_of_file`: The effects of opening a log.
* `targets_of_openLog`: A log that is open has the targets that were asked for.
* `Invocation.perform_eq`: A command comes to what its steps come to.
-/

namespace Microcode

namespace FileTree

/-- The assembly of a listing file. -/
def listing (t : FileTree) (path : String) : Except ListingError Assembly :=
  match t.readText path with
  | .ok source => (Assembly.ofSource source).mapError .assembly
  | .error e => .error (.file e)

/-- The control table of a table file, or the built-in one if no file is named. -/
def controlTable (t : FileTree) : Option String → Except TableFileError ControlTable
  | none => .ok .builtin
  | some path => match t.readText path with
    | .ok text => (ControlTable.ofText text).mapError .table
    | .error e => .error (.file e)

end FileTree

/-- A listing that is loaded is read from a text that assembles to its words. -/
theorem readText_of_listing (t : FileTree) (path : String) (a : Assembly)
    (h : t.listing path = .ok a) :
    ∃ text, t.readText path = .ok text ∧ assemble text = .ok a.words.toList := by
  unfold FileTree.listing at h
  cases hread : t.readText path with
  | error e =>
      rw [hread] at h
      cases h
  | ok text =>
      rw [hread] at h
      exact ⟨text, rfl, (map_eq_ok_iff _ _ _).mpr ⟨a, (mapError_eq_ok_iff _ _ _).mp h, rfl⟩⟩

/-- A text that assembles to words is loaded from its file as these words. -/
theorem listing_of_readText (t : FileTree) (path text : String) (words : List MicroWord)
    (hread : t.readText path = .ok text) (h : assemble text = .ok words) :
    ∃ a, t.listing path = .ok a ∧ a.words.toList = words := by
  rcases (map_eq_ok_iff _ _ _).mp h with ⟨a, ha, hwords⟩
  refine ⟨a, ?_, hwords⟩
  rw [FileTree.listing, hread]
  exact (mapError_eq_ok_iff _ _ _).mpr ha

namespace Workspace

/-- A workspace behind a line on the channel for results. -/
def line (w : Workspace) (s : String) : Workspace :=
  w.print (s ++ "\n")

/-- A workspace behind the report of what went wrong. -/
def complain (w : Workspace) (s : String) : Workspace :=
  w.report ("❌ " ++ s ++ "\n")

/-- A workspace behind the line that says how many words were loaded. -/
def noteWords (w : Workspace) (words : List MicroWord) : Workspace :=
  w.line ("📂 Loaded " ++ toString words.length ++ " microinstructions")

/-- A workspace behind the line that names the table file, if there is one. -/
def noteTable (w : Workspace) : Option String → Workspace
  | none => w
  | some path => w.line ("📂 Loaded decode table from " ++ path)

/-- A workspace behind an entry of a log. The line is reported, and it goes to the end of the file
    if there is one, where nobody asks whether the file took it. -/
def record (logger : Logger) (w : Workspace) (e : Trace.Entry) : Workspace :=
  match logger.file with
  | some path => ((w.report (e.line ++ "\n")).appendText path (e.line ++ "\n")).2
  | none => w.report (e.line ++ "\n")

/-- A workspace behind the entries that a logger lets through. -/
def logged (w : Workspace) (logger : Logger) (entries : List Trace.Entry) : Workspace :=
  (entries.filter (fun e => logger.targets.contains e.target)).foldl (record logger) w

@[simp] theorem tree_line (w : Workspace) (s : String) : (w.line s).tree = w.tree := rfl

@[simp] theorem tree_complain (w : Workspace) (s : String) : (w.complain s).tree = w.tree := rfl

@[simp] theorem tree_noteWords (w : Workspace) (words : List MicroWord) :
    (w.noteWords words).tree = w.tree := rfl

/-- Entries that are not logged leave nothing behind. -/
theorem logged_of_forall (w : Workspace) (logger : Logger) (entries : List Trace.Entry)
    (h : ∀ e ∈ entries, e.target ∉ logger.targets) : w.logged logger entries = w := by
  have hnone : entries.filter (fun e => logger.targets.contains e.target) = [] := by
    refine List.filter_eq_nil_iff.mpr (fun e he hc => h e he ?_)
    exact List.contains_iff_mem.mp hc
  rw [logged, hnone, List.foldl_nil]

/-- A log that goes to no file leaves the tree alone. -/
theorem tree_logged (w : Workspace) (logger : Logger) (entries : List Trace.Entry)
    (h : logger.file = none) : (w.logged logger entries).tree = w.tree := by
  unfold logged
  induction entries.filter (fun e => logger.targets.contains e.target) generalizing w with
  | nil => rfl
  | cons e rest ih =>
      rw [List.foldl_cons, ih, record, h]
      rfl

end Workspace

namespace Command

variable {α β : Type}

/-- The result of steps on a workspace, and the workspace that they leave. -/
def perform (steps : Steps (StateM Workspace) α) (w : Workspace) :
    Except ExitCode α × Workspace :=
  Id.run ((ExceptT.run steps).run w)

section Bind

variable (x : Steps (StateM Workspace) α) (f : α → Steps (StateM Workspace) β) (w w' : Workspace)

/-- Steps go on behind a step that succeeds. -/
theorem perform_bind_of_ok (a : α) (h : perform x w = (.ok a, w')) :
    perform (x >>= f) w = perform (f a) w' := by
  unfold perform at h ⊢
  simp only [ExceptT.run_bind, StateT.run_bind, Id.run_bind, h]

/-- A step that fails ends the steps. -/
theorem perform_bind_of_error (code : ExitCode) (h : perform x w = (.error code, w')) :
    perform (x >>= f) w = (.error code, w') := by
  unfold perform at h ⊢
  simp only [ExceptT.run_bind, StateT.run_bind, Id.run_bind, h]
  rfl

end Bind

theorem perform_line (s : String) (w : Workspace) : perform (line s) w = (.ok (), w.line s) :=
  rfl

theorem perform_fail (s : String) (w : Workspace) :
    perform (fail (α := α) s) w = (.error 1, w.complain s) :=
  rfl

/-- Entries are logged one after the other. -/
theorem perform_log (logger : Logger) (entries : List Trace.Entry) (w : Workspace) :
    perform (log logger entries) w = (.ok (), w.logged logger entries) := by
  unfold log Workspace.logged
  induction entries.filter (fun e => logger.targets.contains e.target) generalizing w with
  | nil => rfl
  | cons e rest ih =>
      rw [List.forM, List.foldl_cons, ← ih (w.record logger e)]
      refine perform_bind_of_ok _ _ w _ () ?_
      unfold Workspace.record
      cases logger.file with
      | none => rfl
      | some path => rfl

-- Reading a file shows nothing and changes nothing.
theorem run_readText (path : String) (w : Workspace) :
    (Host.readText (m := StateM Workspace) path).run w = (w.tree.readText path, w) :=
  rfl

/-- Loading a listing depends on the tree alone, and keeps it. -/
theorem perform_loadListing (path : String) (w : Workspace) :
    perform (ExceptT.lift (loadListing path)) w = (.ok (w.tree.listing path), w) := by
  unfold perform loadListing FileTree.listing
  simp only [ExceptT.run_lift, StateT.run_map, StateT.run_bind, run_readText]
  cases w.tree.readText path with
  | ok source => rfl
  | error e => rfl

/-- Loading a table depends on the tree alone, and keeps it. -/
theorem perform_loadTable (path : String) (w : Workspace) :
    perform (ExceptT.lift (loadTable path)) w = (.ok (w.tree.controlTable (some path)), w) := by
  unfold perform loadTable FileTree.controlTable
  simp only [ExceptT.run_lift, StateT.run_map, StateT.run_bind, run_readText]
  cases w.tree.readText path with
  | ok text => rfl
  | error e => rfl

/-- Saving a listing writes its text, whatever comes of it. -/
theorem perform_saveListing (path : String) (words : List MicroWord) (t : ControlTable)
    (w : Workspace) : perform (ExceptT.lift (saveListing path words t)) w =
      (.ok ((w.writeText path (disassemble words t)).1.mapError .file),
        (w.writeText path (disassemble words t)).2) :=
  rfl

theorem perform_table?_of_ok (path : Option String) (w : Workspace) (t : ControlTable)
    (h : w.tree.controlTable path = .ok t) :
    perform (table? path) w = (.ok t, w.noteTable path) := by
  unfold table?
  cases path with
  | none =>
      cases h
      rfl
  | some path =>
      rw [perform_bind_of_ok _ _ w w _ (perform_loadTable path w), h]
      rfl

theorem perform_table?_of_error (path : Option String) (w : Workspace) (e : TableFileError)
    (h : w.tree.controlTable path = .error e) : perform (table? path) w =
      (.error 1, w.complain ("Failed to load decode table: " ++ e.message)) := by
  unfold table?
  cases path with
  | none => cases h
  | some path =>
      rw [perform_bind_of_ok _ _ w w _ (perform_loadTable path w), h]
      exact perform_fail _ w

section Program

variable (logger : Logger) (path : String) (w : Workspace)

theorem perform_program_of_error (e : ListingError) (h : w.tree.listing path = .error e) :
    perform (program logger path) w =
      (.error 1, w.complain ("Failed to load listing: " ++ e.message)) := by
  unfold program
  rw [perform_bind_of_ok _ _ w w _ (perform_loadListing path w), h]
  exact perform_fail _ w

theorem perform_program_of_empty (a : Assembly) (h : w.tree.listing path = .ok a)
    (hwords : a.words.toList = []) : perform (program logger path) w =
      (.error 1, (w.logged logger [a.entry]).complain ("No microinstructions in " ++ path)) := by
  unfold program
  rw [perform_bind_of_ok _ _ w w _ (perform_loadListing path w), h]
  simp only
  rw [perform_bind_of_ok _ _ w _ () (perform_log logger _ w), hwords]
  rfl

theorem perform_program_of_ok (a : Assembly) (h : w.tree.listing path = .ok a)
    (hwords : a.words.toList ≠ []) : perform (program logger path) w =
      (.ok a.words.toList, (w.logged logger [a.entry]).noteWords a.words.toList) := by
  unfold program
  rw [perform_bind_of_ok _ _ w w _ (perform_loadListing path w), h]
  simp only
  rw [perform_bind_of_ok _ _ w _ () (perform_log logger _ w),
    if_neg (by rw [List.isEmpty_iff]; exact hwords)]
  rfl

end Program

/-- With nothing to write to a file, no log is opened. -/
theorem perform_openLog_of_none (targets : List Trace.Target) (file : Option String)
    (w : Workspace) (h : targets = [] ∨ file = none) :
    perform (openLog targets file) w = (.ok { targets, file := none }, w) := by
  unfold openLog
  rcases h with rfl | rfl
  · rfl
  · cases targets with
    | nil => rfl
    | cons t ts => rfl

/-- A log that goes to a file is open once the file is there. -/
theorem perform_openLog_of_file (t : Trace.Target) (ts : List Trace.Target) (path : String)
    (w : Workspace) : perform (openLog (t :: ts) (some path)) w =
      match (w.appendText path "").1 with
      | .ok () => (.ok { targets := t :: ts, file := some path }, (w.appendText path "").2)
      | .error e => (.error 1, (w.appendText path "").2.complain
        ("Failed to set up logging: IO Error initializing logger: " ++ e.message)) := by
  have happend : perform (ExceptT.lift (Host.appendText path "")) w =
      (.ok (w.appendText path "").1, (w.appendText path "").2) := rfl
  unfold openLog
  simp only
  rw [perform_bind_of_ok _ _ w _ _ happend]
  cases (w.appendText path "").1 with
  | ok u => rfl
  | error e => rfl

/-- A log that is open has the targets that were asked for. -/
theorem targets_of_openLog (targets : List Trace.Target) (file : Option String)
    (w w₁ : Workspace) (logger : Logger) (h : perform (openLog targets file) w = (.ok logger, w₁)) :
    logger.targets = targets := by
  cases targets with
  | nil =>
      cases h
      rfl
  | cons t ts =>
      cases file with
      | none =>
          cases h
          rfl
      | some path =>
          rw [perform_openLog_of_file] at h
          split at h
          · cases h
            rfl
          · cases h

end Command

namespace Invocation

/-- The exit code of a command, and the workspace that it leaves. -/
def perform (i : Invocation) (w : Workspace) : ExitCode × Workspace :=
  Id.run ((i.carryOut (m := StateM Workspace)).run w)

/-- The exit code of steps that have come to their end. -/
def codeOf : Except ExitCode Unit → ExitCode
  | .ok () => 0
  | .error code => code

/-- A command comes to what its steps come to once its log is open. -/
theorem perform_eq (i : Invocation) (w w₁ w₂ : Workspace) (logger : Logger)
    (r : Except ExitCode Unit)
    (hlog : Command.perform (Command.openLog i.command.targets i.logFile) w = (.ok logger, w₁))
    (hsteps : Command.perform (i.command.carryOut logger) w₁ = (r, w₂)) :
    i.perform w = (codeOf r, w₂) := by
  have hall := Command.perform_bind_of_ok _ (fun logger => i.command.carryOut logger) w w₁ logger
    hlog
  rw [hsteps] at hall
  unfold perform carryOut
  unfold Command.perform at hall
  simp only [StateT.run_bind, Id.run_bind, hall]
  cases r with
  | ok u => rfl
  | error code => rfl

end Invocation

end Microcode
