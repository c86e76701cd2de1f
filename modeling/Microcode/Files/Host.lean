import Microcode.Control.TableFile
import Microcode.Files.Tree
import Microcode.Listing.Assembly
import Microcode.Listing.Printer
/-!
# Hosts

What a program needs of the system that it runs on, and the files that it keeps there.

A host reads and writes files and shows text on two channels, one for results and one for
reports. The system itself is one host; a `Workspace`, which is a tree of files and the text
shown so far, is another, and the one about which facts can be stated.

## Main definitions

* `Host`: The operations of a host.
* `Workspace`: A tree of files and the text shown so far.
* `Workspace.writeText`, `Workspace.appendText`: Writing to a path.
* `ListingError`, `TableFileError`: Why a listing or a table is not loaded.
* `loadListing`, `saveListing`, `loadTable`: Listings and tables as files.
-/

namespace Microcode

/-- The operations of a system that a program runs on. -/
class Host (m : Type → Type) where
  /-- The text of a file. -/
  readText : String → m (Except FileError String)
  /-- Makes a file with the given text, or replaces what the file holds. -/
  writeText : String → String → m (Except FileError Unit)
  /-- Adds text at the end of a file, or makes a file with it. -/
  appendText : String → String → m (Except FileError Unit)
  /-- Shows text on the channel for results. -/
  print : String → m Unit
  /-- Shows text on the channel for reports. -/
  report : String → m Unit

/-- The files of a system and the text shown so far. -/
structure Workspace where
  tree : FileTree := {}
  printed : String := ""
  reported : String := ""
  deriving DecidableEq, Inhabited

namespace Workspace

/-- Shows text on the channel for results. -/
def print (w : Workspace) (s : String) : Workspace :=
  { w with printed := w.printed ++ s }

/-- Shows text on the channel for reports. -/
def report (w : Workspace) (s : String) : Workspace :=
  { w with reported := w.reported ++ s }

/-- Sends text to a device. -/
def send (w : Workspace) (s : String) : Device → Except FileError Unit × Workspace
  | .null | .input => (.ok (), w)
  | .full => (if s.isEmpty then .ok () else .error .noSpace, w)
  | .terminal => (.error .noDevice, w)
  | .results => (.ok (), w.print s)
  | .reports => (.ok (), w.report s)

/-- Writes text to the place that a path leads to. A file gets the content that the change makes
    of the one it had. -/
def write (w : Workspace) (path s : String) (change : Option Content → Content) :
    Except FileError Unit × Workspace :=
  match w.tree.target path with
  | .error e => (.error e, w)
  | .ok (.directory _) => (.error .isADirectory, w)
  | .ok .absent => (.error .notFound, w)
  | .ok (.device device) => w.send s device
  | .ok (.file path content) => (.ok (), { w with tree := w.tree.put path (change (some content)) })
  | .ok (.vacant path) => (.ok (), { w with tree := w.tree.put path (change none) })

/-- Makes a file with the given text, or replaces what the file holds. -/
def writeText (w : Workspace) (path s : String) : Except FileError Unit × Workspace :=
  w.write path s (fun _ => .text s)

/-- Adds text at the end of a file, or makes a file with it. -/
def appendText (w : Workspace) (path s : String) : Except FileError Unit × Workspace :=
  w.write path s fun
    | some before => before.append s
    | none => .text s

instance : Host (StateM Workspace) where
  readText path := do return (← get).tree.readText path
  writeText path s := modifyGet (·.writeText path s)
  appendText path s := modifyGet (·.appendText path s)
  print s := modify (·.print s)
  report s := modify (·.report s)

end Workspace

/-- Why a listing is not loaded or saved. -/
inductive ListingError where
  | file (e : FileError)
  | assembly (e : AssemblyError)
  deriving DecidableEq, Repr

/-- The report of a listing error. -/
def ListingError.message : ListingError → String
  | file e => "I/O error: " ++ e.message
  | assembly e => e.message

/-- Why a table is not loaded. -/
inductive TableFileError where
  | file (e : FileError)
  | table (e : TableError)
  deriving DecidableEq, Repr

/-- The report of a table file error. -/
def TableFileError.message : TableFileError → String
  | file e => "I/O error: " ++ e.message
  | table e => e.message

variable {m : Type → Type} [Monad m] [Host m]

/-- The assembly of a listing file. -/
def loadListing (path : String) : m (Except ListingError Assembly) := do
  match ← Host.readText path with
  | .ok source => return (Assembly.ofSource source).mapError .assembly
  | .error e => return .error (.file e)

/-- Writes words as a listing file, annotated through a control table. -/
def saveListing (path : String) (words : List MicroWord) (t : ControlTable) :
    m (Except ListingError Unit) := do
  return (← Host.writeText path (disassemble words t)).mapError .file

/-- The control table of a table file. -/
def loadTable (path : String) : m (Except TableFileError ControlTable) := do
  match ← Host.readText path with
  | .ok text => return (ControlTable.ofText text).mapError .table
  | .error e => return .error (.file e)

end Microcode
