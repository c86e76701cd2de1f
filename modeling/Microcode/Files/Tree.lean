import Microcode.Text.Blank
import Microcode.Text.Utf8
/-!
# File Trees

The files of a system, and where paths lead among them.

A path is followed one component at a time, from the root or from the working directory. Besides
its files a system has the directories, devices and links that every system has. A directory also
exists if a file lies in it, at whatever depth. A path may end in a slash only if it leads to a
directory.

## Main definitions

* `FileError`: Why a file is not read or written.
* `Content`: What a file holds.
* `Device`: What is read and written like a file but is none.
* `FileTree`: The files by their paths from the root.
* `Place`: Where a path leads.
* `FileTree.enter`, `FileTree.locate`: Following a path.
* `FileTree.source`, `FileTree.target`: The places that are read and written.
* `FileTree.readText`, `FileTree.put`: Access to a file.
* `FileTree.changes`: What has changed in the working directory.

## Theorems

* `content?_put_self`, `content?_put_of_ne`: A written file holds what was written, and the other
  files what they held.
-/

namespace Microcode

/-- Why a file is not read or written. -/
inductive FileError where
  | notFound
  | notADirectory
  | isADirectory
  | nameTooLong
  /-- There is no room for what is written. -/
  | noSpace
  /-- What the file stands for is not there. -/
  | noDevice
  /-- The path holds the character with code zero. -/
  | zeroInPath
  /-- The file is not text in UTF-8. -/
  | notText
  /-- Anything else that the system reports. -/
  | other (report : String)
  deriving DecidableEq, Repr

/-- The report of a file error. -/
def FileError.message : FileError → String
  | notFound => "No such file or directory (os error 2)"
  | notADirectory => "Not a directory (os error 20)"
  | isADirectory => "Is a directory (os error 21)"
  | nameTooLong => "File name too long (os error 36)"
  | noSpace => "No space left on device (os error 28)"
  | noDevice => "No such device or address (os error 6)"
  | zeroInPath => "file name contained an unexpected NUL byte"
  | notText => "stream did not contain valid UTF-8"
  | other report => report

/-- Two byte arrays are equal if their bytes are. Libraries bring procedures of their own for
    this, and everything here is to use the same one. -/
instance decidableEqBytes : DecidableEq ByteArray :=
  ByteArray.instDecidableEq

/-- What a file holds. -/
inductive Content where
  | text (s : String)
  /-- Bytes that are not text in UTF-8. -/
  | binary (bytes : ByteArray)
  deriving DecidableEq

namespace Content

/-- The content that bytes are. -/
def ofBytes (bytes : ByteArray) : Content :=
  match String.fromUTF8? bytes with
  | some s => .text s
  | none => .binary bytes

/-- A content with text behind it. Text does not complete bytes that are none. -/
def append (content : Content) (s : String) : Content :=
  match content with
  | text before => .text (before ++ s)
  | binary before => .binary (before ++ s.toUTF8)

/-- The text that a content is shown as. -/
def shown : Content → String
  | text s => s
  | binary bytes => String.ofList (Text.decode bytes.data.toList)

end Content

/-- What is read and written like a file but is none. -/
inductive Device where
  /-- Holds nothing and keeps nothing. -/
  | null
  /-- Has no room. -/
  | full
  /-- The terminal, of which there is none. -/
  | terminal
  /-- The channel for input, which is at its end. -/
  | input
  /-- The channel for results. -/
  | results
  /-- The channel for reports. -/
  | reports
  deriving DecidableEq, Repr

/-- The text that is read from a device. -/
def Device.readText : Device → Except FileError String
  | terminal => .error .noDevice
  | _ => .ok ""

/-- The components of a path. -/
abbrev Path := List String

namespace Path

/-- The components of a path, which are its parts between slashes. Several slashes are one. -/
def ofString (path : String) : Path :=
  ((Text.pieces (· == '/') path.toList).map String.ofList).filter (· != "")

/-- Whether a path ends in a slash, which asks for a directory. -/
def asksForDirectory (path : String) : Bool :=
  path.toList.getLast? == some '/'

/-- The working directory, which lies in the directory for temporary files. -/
def working : Path := ["tmp", "work"]

/-- The directories that every system has besides the working directory. -/
def systemDirectories : List Path := [
  [], ["dev"], ["dev", "pts"], ["dev", "shm"], ["etc"], ["home"], ["media"], ["mnt"], ["opt"],
  ["proc"], ["proc", "self"], ["proc", "self", "fd"], ["root"], ["run"], ["srv"], ["sys"], ["tmp"],
  ["usr"], ["usr", "bin"], ["usr", "lib"], ["usr", "sbin"], ["var"], ["var", "tmp"]]

/-- The devices that every system has. -/
def devices : List (Path × Device) := [
  (["dev", "null"], .null), (["dev", "full"], .full), (["dev", "tty"], .terminal),
  (["proc", "self", "fd", "0"], .input), (["proc", "self", "fd", "1"], .results),
  (["proc", "self", "fd", "2"], .reports)]

/-- The links that every system has, with the paths that they stand for. -/
def links : List (Path × Path) := [
  (["bin"], ["usr", "bin"]), (["lib"], ["usr", "lib"]), (["sbin"], ["usr", "sbin"]),
  (["dev", "fd"], ["proc", "self", "fd"]), (["dev", "stdin"], ["proc", "self", "fd", "0"]),
  (["dev", "stdout"], ["proc", "self", "fd", "1"]),
  (["dev", "stderr"], ["proc", "self", "fd", "2"]), (["proc", "self", "cwd"], working),
  (["proc", "self", "root"], [])]

/-- What a path stands for: itself, unless it is a link. -/
def target (path : Path) : Path :=
  (links.lookup path).getD path

/-- The directories in which no file can be made. -/
def sealedDirectories : List Path := [["proc"]]

/-- Whether a file can be made at a path. -/
def isOpen (path : Path) : Bool :=
  !sealedDirectories.any (fun directory => directory.isPrefixOf path)

end Path

/-- The files of a system by their paths from the root. -/
structure FileTree where
  files : List (Path × Content) := []
  deriving DecidableEq, Inhabited

/-- Where a path leads. -/
inductive Place where
  | file (path : Path) (content : Content)
  | directory (path : Path)
  | device (device : Device)
  /-- Nowhere, but a file may be made there. -/
  | vacant (path : Path)
  /-- Nowhere, and no file can be made there. -/
  | absent
  deriving DecidableEq

namespace FileTree

/-- The tree with the given files of the working directory, by their paths in it. -/
def ofWorking (files : List (Path × Content)) : FileTree :=
  ⟨files.map (fun (path, content) => (Path.working ++ path, content))⟩

/-- The content of the file with the given path. -/
def content? (t : FileTree) (path : Path) : Option Content :=
  t.files.lookup path

/-- Whether there is a directory with the given path. -/
def hasDirectory (t : FileTree) (path : Path) : Bool :=
  path == Path.working || Path.systemDirectories.contains path ||
    t.files.any (fun file => path.isPrefixOf file.1 && path != file.1)

/-- What lies at a path, which is no link. -/
def find (t : FileTree) (path : Path) : Place :=
  match Path.devices.lookup path, t.content? path with
  | some device, _ => .device device
  | none, some content => .file path content
  | none, none =>
    if t.hasDirectory path then .directory path
    else if Path.isOpen path then .vacant path
    else .absent

/-- Follows one component of a path. -/
def enter (t : FileTree) : Place → String → Except FileError Place
  | .file .., _ | .device _, _ => .error .notADirectory
  | .vacant _, _ | .absent, _ => .error .notFound
  | .directory path, name =>
    if name = "." then .ok (.directory path)
    else if name = ".." then .ok (.directory path.dropLast)
    else if 255 < name.utf8ByteSize then .error .nameTooLong
    else .ok (t.find (Path.target (path ++ [name])))

/-- Follows components from the place where a spelling of a path starts. -/
def locate (t : FileTree) (spelling : String) (components : Path) : Except FileError Place :=
  if spelling.toList.contains (Char.ofNat 0) then .error .zeroInPath
  else if spelling.isEmpty then .error .notFound
  else if 4095 < spelling.utf8ByteSize then .error .nameTooLong
  else components.foldlM t.enter
    (.directory (if spelling.toList.head? = some '/' then [] else Path.working))

/-- The place that is read. A slash at the end stands for the directory itself. -/
def source (t : FileTree) (path : String) : Except FileError Place :=
  t.locate path
    (Path.ofString path ++ if Path.asksForDirectory path then ["."] else [])

/-- The place that is written. A name with a slash at the end is not looked up, since no file can
    be made under it: the directory in which it would lie stands for it. -/
def target (t : FileTree) (path : String) : Except FileError Place :=
  t.locate path
    (if Path.asksForDirectory path then (Path.ofString path).dropLast ++ ["."]
      else Path.ofString path)

/-- The text of a file. -/
def readText (t : FileTree) (path : String) : Except FileError String := do
  match ← t.source path with
  | .file _ (.text s) => .ok s
  | .file _ (.binary _) => .error .notText
  | .device device => device.readText
  | .directory _ => .error .isADirectory
  | .vacant _ | .absent => .error .notFound

/-- Puts a content at a path, in place of the content that the path had. -/
def put (t : FileTree) (path : Path) (content : Content) : FileTree :=
  ⟨(path, content) :: t.files.filter (fun file => file.1 != path)⟩

@[simp] theorem content?_put_self (t : FileTree) (path : Path) (content : Content) :
    (t.put path content).content? path = some content := by
  simp [put, content?]

theorem lookup_filter_of_ne {path other : Path} (h : other ≠ path)
    (files : List (Path × Content)) :
    (files.filter (fun file => file.1 != path)).lookup other = files.lookup other := by
  induction files with
  | nil => rfl
  | cons file rest ih =>
    obtain ⟨name, content⟩ := file
    by_cases hfile : name = path
    · subst hfile
      simp [List.lookup_cons, beq_false_of_ne h, ih]
    · simp [hfile, List.lookup_cons, ih]

theorem content?_put_of_ne (t : FileTree) {path other : Path} (content : Content)
    (h : other ≠ path) : (t.put path content).content? other = t.content? other := by
  simp [put, content?, List.lookup_cons, beq_false_of_ne h, lookup_filter_of_ne h]

/-- The files of the working directory, by their paths in it. -/
def inWorking (t : FileTree) : List (Path × Content) :=
  t.files.filterMap fun (path, content) =>
    if Path.working.isPrefixOf path then some (path.drop Path.working.length, content) else none

/-- What one sees who looks at the working directory before and after: the files that are new or
    have another content, as they are shown. -/
def changes (t later : FileTree) : List (Path × String) :=
  (later.inWorking.filter fun file =>
    later.content? (Path.working ++ file.1) != t.content? (Path.working ++ file.1)).map
      fun file => (file.1, file.2.shown)

end FileTree

end Microcode
