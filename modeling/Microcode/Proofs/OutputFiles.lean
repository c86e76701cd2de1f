import Microcode.Proofs.Listing.Reassembly
import Microcode.Proofs.Lookups
import Microcode.Proofs.Text.Words
import Microcode.Proofs.Workspaces
import Microcode.Proofs.WrittenFiles
/-!
# Output Files

Writing a listing back in its normal form, next to the file that it came from.

Nobody says where the normal form goes, so its path is made from that of the source: the ending
`.mcl` is taken off, as often as it is there, and `.out.mcl` is put in its place. Were the two paths
ever the same, the source would be lost. They are not, since `.out.mcl` is no number of endings
`.mcl`, and this is all there is to it for the spellings. For the files it takes more: two spellings
may lead to one file, by way of slashes, dots and links. But the two paths differ in their last name
only, and neither links nor devices have a name that ends like that of an output path. So the two
lead to different files, whatever the tree (`source_ne_outputPath`).

What the command comes to is one of three things, and `Normalises` has a constructor for each. The
properties of the command are read off from there, without its steps.

The output path of an output path is another path again, and longer by four bytes. So the command
can be repeated on what it has written, with the same text as its result, but not forever: names of
files end at 255 bytes, and a source whose name comes close leaves room for one normal form only.

## Main definitions

* `Command.sourceEnding`, `Command.outputEnding`: The endings of paths.
* `Command.isOutput`: The last name of a path has the ending of an output path.
* `Normalises`: What it comes to if a listing is written back.
* `Invocation.normalise`: The command that writes a listing back.

## Theorems

* `exists_endings`: A path is its stem with an ending repeated.
* `outputPath_ne`: An output path is never the path of its source.
* `names_outputPath`: The names of a source and of its output path.
* `target_outputPath`, `target_outputPath_ne_device`: Where an output path leads.
* `source_ne_outputPath`: An output path leads to another file than its source.
* `perform_assembleFile_of_error`, `perform_assembleFile_of_ok`: The effects of the steps.
* `normalises_perform`: What the command comes to.
* `Normalises.mem_changes`: What one sees of it in the working directory.
* `normalise_keeps_source`: The command leaves its source alone and can be repeated.
* `normalise_once_of_long`: The command cannot be repeated if a name gets too long.
-/

namespace Microcode

namespace Command

/-- The ending that is taken off a path. -/
abbrev sourceEnding : List Char := ".mcl".toList

/-- The ending that an output path has. -/
abbrev outputEnding : List Char := ".out.mcl".toList

/-- One ending is taken off with the others. -/
theorem stem_of_suffix (front : List Char) : stem (front ++ sourceEnding) = stem front := by
  have htake : (front ++ sourceEnding).take ((front ++ sourceEnding).length - 4) = front := by
    rw [List.length_append]
    exact List.take_left
  rw [stem, dif_pos (List.isSuffixOf_iff_suffix.mpr (List.suffix_append front sourceEnding)), htake]

/-- A path without the ending is its own stem. -/
theorem stem_of_not_suffix (path : List Char) (h : ¬ sourceEnding <:+ path) : stem path = path := by
  rw [stem, dif_neg (fun hc => h (List.isSuffixOf_iff_suffix.mp hc))]

/-- The output path of a path without the ending is longer by eight characters. -/
theorem outputPath_of_not_suffix (source : String) (h : ¬ sourceEnding <:+ source.toList) :
    outputPath source = source ++ ".out.mcl" := by
  rw [outputPath, stem_of_not_suffix _ h, String.ofList_toList]

/-- The output path of an output path says twice what it is. -/
theorem outputPath_output (front : String) :
    outputPath (front ++ ".out.mcl") = front ++ ".out.out.mcl" := by
  have hlast : ¬ sourceEnding <:+ front.toList ++ ".out".toList := by
    rintro ⟨before, hbefore⟩
    have hends := congrArg List.getLast? hbefore
    rw [List.getLast?_append, List.getLast?_append] at hends
    exact absurd (Option.some.inj hends : 'l' = 't') (by decide)
  have hsplit : (front ++ ".out.mcl").toList =
      (front.toList ++ ".out".toList) ++ sourceEnding := by
    rw [String.toList_append, List.append_assoc]
    rfl
  rw [outputPath, hsplit, stem_of_suffix, stem_of_not_suffix _ hlast, String.ofList_append,
    String.ofList_toList, String.ofList_toList, String.append_assoc]
  rfl

/-- A path is its stem with an ending repeated. -/
theorem exists_endings (path : List Char) :
    ∃ k, path = stem path ++ (List.replicate k sourceEnding).flatten := by
  induction path using stem.induct with
  | case1 path h ih =>
      rcases List.isSuffixOf_iff_suffix.mp h with ⟨front, rfl⟩
      have htake : (front ++ sourceEnding).take ((front ++ sourceEnding).length - 4) = front := by
        rw [List.length_append]
        exact List.take_left
      rw [htake] at ih
      rcases ih with ⟨k, hk⟩
      refine ⟨k + 1, ?_⟩
      rw [stem_of_suffix, List.replicate_succ', List.flatten_append, ← List.append_assoc, ← hk,
        List.flatten_singleton]
  | case2 path h =>
      refine ⟨0, ?_⟩
      rw [stem_of_not_suffix path (fun hc => h (List.isSuffixOf_iff_suffix.mpr hc)),
        List.replicate_zero, List.flatten_nil, List.append_nil]

/-- No number of endings makes the ending of an output path. -/
theorem endings_ne (k : Nat) : (List.replicate k sourceEnding).flatten ≠ outputEnding := by
  intro h
  have hlength : k * 4 = 8 := by
    have hflat := congrArg List.length h
    rw [List.length_flatten, List.map_replicate, List.sum_replicate_nat] at hflat
    exact hflat
  have hk : k = 2 := by omega
  rw [hk] at h
  exact absurd h (by decide)

/-- An output path is never the path of its source. -/
theorem outputPath_ne (source : String) : outputPath source ≠ source := by
  intro h
  rcases exists_endings source.toList with ⟨k, hk⟩
  have hchars : stem source.toList ++ outputEnding = source.toList := by
    rw [← String.toList_ofList (l := stem source.toList), ← String.toList_append]
    exact congrArg String.toList h
  exact endings_ne k (List.append_cancel_left (hk.symm.trans hchars.symm))

/-- The names of a source and of its output path are the same but for the last one. That of the
    output path is there and has its ending, and the two differ. -/
theorem names_outputPath (source : String) :
    ∃ (front : Path) (name : String) (u : List Char),
      Path.ofString source = front ++ (if name = "" then [] else [name]) ∧
      Path.ofString (outputPath source) = front ++ [String.ofList (u ++ outputEnding)] ∧
      name ≠ String.ofList (u ++ outputEnding) := by
  rcases exists_endings source.toList with ⟨k, hk⟩
  rcases Text.pieces_insert (· == '/') (stem source.toList) with ⟨ls, u, hpieces⟩
  have hsource := hpieces (List.replicate k sourceEnding).flatten [] [] [] (fun c hc => by
    rcases List.mem_flatten.mp hc with ⟨e, he, hce⟩
    rw [List.eq_of_mem_replicate he] at hce
    exact beq_false_of_ne (Path.ne_of_plain sourceEnding rfl c hce).1) rfl
  have houtput := hpieces outputEnding [] [] []
    (fun c hc => beq_false_of_ne (Path.ne_of_plain outputEnding rfl c hc).1) rfl
  rw [List.append_nil] at hsource houtput
  rw [← hk] at hsource
  have hchars : (outputPath source).toList = stem source.toList ++ outputEnding := by
    rw [outputPath, String.toList_append, String.toList_ofList]
  refine ⟨(ls.map String.ofList).filter (· != ""),
    String.ofList (u ++ (List.replicate k sourceEnding).flatten), u, ?_, ?_, ?_⟩
  · rw [Path.ofString, hsource, List.map_append, List.filter_append, List.map_singleton,
      Path.filter_name]
  · have hne : String.ofList (u ++ outputEnding) ≠ "" := by
      intro h
      have hnil := congrArg String.toList h
      rw [String.toList_ofList] at hnil
      exact absurd (List.append_eq_nil_iff.mp hnil).2 (by decide)
    rw [Path.ofString, hchars, houtput, List.map_append, List.filter_append, List.map_singleton,
      Path.filter_name, if_neg hne]
  · intro h
    exact endings_ne k (List.append_cancel_left (String.ofList_injective h))

-- An output path starts where the path of its source does.
theorem head?_outputPath (source : String) (h : source ≠ "") :
    (outputPath source).toList.head? = some '/' ↔ source.toList.head? = some '/' := by
  rcases exists_endings source.toList with ⟨k, hk⟩
  have hchars : (outputPath source).toList = stem source.toList ++ outputEnding := by
    rw [outputPath, String.toList_append, String.toList_ofList]
  rw [hchars]
  generalize stem source.toList = front at hk ⊢
  rw [hk]
  cases front with
  | cons c rest => exact Iff.rfl
  | nil =>
      cases k with
      | zero => exact absurd (String.toList_inj.mp hk) h
      | succ k => exact iff_of_false (by decide) (by
          rw [List.replicate_succ, List.flatten_cons]
          exact (by decide : (some '.' : Option Char) ≠ some '/'))

theorem asksForDirectory_outputPath (source : String) :
    Path.asksForDirectory (outputPath source) = false := by
  have hlast : (outputPath source).toList.getLast? = some 'l' := by
    rw [outputPath, String.toList_append, List.getLast?_append]
    rfl
  rw [Path.asksForDirectory, hlast]
  rfl

/-- The last name of a path has the ending of an output path. -/
def isOutput (p : Path) : Bool :=
  p.getLast?.any (fun name => outputEnding.isSuffixOf name.toList)

theorem isOutput_concat (d : Path) (u : List Char) :
    isOutput (d ++ [String.ofList (u ++ outputEnding)]) = true := by
  rw [isOutput, List.getLast?_concat, Option.any_some, String.toList_ofList,
    List.isSuffixOf_iff_suffix]
  exact List.suffix_append u outputEnding

-- Neither devices nor links, nor what links stand for, have names that end like that.
theorem isOutput_devices : ∀ e ∈ Path.devices, isOutput e.1 = false := by
  decide

theorem isOutput_links : ∀ e ∈ Path.links, isOutput e.1 = false ∧ isOutput e.2 = false := by
  decide

/-- A list of paths without such a name has no entry for an output path. -/
theorem lookup_of_isOutput {β : Type} (entries : List (Path × β)) (p : Path)
    (h : ∀ e ∈ entries, isOutput e.1 = false) (hp : isOutput p = true) :
    entries.lookup p = none := by
  refine List.lookup_eq_none_iff.mpr (fun e he => ?_)
  refine bne_iff_ne.mpr (fun hpe => ?_)
  rw [hpe, h e he] at hp
  cases hp

/-- An output path leads to what lies at its last name, in the directory that its other names lead
    to, or to a directory. -/
theorem target_outputPath (t : FileTree) (source : String) (front : Path) (u : List Char)
    (hnames : Path.ofString (outputPath source) = front ++ [String.ofList (u ++ outputEnding)])
    (place : Place) (h : t.target (outputPath source) = .ok place) :
    ∃ d, front.foldlM t.enter (.directory (if (outputPath source).toList.head? = some '/' then []
        else Path.working)) = .ok (.directory d) ∧
      ((∃ d', place = .directory d') ∨
        place = t.find (d ++ [String.ofList (u ++ outputEnding)])) := by
  rw [FileTree.target, asksForDirectory_outputPath, if_neg Bool.false_ne_true, hnames] at h
  have hwalk := t.walk_of_locate _ _ place h
  rw [t.walk_concat] at hwalk
  rcases hwalk with ⟨p, hp, hlast⟩
  rcases t.enter_cases p place _ hlast with ⟨d, rfl, hdir | ⟨_, hfind⟩⟩
  · exact ⟨d, hp, Or.inl hdir⟩
  · have hlink := lookup_of_isOutput Path.links _ (fun e he => (isOutput_links e he).1)
      (isOutput_concat d u)
    rw [Path.target, hlink, Option.getD_none] at hfind
    exact ⟨d, hp, Or.inr hfind⟩

/-- An output path never leads to a device. -/
theorem target_outputPath_ne_device (t : FileTree) (source : String) (device : Device) :
    t.target (outputPath source) ≠ .ok (.device device) := by
  intro h
  rcases names_outputPath source with ⟨front, name, u, _, hnames, _⟩
  rcases target_outputPath t source front u hnames _ h with ⟨d, _, ⟨d', hdir⟩ | hfind⟩
  · cases hdir
  · have hnone := lookup_of_isOutput Path.devices _ isOutput_devices (isOutput_concat d u)
    rw [t.lookup_of_find_device _ device hfind.symm] at hnone
    cases hnone

/-- The file at an output path is another one than the file of the source. -/
theorem source_ne_outputPath (t : FileTree) (source : String) (p q : Path) (c : Content)
    (hq : t.Takes (outputPath source) q) (h : t.source source = .ok (.file p c)) : p ≠ q := by
  rcases names_outputPath source with ⟨front, name, u, hsource, hnames, hname⟩
  rcases hq with ⟨place, hplace, hpath⟩
  rcases target_outputPath t source front u hnames place hplace with
    ⟨d, hfront, ⟨d', rfl⟩ | rfl⟩
  · cases hpath
  have hqd : d ++ [String.ofList (u ++ outputEnding)] = q := t.eq_of_find_path? _ q hpath
  have hne : source ≠ "" := by
    rintro rfl
    cases h
  -- A path with a slash at its end leads to a directory or nowhere.
  have hslash : Path.asksForDirectory source = false := by
    cases hasks : Path.asksForDirectory source with
    | false => rfl
    | true =>
        rw [FileTree.source, hasks, if_pos rfl] at h
        rcases (t.walk_concat _ _ _ _).mp (t.walk_of_locate _ _ _ h) with ⟨p', _, hdot⟩
        rcases t.enter_cases p' _ _ hdot with ⟨_, _, ⟨_, hdir⟩ | ⟨hdotne, _⟩⟩
        · cases hdir
        · exact absurd rfl hdotne
  rw [FileTree.source, hslash, if_neg Bool.false_ne_true, List.append_nil, hsource] at h
  have hwalk := t.walk_of_locate _ _ _ h
  by_cases hempty : name = ""
  · -- Then the names of the source lead to a directory.
    rw [if_pos hempty, List.append_nil] at hwalk
    simp only [head?_outputPath source hne] at hfront
    rw [hfront] at hwalk
    cases hwalk
  · rw [if_neg hempty, t.walk_concat] at hwalk
    rcases hwalk with ⟨p', _, hlast⟩
    rcases t.enter_cases p' _ name hlast with ⟨d₁, _, ⟨_, hdir⟩ | ⟨_, hfind⟩⟩
    · cases hdir
    have hp : Path.target (d₁ ++ [name]) = p := t.eq_of_find_path? _ p (by rw [← hfind]; rfl)
    rw [← hp, ← hqd, Path.target]
    cases hlink : Path.links.lookup (d₁ ++ [name]) with
    | none =>
        rw [Option.getD_none]
        intro heq
        exact hname (List.singleton_inj.mp (List.append_inj' heq rfl).2)
    | some v =>
        -- What a link stands for has no such name.
        rw [Option.getD_some]
        intro heq
        have hmem := mem_of_lookup_eq_some Path.links _ v hlink
        have hout := isOutput_concat d u
        rw [← heq, (isOutput_links _ hmem).2] at hout
        cases hout

section Assemble

variable (logger : Logger) (source : String) (w w' : Workspace)

/-- A source that is not loaded ends the command. -/
theorem perform_assembleFile_of_error (code : ExitCode)
    (h : perform (program logger source)
      (w.line ("📝 Assembling: " ++ source ++ " → " ++ outputPath source)) = (.error code, w')) :
    perform (assembleFile logger source none) w = (.error code, w') := by
  unfold assembleFile
  simp only [Option.getD_none]
  rw [perform_bind_of_ok _ _ w _ () (perform_line _ w)]
  exact perform_bind_of_error _ _ _ w' code h

/-- A source that is loaded is written to the output path. -/
theorem perform_assembleFile_of_ok (words : List MicroWord)
    (h : perform (program logger source)
      (w.line ("📝 Assembling: " ++ source ++ " → " ++ outputPath source)) = (.ok words, w')) :
    perform (assembleFile logger source none) w =
      match w'.writeText (outputPath source) (disassemble words .builtin) with
      | (.ok (), w'') => (.ok (), w''.line ("✓ Saved to " ++ outputPath source))
      | (.error e, w'') =>
        (.error 1, w''.complain ("Failed to save listing: " ++ (ListingError.file e).message)) := by
  unfold assembleFile
  simp only [Option.getD_none]
  rw [perform_bind_of_ok _ _ w _ () (perform_line _ w), perform_bind_of_ok _ _ _ _ _ h,
    perform_bind_of_ok _ _ _ _ _ (perform_saveListing _ _ _ w')]
  rcases w'.writeText (outputPath source) (disassemble words .builtin) with ⟨e | u, w''⟩
  · rfl
  · rfl

end Assemble

end Command

/-- What it comes to if a listing is written back in its normal form, as an exit code and the tree
    behind it. The normal form is written if the listing has words and its output path takes a
    file. -/
inductive Normalises (t : FileTree) (source : String) : ExitCode → FileTree → Prop where
  | written (a : Assembly) (ha : t.listing source = .ok a) (hwords : a.words.toList ≠ []) (q : Path)
      (hq : t.Takes (Command.outputPath source) q) :
      Normalises t source 0 (t.put q (.text (disassemble a.words.toList .builtin)))
  | refused (a : Assembly) (ha : t.listing source = .ok a) (hwords : a.words.toList ≠ [])
      (h : ∀ q, ¬ t.Takes (Command.outputPath source) q) : Normalises t source 1 t
  | unloaded (h : ∀ a, t.listing source = .ok a → a.words.toList = []) : Normalises t source 1 t

namespace Normalises

variable {t t' : FileTree} {source : String} {code : ExitCode}

/-- If it fails, the exit code is one and nothing was written. -/
theorem tree_of_ne_zero (h : Normalises t source code t') (hcode : code ≠ 0) :
    code = 1 ∧ t' = t := by
  cases h with
  | written => exact absurd rfl hcode
  | refused => exact ⟨rfl, rfl⟩
  | unloaded => exact ⟨rfl, rfl⟩

/-- Without words the exit code is one. -/
theorem code_of_unloaded (h : Normalises t source code t')
    (hnone : ∀ a, t.listing source = .ok a → a.words.toList = []) : code = 1 := by
  cases h with
  | written a ha hwords => exact absurd (hnone a ha) hwords
  | refused => rfl
  | unloaded => rfl

/-- If it succeeds, one file was written. -/
theorem written_of_zero (h : Normalises t source code t') (hcode : code = 0) :
    ∃ a q, t.listing source = .ok a ∧ a.words.toList ≠ [] ∧
      t.Takes (Command.outputPath source) q ∧
      t' = t.put q (.text (disassemble a.words.toList .builtin)) := by
  cases h with
  | written a ha hwords q hq => exact ⟨a, q, ha, hwords, hq, rfl⟩
  | refused => exact absurd hcode (by decide)
  | unloaded => exact absurd hcode (by decide)

/-- What has changed in the working directory, if anything has, is the file at the output path. -/
theorem mem_changes (h : Normalises t source code t') (e : Path × String)
    (he : e ∈ t.changes t') : code = 0 ∧ t.Takes (Command.outputPath source) (Path.working ++ e.1) ∧
      ∃ a, t.listing source = .ok a ∧ e.2 = disassemble a.words.toList .builtin := by
  cases h with
  | written a ha hwords q hq =>
      rcases t.mem_changes_put q _ e he with ⟨rfl, htext⟩
      exact ⟨rfl, hq, a, ha, htext⟩
  | refused =>
      rw [t.changes_self] at he
      cases he
  | unloaded =>
      rw [t.changes_self] at he
      cases he

/-- A listing with words is written where its output path takes a file. -/
theorem written_of_takes (h : Normalises t source code t') (a : Assembly)
    (ha : t.listing source = .ok a) (hwords : a.words.toList ≠ []) (q : Path)
    (hq : t.Takes (Command.outputPath source) q) :
    code = 0 ∧ t' = t.put q (.text (disassemble a.words.toList .builtin)) := by
  cases h with
  | written b hb _ q' hq' =>
      cases ha.symm.trans hb
      rw [hq.unique hq']
      exact ⟨rfl, rfl⟩
  | refused _ _ _ hnone => exact absurd hq (hnone q)
  | unloaded hnone => exact absurd (hnone a ha) hwords

/-- A listing is not written where its output path takes no file. -/
theorem refused_of_not_takes (h : Normalises t source code t')
    (hnone : ∀ q, ¬ t.Takes (Command.outputPath source) q) : code = 1 ∧ t' = t := by
  cases h with
  | written _ _ _ q hq => exact absurd hq (hnone q)
  | refused => exact ⟨rfl, rfl⟩
  | unloaded => exact ⟨rfl, rfl⟩

/-- A listing is not written back if the name of its normal form is too long. -/
theorem refused_of_long (h : Normalises t source code t') (hfree : ∀ c ∈ source.toList, c ≠ '/')
    (hlong : 255 < (Command.outputPath source).utf8ByteSize) : code = 1 ∧ t' = t := by
  have hout : ∀ c ∈ (Command.outputPath source).toList, c ≠ '/' := by
    intro c hc
    rcases Command.exists_endings source.toList with ⟨k, hk⟩
    rw [Command.outputPath, String.toList_append, String.toList_ofList] at hc
    rcases List.mem_append.mp hc with hstem | hending
    · refine hfree c ?_
      rw [hk]
      exact List.mem_append_left _ hstem
    · exact (Path.ne_of_plain Command.outputEnding rfl c hending).1
  have hne := (Path.ne_of_size _ (Nat.lt_trans (by decide) hlong)).1
  exact h.refused_of_not_takes (t.not_takes_of_long _ [] _ (Path.ofString_of_free _ hout hne)
    (Command.asksForDirectory_outputPath source) hlong)

end Normalises

namespace Invocation

/-- The command that writes a listing back in its normal form, to the output path of the listing. -/
def normalise (source : String) (verbose : Bool) : Invocation :=
  { command := .asm source none verbose }

/-- What the command comes to that writes a listing back in its normal form. -/
theorem normalises_perform (source : String) (verbose : Bool) (w : Workspace) :
    Normalises w.tree source ((normalise source verbose).perform w).1
      ((normalise source verbose).perform w).2.tree := by
  let i := normalise source verbose
  let logger : Logger := { targets := i.command.targets, file := none }
  let w₁ := w.line ("📝 Assembling: " ++ source ++ " → " ++ Command.outputPath source)
  have hlog := Command.perform_openLog_of_none i.command.targets none w (Or.inr rfl)
  cases ha : w.tree.listing source with
  | error e =>
      have hload := Command.perform_program_of_error logger source w₁ e ha
      have hall := Command.perform_assembleFile_of_error logger source w _ 1 hload
      rw [i.perform_eq w w _ logger _ hlog hall]
      exact .unloaded (fun a hok => by rw [ha] at hok; cases hok)
  | ok a =>
      have htree : (w₁.logged logger [a.entry]).tree = w.tree := w₁.tree_logged logger _ rfl
      by_cases hwords : a.words.toList = []
      · have hload := Command.perform_program_of_empty logger source w₁ a ha hwords
        have hall := Command.perform_assembleFile_of_error logger source w _ 1 hload
        rw [i.perform_eq w w _ logger _ hlog hall, Workspace.tree_complain, htree]
        exact .unloaded (fun b hok => by rw [ha] at hok; cases hok; exact hwords)
      · have hload := Command.perform_program_of_ok logger source w₁ a ha hwords
        have hall := Command.perform_assembleFile_of_ok logger source w _ _ hload
        let w₂ := (w₁.logged logger [a.entry]).noteWords a.words.toList
        have htree₂ : w₂.tree = w.tree := (Workspace.tree_noteWords _ _).trans htree
        -- Nothing was written so far, so the output path takes what it took at the start.
        by_cases htakes : ∃ q, w.tree.Takes (Command.outputPath source) q
        · rcases htakes with ⟨q, hq⟩
          rw [w₂.writeText_of_takes _ _ q (htree₂.symm ▸ hq)] at hall
          rw [i.perform_eq w w _ logger _ hlog hall, Workspace.tree_line, htree₂]
          exact .written a ha hwords q hq
        · have hnone : ∀ q, ¬ w.tree.Takes (Command.outputPath source) q := not_exists.mp htakes
          rcases w₂.writeText_of_not_takes _ (disassemble a.words.toList .builtin)
            (htree₂.symm ▸ hnone) (Command.target_outputPath_ne_device w₂.tree source) with ⟨e, he⟩
          rw [he] at hall
          rw [i.perform_eq w w _ logger _ hlog hall, Workspace.tree_complain, htree₂]
          exact .refused a ha hwords hnone

/-- Writing a listing back in its normal form leaves the source alone. The output path is another
    one than that of the source, and if the command succeeds, the file at the output path is the
    only one that changes; the source reads as before, and the normal form loads to the words of the
    source. The command can be repeated on the normal form, and if there is a file to be written
    then, it gets the same text; if there is none, nothing changes. A command that fails exits with
    one and writes nothing, as it does if the source is not loaded or has no words. -/
theorem normalise_keeps_source (source : String) (verbose verbose' : Bool) (w : Workspace) :
    let out := Command.outputPath source
    let first := (normalise source verbose).perform w
    let second := (normalise out verbose').perform first.2
    out ≠ source ∧
    ((∀ a, w.tree.listing source = .ok a → a.words.toList = []) → first.1 = 1) ∧
    (first.1 ≠ 0 → first.1 = 1 ∧ first.2.tree = w.tree) ∧
    (first.1 = 0 → ∃ a q, w.tree.listing source = .ok a ∧ w.tree.Takes out q ∧
      let text := disassemble a.words.toList .builtin
      (∀ path, first.2.tree.content? path =
        if path = q then some (.text text) else w.tree.content? path) ∧
      first.2.tree.readText source = w.tree.readText source ∧
      first.2.tree.readText out = .ok text ∧
      (∃ b, first.2.tree.listing out = .ok b ∧ b.words.toList = a.words.toList) ∧
      (∀ q', first.2.tree.Takes (Command.outputPath out) q' →
        second.1 = 0 ∧ second.2.tree = first.2.tree.put q' (.text text) ∧
          second.2.tree.readText (Command.outputPath out) = .ok text) ∧
      ((∀ q', ¬ first.2.tree.Takes (Command.outputPath out) q') →
        second.1 = 1 ∧ second.2.tree = first.2.tree)) := by
  intro out first second
  have hfirst : Normalises w.tree source first.1 first.2.tree :=
    normalises_perform source verbose w
  have hsecond : Normalises first.2.tree out second.1 second.2.tree :=
    normalises_perform out verbose' first.2
  refine ⟨Command.outputPath_ne source, hfirst.code_of_unloaded, hfirst.tree_of_ne_zero,
    fun hzero => ?_⟩
  rcases hfirst.written_of_zero hzero with ⟨a, q, ha, hwords, hq, htree⟩
  rcases readText_of_listing w.tree source a ha with ⟨s, hread, hassemble⟩
  have hself : first.2.tree.readText out = .ok (disassemble a.words.toList .builtin) := by
    rw [htree]
    exact w.tree.readText_put_self out q _ (Command.asksForDirectory_outputPath source) hq
  rcases listing_of_readText _ out _ a.words.toList hself
    (assemble_disassemble _ _ (printable_of_assemble s _ hassemble)) with ⟨b, hb, hbwords⟩
  refine ⟨a, q, ha, hq, ?_, ?_, hself, ⟨b, hb, hbwords⟩, fun q' hq' => ?_,
    hsecond.refused_of_not_takes⟩
  · intro path
    rw [htree]
    by_cases hpath : path = q
    · rw [if_pos hpath, hpath, FileTree.content?_put_self]
    · rw [if_neg hpath, w.tree.content?_put_of_ne _ hpath]
  · rw [htree, hread]
    exact w.tree.readText_put_of_ne source q _ s (w.tree.find_of_takes out q hq) hread
      (fun p c hp => Command.source_ne_outputPath w.tree source p q c hq hp)
  · rcases hsecond.written_of_takes b hb (hbwords ▸ hwords) q' hq' with ⟨hcode, htree'⟩
    rw [hbwords] at htree'
    refine ⟨hcode, htree', ?_⟩
    rw [htree']
    exact first.2.tree.readText_put_self _ q' _ (Command.asksForDirectory_outputPath out) hq'

/-- A listing that is written back twice, next to another file. -/
theorem normalise_keeps_source_twice :
    let w : Workspace :=
      { tree := .ofWorking [(["a.mcl"], .text "0 0 0\n"), (["b"], .text "kept")] }
    let out := Command.outputPath "a.mcl"
    let first := (normalise "a.mcl" false).perform w
    let second := (normalise out true).perform first.2
    out = "a.out.mcl" ∧ first.1 = 0 ∧ first.2.tree.readText "a.mcl" = .ok "0 0 0\n" ∧
      second.1 = 0 ∧ second.2.tree.readText "a.out.out.mcl" = first.2.tree.readText out := by
  intro w out first second
  have hout : out = "a.out.mcl" := by
    show Command.outputPath "a.mcl" = _
    rw [Command.outputPath, show "a.mcl".toList = ['a'] ++ Command.sourceEnding from rfl,
      Command.stem_of_suffix, Command.stem_of_not_suffix ['a'] (by decide)]
    rfl
  have hnext : Command.outputPath out = "a.out.out.mcl" := by
    rw [hout]
    exact Command.outputPath_output "a"
  have hread : w.tree.readText "a.mcl" = .ok "0 0 0\n" :=
    w.tree.readText_of_isName "a.mcl" _ (.of_size _ rfl (by decide) (by decide)) rfl
  rcases listing_of_readText w.tree "a.mcl" "0 0 0\n" [{
    write := 0, read := 0, alu := 0, jump := 0, jumpAddress := 0, address := some 0 }]
    hread rfl with ⟨a, ha, hwords⟩
  have htakes : w.tree.Takes out ["tmp", "work", "a.out.mcl"] := by
    rw [hout]
    decide +kernel
  have hfirst : Normalises w.tree "a.mcl" first.1 first.2.tree :=
    normalises_perform "a.mcl" false w
  rcases hfirst.written_of_takes a ha (hwords ▸ List.cons_ne_nil _ _) _ htakes with ⟨hzero, htree⟩
  have htakes' : first.2.tree.Takes (Command.outputPath out) ["tmp", "work", "a.out.out.mcl"] := by
    rw [hnext]
    refine first.2.tree.takes_of_isName _ (.of_size _ rfl (by decide) (by decide)) ?_
    rw [htree]
    rfl
  rcases (normalise_keeps_source "a.mcl" false true w).2.2.2 hzero with
    ⟨b, q, -, -, -, hsource, hself, -, htwice, -⟩
  rcases htwice _ htakes' with ⟨hzero', -, hagain⟩
  rw [hnext] at hagain
  exact ⟨hout, hzero, hsource.trans hread, hzero', hagain.trans hself.symm⟩

/-- A file that is alone in the working directory is written back once but not again if its name
    leaves no room for more. -/
theorem normalise_once_of_long (source s : String) (words : List MicroWord)
    (verbose verbose' : Bool) (hs : assemble s = .ok words) (hwords : words ≠ [])
    (hname : Path.IsName source) (hout : Path.IsName (Command.outputPath source))
    (hlong : 255 < (Command.outputPath (Command.outputPath source)).utf8ByteSize) :
    let w : Workspace := { tree := .ofWorking [([source], .text s)] }
    let first := (normalise source verbose).perform w
    let second := (normalise (Command.outputPath source) verbose').perform first.2
    first.1 = 0 ∧ second.1 = 1 ∧ second.2.tree = first.2.tree := by
  intro w first second
  have hfirst : Normalises w.tree source first.1 first.2.tree :=
    normalises_perform source verbose w
  have hsecond : Normalises first.2.tree (Command.outputPath source) second.1 second.2.tree :=
    normalises_perform _ verbose' first.2
  have hread : w.tree.readText source = .ok s :=
    w.tree.readText_of_isName source s hname (List.lookup_cons_self ..)
  have hdir : w.tree.hasDirectory (Path.working ++ [Command.outputPath source]) = false := by
    have hne : (Command.outputPath source == source) = false :=
      beq_false_of_ne (Command.outputPath_ne source)
    -- In place of the output file there could only be a directory with the source in it.
    have hfiles : w.tree.files = [(Path.working ++ [source], .text s)] := rfl
    rw [FileTree.hasDirectory, hfiles, List.any_cons, List.any_nil]
    simp only [Path.working, List.cons_append, List.nil_append, List.isPrefixOf, hne,
      beq_self_eq_true, Bool.true_and, Bool.false_and, Bool.or_false]
    rfl
  rcases listing_of_readText w.tree source s words hread hs with ⟨a, ha, hlist⟩
  exact ⟨(hfirst.written_of_takes a ha (hlist ▸ hwords) _ (w.tree.takes_of_isName _ hout hdir)).1,
    hsecond.refused_of_long hout.free hlong⟩

/-- A name of 247 bytes leaves room for one normal form but not for a second one. -/
theorem normalise_fails_again :
    let source := String.ofList (List.replicate 247 'a')
    let w : Workspace := { tree := .ofWorking [([source], .text "00 00 00\n")] }
    let first := (normalise source false).perform w
    let second := (normalise (Command.outputPath source) false).perform first.2
    first.1 = 0 ∧ second.1 = 1 ∧ second.2.tree = first.2.tree := by
  have hchars : (String.ofList (List.replicate 247 'a')).toList.all Path.isPlain = true := by
    rw [String.toList_ofList, List.all_replicate]
    rfl
  have hname : Path.IsName (String.ofList (List.replicate 247 'a')) :=
    .of_size _ hchars (by decide +kernel) (by decide +kernel)
  have hpath := Command.outputPath_of_not_suffix (String.ofList (List.replicate 247 'a')) (by
    rw [String.toList_ofList]
    exact fun h => absurd (List.eq_of_mem_replicate (h.subset List.mem_cons_self)) (by decide))
  have hout : Path.IsName (Command.outputPath (String.ofList (List.replicate 247 'a'))) := by
    rw [hpath]
    refine .of_size _ ?_ (by decide +kernel) (by decide +kernel)
    rw [String.toList_append, List.all_append, hchars]
    rfl
  refine normalise_once_of_long _ "00 00 00\n" [{
    write := 0, read := 0, alu := 0, jump := 0, jumpAddress := 0, address := some 0 }] false false
    rfl (List.cons_ne_nil _ _) hname hout ?_
  rw [hpath, Command.outputPath_output]
  decide +kernel

end Invocation

end Microcode
