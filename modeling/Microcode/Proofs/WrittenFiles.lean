import Microcode.Files.Host
import Microcode.Proofs.Outcomes
import Microcode.Proofs.Text.Words
/-!
# Written Files

What is found in a tree of files in which one file was written.

A path is followed through directories, and a directory may exist for no other reason than that
some file lies in it. So writing a file might in principle lead other paths astray. It does not:
directories stay where they are, since no file is ever taken away, and the file is written where
there was no directory. `Place.Becomes` says what a place turns into, and `locate_put` that paths
lead to the places that the old ones have turned into.

## Main definitions

* `Place.path?`: The path of the file that a place is, or for which it is vacant.
* `Place.Becomes`: What a place turns into when a file is written.
* `Path.isPlain`, `Path.IsName`: A character of a name, and a name that a file can have.
* `FileTree.Takes`: A file can be written at a path, and where it will lie.

## Theorems

* `find_cases`: What lies at a path, and why.
* `hasDirectory_put`: Directories stay.
* `find_put`, `enter_put`, `walk_put`, `locate_put`: What is found behind a write.
* `walk_concat`, `enter_cases`: Where the last name of a path leads.
* `target_of_isName`, `takes_of_isName`, `readText_of_isName`: The files of the working directory.
* `not_takes_of_long`: Names of files have an end.
* `writeText_of_takes`, `writeText_of_not_takes`: The effect of writing a text.
* `readText_put_of_ne`, `readText_put_self`: What is read behind a write.
* `changes_self`, `mem_changes_put`: What a write changes in the working directory.
-/

namespace Microcode

namespace Place

/-- The path of the file that a place is, or for which it is vacant. -/
def path? : Place → Option Path
  | .file path _ | .vacant path => some path
  | _ => none

/-- What a place turns into when a file is written. -/
inductive Becomes (q : Path) (c : Content) : Place → Place → Prop where
  | written (place : Place) (h : place.path? = some q) : Becomes q c place (.file q c)
  | file (p : Path) (c' : Content) (h : p ≠ q) : Becomes q c (.file p c') (.file p c')
  | directory (p : Path) : Becomes q c (.directory p) (.directory p)
  | device (d : Device) : Becomes q c (.device d) (.device d)

end Place

namespace Path

/-- A character that the names of files can hold. -/
def isPlain (c : Char) : Bool :=
  c != '/' && c != Char.ofNat 0

/-- A name that a file of a directory can have. -/
structure IsName (name : String) : Prop where
  plain : name.toList.all isPlain = true
  ne_empty : name ≠ ""
  ne_here : name ≠ "."
  ne_above : name ≠ ".."
  fits : name.utf8ByteSize ≤ 255

-- The names that are no names of files are short.
theorem ne_of_size (name : String) (h : 2 < name.utf8ByteSize) :
    name ≠ "" ∧ name ≠ "." ∧ name ≠ ".." := by
  refine ⟨?_, ?_, ?_⟩
  all_goals
    rintro rfl
    exact absurd h (by decide)

theorem IsName.of_size (name : String) (plain : name.toList.all isPlain = true)
    (hlow : 2 < name.utf8ByteSize) (fits : name.utf8ByteSize ≤ 255) : IsName name :=
  have hne := ne_of_size name hlow
  { plain, ne_empty := hne.1, ne_here := hne.2.1, ne_above := hne.2.2, fits }

/-- Plain characters are neither slashes nor zero. -/
theorem ne_of_plain (cs : List Char) (h : cs.all isPlain = true) (c : Char) (hc : c ∈ cs) :
    c ≠ '/' ∧ c ≠ Char.ofNat 0 := by
  have hplain := List.all_eq_true.mp h c hc
  rw [isPlain, Bool.and_eq_true, bne_iff_ne, bne_iff_ne] at hplain
  exact hplain

theorem IsName.free {name : String} (h : IsName name) : ∀ c ∈ name.toList, c ≠ '/' :=
  fun c hc => (ne_of_plain _ h.plain c hc).1

theorem filter_name (name : String) :
    [name].filter (· != "") = if name = "" then [] else [name] := by
  by_cases h : name = ""
  · rw [if_pos h, h]
    rfl
  · rw [if_neg h]
    refine List.filter_eq_self.mpr (fun n hn => ?_)
    rw [List.mem_singleton.mp hn]
    exact bne_iff_ne.mpr h

/-- Without slashes a path is one name. -/
theorem ofString_of_free (name : String) (h : ∀ c ∈ name.toList, c ≠ '/') (hne : name ≠ "") :
    ofString name = [name] := by
  rw [ofString, Text.pieces_of_free _ _ (fun c hc => beq_false_of_ne (h c hc)), List.map_singleton,
    String.ofList_toList, filter_name, if_neg hne]

theorem asksForDirectory_of_free (name : String) (h : ∀ c ∈ name.toList, c ≠ '/') :
    asksForDirectory name = false := by
  refine beq_false_of_ne (fun hlast => ?_)
  exact h '/' (List.mem_of_getLast? hlast) rfl

end Path

namespace FileTree

/-- A file can be written at a path, and this is where it will lie. -/
def Takes (t : FileTree) (path : String) (q : Path) : Prop :=
  ∃ place, t.target path = .ok place ∧ place.path? = some q

/-- A path takes a file at one place only. -/
theorem Takes.unique {t : FileTree} {path : String} {q q' : Path} (h : t.Takes path q)
    (h' : t.Takes path q') : q = q' := by
  rcases h with ⟨place, hplace, hq⟩
  rcases h' with ⟨place', hplace', hq'⟩
  cases hplace.symm.trans hplace'
  exact Option.some.inj (hq.symm.trans hq')

variable (t : FileTree)

/-- Whether a path takes a file can be computed. -/
theorem takes_iff (path : String) (q : Path) :
    t.Takes path q ↔ (t.target path).toOption.bind Place.path? = some q := by
  unfold Takes
  cases t.target path with
  | error e => exact iff_of_false (fun ⟨_, h, _⟩ => by cases h) (fun h => by cases h)
  | ok place =>
      constructor
      · rintro ⟨_, h, hq⟩
        cases h
        exact hq
      · exact fun hq => ⟨place, rfl, hq⟩

instance (path : String) (q : Path) : Decidable (t.Takes path q) :=
  decidable_of_iff' _ (t.takes_iff path q)

theorem find_of_device (p : Path) (d : Device) (h : Path.devices.lookup p = some d) :
    t.find p = .device d := by
  simp only [find, h]

theorem find_of_content (p : Path) (c : Content) (hd : Path.devices.lookup p = none)
    (hc : t.content? p = some c) : t.find p = .file p c := by
  simp only [find, hd, hc]

theorem find_of_directory (p : Path) (hd : Path.devices.lookup p = none)
    (hc : t.content? p = none) (h : t.hasDirectory p = true) : t.find p = .directory p := by
  simp only [find, hd, hc, h, if_true]

theorem find_of_vacant (p : Path) (hd : Path.devices.lookup p = none)
    (hc : t.content? p = none) (h : t.hasDirectory p = false) (hopen : Path.isOpen p = true) :
    t.find p = .vacant p := by
  simp only [find, hd, hc, h, hopen, Bool.false_eq_true, if_false, if_true]

/-- What lies at a path, and why. -/
theorem find_cases (p : Path) :
    (∃ d, Path.devices.lookup p = some d ∧ t.find p = .device d) ∨
    (Path.devices.lookup p = none ∧ ∃ c, t.content? p = some c ∧ t.find p = .file p c) ∨
    (Path.devices.lookup p = none ∧ t.content? p = none ∧ t.hasDirectory p = true ∧
      t.find p = .directory p) ∨
    (Path.devices.lookup p = none ∧ (t.find p = .vacant p ∨ t.find p = .absent)) := by
  cases hd : Path.devices.lookup p with
  | some d => exact Or.inl ⟨d, rfl, t.find_of_device p d hd⟩
  | none =>
      refine Or.inr ?_
      cases hc : t.content? p with
      | some c => exact Or.inl ⟨rfl, c, rfl, t.find_of_content p c hd hc⟩
      | none =>
          refine Or.inr ?_
          cases h : t.hasDirectory p with
          | true => exact Or.inl ⟨rfl, rfl, rfl, t.find_of_directory p hd hc h⟩
          | false =>
              refine Or.inr ⟨rfl, ?_⟩
              simp only [find, hd, hc, h, Bool.false_eq_true, if_false]
              split
              · exact Or.inl rfl
              · exact Or.inr rfl

/-- A file, or a place where one can be made, lies where it is found. -/
theorem eq_of_find_path? (p q : Path) (h : (t.find p).path? = some q) : p = q := by
  rcases t.find_cases p with ⟨d, _, hf⟩ | ⟨_, c, _, hf⟩ | ⟨_, _, _, hf⟩ | ⟨_, hf | hf⟩
  · rw [hf] at h; cases h
  · rw [hf] at h; cases h; rfl
  · rw [hf] at h; cases h
  · rw [hf] at h; cases h; rfl
  · rw [hf] at h; cases h

theorem lookup_of_find_device (p : Path) (d : Device) (h : t.find p = .device d) :
    Path.devices.lookup p = some d := by
  rcases t.find_cases p with ⟨d', hd, hf⟩ | ⟨_, c, _, hf⟩ | ⟨_, _, _, hf⟩ | ⟨_, hf | hf⟩
  · rw [hf] at h; cases h; exact hd
  · rw [hf] at h; cases h
  · rw [hf] at h; cases h
  · rw [hf] at h; cases h
  · rw [hf] at h; cases h

/-- Directories stay when a file is written: no file is taken away that lies in one. -/
theorem hasDirectory_put (q : Path) (c : Content) (p : Path) (h : t.hasDirectory p = true) :
    (t.put q c).hasDirectory p = true := by
  simp only [hasDirectory, Bool.or_eq_true, List.any_eq_true] at h ⊢
  refine h.imp_right (fun ⟨file, hmem, hin⟩ => ?_)
  by_cases hq : file.1 = q
  · refine ⟨(q, c), List.mem_cons_self, ?_⟩
    rw [← hq]
    exact hin
  · exact ⟨file, List.mem_cons_of_mem _ (List.mem_filter.mpr ⟨hmem, bne_iff_ne.mpr hq⟩), hin⟩

section Write

variable (q : Path) (c : Content) (hq : (t.find q).path? = some q)

include hq in
/-- A path leads to what the place there has become. -/
theorem find_put (p : Path) (place' : Place) (h : Place.Becomes q c (t.find p) place') :
    (t.put q c).find p = place' := by
  have hfree : Path.devices.lookup q = none ∧ t.find q ≠ .directory q := by
    rcases t.find_cases q with ⟨d, _, hf⟩ | ⟨hd, c', _, hf⟩ | ⟨_, _, _, hf⟩ | ⟨hd, hf | hf⟩
    · rw [hf] at hq; cases hq
    · exact ⟨hd, by rw [hf]; exact Place.noConfusion⟩
    · rw [hf] at hq; cases hq
    · exact ⟨hd, by rw [hf]; exact Place.noConfusion⟩
    · rw [hf] at hq; cases hq
  have hself : (t.put q c).find q = .file q c :=
    (t.put q c).find_of_content q c hfree.1 (t.content?_put_self q c)
  rcases t.find_cases p with ⟨d, hd, hf⟩ | ⟨hd, c', hc, hf⟩ | ⟨hd, hc, hdir, hf⟩ | ⟨hd, hf | hf⟩
  · rw [hf] at h
    cases h with
    | written _ hp => cases hp
    | device d => exact (t.put q c).find_of_device p d hd
  · rw [hf] at h
    cases h with
    | written _ hp => cases hp; exact hself
    | file _ _ hne =>
        exact (t.put q c).find_of_content p c' hd ((t.content?_put_of_ne c hne).trans hc)
  · rw [hf] at h
    cases h with
    | written _ hp => cases hp
    | directory _ =>
        -- The file was not written in place of a directory.
        have hne : p ≠ q := by
          rintro rfl
          exact hfree.2 hf
        exact (t.put q c).find_of_directory p hd ((t.content?_put_of_ne c hne).trans hc)
          (t.hasDirectory_put q c p hdir)
  · rw [hf] at h
    cases h with
    | written _ hp => cases hp; exact hself
  · rw [hf] at h
    cases h with
    | written _ hp => cases hp

include hq in
/-- A name leads to what the place there has become. -/
theorem enter_put (d : Path) (name : String) (place place' : Place)
    (h : t.enter (.directory d) name = .ok place) (hb : Place.Becomes q c place place') :
    (t.put q c).enter (.directory d) name = .ok place' := by
  unfold enter at h ⊢
  simp only at h ⊢
  -- Only a proper name can lead to the file that was written.
  by_cases hdot : name = "."
  · rw [if_pos hdot] at h ⊢
    cases h
    cases hb with
    | written _ hp => cases hp
    | directory _ => rfl
  · rw [if_neg hdot] at h ⊢
    by_cases hup : name = ".."
    · rw [if_pos hup] at h ⊢
      cases h
      cases hb with
      | written _ hp => cases hp
      | directory _ => rfl
    · rw [if_neg hup] at h ⊢
      by_cases hlong : 255 < name.utf8ByteSize
      · rw [if_pos hlong] at h
        cases h
      · rw [if_neg hlong] at h ⊢
        cases h
        rw [t.find_put q c hq _ place' hb]

include hq in
/-- Names lead to what the place at their end has become. -/
theorem walk_put (names : Path) (d : Path) (place place' : Place)
    (h : names.foldlM t.enter (.directory d) = .ok place) (hb : Place.Becomes q c place place') :
    names.foldlM (t.put q c).enter (.directory d) = .ok place' := by
  induction names generalizing d with
  | nil =>
      cases h
      cases hb with
      | written _ hp => cases hp
      | directory _ => rfl
  | cons name rest ih =>
      rw [List.foldlM_cons, bind_eq_ok_iff] at h ⊢
      rcases h with ⟨next, hnext, hrest⟩
      cases next with
      | directory d' => exact ⟨.directory d', t.enter_put q c hq d name _ _ hnext (.directory d'),
          ih d' hrest⟩
      | _ =>
          -- From anything but a directory no name leads on, so this is the end of the path.
          cases rest with
          | nil =>
              cases hrest
              exact ⟨place', t.enter_put q c hq d name _ _ hnext hb, rfl⟩
          | cons name' rest => cases hrest

include hq in
/-- A path leads to what the place at its end has become. -/
theorem locate_put (spelling : String) (names : Path) (place place' : Place)
    (h : t.locate spelling names = .ok place) (hb : Place.Becomes q c place place') :
    (t.put q c).locate spelling names = .ok place' := by
  unfold locate at h ⊢
  split at h
  · cases h
  · split at h
    · cases h
    · split at h
      · cases h
      · rename_i hzero hempty hlong
        rw [if_neg hzero, if_neg hempty, if_neg hlong]
        exact t.walk_put q c hq names _ place place' h hb

end Write

/-- The last name of a path is looked up in the directory that the names before it lead to. -/
theorem walk_concat (names : Path) (name : String) (start place : Place) :
    (names ++ [name]).foldlM t.enter start = .ok place ↔
      ∃ p, names.foldlM t.enter start = .ok p ∧ t.enter p name = .ok place := by
  rw [List.foldlM_append, bind_eq_ok_iff]
  refine exists_congr (fun p => and_congr_right (fun _ => ?_))
  rw [List.foldlM_cons, bind_eq_ok_iff]
  constructor
  · rintro ⟨p', hp', h⟩
    cases h
    exact hp'
  · intro h
    exact ⟨place, h, rfl⟩

/-- A name leads to a directory, or to what lies at it in the directory where it is looked up. -/
theorem enter_cases (p place : Place) (name : String) (h : t.enter p name = .ok place) :
    ∃ d, p = .directory d ∧
      ((∃ d', place = .directory d') ∨
        (name ≠ "." ∧ place = t.find (Path.target (d ++ [name])))) := by
  cases p with
  | directory d =>
      refine ⟨d, rfl, ?_⟩
      unfold enter at h
      simp only at h
      by_cases hdot : name = "."
      · rw [if_pos hdot] at h
        cases h
        exact Or.inl ⟨d, rfl⟩
      · rw [if_neg hdot] at h
        split at h
        · cases h
          exact Or.inl ⟨_, rfl⟩
        · split at h
          · cases h
          · cases h
            exact Or.inr ⟨hdot, rfl⟩
  | _ => cases h

/-- The place at the end of some names is the directory where they start or what was found last. -/
theorem walk_cases (names : Path) (d : Path) (place : Place)
    (h : names.foldlM t.enter (.directory d) = .ok place) :
    (∃ d', place = .directory d') ∨ ∃ p, place = t.find p := by
  rcases List.eq_nil_or_concat names with rfl | ⟨front, name, rfl⟩
  · cases h
    exact Or.inl ⟨d, rfl⟩
  · rw [List.concat_eq_append, t.walk_concat] at h
    rcases h with ⟨p, _, hp⟩
    rcases t.enter_cases p place name hp with ⟨d', _, hdir | ⟨_, hfind⟩⟩
    · exact Or.inl hdir
    · exact Or.inr ⟨_, hfind⟩

-- A path that leads somewhere has names that do.
theorem walk_of_locate (spelling : String) (names : Path) (place : Place)
    (h : t.locate spelling names = .ok place) :
    names.foldlM t.enter
      (.directory (if spelling.toList.head? = some '/' then [] else Path.working)) = .ok place := by
  unfold locate at h
  split at h
  · cases h
  · split at h
    · cases h
    · split at h
      · cases h
      · exact h

/-- A file that can be written lies where it is written. -/
theorem find_of_takes (path : String) (q : Path) (h : t.Takes path q) :
    (t.find q).path? = some q := by
  rcases h with ⟨place, hplace, hq⟩
  rcases t.walk_cases _ _ place (t.walk_of_locate _ _ place hplace) with ⟨d, rfl⟩ | ⟨p, rfl⟩
  · cases hq
  · have hpq := t.eq_of_find_path? p q hq
    rw [hpq] at hq
    exact hq

/-- The name of a file of the working directory leads to what lies there. -/
theorem target_of_isName (name : String) (h : Path.IsName name) :
    t.target name = .ok (t.find (Path.working ++ [name])) := by
  have hzero : name.toList.contains (Char.ofNat 0) = false := Bool.eq_false_iff.mpr
    (fun hc => (Path.ne_of_plain _ h.plain _ (List.contains_iff_mem.mp hc)).2 rfl)
  have hstart : name.toList.head? ≠ some '/' :=
    fun hhead => h.free '/' (List.mem_of_head? hhead) rfl
  have hfits := h.fits
  rw [target, Path.asksForDirectory_of_free name h.free, if_neg Bool.false_ne_true,
    Path.ofString_of_free name h.free h.ne_empty, locate, if_neg (by rw [hzero]; decide),
    if_neg (by rw [String.isEmpty_iff]; exact h.ne_empty), if_neg (by omega), if_neg hstart,
    List.foldlM_cons, enter, if_neg h.ne_here, if_neg h.ne_above, if_neg (by omega)]
  -- No link lies in the working directory.
  rfl

/-- A file of the working directory can be written if no directory is in its place. -/
theorem takes_of_isName (name : String) (h : Path.IsName name)
    (hdir : t.hasDirectory (Path.working ++ [name]) = false) :
    t.Takes name (Path.working ++ [name]) := by
  refine ⟨_, t.target_of_isName name h, ?_⟩
  cases hc : t.content? (Path.working ++ [name]) with
  | some c =>
      rw [t.find_of_content _ c rfl hc]
      rfl
  | none =>
      rw [t.find_of_vacant _ rfl hc hdir rfl]
      rfl

/-- No file can be written whose name is too long. -/
theorem not_takes_of_long (path : String) (front : Path) (name : String)
    (hnames : Path.ofString path = front ++ [name]) (hdir : Path.asksForDirectory path = false)
    (hlong : 255 < name.utf8ByteSize) (q : Path) : ¬ t.Takes path q := by
  rintro ⟨place, hplace, _⟩
  rw [target, hdir, if_neg Bool.false_ne_true, hnames] at hplace
  rcases (t.walk_concat _ _ _ _).mp (t.walk_of_locate _ _ _ hplace) with ⟨p, _, hlast⟩
  rcases t.enter_cases p place name hlast with ⟨d, rfl, _⟩
  have hne := Path.ne_of_size name (by omega)
  unfold enter at hlast
  simp only at hlast
  rw [if_neg hne.2.1, if_neg hne.2.2, if_pos hlong] at hlast
  cases hlast

/-- A path that does not end in a slash is read where it is written. -/
theorem source_eq_target (path : String) (h : Path.asksForDirectory path = false) :
    t.source path = t.target path := by
  rw [source, target, h, if_neg Bool.false_ne_true, if_neg Bool.false_ne_true, List.append_nil]

/-- A text of the working directory is read by its name. -/
theorem readText_of_isName (name s : String) (h : Path.IsName name)
    (hc : t.content? (Path.working ++ [name]) = some (.text s)) : t.readText name = .ok s := by
  rw [readText, t.source_eq_target name (Path.asksForDirectory_of_free name h.free),
    t.target_of_isName name h, t.find_of_content _ _ rfl hc]
  rfl

/-- What is written at a path is read there. -/
theorem readText_put_self (path : String) (q : Path) (s : String)
    (hdir : Path.asksForDirectory path = false) (h : t.Takes path q) :
    (t.put q (.text s)).readText path = .ok s := by
  have hq := t.find_of_takes path q h
  rcases h with ⟨place, hplace, hpath⟩
  have hsource : (t.put q (.text s)).source path = .ok (.file q (.text s)) := by
    rw [source_eq_target _ path hdir]
    exact t.locate_put q _ hq path _ place _ hplace (.written place hpath)
  rw [readText, hsource]
  rfl

/-- A text that is not read from the file that is written is read behind the write too. -/
theorem readText_put_of_ne (path : String) (q : Path) (c : Content) (s : String)
    (hq : (t.find q).path? = some q) (hread : t.readText path = .ok s)
    (hne : ∀ p c', t.source path = .ok (.file p c') → p ≠ q) :
    (t.put q c).readText path = .ok s := by
  rw [readText, bind_eq_ok_iff] at hread ⊢
  rcases hread with ⟨place, hplace, hs⟩
  refine ⟨place, ?_, hs⟩
  refine t.locate_put q c hq path _ place place hplace ?_
  cases place with
  | file p c' => exact .file p c' (hne p c' hplace)
  | device d => exact .device d
  | _ => cases hs

/-- A tree that stays as it is shows no changes. -/
theorem changes_self : t.changes t = [] := by
  rw [changes, List.filter_eq_nil_iff.mpr (fun file _ => by rw [bne_self_eq_false]; decide),
    List.map_nil]

theorem mem_inWorking (t : FileTree) (file : Path × Content) (h : file ∈ t.inWorking) :
    (Path.working ++ file.1, file.2) ∈ t.files := by
  rcases List.mem_filterMap.mp h with ⟨⟨path, content⟩, hmem, hsome⟩
  by_cases hprefix : Path.working.isPrefixOf path = true
  · simp only [if_pos hprefix, Option.some.injEq] at hsome
    rcases List.isPrefixOf_iff_prefix.mp hprefix with ⟨rest, rfl⟩
    rw [← hsome, List.drop_left]
    exact hmem
  · simp only [if_neg hprefix] at hsome
    cases hsome

/-- Writing a file changes at most that file. -/
theorem mem_changes_put (q : Path) (c : Content) (e : Path × String)
    (h : e ∈ t.changes (t.put q c)) : Path.working ++ e.1 = q ∧ e.2 = c.shown := by
  rcases List.mem_map.mp h with ⟨file, hfile, rfl⟩
  rcases List.mem_filter.mp hfile with ⟨hmem, hother⟩
  have hq : Path.working ++ file.1 = q := by
    refine Decidable.byContradiction (fun hne => ?_)
    rw [t.content?_put_of_ne c hne, bne_self_eq_false] at hother
    cases hother
  refine ⟨hq, congrArg Content.shown ?_⟩
  rcases List.mem_cons.mp (mem_inWorking _ file hmem) with heq | hold
  · exact (Prod.mk.inj heq).2
  · exact absurd hq (bne_iff_ne.mp (List.mem_filter.mp hold).2)

end FileTree

namespace Workspace

variable (w : Workspace) (path s : String)

/-- Writing to a path that takes a file puts the text there. -/
theorem writeText_of_takes (q : Path) (h : w.tree.Takes path q) :
    w.writeText path s = (.ok (), { w with tree := w.tree.put q (.text s) }) := by
  rcases h with ⟨place, hplace, hq⟩
  rw [writeText, write, hplace]
  cases place with
  | file p c => cases hq; rfl
  | vacant p => cases hq; rfl
  | _ => cases hq

/-- Writing to a path that leads to no file and no device fails. -/
theorem writeText_of_not_takes (h : ∀ q, ¬ w.tree.Takes path q)
    (hdevice : ∀ d, w.tree.target path ≠ .ok (.device d)) :
    ∃ e, w.writeText path s = (.error e, w) := by
  rw [writeText, write]
  cases hplace : w.tree.target path with
  | error e => exact ⟨e, rfl⟩
  | ok place =>
      cases place with
      | file p c => exact absurd ⟨_, hplace, rfl⟩ (h p)
      | vacant p => exact absurd ⟨_, hplace, rfl⟩ (h p)
      | device d => exact absurd hplace (hdevice d)
      | directory p => exact ⟨_, rfl⟩
      | absent => exact ⟨_, rfl⟩

end Workspace

end Microcode
