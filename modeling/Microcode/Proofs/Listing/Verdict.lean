import Mathlib.Data.List.Forall2
import Microcode.Proofs.Listing.Resolving
/-!
# The Verdict on a Listing

Which listings are assembled, into what, and what is reported of the others.

The assembler makes one pass and then patches the words that it has noted. The listing it reads
has a meaning that is stated without passes: what its lines say, where the counter stands in front
of each of them, and where each label is. `assemble_means` says that these are the words that come
out, and `assemble_verdict` that words come out of the listings that are valid and of no others,
and that of the others the first fault is reported.

What stands behind the last word is a case of its own. The labels there get the address that a
next word would have, so an `ORG` between or behind them moves all of them, and their address has
to be one like that of a word.

## Theorems

* `assemble_of_valid`: What is valid is assembled, into the words that it means.
* `assemble_of_blames`: What is to be blamed for something is reported for it.
* `assemble_means`: The words of a listing are what it says.
* `assemble_verdict`: A listing is assembled if it is valid, and else blamed for its first fault.
-/

namespace Microcode

open Listing

/-- What is valid is assembled, into the words that it means. -/
theorem assemble_of_valid (source : String) (program : List Statement)
    (hsaid : List.Forall₂ Says (numberedLines source) program) (hvalid : Valid program) :
    ∃ words, assemble source = .ok words ∧ Means program words := by
  rcases Assembly.read_of_sound (numberedLines source) program hsaid {} []
    Assembly.reflects_empty ((valid_iff program).mp hvalid).1 with ⟨a, ha, hreflects⟩
  rcases Assembly.finish_of_valid a program hreflects hvalid with ⟨b, hb, hmeans⟩
  exact ⟨_, (assemble_eq_ok_iff source _).mpr ⟨a, b, ha, hb, rfl⟩, hmeans⟩

/-- What is read is finished, and reported as its end is. -/
theorem assemble_of_finish (source : String) (a : Assembly) (e : AssemblyError)
    (ha : (numberedLines source).foldlM Assembly.line {} = .ok a) (h : a.finish = .error e) :
    assemble source = .error e := by
  rw [assemble, Assembly.ofSource, ha]
  change (a.finish).map _ = _
  rw [h]
  rfl

/-- What is to be blamed for something is reported for it. -/
theorem assemble_of_blames (source : String) (e : AssemblyError) (h : Blames source e) :
    assemble source = .error e := by
  cases h with
  | line before after numbered program _ hlines hsaid hsound hoffends =>
      rw [assemble, Assembly.ofSource, hlines,
        Assembly.read_of_offends before after numbered program e hsaid hsound hoffends]
      rfl
  | lastLabel program name n hsaid hsound hlast hfull =>
      rcases Assembly.read_of_sound (numberedLines source) program hsaid {} []
        Assembly.reflects_empty hsound with ⟨a, ha, hreflects⟩
      refine assemble_of_finish source a _ ha (a.finish_of_full name n ?_ ?_)
      · rw [hreflects.waiting]
        exact hlast
      · rw [hreflects.next]
        exact Nat.not_lt_of_le hfull
  | reference program before after s name hsaid hsound hclosed hsplit hfirst hname hundefined =>
      rcases Assembly.read_of_sound (numberedLines source) program hsaid {} []
        Assembly.reflects_empty hsound with ⟨a, ha, hreflects⟩
      exact assemble_of_finish source a _ ha (Assembly.finish_of_undefined a program before after s
        name hreflects hclosed hsplit hfirst hname hundefined)

/-- The words of a listing are what it says. The lines say one program, its labels are distinct,
    and the words of the listing, and no others, are what that program means: one for each line
    with a word, placed by the last `ORG`, labelled by the last label since the word before, and
    pointed at the labels that they refer to. -/
theorem assemble_means (source : String) (words : List MicroWord)
    (h : assemble source = .ok words) :
    ∃ program,
      (∀ other, List.Forall₂ Says (numberedLines source) other ↔ other = program) ∧
      (labelNames program).Nodup ∧ ∀ meant, Means program meant ↔ meant = words := by
  rcases valid_or_blames source with ⟨program, hsaid, hvalid⟩ | ⟨e, hblames⟩
  · rcases assemble_of_valid source program hsaid hvalid with ⟨words', hwords', hmeans⟩
    rw [h] at hwords'
    cases hwords'
    refine ⟨program, fun other => ⟨fun hother => ?_, ?_⟩, hvalid.distinct,
      fun meant => ⟨fun hmeant => ?_, ?_⟩⟩
    · exact List.right_unique_forall₂' (fun numbered s t => says_unique numbered s t) hother hsaid
    · rintro rfl
      exact hsaid
    · exact means_unique program meant words hvalid.distinct hmeant hmeans
    · rintro rfl
      exact hmeans
  · rw [assemble_of_blames source e hblames] at h
    cases h

/-- A listing in which the two labels of the first word stand in front of and behind an `ORG`, and
    which refers forward to a label behind the last word and back to one that is written with a
    letter that becomes two in capitals. -/
theorem assemble_means_interleaved :
    let source := "Straße:\n ORG 40 ; moves the label\nloop: 12 34 last\n ORG 10\n" ++
      " 56 78 STRASSE\nend:\n DE F0 xX\nlast:\n ORG 20"
    let words : List MicroWord := [
      { write := 1, read := 2, alu := 3, jump := 4, jumpAddress := 0x20,
        label := some "LOOP", address := some 0x40 },
      { write := 5, read := 6, alu := 7, jump := 8, jumpAddress := 0x40, address := some 0x10 },
      { write := 0xD, read := 0xE, alu := 0xF, jump := 0, jumpAddress := 0,
        label := some "END", address := some 0x11 }]
    assemble source = .ok words ∧ ∃ program,
      (∀ other, List.Forall₂ Says (numberedLines source) other ↔ other = program) ∧
      (labelNames program).Nodup ∧ ∀ meant, Means program meant ↔ meant = words := by
  intro source words
  have h : assemble source = .ok words := by decide +kernel
  exact ⟨h, assemble_means source words h⟩

/-- A listing is assembled if it is valid, and else blamed for its first fault: for the first line
    that offends, then for the last label if there is no address for it, and then for the first
    word that refers to no label. -/
theorem assemble_verdict (source : String) :
    ((∃ words, assemble source = .ok words) ↔
      ∃ program, List.Forall₂ Says (numberedLines source) program ∧ Valid program) ∧
    ∀ e, assemble source = .error e ↔ Blames source e := by
  refine ⟨⟨?_, ?_⟩, fun e => ⟨fun he => ?_, assemble_of_blames source e⟩⟩
  · rintro ⟨words, hwords⟩
    rcases valid_or_blames source with hvalid | ⟨e, hblames⟩
    · exact hvalid
    · rw [assemble_of_blames source e hblames] at hwords
      cases hwords
  · rintro ⟨program, hsaid, hvalid⟩
    rcases assemble_of_valid source program hsaid hvalid with ⟨words, hwords, _⟩
    exact ⟨words, hwords⟩
  · rcases valid_or_blames source with ⟨program, hsaid, hvalid⟩ | ⟨e', hblames⟩
    · rcases assemble_of_valid source program hsaid hvalid with ⟨words, hwords, _⟩
      rw [hwords] at he
      cases he
    · rw [assemble_of_blames source e' hblames] at he
      cases he
      exact hblames

-- The label of a line is looked at before the rest of it, and the line before later ones.
example : assemble "a: 00 00 nowhere\nA: 0 zz\n:" = .error (.duplicateLabel 2 "A") := by
  decide +kernel

end Microcode
