import Microcode.Proofs.Execution
import Microcode.Proofs.Histories
/-!
# What the Sequencer Remembers

The registers of the sequencer, said of the history of the machine.

The next address and the latches are those of the last word that was executed. The return
address is older: there is one register for it, which a call overwrites and nothing else does, so
it belongs to the last call however many words, returns among them, have been executed since.
Words that were rejected leave no trace in any of this, nor do exchanges of the store or the table.

What a return does follows from the same invariant, applied where the return was executed.

## Main definitions

* `ExecutedWord.codes`: The codes of an executed word, as the latches hold them.
* `ExecutedWord.isCall`, `ExecutedWord.isReturn`: The word called, or returned.
* `Remembers`: The sequencer and the cycle counter of a machine belong to a history.

## Theorems

* `remembers_start`: A fresh machine remembers nothing.
* `remembers_word`: An executed word is added to what is remembered.
* `remembers_rest`: Nothing else is.
* `next_of_return`: A return goes to the return address.
* `sequencer_remembers`: The sequencer of a machine belongs to its history.
-/

namespace Microcode

namespace ExecutedWord

/-- The codes of an executed word, as the latches hold them. -/
def codes (x : ExecutedWord) : Pipeline :=
  { write := x.word.write, read := x.word.read, alu := x.word.alu, jump := x.word.jump }

/-- The word called. -/
def isCall (x : ExecutedWord) : Bool :=
  x.condition? == some .call

/-- The word returned. -/
def isReturn (x : ExecutedWord) : Bool :=
  x.condition? == some .return

end ExecutedWord

/-- The sequencer and the cycle counter of a machine belong to a history: they tell of its last
    word, of its last call, and how many words there were. -/
structure Remembers (past : List ExecutedWord) (m : Machine) : Prop where
  mux : m.sequencer.mux = m.sequencer.mpc
  mpc : m.sequencer.mpc = past.getLast?.elim 0 (fun x => x.result.next)
  pipeline : m.sequencer.pipeline = past.getLast?.elim {} ExecutedWord.codes
  mrtn : m.sequencer.mrtn =
    (ExecutedWord.latest? ExecutedWord.isCall past).elim 0 (fun x => x.address + 1)
  cycles : m.cycles.toNat = past.length % UInt64.size

/-- The effect of an executed word on the sequencer and the cycle counter. -/
theorem advances_of_executed (x : ExecutedWord) :
    ∃ condition, x.condition? = some condition ∧
      Advances x.machine.sequencer x.after.sequencer x.word condition x.after.status ∧
      x.result.next = x.after.sequencer.mpc ∧ x.after.cycles = x.machine.cycles + 1 := by
  rcases performs_of_executed x with ⟨s, action, status, hs, _, hr, hm⟩
  refine ⟨s.condition, hs.condition, ?_, ?_, ?_⟩
  · rw [hm]
    exact advances_commit _ _ _ _
  · rw [hr, hm]
    rfl
  · rw [hm]

theorem remembers_start (m : Machine) (h : m.Fresh) : Remembers [] m := by
  refine ⟨?_, ?_, ?_, ?_, ?_⟩
  · rw [h.sequencer]
  · rw [h.sequencer]; rfl
  · rw [h.sequencer]; rfl
  · rw [h.sequencer]; rfl
  · rw [h.cycles]; rfl

/-- An executed word is added to what is remembered. -/
theorem remembers_word (past : List ExecutedWord) (x : ExecutedWord)
    (h : Remembers past x.machine) : Remembers (past ++ [x]) x.after := by
  rcases advances_of_executed x with ⟨condition, hc, hadv, hnext, hcycles⟩
  refine ⟨hadv.mux, ?_, ?_, ?_, ?_⟩
  · rw [List.getLast?_concat, Option.elim_some, hnext]
  · rw [List.getLast?_concat, Option.elim_some, hadv.pipeline]
    rfl
  · -- Only a call replaces the return address, and only a call joins the calls of the history.
    have hx : x.isCall = true ↔ condition = .call := by
      rw [ExecutedWord.isCall, hc, beq_iff_eq, Option.some.injEq]
    rw [hadv.mrtn, ExecutedWord.latest?_concat]
    by_cases hcall : condition = .call
    · rw [if_pos hcall, if_pos (hx.mpr hcall)]
      rfl
    · rw [if_neg hcall, if_neg (fun h => hcall (hx.mp h)), h.mrtn]
  · rw [hcycles, UInt64.toNat_add, h.cycles, List.length_append, Nat.mod_add_mod]
    rfl

/-- While a machine rests, it remembers the same. -/
theorem remembers_rest (past : List ExecutedWord) (m m' : Machine) (hrest : m.Rests m')
    (h : Remembers past m) : Remembers past m' := by
  refine ⟨?_, ?_, ?_, ?_, ?_⟩
  · rw [hrest.sequencer, h.mux]
  · rw [hrest.sequencer, h.mpc]
  · rw [hrest.sequencer, h.pipeline]
  · rw [hrest.sequencer, h.mrtn]
  · rw [hrest.cycles, h.cycles]

/-- A return goes to the return address, which is the one that it found. -/
theorem next_of_return (x : ExecutedWord) (h : x.isReturn = true) :
    x.result.next = x.machine.sequencer.mrtn := by
  rcases advances_of_executed x with ⟨condition, hc, hadv, hnext, _⟩
  rw [ExecutedWord.isReturn, hc, beq_iff_eq, Option.some.injEq] at h
  subst h
  rw [hnext, hadv.jumps trivial]
  rfl

/-- After any operations on a fresh machine the sequencer belongs to the history. The next address
    and the latches are those of the last word that was executed, the return address follows the
    last call, and the cycles are the executed words. So a return with no other call since a call
    goes to the address behind that call, whatever else has been executed or rejected between. -/
theorem sequencer_remembers (m : Machine) (hm : m.Fresh) (ops : List Operation) :
    Remembers (m.history ops) (m.operateAll ops) ∧
    ∀ earlier call between ret later,
      m.history ops = earlier ++ call :: (between ++ ret :: later) →
      call.isCall = true → (∀ x ∈ between, x.isCall = false) → ret.isReturn = true →
      ret.result.next = call.address + 1 := by
  have hstart : Remembers [] m := remembers_start m hm
  refine ⟨Machine.history_induction hstart remembers_word remembers_rest ops, ?_⟩
  intro earlier call between ret later h hcall hbetween hret
  rw [← List.cons_append, ← List.append_assoc] at h
  have hbefore : Remembers (earlier ++ call :: between) ret.machine :=
    Machine.history_split hstart remembers_word remembers_rest ops _ ret later h
  rw [next_of_return ret hret, hbefore.mrtn,
    ExecutedWord.latest?_of_split _ _ _ _ hcall hbetween]
  rfl

/-- A word that is rejected, a jump, a call from the last address, a word that falls through, and a
    return under a table in which the code of the call means nothing. -/
theorem sequencer_remembers_wrapped :
    let unused : MicroWord := { write := 12, read := 0, alu := 0, jump := 2, jumpAddress := 0 }
    let jump : MicroWord := { write := 0, read := 0, alu := 0, jump := 1, jumpAddress := 0xFF }
    let call : MicroWord := { write := 0, read := 0, alu := 0, jump := 2, jumpAddress := 0x40 }
    let idle : MicroWord := { write := 0, read := 0, alu := 0, jump := 0, jumpAddress := 0 }
    let ret : MicroWord := { write := 0, read := 0, alu := 0, jump := 3, jumpAddress := 0x77 }
    let table : ControlTable :=
      { ControlTable.builtin with jump := (Vector.replicate 16 .fallThrough).set 3 .return }
    let m : Machine := Machine.reset { cycles := 7, sequencer := { mrtn := 9, mpc := 5 } }
    let ops : List Operation :=
      [.step unused, .step jump, .step call, .step idle, .drive true, .exchange table, .step ret]
    m.Fresh ∧ Remembers (m.history ops) (m.operateAll ops) ∧
      ∃ earlier c between r, m.history ops = earlier ++ c :: (between ++ r :: []) ∧
        c.isCall = true ∧ (∀ x ∈ between, x.isCall = false) ∧ r.isReturn = true ∧
        c.address = 0xFF ∧ r.result.next = c.address + 1 := by
  intro unused jump call idle ret table m ops
  have hm : m.Fresh := .reset _
  have hwords := sequencer_remembers m hm ops
  let jumped : ExecutedWord := ⟨m, jump, _, rfl⟩
  let called : ExecutedWord := ⟨jumped.after, call, _, rfl⟩
  let idled : ExecutedWord := ⟨called.after, idle, _, rfl⟩
  let returned : ExecutedWord :=
    ⟨{ idled.after.setDataNotAvailable true with table }, ret, _, rfl⟩
  have hsplit : m.history ops = [jumped] ++ called :: ([idled] ++ returned :: []) := by
    have hunused : m.history ops = m.history (ops.drop 1) :=
      m.history_of_none (.step unused) _ (m.attempt?_of_error unused _ rfl)
    have hjump : m.history (ops.drop 1) = jumped :: jumped.after.history (ops.drop 2) :=
      Machine.history_of_executed jumped _
    have hcall : jumped.after.history (ops.drop 2) = called :: called.after.history (ops.drop 3) :=
      Machine.history_of_executed called _
    have hidle : called.after.history (ops.drop 3) = idled :: idled.after.history (ops.drop 4) :=
      Machine.history_of_executed idled _
    have hdrive : idled.after.history (ops.drop 4) =
        (idled.after.setDataNotAvailable true).history (ops.drop 5) :=
      idled.after.history_of_none (.drive true) _ rfl
    have hexchange : (idled.after.setDataNotAvailable true).history (ops.drop 5) =
        returned.machine.history [.step ret] :=
      (idled.after.setDataNotAvailable true).history_of_none (.exchange table) _ rfl
    have hret : returned.machine.history [.step ret] = [returned] :=
      Machine.history_of_executed returned []
    rw [hunused, hjump, hcall, hidle, hdrive, hexchange, hret]
    rfl
  have hbetween : ∀ x ∈ [idled], x.isCall = false := by
    intro x hx
    rw [List.mem_singleton.mp hx]
    rfl
  exact ⟨hm, hwords.1, [jumped], called, [idled], returned, hsplit, rfl, hbetween, rfl, rfl,
    hwords.2 _ _ _ _ _ hsplit rfl hbetween rfl⟩

end Microcode
