import Microcode.Proofs.Flags
import Microcode.Proofs.Listing.Vocabulary
import Microcode.Proofs.Rejection
/-!
# Executing the Notation

The register-transfer notation as a programming language of its own.

The notation is printed by a decoder that knows nothing of the executor. It leaves out whatever
it takes to be irrelevant: the source of a function that does not look at B, the jump address of
a return, the codes of a word that only counts. To tell that nothing else was lost, the notation
gets a meaning that looks at its words alone, without the microinstruction or the control table.
`Machine.planOf?` is this meaning, and `planOf?_disassembleWord` says that reading the notation
of a word comes to the plan that the machine makes for the word itself.

Words with the same notation have the same meaning then. All that they may leave different are
the pipeline latches, which hold their codes.

## Main definitions

* `registerOf?`, `term?`, `value?`: The meaning of a name, of a term and of an expression.
* `Machine.effect?`: The meaning of the first half.
* `Sequencer.next?`: The meaning of the second half.
* `Machine.planOf?`: The meaning of the whole notation.
* `Machine.SameButLatches`: Two machines differ at most in their latches.

## Theorems

* `value?_spelled_iff`: The value of an expression is that of its function.
* `ofWord?_of_selects`: The notation decodes in the order of the executor.
* `effect?_iff_performs`: The first half means what the word performs.
* `next?_spelled`: The second half means the address that the sequencer resolves.
* `planOf?_disassembleWord`: The notation means the plan of the word.
* `unquestioned_disassembleWord`: The notation of a word that is executed has no question mark.
* `step_of_plan`: Words with the same plan do the same, but for the latches.
* `text_determines_step`: Words with the same notation do the same.
-/

namespace Microcode

/-- The register that a word names. -/
def registerOf? (word : String) : Option Register :=
  Register.all.find? (fun r => r.name == word)

/-- The byte that a term stands for: a constant or the contents of a register. -/
def term? (f : RegisterFile) (word : String) : Option UInt8 :=
  if word = "0" then some 0
  else if word = "1" then some 1
  else if word = "-1" then some 0xFF
  else (registerOf? word).map f.get

/-- The number that an operator makes of two bytes. -/
def combine? (operator : String) (x y : UInt8) : Option Int :=
  if operator = "and" then some (x &&& y).toNat
  else if operator = "or" then some (x ||| y).toNat
  else if operator = "xor" then some (x ^^^ y).toNat
  else if operator = "+" then some (x.toNat + y.toNat)
  else if operator = "-" then some (x.toNat - y.toNat)
  else none

/-- The number that an expression stands for. -/
def value? (f : RegisterFile) : List String → Option Int
  | [x] => (term? f x).map (fun x => (x.toNat : Int))
  | [operator, x] => if operator = "not" then (term? f x).map (fun x => 255 - x.toNat) else none
  | [x, operator, y] => do combine? operator (← term? f x) (← term? f y)
  | [x, operator, y, last, z] => do
    let value ← combine? operator (← term? f x) (← term? f y)
    let z ← term? f z
    if last = "+" then some (value + z.toNat)
    else if last = "-" then some (value - z.toNat)
    else none
  | _ => none

/-- What the first half makes of the registers, and the flags that it leaves. -/
def Machine.effect? (m : Machine) : List String → Option (Action × StatusWord)
  | ["MAR++,", "PC++"] => some (.incrementPcMar, m.status)
  | ["PC++"] => some (.incrementPc, m.status)
  | ["MAR++"] => some (.incrementMar, m.status)
  | ["--"] => some (.idle, m.status)
  | name :: ":=" :: expression => do
    let destination ← registerOf? name
    let value ← value? m.registers expression
    return (.transfer destination (lowByte value), .ofValue value m.status.dataNotAvailable)
  | _ => none

/-- Where the second half goes on, under the flags that the first half leaves. -/
def Sequencer.next? (s : Sequencer) (status : StatusWord) : List String → Option NextAddress
  | [] => some (s.resolve .fallThrough 0 status)
  | [";", "RTN"] => some (s.resolve .return 0 status)
  | [";", "OPCODE-IN"] => some (s.resolve .opcodeIn 0 status)
  | [";", "JUMP", address] =>
    (Text.readHexByte? address.toList).map (s.resolve .always · status)
  | [";", "CALL", address] => (Text.readHexByte? address.toList).map (s.resolve .call · status)
  | [";", "JUMP", name, address] => do
    let condition ← JumpCondition.all.find? (fun condition => condition.name == name)
    let target ← Text.readHexByte? address.toList
    return s.resolve condition target status
  | _ => none

/-- What the words of a notation make a machine do. -/
def Machine.planOf? (m : Machine) (words : List String) : Option Plan := do
  let (action, status) ← m.effect? (words.takeWhile (· ≠ ";"))
  let next ← m.sequencer.next? status (words.dropWhile (· ≠ ";"))
  return { action, status, next }

/-- Two machines differ at most in their latches. -/
structure Machine.SameButLatches (m m' : Machine) : Prop where
  registers : m.registers = m'.registers
  status : m.status = m'.status
  mpc : m.sequencer.mpc = m'.sequencer.mpc
  mux : m.sequencer.mux = m'.sequencer.mux
  mrtn : m.sequencer.mrtn = m'.sequencer.mrtn
  cycles : m.cycles = m'.cycles
  store : m.store = m'.store
  table : m.table = m'.table

-- A slot is written by its name, which names a register only if the slot is one.
theorem registerOf?_slotText (slot : Slot) :
    registerOf? (DataPath.slotText slot) = slot.register? := by
  cases slot with
  | reg r => cases r <;> rfl
  | _ => rfl

theorem term?_slotText (f : RegisterFile) (slot : Slot) :
    term? f (DataPath.slotText slot) = slot.register?.map f.get := by
  cases slot with
  | reg r => cases r <;> rfl
  | _ => rfl

/-- An expression stands for the number that its function computes, if the source has a value or
    the function does not look at it. -/
theorem value?_spelled (g : RegisterFile) (f : AluFunction) (source : String) :
    value? g (f.spelled source) =
      if f.needsB then (term? g source).map (f.value (g.get .aluIn))
      else some (f.value (g.get .aluIn) 0) := by
  have ha : term? g "ALUin" = some (g.get .aluIn) := rfl
  have hone : term? g "1" = some 1 := rfl
  cases f with
  | passB | passA | notA | one | zero | minusOne => rfl
  | aPlus1 | aMinus1 => simp [AluFunction.spelled, value?, ha, hone]; rfl
  | _ => cases hs : term? g source <;> simp [AluFunction.spelled, value?, ha, hone, hs] <;> rfl

/-- The value of an expression is that of its function, for an operand that the executor would
    take. -/
theorem value?_spelled_iff (g : RegisterFile) (f : AluFunction) (source : Slot) (value : Int) :
    value? g (f.spelled (DataPath.slotText source)) = some value ↔
      ∃ b, Operand g f source b ∧ value = f.value (g.get .aluIn) b := by
  rw [value?_spelled, term?_slotText]
  constructor
  · intro h
    cases hb : f.needsB with
    | true =>
        rw [hb, if_pos rfl, Option.map_map, Option.map_eq_some_iff] at h
        rcases h with ⟨r, hr, hvalue⟩
        cases source with
        | reg r' =>
            cases hr
            exact ⟨g.get r, .register r, hvalue.symm⟩
        | _ => cases hr
    | false =>
        rw [hb, if_neg Bool.false_ne_true, Option.some.injEq] at h
        -- The executor takes the register of the slot, if there is one, and it does not matter.
        cases source with
        | reg r => exact ⟨g.get r, .register r, h ▸ f.value_congr hb _ _ _⟩
        | _ => exact ⟨0, .ignored _ rfl hb, h.symm⟩
  · rintro ⟨b, hoperand, rfl⟩
    cases hoperand with
    | register r =>
        cases hb : f.needsB with
        | true => rfl
        | false => exact congrArg some (f.value_congr hb _ _ _)
    | ignored _ hslot hb => rw [hb, if_neg Bool.false_ne_true]

/-- The notation decodes in the order of the executor: counting both comes first, the read slot
    counts whatever the write slot selects, and only then does a write matter. -/
theorem ofWord?_of_selects (t : ControlTable) (word : MicroWord) (s : Selected)
    (hs : Selects t word s) :
    DataPath.ofWord? t word =
      if s.write = .incPcMar ∨ s.read = .incPcMar then some .incrementPcMar
      else if s.read = .incPc then some .incrementPc
      else if s.read = .incMar then some .incrementMar
      else if s.write = .nop then some .idle
      else (t.decodeAlu word.alu).toOption.map (DataPath.assign s.write · s.read) := by
  have hw : t.decodeWrite word.write = .ok s.write :=
    (ControlTable.entry_eq_ok_iff _ _ _ _).mpr hs.write
  have hr : t.decodeRead word.read = .ok s.read :=
    (ControlTable.entry_eq_ok_iff _ _ _ _).mpr hs.read
  unfold DataPath.ofWord?
  rw [hw, hr]
  cases s.write <;> cases s.read <;> cases t.decodeAlu word.alu <;> rfl

theorem ofWord?_of_not_counts (t : ControlTable) (word : MicroWord) (s : Selected)
    (hs : Selects t word s) (hn : ¬ s.Counts) :
    DataPath.ofWord? t word =
      if s.write = .nop then some .idle
      else (t.decodeAlu word.alu).toOption.map (DataPath.assign s.write · s.read) := by
  simp only [Selected.Counts, not_or] at hn
  rw [ofWord?_of_selects t word s hs]
  simp only [hn.1, hn.2.1, hn.2.2.1, hn.2.2.2, or_self, if_false]

/-- A first half decodes only if the write and the read code do. -/
theorem rows_of_ofWord? (t : ControlTable) (word : MicroWord) (path : DataPath)
    (h : DataPath.ofWord? t word = some path) :
    ∃ write read, t.write[word.write.toNat]? = some write ∧
      t.read[word.read.toNat]? = some read := by
  unfold DataPath.ofWord? at h
  cases hw : t.decodeWrite word.write with
  | error e => rw [hw] at h; cases h
  | ok write =>
      cases hr : t.decodeRead word.read with
      | error e =>
          rw [hw, hr] at h
          cases write <;> cases h
      | ok read =>
          exact ⟨write, read, (ControlTable.entry_eq_ok_iff _ _ _ _).mp hw,
            (ControlTable.entry_eq_ok_iff _ _ _ _).mp hr⟩

/-- An assignment means a transfer: its destination has to be a register, and its function has to
    have an operand. -/
theorem effect?_assign_iff (m : Machine) (destination : Slot) (f : AluFunction) (source : Slot)
    (action : Action) (status : StatusWord) :
    m.effect? (DataPath.assign destination f source).spelled = some (action, status) ↔
      ∃ r b, destination = .reg r ∧ Operand m.registers f source b ∧
        action = .transfer r (f.evaluate (m.registers.get .aluIn) b m.status).1 ∧
        status = (f.evaluate (m.registers.get .aluIn) b m.status).2 := by
  have heffect : m.effect? (DataPath.assign destination f source).spelled = (do
      let destination ← registerOf? (DataPath.slotText destination)
      let value ← value? m.registers (f.spelled (DataPath.slotText source))
      return (.transfer destination (lowByte value),
        .ofValue value m.status.dataNotAvailable)) := by
    cases destination with
    | reg r => cases r <;> rfl
    | _ => rfl
  rw [heffect, registerOf?_slotText]
  simp only [bind, pure, Option.bind_eq_some_iff, value?_spelled_iff, Option.some.injEq,
    Prod.mk.injEq]
  constructor
  · rintro ⟨r, hr, value, ⟨b, hb, rfl⟩, rfl, rfl⟩
    cases destination with
    | reg d =>
        cases hr
        exact ⟨r, b, rfl, hb, rfl, rfl⟩
    | _ => cases hr
  · rintro ⟨r, b, rfl, hb, rfl, rfl⟩
    exact ⟨r, rfl, _, ⟨b, hb, rfl⟩, rfl, rfl⟩

/-- The first half means what the word performs. -/
theorem effect?_iff_performs (m : Machine) (word : MicroWord) (s : Selected) (action : Action)
    (status : StatusWord) (hs : Selects m.table word s) :
    (∃ path, DataPath.ofWord? m.table word = some path ∧
      m.effect? path.spelled = some (action, status)) ↔ Performs m word s action status := by
  have hof := ofWord?_of_selects m.table word s hs
  constructor
  · rintro ⟨path, hpath, heffect⟩
    -- The counts come first: a word that counts assigns nothing, whatever its ALU code.
    rcases s.increment?_cases with ⟨hb, _⟩ | ⟨hw, hr, _⟩ | ⟨hw, hr, _⟩ | ⟨hn, _⟩
    · rw [hof, if_pos hb] at hpath
      cases hpath
      cases heffect
      exact .both hb
    · simp only [hof, hw, hr, reduceCtorEq, or_self, if_false, if_true] at hpath
      cases hpath
      cases heffect
      exact .pc hw hr
    · simp only [hof, hw, hr, reduceCtorEq, or_self, if_false, if_true] at hpath
      cases hpath
      cases heffect
      exact .mar hw hr
    · rw [ofWord?_of_not_counts m.table word s hs hn] at hpath
      by_cases hw : s.write = .nop
      · rw [if_pos hw] at hpath
        cases hpath
        cases heffect
        exact .idle hn hw
      · rw [if_neg hw] at hpath
        cases hf : m.table.decodeAlu word.alu with
        | error e => rw [hf] at hpath; cases hpath
        | ok f =>
            rw [hf] at hpath
            cases hpath
            rcases (effect?_assign_iff m _ f _ _ _).mp heffect with ⟨r, b, hr, hb, rfl, rfl⟩
            exact .transfer r f b hn hr ((ControlTable.decodeAlu_eq_ok_iff _ _ _).mp hf) hb
  · intro hp
    cases hp with
    | both hb => exact ⟨_, hof.trans (if_pos hb), rfl⟩
    | pc hw hr =>
        refine ⟨.incrementPc, ?_, rfl⟩
        simp only [hof, hw, hr, reduceCtorEq, or_self, if_false, if_true]
    | mar hw hr =>
        refine ⟨.incrementMar, ?_, rfl⟩
        simp only [hof, hw, hr, reduceCtorEq, or_self, if_false, if_true]
    | idle hn hw =>
        exact ⟨_, (ofWord?_of_not_counts m.table word s hs hn).trans (if_pos hw), rfl⟩
    | transfer d f b hn hw hf hb =>
        refine ⟨.assign s.write f s.read, ?_, ?_⟩
        · rw [ofWord?_of_not_counts m.table word s hs hn, hw,
            (ControlTable.decodeAlu_eq_ok_iff _ _ _).mpr hf]
          rfl
        · exact (effect?_assign_iff m _ f _ _ _).mpr ⟨d, b, hw, hb, rfl, rfl⟩

/-- The second half means the address that the sequencer resolves. Where the address is not
    printed, it does not matter. -/
theorem next?_spelled (s : Sequencer) (status : StatusWord) (condition : JumpCondition)
    (address : UInt8) :
    s.next? status (condition.spelled address) = some (s.resolve condition address status) := by
  have hread : Text.readHexByte? (Text.hexByte address).toList = some address :=
    Text.readHexByte?_hexByte address
  cases condition with
  | fallThrough | «return» | opcodeIn => rfl
  | always | call => simp only [JumpCondition.spelled, Sequencer.next?, hread, Option.map_some]
  | _ =>
      simp only [JumpCondition.spelled, Sequencer.next?, hread]
      rfl

-- The semicolon divides the words.
theorem planOf?_append (m : Machine) (first second : List String)
    (hfirst : ∀ w, w ∈ first → w ≠ ";") (hsecond : second.takeWhile (· ≠ ";") = []) :
    m.planOf? (first ++ second) = (do
      let (action, status) ← m.effect? first
      let next ← m.sequencer.next? status second
      return { action, status, next }) := by
  have hword : ∀ w, w ∈ first → decide (w ≠ ";") = true := fun w hw => decide_eq_true (hfirst w hw)
  have hdrop : second.dropWhile (· ≠ ";") = second := by
    have hsplit := List.takeWhile_append_dropWhile (p := (· ≠ ";")) (l := second)
    rwa [hsecond, List.nil_append] at hsplit
  rw [Machine.planOf?, List.takeWhile_append_of_pos hword, List.dropWhile_append_of_pos hword,
    hsecond, hdrop, List.append_nil]

theorem planOf?_of_decodes (m : Machine) (word : MicroWord) (path : DataPath)
    (condition : JumpCondition) (hp : DataPath.ofWord? m.table word = some path)
    (hc : m.table.decodeJump word.jump = .ok condition) :
    m.planOf? (Text.strings (disassembleWord word m.table)) =
      (m.effect? path.spelled).map (fun effect =>
        m.planned word condition effect.1 effect.2) := by
  have hsecond : (condition.spelled word.jumpAddress).takeWhile (· ≠ ";") = [] := by
    cases condition <;> rfl
  rw [strings_disassembleWord m.table word path condition hp hc,
    planOf?_append m _ _ (fun w hw => (spelled_dataPath path w hw).1) hsecond]
  cases m.effect? path.spelled with
  | none => rfl
  | some effect =>
      simp only [bind, Option.bind_some, next?_spelled]
      rfl

/-- What does not decode has no meaning. -/
theorem planOf?_of_unknown (m : Machine) (word : MicroWord)
    (h : DataPath.ofWord? m.table word = none ∨ ∃ e, m.table.decodeJump word.jump = .error e) :
    m.planOf? (Text.strings (disassembleWord word m.table)) = none := by
  unfold disassembleWord
  cases hp : DataPath.ofWord? m.table word with
  | none =>
      have hcut : "??? ; " ++ word.text = "??? ;" ++ " " ++ word.text := by
        rw [String.append_assoc, ← String.append_assoc]
        rfl
      have hfirst : Text.strings "??? ;" = ["???"] ++ [";"] := by decide
      simp only [hcut]
      rw [Text.strings_join, hfirst, List.append_assoc,
        planOf?_append m ["???"] _ (by decide) rfl]
      rfl
  | some path =>
      rcases h with hnone | ⟨e, he⟩
      · rw [hp] at hnone
        cases hnone
      · have hcut : path.text ++ " ; ???" = path.text ++ " " ++ "; ???" := by
          rw [String.append_assoc]
          rfl
        have hsecond : Text.strings "; ???" = [";", "???"] := by decide
        simp only [he, hcut]
        rw [Text.strings_join, strings_dataPath, hsecond,
          planOf?_append m _ _ (fun w hw => (spelled_dataPath path w hw).1) rfl]
        cases m.effect? path.spelled <;> rfl

/-- The notation of a word means the plan that the machine makes for the word. -/
theorem planOf?_disassembleWord (m : Machine) (word : MicroWord) :
    m.planOf? (Text.strings (disassembleWord word m.table)) = (m.plan word).1.toOption := by
  have hok : ∀ p, (m.plan word).1.toOption = some p ↔ (m.plan word).1 = .ok p := by
    intro p
    cases (m.plan word).1 with
    | error e => simp only [Except.toOption, reduceCtorEq]
    | ok q => simp only [Except.toOption, Option.some.injEq, Except.ok.injEq]
  refine Option.ext (fun p => ?_)
  rw [hok]
  constructor
  · intro h
    cases hp : DataPath.ofWord? m.table word with
    | none =>
        rw [planOf?_of_unknown m word (.inl hp)] at h
        cases h
    | some path =>
        cases hc : m.table.decodeJump word.jump with
        | error e =>
            rw [planOf?_of_unknown m word (.inr ⟨e, hc⟩)] at h
            cases h
        | ok condition =>
            rw [planOf?_of_decodes m word path condition hp hc, Option.map_eq_some_iff] at h
            rcases h with ⟨⟨action, status⟩, heffect, rfl⟩
            rcases rows_of_ofWord? m.table word path hp with ⟨write, read, hw, hr⟩
            have hs : Selects m.table word ⟨write, read, condition⟩ :=
              ⟨hw, hr, (ControlTable.entry_eq_ok_iff _ _ _ _).mp hc⟩
            exact m.plan_of_performs word _ action status hs
              ((effect?_iff_performs m word _ action status hs).mp ⟨path, hp, heffect⟩)
  · intro h
    rcases m.performs_of_plan word p h with ⟨s, action, status, hs, hperforms, rfl⟩
    rcases (effect?_iff_performs m word s action status hs).mpr hperforms with
      ⟨path, hp, heffect⟩
    have hc : m.table.decodeJump word.jump = .ok s.condition :=
      (ControlTable.entry_eq_ok_iff _ _ _ _).mpr hs.condition
    rw [planOf?_of_decodes m word path s.condition hp hc, heffect]
    rfl

/-- The notation of a word that is executed has no question mark. -/
theorem unquestioned_disassembleWord (m : Machine) (word : MicroWord) (p : Plan)
    (h : (m.plan word).1 = .ok p) : '?' ∉ (disassembleWord word m.table).toList := by
  intro hmem
  rcases m.performs_of_plan word p h with ⟨s, action, status, hs, hperforms, _⟩
  rcases (effect?_iff_performs m word s action status hs).mpr hperforms with ⟨path, hp, _⟩
  have hc : m.table.decodeJump word.jump = .ok s.condition :=
    (ControlTable.entry_eq_ok_iff _ _ _ _).mpr hs.condition
  -- The mark would be in one of the words.
  rcases Text.mem_words_of_mem _ '?' hmem (by decide) with ⟨w, hw, hmark⟩
  have hstrings : String.ofList w ∈ Text.strings (disassembleWord word m.table) :=
    List.mem_map_of_mem hw
  have hquestion : ¬ Unquestioned (String.ofList w) := by
    rw [Unquestioned, String.toList_ofList]
    exact fun hfree => hfree hmark
  rw [strings_disassembleWord m.table word path s.condition hp hc, List.mem_append] at hstrings
  rcases hstrings with hfirst | hsecond
  · exact hquestion (spelled_dataPath path _ hfirst).2
  · exact hquestion (spelled_condition s.condition word.jumpAddress _ hsecond)

namespace Machine

/-- What a step leaves behind, but for the latches, is a matter of the plan. -/
theorem step_of_plan (m : Machine) (word word' : MicroWord) (p : Plan)
    (h : (m.plan word).1 = .ok p) (h' : (m.plan word').1 = .ok p) :
    ∃ r, (m.step word).result = .ok r ∧ (m.step word').result = .ok r ∧
      (m.step word).machine.SameButLatches (m.step word').machine := by
  unfold step
  rcases hplan : m.plan word with ⟨_ | q, log⟩
  · rw [hplan] at h; cases h
  · rcases hplan' : m.plan word' with ⟨_ | q', log'⟩
    · rw [hplan'] at h'; cases h'
    · rw [hplan] at h
      rw [hplan'] at h'
      cases h
      cases h'
      exact ⟨_, rfl, rfl, ⟨rfl, rfl, rfl, rfl, rfl, rfl, rfl, rfl⟩⟩

theorem step_of_plan_error (m : Machine) (word : MicroWord) (e : StepError)
    (h : (m.plan word).1 = .error e) : (m.step word).result = .error e :=
  (m.step_eq_error_iff word e).mpr ((m.plan_eq_error_iff word e).mp h)

end Machine

/-- The notation of a word determines what the word does. Of two words with the same notation
    either both are rejected, or both are executed with the same outcome, and the machines differ
    in nothing but the latches. A word whose notation has three question marks in it is
    rejected. -/
theorem text_determines_step (m : Machine) :
    (∀ word word', disassembleWord word m.table = disassembleWord word' m.table →
      (∃ e e', (m.step word).result = .error e ∧ (m.step word').result = .error e') ∨
      ∃ r, (m.step word).result = .ok r ∧ (m.step word').result = .ok r ∧
        (m.step word).machine.SameButLatches (m.step word').machine) ∧
    (∀ word, "???".toList <:+: (disassembleWord word m.table).toList →
      ∃ e, (m.step word).result = .error e) := by
  constructor
  · intro word word' htext
    have hplan : (m.plan word).1.toOption = (m.plan word').1.toOption := by
      rw [← planOf?_disassembleWord, ← planOf?_disassembleWord, htext]
    cases h : (m.plan word).1 with
    | error e =>
        cases h' : (m.plan word').1 with
        | error e' =>
            exact .inl ⟨e, e', m.step_of_plan_error word e h, m.step_of_plan_error word' e' h'⟩
        | ok p' => rw [h, h'] at hplan; cases hplan
    | ok p =>
        cases h' : (m.plan word').1 with
        | error e' => rw [h, h'] at hplan; cases hplan
        | ok p' =>
            rw [h, h'] at hplan
            cases hplan
            exact .inr (m.step_of_plan word word' p h h')
  · intro word hmarks
    cases h : (m.plan word).1 with
    | error e => exact ⟨e, m.step_of_plan_error word e h⟩
    | ok p =>
        have hmark : '?' ∈ "???".toList := by decide
        exact absurd (hmarks.subset hmark) (unquestioned_disassembleWord m word p h)

/-- Passing the latch through the ALU as A or as B, with different codes for falling through and
    with a jump address that is not looked at: the notation is the same. A row without a function
    has no notation. -/
theorem text_determines_step_latch :
    let m : Machine := { cycles := 3, sequencer := { mpc := 0xFF } }
    let word : MicroWord := { write := 2, read := 13, alu := 0, jump := 0, jumpAddress := 0 }
    let word' : MicroWord := { write := 2, read := 4, alu := 1, jump := 9, jumpAddress := 0x4D }
    let unknown : MicroWord := { write := 2, read := 4, alu := 6, jump := 0, jumpAddress := 0 }
    disassembleWord word m.table = "AClo := ALUin" ∧
      disassembleWord word' m.table = "AClo := ALUin" ∧
      (m.step word).machine.SameButLatches (m.step word').machine ∧
      (m.step word).machine.sequencer.pipeline ≠ (m.step word').machine.sequencer.pipeline ∧
      disassembleWord unknown m.table = "??? ; 24 60 00" ∧
      ∃ e, (m.step unknown).result = .error e := by
  intro m word word' unknown
  have hword : disassembleWord word m.table = "AClo := ALUin" := by decide +kernel
  have hword' : disassembleWord word' m.table = "AClo := ALUin" := by decide +kernel
  have hunknown : disassembleWord unknown m.table = "??? ; 24 60 00" := by decide +kernel
  refine ⟨hword, hword', ?_, by decide, hunknown, ?_⟩
  · rcases (text_determines_step m).1 word word' (hword.trans hword'.symm) with
      ⟨e, _, he, _⟩ | ⟨_, _, _, hsame⟩
    · have hok : (m.step word).result.isOk = true := rfl
      rw [he] at hok
      cases hok
    · exact hsame
  · refine (text_determines_step m).2 unknown ?_
    rw [hunknown]
    decide

end Microcode
