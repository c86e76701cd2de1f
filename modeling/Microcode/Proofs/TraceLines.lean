import Mathlib.Data.List.Forall2
import Microcode.Proofs.Histories
import Microcode.Proofs.Text.Digits
/-!
# The Lines of a Trace

What a trace says about the run that it was written in.

A word is traced in two places. The ALU writes its line while the word is still being planned,
when nothing is committed yet; the sequencer writes the other one when everything is. So a trace
would be wrong if a word could fail between the two. It cannot: the operands are what a transfer
looks up last, and with the operands the plan stands. `Machine.Logs` says what every operation
writes, and it has no case in which a line of the ALU stands alone.

The lines of executed words hold the run together. Each opens with the address of its word, and
behind an arrow it names the next one. Whatever is rejected between two words, and whatever is done
to the machine there, its micro-program counter stays, so a line opens with the address that the
line before it has arrived at. `Trace.Leads` is this reading of lines, without any machine.

What is said of lines is read from their text. Three things are found in a line without knowing
what it is about: the byte that opens it, the byte behind its first arrow, and the flags at its
end. So the lines of a run can be compared with its words one by one, the lines of the ALU with
those that went through it and the lines of rejected words with these.

## Main definitions

* `Trace.isUnder`: A line stands at a level, under a target.
* `Trace.opening?`, `Trace.arrow?`, `Trace.flags`: The byte that opens a line, the one behind its
  arrow, and the flags at its end.
* `Trace.Leads`: Lines lead from one address to another.
* `ExecutedWord.Shows`: A line shows where an executed word was and where it went.
* `ExecutedWord.Computes`: A line shows what the ALU has computed for an executed word.
* `RejectedWord.Shows`: A line shows a rejected word, and why it was rejected.
* `Machine.logOf`, `Machine.logOfAll`: What operations record.
* `Machine.Logs`: What an operation may record, by what has become of its word.
* `Machine.rejections`: The words that operations have rejected.
* `Machine.linesUnder`, `Machine.traceLines`: The lines of a run at a level, under a target.

## Theorems

* `isUnder_text`: A line stands at the level and under the target of its entry, and nowhere else.
* `opening?_of_message`, `arrow?_of_message`, `flags_of_message`: What is read from a line, by its
  message.
* `opening?_executed`, `arrow?_executed`: The addresses in the line of an executed word.
* `plan_log_of_not_transfers`, `plan_log_of_transfer`: What is recorded while a word is planned.
* `logs_offered`, `logs_operation`: What an operation records.
* `traceLines_cons_of_executed`, `traceLines_cons_of_none`: What an operation adds to the lines.
* `shows_traceLines`, `leads_traceLines`: The lines of a run, word by word and as a path.
* `computes_linesUnder`, `shows_rejections`: The lines of the ALU, and those of rejected words.
* `log_keeps_history`: The trace of a run is a record of it.
-/

namespace Microcode

namespace Trace

/-- What stands in front of every message at a level, under a target. -/
def header (level : Level) (target : Target) : List Char :=
  (level.name ++ " [" ++ target.name ++ "]: ").toList

/-- The line stands at a level, under a target. -/
def isUnder (level : Level) (target : Target) (line : String) : Bool :=
  (header level target).isPrefixOf line.toList

/-- The byte whose two digits stand behind the first occurrence of a character and a blank. -/
def byteBehind? (mark : Char) (line : String) : Option UInt8 :=
  Text.readHexByte? (((line.toList.dropWhile (· != mark)).drop 2).take 2)

/-- The address that opens a line, behind its target. -/
def opening? (line : String) : Option UInt8 :=
  byteBehind? ':' line

/-- The byte behind the arrow of a line. -/
def arrow? (line : String) : Option UInt8 :=
  byteBehind? '>' line

/-- The five characters at the end of a line. -/
def flags (line : String) : String :=
  String.ofList (line.toList.drop (line.toList.length - 5))

/-- Lines lead from an address to another: each of them opens where the one before it has
    arrived. -/
def Leads : UInt8 → List String → UInt8 → Prop
  | start, [], last => last = start
  | start, line :: rest, last =>
    opening? line = some start ∧ ∃ next, arrow? line = some next ∧ Leads next rest last

theorem header_eq (level : Level) (target : Target) :
    header level target = (level.name ++ " [" ++ target.name ++ "]").toList ++ [':', ' '] := by
  simp only [header, String.toList_append, List.append_assoc]
  rfl

-- No header is the beginning of another one.
theorem header_injective (level level' : Level) (target target' : Target)
    (h : header level target <+: header level' target') : level' = level ∧ target' = target := by
  revert h
  cases level <;> cases level' <;> cases target <;> cases target' <;> decide

/-- A line is what stands in front of every message, and its own message. -/
theorem toList_text (e : Entry) : e.text.toList = header e.level e.target ++ e.message.toList := by
  simp only [header, Entry.text, Entry.line, String.toList_append, List.append_assoc]
  rfl

/-- A line stands at the level and under the target of its entry, and nowhere else. -/
theorem isUnder_text (e : Entry) (level : Level) (target : Target) :
    isUnder level target e.text = true ↔ e.level = level ∧ e.target = target := by
  have hown : header e.level e.target <+: e.text.toList := ⟨_, (toList_text e).symm⟩
  rw [isUnder, List.isPrefixOf_iff_prefix]
  constructor
  · intro h
    rcases List.prefix_or_prefix_of_prefix h hown with hp | hp
    · exact header_injective _ _ _ _ hp
    · exact (header_injective _ _ _ _ hp).imp Eq.symm Eq.symm
  · rintro ⟨rfl, rfl⟩
    exact hown

/-- The lines at a level, under a target, are those of the entries that belong there. -/
theorem filter_isUnder (entries : List Entry) (level : Level) (target : Target) :
    (entries.map Entry.text).filter (isUnder level target) =
      (entries.filter (fun e => decide (e.level = level ∧ e.target = target))).map Entry.text := by
  rw [List.filter_map]
  refine congrArg _ (List.filter_congr (fun e _ => ?_))
  exact Bool.eq_iff_iff.mpr ((isUnder_text e level target).trans decide_eq_true_iff.symm)

/-- The byte that stands behind the first occurrence of a character is found there. -/
theorem byteBehind?_append (mark : Char) (line : String) (front rest : List Char) (b : UInt8)
    (hfront : mark ∉ front)
    (h : line.toList = front ++ mark :: ' ' :: ((Text.hexByte b).toList ++ rest)) :
    byteBehind? mark line = some b := by
  have hskip : ∀ c ∈ front, (c != mark) = true := by
    intro c hc
    exact bne_iff_ne.mpr (fun he => hfront (he ▸ hc))
  have htwo : (Text.hexByte b).toList.length = 2 := by
    rw [Text.hexByte, String.toList_ofList]
    rfl
  rw [byteBehind?, h, List.dropWhile_append_of_pos hskip,
    List.dropWhile_cons_of_neg (by rw [bne_self_eq_false]; exact Bool.false_ne_true),
    List.drop_succ_cons, List.drop_succ_cons, List.drop_zero, List.take_left' htwo,
    Text.readHexByte?_hexByte]

-- Digits are no arrows.
theorem arrow_notMem_hexByte (b : UInt8) : '>' ∉ (Text.hexByte b).toList := by
  intro h
  exact absurd (Text.isHexDigit_hexByte b '>' h) (by decide)

theorem arrow_notMem_hexCode (b : UInt8) : '>' ∉ (Text.hexCode b).toList := by
  rw [Text.hexCode]
  by_cases hb : b.toNat < 16
  · rw [if_pos hb, String.toList_ofList, List.mem_singleton]
    intro h
    have hdigit := Text.isHexDigit_hexDigit b.toNat hb
    rw [← h] at hdigit
    exact absurd hdigit (by decide)
  · rw [if_neg hb]
    exact arrow_notMem_hexByte b

theorem arrow_notMem_text (w : MicroWord) : '>' ∉ w.text.toList := by
  simp only [MicroWord.text, String.toList_append, List.mem_append, not_or]
  exact ⟨⟨⟨⟨⟨⟨arrow_notMem_hexCode _, arrow_notMem_hexCode _⟩, by decide⟩, arrow_notMem_hexCode _⟩,
    arrow_notMem_hexCode _⟩, by decide⟩, arrow_notMem_hexByte _⟩

theorem arrow_notMem_decimal (n : Nat) : '>' ∉ (toString n).toList := by
  rw [Nat.toString_eq_ofList_toDigits, String.toList_ofList]
  intro h
  have hdigit : '>'.isDigit = true := Nat.isDigit_of_mem_toDigits (by decide) (by decide) h
  exact absurd hdigit (by decide)

theorem arrow_notMem_action (action : Action) : '>' ∉ action.text.toList := by
  cases action with
  | transfer d value =>
      have hname : '>' ∉ d.name.toList := by
        cases d <;> decide
      unfold Action.text
      simp only [String.toList_append, List.mem_append, not_or]
      exact ⟨⟨⟨⟨by decide, hname⟩, by decide⟩, arrow_notMem_decimal _⟩, by decide⟩
  | _ => decide

section Message

variable (e : Entry)

/-- A message that begins with a byte opens its line with it. -/
theorem opening?_of_message (address : UInt8) (rest : List Char)
    (h : e.message.toList = (Text.hexByte address).toList ++ rest) :
    opening? e.text = some address := by
  have hcolon : ':' ∉ (e.level.name ++ " [" ++ e.target.name ++ "]").toList := by
    cases e.level <;> cases e.target <;> decide
  refine byteBehind?_append ':' _ _ rest address hcolon ?_
  rw [toList_text, h, header_eq, List.append_assoc]
  rfl

/-- An arrow in a message is the arrow of its line, if it is the first one in the message. -/
theorem arrow?_of_message (next : UInt8) (front : String) (rest : List Char)
    (hfront : '>' ∉ front.toList)
    (h : e.message.toList = (front ++ " -> " ++ Text.hexByte next).toList ++ rest) :
    arrow? e.text = some next := by
  have hheader : '>' ∉ header e.level e.target := by
    cases e.level <;> cases e.target <;> decide
  refine byteBehind?_append '>' _ (header e.level e.target ++ front.toList ++ " -".toList) rest
    next ?_ ?_
  · rw [List.mem_append, List.mem_append, not_or, not_or]
    exact ⟨⟨hheader, hfront⟩, by decide⟩
  · rw [toList_text, h]
    simp only [String.toList_append, List.append_assoc]
    rfl

/-- A message that ends in flags ends its line with them. -/
theorem flags_of_message (front : String) (status : StatusWord)
    (h : e.message = front ++ status.text) : flags e.text = status.bits := by
  have hlength : status.bits.toList.length = 5 := by
    rw [StatusWord.bits, String.toList_ofList, List.length_map]
    rfl
  have hsplit : e.text.toList =
      (header e.level e.target ++ (front ++ "(NOTCd,Co,PZN): ").toList) ++ status.bits.toList := by
    rw [toList_text, h]
    simp only [StatusWord.text, String.toList_append, List.append_assoc]
  rw [flags, hsplit, List.length_append, hlength, Nat.add_sub_cancel, List.drop_left,
    String.ofList_toList]

end Message

section Executed

variable (address : UInt8) (word : MicroWord) (action : Action) (next : UInt8)
  (status : StatusWord)

/-- The line of an executed word opens with its address. -/
theorem opening?_executed :
    opening? (Entry.executed address word action next status).text = some address := by
  refine opening?_of_message _ address (": " ++ word.text ++ " " ++ action.text ++ " -> " ++
    Text.hexByte next ++ " " ++ status.text).toList ?_
  simp only [Entry.message, String.toList_append, List.append_assoc]

/-- The line of an executed word has the next address behind its arrow. -/
theorem arrow?_executed :
    arrow? (Entry.executed address word action next status).text = some next := by
  refine arrow?_of_message _ next
    (Text.hexByte address ++ ": " ++ word.text ++ " " ++ action.text)
    (" " ++ status.text).toList ?_ ?_
  · simp only [String.toList_append, List.mem_append, not_or]
    exact ⟨⟨⟨⟨arrow_notMem_hexByte _, by decide⟩, arrow_notMem_text _⟩, by decide⟩,
      arrow_notMem_action _⟩
  · simp only [Entry.message, String.toList_append, List.append_assoc]

end Executed

section Evaluated

variable (f : AluFunction) (a b value : UInt8) (status : StatusWord)

/-- The line of a computation has its function and its operands in front. -/
theorem computation_prefix : header .trace .alu ++
    (f.symbol ++ " A=" ++ Text.hexByte a ++ " B=" ++ Text.hexByte b).toList <+:
      (Entry.evaluated f a b value status).text.toList := by
  refine ⟨(" -> " ++ Text.hexByte value ++ " " ++ status.text).toList, ?_⟩
  simp only [toList_text, Entry.level, Entry.target, Entry.message, String.toList_append,
    List.append_assoc]

/-- The line of a computation has the value behind its arrow. -/
theorem arrow?_evaluated : arrow? (Entry.evaluated f a b value status).text = some value := by
  refine arrow?_of_message _ value
    (f.symbol ++ " A=" ++ Text.hexByte a ++ " B=" ++ Text.hexByte b)
    (" " ++ status.text).toList ?_ ?_
  · have hsymbol : '>' ∉ f.symbol.toList := by
      cases f <;> decide
    simp only [String.toList_append, List.mem_append, not_or]
    exact ⟨⟨⟨⟨hsymbol, by decide⟩, arrow_notMem_hexByte _⟩, by decide⟩, arrow_notMem_hexByte _⟩
  · simp only [Entry.message, String.toList_append, List.append_assoc]

/-- The line of a computation ends in the flags. -/
theorem flags_evaluated : flags (Entry.evaluated f a b value status).text = status.bits :=
  flags_of_message _ _ status rfl

end Evaluated

section Rejected

variable (address : UInt8) (word : MicroWord) (e : StepError)

/-- The line of a rejected word opens with its address. -/
theorem opening?_rejected : opening? (Entry.rejected address word e).text = some address := by
  refine opening?_of_message _ address (": " ++ word.text ++ " rejected: " ++ e.message).toList ?_
  simp only [Entry.message, String.toList_append, List.append_assoc]

/-- The line of a rejected word ends in the word and the reason. -/
theorem reason_suffix : (word.text ++ " rejected: " ++ e.message).toList <:+
    (Entry.rejected address word e).text.toList := by
  refine ⟨header .debug .sequencer ++ (Text.hexByte address ++ ": ").toList, ?_⟩
  simp only [toList_text, Entry.level, Entry.target, Entry.message, String.toList_append,
    List.append_assoc]

end Rejected

/-- Lines that lead somewhere hang together. -/
theorem isChain_of_leads (start last : UInt8) (lines : List String) (h : Leads start lines last) :
    lines.IsChain (fun a b => arrow? a = opening? b) := by
  induction lines generalizing start with
  | nil => exact .nil
  | cons line rest ih =>
      rcases h with ⟨_, next, harrow, hrest⟩
      cases rest with
      | nil => exact .singleton line
      | cons line' rest' => exact .cons_cons (harrow.trans hrest.1.symm) (ih next hrest)

end Trace

namespace ExecutedWord

/-- A line shows where an executed word was, and where it went. -/
structure Shows (x : ExecutedWord) (line : String) : Prop where
  opening : Trace.opening? line = some x.address
  arrow : Trace.arrow? line = some x.after.sequencer.mpc

/-- Whether an executed word went through the ALU, and so to a destination. -/
def computed (x : ExecutedWord) : Bool :=
  x.result.destination.isSome

/-- A line shows what the ALU has computed for an executed word: a function of ALUin and of the
    operand of the word, with a value that is in the destination afterwards and with the flags that
    the machine has then. -/
inductive Computes (x : ExecutedWord) (line : String) : Prop where
  | intro (s : Selected) (hs : Selects x.machine.table x.word s) (d : Register)
      (hd : x.result.destination = some d) (f : AluFunction)
      (hf : x.machine.table.alu[x.word.alu.toNat]? = some (some f)) (b : UInt8)
      (hb : Operand x.machine.registers f s.read b)
      (front : Trace.header .trace .alu ++ (f.symbol ++ " A=" ++
        Text.hexByte (x.machine.registers.get .aluIn) ++ " B=" ++ Text.hexByte b).toList <+:
          line.toList)
      (arrow : Trace.arrow? line = some (x.after.registers.get d))
      (flags : Trace.flags line = x.after.status.bits) : Computes x line

end ExecutedWord

/-- A word that was rejected, and the machine that rejected it. -/
structure RejectedWord where
  machine : Machine
  word : MicroWord
  error : StepError
  rejected : (machine.step word).result = .error error

/-- A line shows a rejected word: where it was, what it was, and why it was rejected. -/
structure RejectedWord.Shows (x : RejectedWord) (line : String) : Prop where
  opening : Trace.opening? line = some x.machine.sequencer.mpc
  reason : (x.word.text ++ " rejected: " ++ x.error.message).toList <:+ line.toList

namespace Machine

/-- The word that is rejected of those that are offered: nothing if it is executed. -/
def refuse? (m : Machine) (word : MicroWord) : Option RejectedWord :=
  match h : (m.step word).result with
  | .ok _ => none
  | .error e => some ⟨m, word, e, h⟩

/-- The word that an operation has rejected, if it has rejected one. -/
def rejectedBy? (m : Machine) (op : Operation) : Option RejectedWord :=
  (m.offered? op).bind m.refuse?

/-- The words that operations have rejected, in their order. -/
def rejections (m : Machine) : List Operation → List RejectedWord
  | [] => []
  | op :: ops => (m.rejectedBy? op).toList ++ (m.operate op).rejections ops

/-- What an operation records. -/
def logOf (m : Machine) : Operation → List Trace.Entry
  | .step word => (m.step word).log
  | .cycle => m.cycle.log
  | _ => []

/-- What operations record, one after the other. -/
def logOfAll (m : Machine) : List Operation → List Trace.Entry
  | [] => []
  | op :: ops => m.logOf op ++ (m.operate op).logOfAll ops

/-- The lines that operations leave at a level, under a target. -/
def linesUnder (m : Machine) (level : Trace.Level) (target : Trace.Target)
    (ops : List Operation) : List String :=
  ((m.logOfAll ops).map Trace.Entry.text).filter (Trace.isUnder level target)

/-- The lines that operations leave at the level of a trace, under the target of the sequencer. -/
def traceLines (m : Machine) (ops : List Operation) : List String :=
  m.linesUnder .trace .sequencer ops

/-- What an operation may record. A word that went through the ALU leaves two entries, and the one
    of the ALU has the value and the flags that the machine holds afterwards. Any other word that
    was executed leaves one entry, and so does a word that was rejected. Without a word there is
    nothing to record. -/
inductive Logs (m : Machine) (op : Operation) : List Trace.Entry → Prop where
  | transferred (x : ExecutedWord) (hx : m.executedBy? op = some x) (s : Selected)
      (hs : Selects m.table x.word s) (ht : s.Transfers) (d : Register)
      (hd : x.result.destination = some d) (f : AluFunction)
      (hf : m.table.alu[x.word.alu.toNat]? = some (some f)) (b : UInt8)
      (hb : Operand m.registers f s.read b) : Logs m op [
        .evaluated f (m.registers.get .aluIn) b ((m.operate op).registers.get d)
          (m.operate op).status,
        .executed m.sequencer.mpc x.word (.transfer d ((m.operate op).registers.get d))
          (m.operate op).sequencer.mpc (m.operate op).status]
  | sequenced (x : ExecutedWord) (hx : m.executedBy? op = some x) (s : Selected)
      (hs : Selects m.table x.word s) (hn : ¬ s.Transfers) (hd : x.result.destination = none)
      (action : Action) (hp : Performs m x.word s action (m.operate op).status) : Logs m op [
        .executed m.sequencer.mpc x.word action (m.operate op).sequencer.mpc (m.operate op).status]
  | rejected (word : MicroWord) (hw : m.offered? op = some word) (e : StepError)
      (he : (m.step word).result = .error e) : Logs m op [.rejected m.sequencer.mpc word e]
  | silent (h : m.offered? op = none) : Logs m op []

/-- Only the operands of a transfer are worth an entry before the word is executed. -/
theorem plan_log_of_not_transfers (m : Machine) (word : MicroWord) (s : Selected)
    (hs : Selects m.table word s) (hn : ¬ s.Transfers) : (m.plan word).2 = [] := by
  rcases s.increment?_cases with ⟨_, hi⟩ | ⟨_, _, hi⟩ | ⟨_, _, hi⟩ | ⟨hcounts, _⟩
  · rw [m.plan_of_increment word s _ hs hi]
  · rw [m.plan_of_increment word s _ hs hi]
  · rw [m.plan_of_increment word s _ hs hi]
  · by_cases hw : s.write = .nop
    · rw [m.plan_of_idle word s hs hcounts hw]
    · exact absurd ⟨hcounts, hw⟩ hn

/-- A transfer that has its operands is worth one entry before the word is executed. -/
theorem plan_log_of_transfer (m : Machine) (word : MicroWord) (s : Selected) (o : Operands)
    (hs : Selects m.table word s) (ht : s.Transfers) (ho : m.operands word s = .ok o) :
    (m.plan word).2 = [.evaluated o.function o.a o.b (o.function.evaluate o.a o.b m.status).1
      (o.function.evaluate o.a o.b m.status).2] := by
  rw [m.plan_of_transfers word s hs ht, ho]

/-- Whatever a word is rejected for, the ALU has not recorded anything by then. -/
theorem plan_log_of_error (m : Machine) (word : MicroWord) (e : StepError)
    (h : (m.plan word).1 = .error e) : (m.plan word).2 = [] := by
  cases hsel : m.select word with
  | error es => rw [m.plan_of_select_error word es hsel]
  | ok s =>
      have hs : Selects m.table word s := (m.select_eq_ok_iff word s).mp hsel
      by_cases ht : s.Transfers
      · rw [m.plan_of_transfers word s hs ht] at h ⊢
        cases ho : m.operands word s with
        | error eo => rfl
        | ok o =>
            -- With its operands the word would have been planned.
            rw [ho] at h
            cases h
      · exact m.plan_log_of_not_transfers word s hs ht

/-- A rejected word leaves the entry of its rejection and no other. -/
theorem step_log_of_error (m : Machine) (word : MicroWord) (e : StepError)
    (h : (m.step word).result = .error e) :
    (m.step word).log = [.rejected m.sequencer.mpc word e] := by
  have hplan : (m.plan word).1 = .error e :=
    (m.plan_eq_error_iff word e).mpr ((m.step_eq_error_iff word e).mp h)
  have hlog := m.plan_log_of_error word e hplan
  unfold step
  rcases hp : m.plan word with ⟨_ | p, log⟩
  · rw [hp] at hplan hlog
    cases hplan
    exact congrArg (· ++ _) hlog
  · rw [hp] at hplan
    cases hplan

/-- The entry of an executed word comes behind those of its plan. -/
theorem step_log_of_ok (m : Machine) (word : MicroWord) (p : Plan) (h : (m.plan word).1 = .ok p) :
    (m.step word).log = (m.plan word).2 ++
      [.executed m.sequencer.mpc word p.action p.next.mpc p.status] := by
  unfold step
  rcases hp : m.plan word with ⟨_ | q, log⟩
  · rw [hp] at h
    cases h
  · rw [hp] at h
    cases h
    rfl

/-- The operands of a word that transfers are there if it performs anything. -/
theorem operands_of_performs (m : Machine) (word : MicroWord) (s : Selected) (action : Action)
    (status : StatusWord) (hp : Performs m word s action status) (ht : s.Transfers) :
    ∃ o, m.operands word s = .ok o ∧ o.a = m.registers.get .aluIn ∧
      m.table.alu[word.alu.toNat]? = some (some o.function) ∧
      Operand m.registers o.function s.read o.b ∧
      action = .transfer o.destination (o.function.evaluate o.a o.b m.status).1 ∧
      status = (o.function.evaluate o.a o.b m.status).2 := by
  cases hp with
  | both h => exact absurd (h.imp_right Or.inl) ht.1
  | pc _ hr => exact absurd (Or.inr (Or.inr (Or.inl hr))) ht.1
  | mar _ hr => exact absurd (Or.inr (Or.inr (Or.inr hr))) ht.1
  | idle _ hw => exact absurd hw ht.2
  | transfer d f b _ hw hf hb =>
      refine ⟨⟨d, f, m.registers.get .aluIn, b⟩, ?_, rfl, hf, hb, rfl, rfl⟩
      exact (m.operands_eq_ok_iff word s _).mpr ⟨hw, hf, rfl, hb⟩

/-- A word that does not transfer has no destination. -/
theorem destination_of_performs (m : Machine) (word : MicroWord) (s : Selected) (action : Action)
    (status : StatusWord) (hp : Performs m word s action status) (hn : ¬ s.Transfers) :
    (action.perform m.registers).2.2 = none := by
  cases hp with
  | transfer d f b hcounts hw _ _ =>
      exact absurd ⟨hcounts, by rw [hw]; exact Slot.noConfusion⟩ hn
  | _ => rfl

/-- What an operation records that offers a word. -/
theorem logs_offered (m : Machine) (op : Operation) (word : MicroWord)
    (hword : m.offered? op = some word) (hop : m.operate op = (m.step word).machine) :
    m.Logs op (m.step word).log := by
  cases hresult : (m.step word).result with
  | error e =>
      rw [m.step_log_of_error word e hresult]
      exact .rejected word hword e hresult
  | ok r =>
      let x : ExecutedWord := ⟨m, word, r, hresult⟩
      have hx : m.executedBy? op = some x := by
        rw [executedBy?, hword, Option.bind_some, m.attempt?_of_ok word r hresult]
      rcases performs_of_executed x with ⟨s, action, status, hs, hp, hr, hafter⟩
      have hafter : m.operate op = _ := hop.trans hafter
      have hmpc : (m.sequencer.resolve s.condition word.jumpAddress status).mpc =
          (m.operate op).sequencer.mpc := by
        rw [hafter]
        rfl
      have hstatus : status = (m.operate op).status := by
        rw [hafter]
      have hlog : (m.step word).log = (m.plan word).2 ++ [.executed m.sequencer.mpc word action
          (m.operate op).sequencer.mpc (m.operate op).status] := by
        rw [m.step_log_of_ok word _ (m.plan_of_performs word s action status hs hp), ← hmpc,
          ← hstatus]
        rfl
      have hdestination : x.result.destination = (action.perform m.registers).2.2 := by
        rw [hr]
      by_cases ht : s.Transfers
      · rcases m.operands_of_performs word s action status hp ht with
          ⟨o, ho, ha, hf, hb, haction, hflags⟩
        -- The value that the ALU recorded is what the destination holds afterwards.
        have hvalue : (o.function.evaluate o.a o.b m.status).1 =
            (m.operate op).registers.get o.destination := by
          rw [hafter, haction, Action.perform, RegisterFile.get_set, if_pos rfl]
        rw [haction] at hdestination
        rw [hlog, m.plan_log_of_transfer word s o hs ht ho, ← hflags, hstatus, haction, hvalue, ha]
        exact .transferred x hx s hs ht o.destination hdestination o.function hf o.b hb
      · rw [m.destination_of_performs word s action status hp ht] at hdestination
        rw [hlog, m.plan_log_of_not_transfers word s hs ht, List.nil_append]
        exact .sequenced x hx s hs ht hdestination action (hstatus ▸ hp)

/-- What an operation records. -/
theorem logs_operation (m : Machine) (op : Operation) : m.Logs op (m.logOf op) := by
  cases op with
  | step word => exact m.logs_offered _ word rfl rfl
  | cycle =>
      rw [logOf]
      cases hread : m.store.read m.sequencer.mpc with
      | none =>
          rw [cycle, hread]
          exact .silent hread
      | some word =>
          rw [m.cycle_of_read word hread]
          refine m.logs_offered _ word hread ?_
          rw [operate, m.cycle_of_read word hread]
  | program store => exact .silent rfl
  | drive unavailable => exact .silent rfl
  | exchange table => exact .silent rfl

/-- An operation adds the lines of its own entries. -/
theorem linesUnder_cons (m : Machine) (level : Trace.Level) (target : Trace.Target)
    (op : Operation) (ops : List Operation) : m.linesUnder level target (op :: ops) =
      ((m.logOf op).filter (fun e => decide (e.level = level ∧ e.target = target))).map
        Trace.Entry.text ++ (m.operate op).linesUnder level target ops := by
  rw [linesUnder, logOfAll, List.map_append, List.filter_append, Trace.filter_isUnder]
  rfl

/-- The word that an operation executes is executed by the machine that it finds. -/
theorem operate_of_executed (m : Machine) (op : Operation) (x : ExecutedWord)
    (hx : m.executedBy? op = some x) : x.machine = m ∧ m.operate op = x.after := by
  rcases m.operate_cases op with ⟨y, hy, hm, hop⟩ | ⟨hnone, _⟩
  · rw [hx] at hy
    cases hy
    exact ⟨hm, hop⟩
  · rw [hx] at hnone
    cases hnone

theorem refuse?_of_ok (m : Machine) (word : MicroWord) (r : StepResult)
    (h : (m.step word).result = .ok r) : m.refuse? word = none := by
  unfold refuse?
  split
  · rfl
  · rename_i e h'
    cases h.symm.trans h'

theorem refuse?_of_error (m : Machine) (word : MicroWord) (e : StepError)
    (h : (m.step word).result = .error e) : m.refuse? word = some ⟨m, word, e, h⟩ := by
  unfold refuse?
  split
  · rename_i r h'
    cases h.symm.trans h'
  · rename_i e' h'
    cases h.symm.trans h'
    rfl

/-- An operation that has executed a word has rejected none. -/
theorem rejectedBy?_of_executed (m : Machine) (op : Operation) (x : ExecutedWord)
    (hx : m.executedBy? op = some x) : m.rejectedBy? op = none := by
  rcases Option.bind_eq_some_iff.mp hx with ⟨word, hword, hattempt⟩
  rw [rejectedBy?, hword, Option.bind_some]
  cases h : (m.step word).result with
  | ok r => exact m.refuse?_of_ok word r h
  | error e =>
      rw [m.attempt?_of_error word e h] at hattempt
      cases hattempt

/-- An operation that has rejected a word has executed none. -/
theorem executedBy?_of_rejected (m : Machine) (op : Operation) (word : MicroWord) (e : StepError)
    (hw : m.offered? op = some word) (he : (m.step word).result = .error e) :
    m.executedBy? op = none := by
  rw [executedBy?, hw, Option.bind_some, m.attempt?_of_error word e he]

/-- A word that is executed adds one line, which shows it. -/
theorem traceLines_cons_of_executed (m : Machine) (op : Operation) (ops : List Operation)
    (x : ExecutedWord) (hx : m.executedBy? op = some x) :
    ∃ line, x.Shows line ∧ m.traceLines (op :: ops) = line :: (m.operate op).traceLines ops := by
  rcases m.operate_of_executed op x hx with ⟨hm, hop⟩
  have hshows (action : Action) (status : StatusWord) : x.Shows (Trace.Entry.executed
      m.sequencer.mpc x.word action (m.operate op).sequencer.mpc status).text := by
    refine ⟨?_, ?_⟩
    · rw [Trace.opening?_executed, ExecutedWord.address, hm]
    · rw [Trace.arrow?_executed, hop]
  have hlogs := m.logs_operation op
  rw [traceLines, linesUnder_cons]
  generalize m.logOf op = log at hlogs ⊢
  cases hlogs with
  | transferred y hy =>
      cases hx.symm.trans hy
      exact ⟨_, hshows _ _, rfl⟩
  | sequenced y hy =>
      cases hx.symm.trans hy
      exact ⟨_, hshows _ _, rfl⟩
  | rejected word hw e he =>
      rw [m.executedBy?_of_rejected op word e hw he] at hx
      cases hx
  | silent h =>
      rw [executedBy?, h, Option.bind_none] at hx
      cases hx

/-- An operation that executes nothing adds no line. -/
theorem traceLines_cons_of_none (m : Machine) (op : Operation) (ops : List Operation)
    (hx : m.executedBy? op = none) : m.traceLines (op :: ops) = (m.operate op).traceLines ops := by
  have hlogs := m.logs_operation op
  rw [traceLines, linesUnder_cons]
  generalize m.logOf op = log at hlogs ⊢
  cases hlogs with
  | transferred y hy => cases hx.symm.trans hy
  | sequenced y hy => cases hx.symm.trans hy
  | rejected word hw e he => rfl
  | silent h => rfl

/-- The lines of a run, word by word. -/
theorem shows_traceLines (m : Machine) (ops : List Operation) :
    List.Forall₂ ExecutedWord.Shows (m.history ops) (m.traceLines ops) := by
  induction ops generalizing m with
  | nil => exact .nil
  | cons op ops ih =>
      rw [history]
      cases hx : m.executedBy? op with
      | none =>
          rw [m.traceLines_cons_of_none op ops hx]
          exact ih _
      | some x =>
          rcases m.traceLines_cons_of_executed op ops x hx with ⟨line, hline, hlines⟩
          rw [hlines]
          exact .cons hline (ih _)

/-- The lines of the ALU, transfer by transfer. -/
theorem computes_linesUnder (m : Machine) (ops : List Operation) :
    List.Forall₂ ExecutedWord.Computes ((m.history ops).filter ExecutedWord.computed)
      (m.linesUnder .trace .alu ops) := by
  induction ops generalizing m with
  | nil => exact .nil
  | cons op ops ih =>
      have hlogs := m.logs_operation op
      have hrest := ih (m.operate op)
      rw [linesUnder_cons, history, List.filter_append]
      -- The cases of the account each have their own entries, so these have to be a variable.
      generalize m.logOf op = log at hlogs ⊢
      cases hlogs with
      | transferred x hx s hs ht d hd f hf b hb =>
          rcases m.operate_of_executed op x hx with ⟨rfl, hop⟩
          have hcomputed : x.computed = true := congrArg Option.isSome hd
          rw [hx, Option.toList_some, List.filter_cons_of_pos hcomputed]
          refine .cons ⟨s, hs, d, hd, f, hf, b, hb, ?operands, ?result, ?flags⟩ hrest
          case operands => exact Trace.computation_prefix _ _ _ _ _
          case result => rw [Trace.arrow?_evaluated, hop]
          case flags => rw [Trace.flags_evaluated, hop]
      | sequenced x hx s hs hn hd =>
          have hnone : ¬ x.computed = true := by
            rw [ExecutedWord.computed, hd]
            exact Bool.false_ne_true
          rw [hx, Option.toList_some, List.filter_cons_of_neg hnone]
          exact hrest
      | rejected word hw e he =>
          rw [m.executedBy?_of_rejected op word e hw he]
          exact hrest
      | silent h =>
          rw [executedBy?, h]
          exact hrest

/-- The lines of rejected words, word by word. -/
theorem shows_rejections (m : Machine) (ops : List Operation) :
    List.Forall₂ RejectedWord.Shows (m.rejections ops) (m.linesUnder .debug .sequencer ops) := by
  induction ops generalizing m with
  | nil => exact .nil
  | cons op ops ih =>
      have hlogs := m.logs_operation op
      have hrest := ih (m.operate op)
      rw [linesUnder_cons, rejections]
      generalize m.logOf op = log at hlogs ⊢
      cases hlogs with
      | transferred x hx =>
          rw [m.rejectedBy?_of_executed op x hx]
          exact hrest
      | sequenced x hx =>
          rw [m.rejectedBy?_of_executed op x hx]
          exact hrest
      | rejected word hw e he =>
          rw [rejectedBy?, hw, Option.bind_some, m.refuse?_of_error word e he]
          exact .cons ⟨Trace.opening?_rejected _ _ _, Trace.reason_suffix _ _ _⟩ hrest
      | silent h =>
          rw [rejectedBy?, h]
          exact hrest

/-- The lines of a run lead from the address at which it began to the one at which it ended. -/
theorem leads_traceLines (m : Machine) (ops : List Operation) :
    Trace.Leads m.sequencer.mpc (m.traceLines ops) (m.operateAll ops).sequencer.mpc := by
  induction ops generalizing m with
  | nil => rfl
  | cons op ops ih =>
      have hrest := ih (m.operate op)
      rcases m.operate_cases op with ⟨x, hx, hm, hop⟩ | ⟨hnone, hrests⟩
      · rcases m.traceLines_cons_of_executed op ops x hx with ⟨line, hline, hlines⟩
        rw [hlines]
        refine ⟨?_, (m.operate op).sequencer.mpc, ?_, hrest⟩
        · rw [hline.opening, ExecutedWord.address, hm]
        · rw [hline.arrow, hop]
      · -- Nothing but an executed word moves the micro-program counter.
        rw [m.traceLines_cons_of_none op ops hnone]
        rw [hrests.sequencer] at hrest
        exact hrest

/-- The trace of a run is a record of it, with all targets logged. Each operation records what has
    become of its word. Under the target of the sequencer there is one line for each executed word,
    in their order; the line opens with the address of the word and has the next one behind its
    arrow; and so the lines are a path from the first address of the run to the last. Under the
    target of the ALU there is one line for each executed word that went through it, with the value
    and the flags that were committed, and at the level of debugging there is one line for each
    rejected word, with the reason. -/
theorem log_keeps_history (m : Machine) (ops : List Operation) :
    (∀ op, m.Logs op (m.logOf op)) ∧
    (m.traceLines ops).length = (m.history ops).length ∧
    List.Forall₂ ExecutedWord.Shows (m.history ops) (m.traceLines ops) ∧
    (m.traceLines ops).IsChain (fun a b => Trace.arrow? a = Trace.opening? b) ∧
    Trace.Leads m.sequencer.mpc (m.traceLines ops) (m.operateAll ops).sequencer.mpc ∧
    List.Forall₂ ExecutedWord.Computes ((m.history ops).filter ExecutedWord.computed)
      (m.linesUnder .trace .alu ops) ∧
    List.Forall₂ RejectedWord.Shows (m.rejections ops) (m.linesUnder .debug .sequencer ops) := by
  have hshows := m.shows_traceLines ops
  have hleads := m.leads_traceLines ops
  exact ⟨m.logs_operation, hshows.length_eq.symm, hshows, Trace.isChain_of_leads _ _ _ hleads,
    hleads, m.computes_linesUnder ops, m.shows_rejections ops⟩

end Machine

end Microcode
