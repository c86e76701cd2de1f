import Microcode.Machine.Basic
import Microcode.Proofs.Json.Reading
import Microcode.Proofs.Json.Records
/-!
# Saved State

What is saved is restored.

A machine is saved as a JSON record, and so are the parts that it is made of. Each of them is
written and read by a pair of its own, so there is one round trip for each, and the round trip of a
record is put together from those of its members. `members?_record` has done the part that is the
same for all records: with distinct names every member is found, and found once. What is left is to
say which values a record is written with.

Nothing is asked of the machine. Codes that do not fit in four bits, labels of any characters, and
registers that a snapshot lists in any order and number all come back as they were. A store comes
back through a list, whose length is checked on the way and cannot be wrong.

## Theorems

* `Register.restores`, `Slot.restores`, `AluFunction.restores`, `JumpCondition.restores`: Choices
  come back by their names.
* `StatusWord.restores`, `Pipeline.restores`, `Sequencer.restores`, `MicroWord.restores`,
  `RegisterFile.restores`: So do the parts of a machine.
* `ControlStore.restores`: So does a store, with a word or `null` for each address.
* `ControlTable.restores`: So does a table, column by column.
* `Machine.restores`, `Snapshot.restores`: So do machines and snapshots.
* `saved_restores`: The text of a machine or a snapshot gives it back.
-/

namespace Microcode

open Json

-- A register is found by its name, and so are the other choices by their tags.
theorem Register.restores : Restores toJson ofJson? := by
  intro r
  cases r <;> rfl

theorem Slot.restores : Restores toJson ofJson? := by
  intro slot
  cases slot with
  | reg r => cases r <;> rfl
  | _ => rfl

theorem AluFunction.restores : Restores toJson ofJson? := by
  intro f
  cases f <;> rfl

theorem JumpCondition.restores : Restores toJson ofJson? := by
  intro condition
  cases condition <;> rfl

theorem StatusWord.restores : Restores toJson ofJson? := by
  intro s
  have h : s.toJson.members? _ = _ :=
    members?_record ["positive", "zero", "negative", "carry", "data_not_available"]
      [.bool s.positive, .bool s.zero, .bool s.negative, .bool s.carry, .bool s.dataNotAvailable]
      rfl (by decide)
  rw [ofJson?, h]
  rfl

theorem Pipeline.restores : Restores toJson ofJson? := by
  intro p
  have h : p.toJson.members? _ = _ :=
    members?_record ["write", "read", "alu", "jump"]
      [.byte p.write, .byte p.read, .byte p.alu, .byte p.jump] rfl (by decide)
  simp only [ofJson?, h, List.map_cons, List.map_nil, Option.bind_eq_bind, Option.bind_some,
    required, restores_byte _]
  rfl

theorem Sequencer.restores : Restores toJson ofJson? := by
  intro s
  have h : s.toJson.members? _ = _ :=
    members?_record ["pipeline", "mux", "mrtn", "mpc"]
      [s.pipeline.toJson, .byte s.mux, .byte s.mrtn, .byte s.mpc] rfl (by decide)
  simp only [ofJson?, h, List.map_cons, List.map_nil, Option.bind_eq_bind, Option.bind_some,
    required, restores_byte _, Pipeline.restores _]
  rfl

/-- A word is restored with its label and its address. -/
theorem MicroWord.restores : Restores toJson ofJson? := by
  intro w
  have h : w.toJson.members? _ = _ :=
    members?_record ["write", "read", "alu", "jump", "jump_address", "label", "address"]
      [.byte w.write, .byte w.read, .byte w.alu, .byte w.jump, .byte w.jumpAddress,
        .nullable .string w.label, .nullable .byte w.address] rfl (by decide)
  have hlabel : Json.optional Json.text? (some (.nullable .string w.label)) = some w.label := by
    cases w.label <;> rfl
  have haddress : Json.optional Json.byte? (some (.nullable .byte w.address)) = some w.address :=
    restores_byte.nullable (fun b => Json.noConfusion) w.address
  simp only [ofJson?, h, List.map_cons, List.map_nil, Option.bind_eq_bind, Option.bind_some,
    required, restores_byte _, hlabel, haddress]
  rfl

/-- The places of a store make up that store. -/
theorem ControlStore.ofList_toList (s : ControlStore) : ofList s.toList = .ok s :=
  dif_pos s.places.length_toList

/-- A store is restored place by place. -/
theorem ControlStore.restores : Restores toJson ofJson? := by
  intro s
  have hplaces : Restores (nullable MicroWord.toJson) (nullable? MicroWord.ofJson?) :=
    MicroWord.restores.nullable (fun w => Json.noConfusion)
  rw [ofJson?, toJson, hplaces.items]
  simp only [Option.bind_eq_bind, Option.bind_some]
  rw [s.ofList_toList]
  rfl

theorem RegisterFile.restores : Restores toJson ofJson? := by
  intro f
  have h : f.toJson.members? _ = _ :=
    members?_record ["values"] [.array (f.bytes.toList.map .byte)] rfl (by decide)
  simp only [ofJson?, h, List.map_cons, List.map_nil, Option.bind_eq_bind, Option.bind_some,
    required, restores_byte.items]
  exact dif_pos f.bytes.length_toList

theorem ControlTable.restores_column {α : Type} {write : α → Json} {read : Json → Option α}
    (h : Restores write read) (column : Vector α 16) :
    column? read (.array (column.toList.map write)) = some column := by
  simp only [column?, h.items, Option.bind_eq_bind, Option.bind_some]
  exact dif_pos column.length_toList

/-- A table is restored row by row. -/
theorem ControlTable.restores : Restores toJson ofJson? := by
  intro t
  have h : t.toJson.members? _ = _ :=
    members?_record ["write", "read", "alu", "jump"]
      [.array (t.write.toList.map Slot.toJson), .array (t.read.toList.map Slot.toJson),
        .array (t.alu.toList.map (Json.nullable AluFunction.toJson)),
        .array (t.jump.toList.map JumpCondition.toJson)] rfl (by decide)
  have halu : Restores (nullable AluFunction.toJson) (nullable? AluFunction.ofJson?) :=
    AluFunction.restores.nullable (fun f => Json.noConfusion)
  simp only [ofJson?, h, List.map_cons, List.map_nil, Option.bind_eq_bind, Option.bind_some,
    required, restores_column Slot.restores, restores_column halu,
    restores_column JumpCondition.restores]
  rfl

/-- A machine is restored with everything that it holds. -/
theorem Machine.restores : Restores toJson ofJson? := by
  intro m
  have h : m.toJson.members? _ = _ :=
    members?_record ["regs", "status", "seq", "microstore", "cycles", "table"]
      [m.registers.toJson, m.status.toJson, m.sequencer.toJson, m.store.toJson,
        .natural m.cycles.toNat, m.table.toJson] rfl (by decide)
  simp only [ofJson?, h, List.map_cons, List.map_nil, Option.bind_eq_bind, Option.bind_some,
    required, RegisterFile.restores _, StatusWord.restores _, Sequencer.restores _,
    ControlStore.restores _, restores_count _, ControlTable.restores _]
  rfl

/-- A snapshot is restored with everything that it shows. -/
theorem Snapshot.restores : Restores toJson ofJson? := by
  intro s
  have h : s.toJson.members? _ = _ :=
    members?_record ["registers", "pipeline", "mux", "mrtn", "mpc", "status", "cycles"]
      [.array (s.registers.map (fun entry => .array [entry.1.toJson, .byte entry.2])),
        s.pipeline.toJson, .byte s.mux, .byte s.mrtn, .byte s.mpc, s.status.toJson,
        .natural s.cycles.toNat] rfl (by decide)
  simp only [ofJson?, h, List.map_cons, List.map_nil, Option.bind_eq_bind, Option.bind_some,
    required, (Register.restores.pair restores_byte).items, Pipeline.restores _, restores_byte _,
    StatusWord.restores _, restores_count _]
  rfl

/-- Whatever a machine holds, its saved text is read as that machine, and whatever a snapshot
    holds, its text is read as that snapshot. -/
theorem saved_restores :
    (∀ m : Machine, Machine.ofText? m.toText = some m) ∧
    (∀ s : Snapshot, Snapshot.ofText? s.toText = some s) := by
  constructor
  · intro m
    rw [Machine.ofText?, Machine.toText, parse?_compact, Option.bind_some, Machine.restores m]
  · intro s
    rw [Snapshot.ofText?, Snapshot.toText, parse?_pretty, Option.bind_some, Snapshot.restores s]

end Microcode
