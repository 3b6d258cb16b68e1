import M68000.Proofs.Arithmetic.Performed
import M68000.Proofs.Memory.Series
import M68000.Proofs.Stack.Block

/-!
# Copying a block

A MOVE from one address register to another, both with post-increment, and a DBF back to it copy as
many operands as the counter says and one more. The blocks and the two instructions are apart, so
that what has been copied changes neither what is still to be copied nor the code.
-/

namespace M68000

open Exec Instruction

/-! ## Pointers and counter -/

theorem Size.replaceLow_replaceLow (size : Size) (register : BitVec 32)
    (value value' : size.Value) :
    size.replaceLow (size.replaceLow register value) value' = size.replaceLow register value' := by
  apply BitVec.eq_of_getLsbD_eq
  intro i _
  by_cases hlow : i < size.bits
  · have hbit (before : BitVec 32) :
        (size.replaceLow before value').getLsbD i = value'.getLsbD i := by
      conv_rhs => rw [← size.low_replaceLow before value', Size.low, BitVec.getLsbD_setWidth]
      rw [decide_eq_true hlow, Bool.true_and]
    rw [hbit, hbit]
  · have hle := Nat.le_of_not_lt hlow
    rw [getLsbD_replaceLow_of_le _ _ _ hle, getLsbD_replaceLow_of_le _ _ _ hle,
      getLsbD_replaceLow_of_le _ _ _ hle]

namespace Registers

variable (registers : Registers) {source destination : Fin 8}

/-- Two pointers move on by the same number of bytes. -/
def advance (source destination : Fin 8) (bytes : Nat) : Registers :=
  (registers.setA source (registers.getA source + BitVec.ofNat 32 bytes)).setA destination
    (registers.getA destination + BitVec.ofNat 32 bytes)

/-- The counter gets a new value, with the high word kept. -/
def recount (counter : Fin 8) (count : Size.word.Value) : Registers :=
  registers.setD counter (Size.word.replaceLow (registers.getD counter) count)

section Advance

variable (hne : source ≠ destination) (bytes more : Nat)

include hne

theorem getA_source_advance :
    (registers.advance source destination bytes).getA source =
      registers.getA source + BitVec.ofNat 32 bytes :=
  (getA_setA_of_ne _ hne _).trans (getA_setA_self ..)

omit hne in
theorem getA_destination_advance :
    (registers.advance source destination bytes).getA destination =
      registers.getA destination + BitVec.ofNat 32 bytes :=
  getA_setA_self ..

theorem advance_advance :
    (registers.advance source destination bytes).advance source destination more =
      registers.advance source destination (bytes + more) := by
  rw [advance, getA_source_advance _ hne, getA_destination_advance, advance, advance,
    setA_comm _ hne.symm, setA_setA, setA_setA, BitVec.add_assoc, BitVec.add_assoc,
    ← BitVec.ofNat_add]

end Advance

theorem recount_recount (counter : Fin 8) (count count' : Size.word.Value) :
    (registers.recount counter count).recount counter count' =
      registers.recount counter count' := by
  rw [recount, recount, getD_setD_self, Size.replaceLow_replaceLow]
  simp [recount, setD]

/-- Two pointers have moved on and a counter has a new value. -/
def copied (source destination counter : Fin 8) (bytes : Nat) (count : Size.word.Value)
    (pc : Address) (flags : Flags) : Registers :=
  { (registers.advance source destination bytes).recount counter count with pc, flags }

section Copied

variable (hne : source ≠ destination) (counter : Fin 8) (bytes : Nat) (count : Size.word.Value)
  (pc : Address) (flags : Flags)

include hne in
theorem getA_source_copied :
    (registers.copied source destination counter bytes count pc flags).getA source =
      registers.getA source + BitVec.ofNat 32 bytes :=
  registers.getA_source_advance hne bytes

theorem getA_destination_copied :
    (registers.copied source destination counter bytes count pc flags).getA destination =
      registers.getA destination + BitVec.ofNat 32 bytes :=
  registers.getA_destination_advance bytes

theorem low_getD_copied : Size.word.low
    ((registers.copied source destination counter bytes count pc flags).getD counter) = count :=
  (congrArg Size.word.low (getD_setD_self ..)).trans (Size.low_replaceLow ..)

end Copied

theorem copied_copied (hne : source ≠ destination) (counter : Fin 8) (bytes more : Nat)
    (count count' : Size.word.Value) (pc pc' : Address) (flags flags' : Flags) :
    (registers.copied source destination counter bytes count pc flags).copied source destination
        counter more count' pc' flags' =
      registers.copied source destination counter (bytes + more) count' pc' flags' := by
  let middle := registers.advance source destination bytes
  calc
    _ = { ((middle.recount counter count).recount counter count').advance source destination more
          with pc := pc', flags := flags' } := rfl
    _ = { (middle.recount counter count').advance source destination more
          with pc := pc', flags := flags' } := by rw [recount_recount]
    _ = { (middle.advance source destination more).recount counter count'
          with pc := pc', flags := flags' } := rfl
    _ = _ := by
      rw [registers.advance_advance hne]
      rfl

end Registers

/-! ## The two instructions -/

section Instructions

variable (machine : Machine) {size : Size} {opcode : Opcode} {source destination counter : Fin 8}

/-- MOVE copies an operand and steps over it on both sides. -/
theorem exists_run_move {memory : Space} {value : size.Value}
    (hsource : Mode.ofField? opcode.operandField = some (.postIncrement source))
    (hdestination : Mode.ofField? opcode.destinationField = some (.postIncrement destination))
    (hne : source ≠ destination)
    (hstack : size = .byte → source ≠ stackPointer ∧ destination ≠ stackPointer)
    (hread : machine.memory.read machine.dataCode (machine.registers.getA source) size = .ok value)
    (hwrite : machine.memory.write machine.dataCode (machine.registers.getA destination) size
      value = .ok () memory) :
    ∃ trace, (move size opcode).run machine = .ok () { machine with
      registers := { (machine.registers.advance source destination size.bytes).advancePc 2 with
        flags := machine.registers.flags.setResult (value.signExtend 32) }
      memory, trace } := by
  have hsteps : size.step source = size.bytes ∧ size.step destination = size.bytes :=
    ⟨Size.step_eq_bytes fun h ↦ (hstack h).1, Size.step_eq_bytes fun h ↦ (hstack h).2⟩
  have hfield (machine : Machine) : (Operand.ofField size opcode.operandField 2).run machine =
      .ok ⟨.postIncrement source, 2⟩ machine := by
    rw [Operand.ofField, hsource]
    rfl
  have hfield' (machine : Machine) : (Operand.ofField size opcode.destinationField 2).run machine =
      .ok ⟨.postIncrement destination, 2⟩ machine := by
    rw [Operand.ofField, hdestination]
    rfl
  let pointed : Registers := machine.registers.setA source
    (machine.registers.getA source + BitVec.ofNat 32 (size.step source))
  have hpointer : pointed.getA destination = machine.registers.getA destination :=
    Registers.getA_setA_of_ne _ hne.symm _
  have hadvance : pointed.setA destination
      (pointed.getA destination + BitVec.ofNat 32 (size.step destination)) =
        machine.registers.advance source destination size.bytes := by
    rw [hpointer, hsteps.2, Registers.advance, ← hsteps.1]
  obtain ⟨trace, hget⟩ : ∃ trace, (Operand.get ⟨.postIncrement source, 2⟩).run machine =
      .ok value { machine with trace } :=
    ⟨_, run_readAs_eq_ok.2 ⟨hread, rfl⟩⟩
  obtain ⟨trace', hput⟩ : ∃ trace',
      (Operand.put ⟨.postIncrement destination, 2⟩ value).run
          { machine with registers := pointed, trace } =
        .ok () { machine with registers := pointed, memory, trace := trace' } := by
    have hwrite' : machine.memory.write machine.dataCode (pointed.getA destination) size value =
        .ok () memory := by
      rw [hpointer]
      exact hwrite
    exact ⟨_, run_writeAs_eq_ok.2 ⟨memory, hwrite', rfl⟩⟩
  have hrest : (do
      (⟨.postIncrement destination, 2⟩ : Operand size).finish
      modifyFlags (·.setResult (value.signExtend 32))
      advancePc 2).run { machine with registers := pointed, memory, trace := trace' } =
        .ok () { machine with
          registers := { (pointed.setA destination
            (pointed.getA destination + BitVec.ofNat 32 (size.step destination))).advancePc 2 with
              flags := machine.registers.flags.setResult (value.signExtend 32) }
          memory, trace := trace' } := rfl
  rw [hadvance] at hrest
  exact ⟨trace', run_bind_eq_ok.2 ⟨_, _, hfield _, run_bind_eq_ok.2 ⟨_, _, hget,
    run_bind_eq_ok.2 ⟨(), _, rfl, run_bind_eq_ok.2 ⟨_, _, hfield' _,
      run_bind_eq_ok.2 ⟨(), _, hput, hrest⟩⟩⟩⟩⟩⟩

/-- DBF counts down and goes back, unless the counter has run out. -/
theorem exists_run_decrementAndBranch {displacement : BitVec 16}
    (hnever : Condition.ofOpcode opcode = .never)
    (hdisplacement : machine.memory.read machine.programCode
      (machine.registers.pc + BitVec.ofNat 32 2) .word = .ok displacement) :
    let count := Size.word.low (machine.registers.getD opcode.lowRegister) - 1
    ∃ trace, (decrementAndBranch opcode).run machine = .ok () { machine with
      registers := { machine.registers.recount opcode.lowRegister count with
        pc := if count = 0xFFFF then machine.registers.pc + BitVec.ofNat 32 4
          else machine.registers.pc + 2 + displacement.signExtend 32 }
      trace } := by
  intro count
  have hholds : machine.registers.flags.holds (.ofOpcode opcode) = false := by
    rw [hnever]
    rfl
  let counted := { machine with registers := machine.registers.recount opcode.lowRegister count }
  have hcounts : (decrementAndBranch opcode).run machine =
      (if count = 0xFFFF then advancePc 4
        else do Instruction.branchTo ((← fetchWord 2).signExtend 32)).run counted := by
    rw [decrementAndBranch, EStateM.run_bind, run_flags]
    simp only [hholds]
    rfl
  rw [hcounts]
  by_cases hout : count = 0xFFFF
  · rw [if_pos hout, if_pos hout]
    exact ⟨machine.trace, rfl⟩
  · obtain ⟨trace, hfetch⟩ : ∃ trace,
        (fetchWord 2).run counted = .ok displacement { counted with trace } :=
      ⟨_, run_readAs_eq_ok.2 ⟨hdisplacement, rfl⟩⟩
    rw [if_neg hout, if_neg hout]
    exact ⟨trace, run_bind_eq_ok.2 ⟨displacement, _, hfetch, rfl⟩⟩

end Instructions

/-! ## The loop -/

/-- The opcodes of a MOVE from one address register to another, both with post-increment, and of a
DBF. -/
structure CopyLoop (size : Size) (counter source destination : Fin 8) (move count : Opcode) :
    Prop where
  ne : source ≠ destination
  /-- The stack pointer moves by two even for a byte. -/
  stack : size = .byte → source ≠ stackPointer ∧ destination ≠ stackPointer
  copies : instructionSet.lookup move = some (.move size)
  reads : Mode.ofField? move.operandField = some (.postIncrement source)
  writes : Mode.ofField? move.destinationField = some (.postIncrement destination)
  counts : instructionSet.lookup count = some .decrementAndBranch
  never : Condition.ofOpcode count = .never
  counted : count.lowRegister = counter

/-- The MOVE lies at the address and the DBF behind it, which goes back to the MOVE. -/
structure CopyLoop.LiesAt (move count : Opcode) (code : FunctionCode) (address : Address)
    (memory : Space) : Prop where
  move : memory.read code address .word = .ok move
  count : memory.read code (address + BitVec.ofNat 32 2) .word = .ok count
  back : memory.read code (address + BitVec.ofNat 32 4) .word = .ok 0xFFFC

namespace CopyLoop

variable {size : Size} {counter source destination : Fin 8} {move count : Opcode}

theorem LiesAt.of_write {code code' : FunctionCode} {address place : Address} {value : size.Value}
    {before after : Space} (h : LiesAt move count code address before)
    (hapart : before.Apart address 6 place size.bytes)
    (hwrite : before.write code' place size value = .ok () after) :
    LiesAt move count code address after := by
  have hread (offset : Nat) (hoffset : offset + 2 ≤ 6) :
      after.read code (address + BitVec.ofNat 32 offset) .word =
        before.read code (address + BitVec.ofNat 32 offset) .word :=
    Space.read_write_of_apart (hapart.first_part offset 2 hoffset) hwrite
  have hmove := hread 0 (by decide)
  rw [BitVec.add_zero] at hmove
  exact ⟨hmove.trans h.move, (hread 2 (by decide)).trans h.count,
    (hread 4 (by decide)).trans h.back⟩

section Pass

variable {machine : Machine}

/-- The registers after a pass of the loop, which may be the last one. -/
def passed (source destination counter : Fin 8) (registers : Registers) (value : size.Value) :
    Registers :=
  let left := Size.word.low (registers.getD counter) - 1
  registers.copied source destination counter size.bytes left
    (if left = 0xFFFF then registers.pc + BitVec.ofNat 32 6 else registers.pc)
    (registers.flags.setResult (value.signExtend 32))

theorem exists_run_step_move {value : size.Value} {memory : Space}
    (h : CopyLoop size counter source destination move count) (hundisturbed : machine.Undisturbed)
    (hlies : LiesAt move count ⟨machine.registers.supervisor, true⟩ machine.registers.pc
      machine.memory)
    (hread : machine.memory.read ⟨machine.registers.supervisor, false⟩
      (machine.registers.getA source) size = .ok value)
    (hwrite : machine.memory.write ⟨machine.registers.supervisor, false⟩
      (machine.registers.getA destination) size value = .ok () memory) :
    ∃ moved, (step handlers).run machine = .ok .next moved ∧
      moved.registers = { (machine.registers.advance source destination size.bytes).advancePc 2 with
        flags := machine.registers.flags.setResult (value.signExtend 32) } ∧
      moved.memory = memory ∧ moved.Undisturbed := by
  refine exists_run_step_of_run hundisturbed hlies.move h.copies rfl
    fun fetched hregisters hmemory hbus ↦ ?_
  have hcode : fetched.dataCode = ⟨machine.registers.supervisor, false⟩ :=
    congrArg (FunctionCode.mk · false) hbus
  rw [← hcode, ← hmemory, ← hregisters] at hread hwrite
  rw [← hregisters]
  exact exists_run_move fetched h.reads h.writes h.ne h.stack hread hwrite

theorem exists_run_step_count
    (h : CopyLoop size counter source destination move count) (hundisturbed : machine.Undisturbed)
    (hcount : machine.memory.read ⟨machine.registers.supervisor, true⟩ machine.registers.pc .word =
      .ok count)
    (hback : machine.memory.read ⟨machine.registers.supervisor, true⟩
      (machine.registers.pc + BitVec.ofNat 32 2) .word = .ok (0xFFFC : BitVec 16)) :
    let left := Size.word.low (machine.registers.getD counter) - 1
    ∃ counted, (step handlers).run machine = .ok .next counted ∧
      counted.registers = { machine.registers.recount counter left with
        pc := if left = 0xFFFF then machine.registers.pc + BitVec.ofNat 32 4
          else machine.registers.pc + 2 + (0xFFFC : BitVec 16).signExtend 32 } ∧
      counted.memory = machine.memory ∧ counted.Undisturbed := by
  intro left
  refine exists_run_step_of_run hundisturbed hcount h.counts rfl
    fun fetched hregisters hmemory hbus ↦ ?_
  have hcode : fetched.programCode = ⟨machine.registers.supervisor, true⟩ :=
    congrArg (FunctionCode.mk · true) hbus
  rw [← hcode, ← hmemory, ← hregisters] at hback
  have hrun := exists_run_decrementAndBranch fetched h.never hback
  rw [h.counted, hregisters] at hrun
  rw [← hmemory]
  exact hrun

/-- A pass of the loop copies an operand. -/
theorem exists_run_pass {value : size.Value} {memory : Space}
    (h : CopyLoop size counter source destination move count) (hundisturbed : machine.Undisturbed)
    (hlies : LiesAt move count ⟨machine.registers.supervisor, true⟩ machine.registers.pc
      machine.memory)
    (hapart : machine.memory.Apart machine.registers.pc 6 (machine.registers.getA destination)
      size.bytes)
    (hread : machine.memory.read ⟨machine.registers.supervisor, false⟩
      (machine.registers.getA source) size = .ok value)
    (hwrite : machine.memory.write ⟨machine.registers.supervisor, false⟩
      (machine.registers.getA destination) size value = .ok () memory) :
    ∃ moved next, (step handlers).run machine = .ok .next moved ∧
      moved.registers.pc = machine.registers.pc + BitVec.ofNat 32 2 ∧
      (step handlers).run moved = .ok .next next ∧
      next.registers = passed source destination counter machine.registers value ∧
      next.memory = memory ∧ next.Undisturbed := by
  obtain ⟨moved, hmove, hmoved, rfl, hundisturbed'⟩ :=
    exists_run_step_move h hundisturbed hlies hread hwrite
  have hlies' := hlies.of_write hapart hwrite
  have hpc : moved.registers.pc = machine.registers.pc + BitVec.ofNat 32 2 := by
    rw [hmoved]
    rfl
  have hsupervisor : moved.registers.supervisor = machine.registers.supervisor := by
    rw [hmoved]
    rfl
  have hcount := hlies'.count
  have hback := hlies'.back
  rw [← hpc, ← hsupervisor] at hcount
  have hfour : machine.registers.pc + BitVec.ofNat 32 4 =
      moved.registers.pc + BitVec.ofNat 32 2 := by
    rw [hpc, BitVec.add_assoc]
    rfl
  rw [hfour, ← hsupervisor] at hback
  obtain ⟨next, hnext, hregisters, hmemory, hundisturbed''⟩ :=
    exists_run_step_count h hundisturbed' hcount hback
  refine ⟨moved, next, hmove, hpc, hnext, ?_, hmemory, hundisturbed''⟩
  have hbehind : machine.registers.pc + BitVec.ofNat 32 2 + BitVec.ofNat 32 4 =
      machine.registers.pc + BitVec.ofNat 32 6 := by
    rw [BitVec.add_assoc]
    rfl
  have hagain : machine.registers.pc + BitVec.ofNat 32 2 + 2 + (0xFFFC : BitVec 16).signExtend 32 =
      machine.registers.pc := by
    rw [BitVec.add_assoc, BitVec.add_assoc]
    exact BitVec.add_zero _
  rw [hregisters, hpc, hbehind, hagain, hmoved]
  rfl

end Pass

/-! ### The whole block -/

/-- The counter runs out below zero. -/
theorem sub_one_eq_iff (count : BitVec 16) : count - 1 = 0xFFFF ↔ count = 0 := by
  constructor <;> intro <;> bv_omega

theorem toNat_sub_one_add_one {count : BitVec 16} (hne : count ≠ 0) :
    (count - 1).toNat + 1 = count.toNat := by
  bv_omega

/-- A pass of the loop is next. The values lie where the source points to, and can be written to
where the destination points to, one more of them than the counter says. Writing them changes
neither the code nor the values themselves. -/
structure Ready (size : Size) (counter source destination : Fin 8) (move count : Opcode)
    (values : List size.Value) (machine : Machine) : Prop where
  undisturbed : machine.Undisturbed
  lies : LiesAt move count ⟨machine.registers.supervisor, true⟩ machine.registers.pc machine.memory
  count : (Size.word.low (machine.registers.getD counter)).toNat + 1 = values.length
  reads : ∀ i (hi : i < values.length), machine.memory.read ⟨machine.registers.supervisor, false⟩
    (machine.registers.getA source + BitVec.ofNat 32 (size.bytes * i)) size = .ok values[i]
  writable : ∀ i < values.length, machine.memory.Writable ⟨machine.registers.supervisor, false⟩
    (machine.registers.getA destination + BitVec.ofNat 32 (size.bytes * i)) size
  code : machine.memory.Apart machine.registers.pc 6 (machine.registers.getA destination)
    (size.bytes * values.length)
  blocks : machine.memory.Apart (machine.registers.getA source) (size.bytes * values.length)
    (machine.registers.getA destination) (size.bytes * values.length)

section Block

variable {machine next : Machine} {value : size.Value} {rest : List size.Value}

/-- A pass copies the first value. -/
theorem Ready.exists_run_pass (h : CopyLoop size counter source destination move count)
    (hready : Ready size counter source destination move count (value :: rest) machine) :
    ∃ moved next, (step handlers).run machine = .ok .next moved ∧
      moved.registers.pc = machine.registers.pc + BitVec.ofNat 32 2 ∧
      (step handlers).run moved = .ok .next next ∧
      next.registers = passed source destination counter machine.registers value ∧
      machine.memory.write ⟨machine.registers.supervisor, false⟩
        (machine.registers.getA destination) size value = .ok () next.memory ∧
      next.Undisturbed := by
  have hread := hready.reads 0 (Nat.zero_lt_succ _)
  have hwritable := hready.writable 0 (Nat.zero_lt_succ _)
  rw [Nat.mul_zero, BitVec.add_zero] at hread hwritable
  obtain ⟨memory, hwrite⟩ := hwritable.exists_write rfl value
  have hfirst : size.bytes ≤ size.bytes * (value :: rest).length :=
    Nat.le_mul_of_pos_right _ (Nat.zero_lt_succ _)
  obtain ⟨moved, next, hmove, hpc, hnext, hregisters, rfl, hundisturbed⟩ :=
    CopyLoop.exists_run_pass h hready.undisturbed hready.lies (hready.code.second_head hfirst) hread
      hwrite
  exact ⟨moved, next, hmove, hpc, hnext, hregisters, hwrite, hundisturbed⟩

theorem Ready.low_ne_zero
    (hready : Ready size counter source destination move count (value :: rest) machine)
    (hrest : rest ≠ []) : Size.word.low (machine.registers.getD counter) ≠ (0 : BitVec 16) := by
  intro hzero
  have hcount := hready.count
  rw [hzero] at hcount
  exact (List.length_pos_iff.2 hrest).ne (Nat.succ.inj hcount)

/-- A pass that is not the last one leads back to the MOVE. -/
theorem passed_eq_of_ne_zero {registers : Registers}
    (hne : Size.word.low (registers.getD counter) ≠ (0 : BitVec 16)) :
    passed source destination counter registers value =
      registers.copied source destination counter size.bytes
        (Size.word.low (registers.getD counter) - 1) registers.pc
        (registers.flags.setResult (value.signExtend 32)) := by
  have hleft : Size.word.low (registers.getD counter) - 1 ≠ 0xFFFF := mt (sub_one_eq_iff _).1 hne
  rw [passed, if_neg hleft]

/-- The next pass begins at the MOVE again, with the pointer behind what has been copied. -/
theorem Ready.next_pass_begins
    (hready : Ready size counter source destination move count (value :: rest) machine)
    (hrest : rest ≠ [])
    (hregisters : next.registers = passed source destination counter machine.registers value) :
    next.registers.pc = machine.registers.pc ∧
      next.registers.supervisor = machine.registers.supervisor ∧
      next.registers.getA destination =
        machine.registers.getA destination + BitVec.ofNat 32 size.bytes := by
  rw [hregisters, passed_eq_of_ne_zero (hready.low_ne_zero hrest)]
  exact ⟨rfl, rfl, Registers.getA_destination_copied ..⟩

/-- After the pass, the same holds of the values that are left. -/
theorem Ready.of_pass (hne : source ≠ destination)
    (hready : Ready size counter source destination move count (value :: rest) machine)
    (hrest : rest ≠ [])
    (hregisters : next.registers = passed source destination counter machine.registers value)
    (hwrite : machine.memory.write ⟨machine.registers.supervisor, false⟩
      (machine.registers.getA destination) size value = .ok () next.memory)
    (hundisturbed : next.Undisturbed) :
    Ready size counter source destination move count rest next := by
  have hzero := hready.low_ne_zero hrest
  obtain ⟨hpc, hsupervisor, hdestination⟩ := hready.next_pass_begins hrest hregisters
  rw [passed_eq_of_ne_zero hzero] at hregisters
  have hsource : next.registers.getA source =
      machine.registers.getA source + BitVec.ofNat 32 size.bytes := by
    rw [hregisters]
    exact Registers.getA_source_copied _ hne ..
  have hcounter : Size.word.low (next.registers.getD counter) =
      Size.word.low (machine.registers.getD counter) - 1 := by
    rw [hregisters]
    exact Registers.low_getD_copied ..
  have hlayout := Space.layout_of_write size hwrite
  have hlength : size.bytes * (value :: rest).length = size.bytes + size.bytes * rest.length := by
    rw [List.length_cons, Nat.mul_succ, Nat.add_comm]
  have hnext (address : Address) (i : Nat) :
      address + BitVec.ofNat 32 size.bytes + BitVec.ofNat 32 (size.bytes * i) =
        address + BitVec.ofNat 32 (size.bytes * (i + 1)) := by
    rw [BitVec.add_assoc, ← BitVec.ofNat_add, Nat.mul_succ, Nat.add_comm]
  have hcode := hready.code
  have hblocks := hready.blocks
  rw [hlength] at hcode hblocks
  constructor
  case undisturbed => exact hundisturbed
  case lies =>
    rw [hpc, hsupervisor]
    exact hready.lies.of_write (hcode.second_head (Nat.le_add_right ..)) hwrite
  case count =>
    rw [hcounter]
    exact (toNat_sub_one_add_one hzero).trans (Nat.succ.inj hready.count)
  case reads =>
    intro i hi
    have hread := hready.reads (i + 1) (Nat.succ_lt_succ hi)
    have hpart : size.bytes * (i + 1) + size.bytes ≤ size.bytes * (value :: rest).length := by
      rw [← Nat.mul_succ]
      exact Nat.mul_le_mul_left _ (Nat.succ_lt_succ hi)
    have hapart := (hblocks.second_head (Nat.le_add_right ..)).first_part (size.bytes * (i + 1))
      size.bytes (hpart.trans_eq hlength)
    rw [hsupervisor, hsource, hnext, Space.read_write_of_apart hapart hwrite]
    exact hread
  case writable =>
    intro i hi
    obtain ⟨after, hafter⟩ :=
      (hready.writable (i + 1) (Nat.succ_lt_succ hi)).exists_write hlayout value
    rw [hsupervisor, hdestination, hnext]
    exact ⟨value, after, hafter⟩
  case code =>
    rw [hpc, hdestination]
    exact (hcode.second_part _ _ (Nat.le_refl _)).of_layout_eq hlayout
  case blocks =>
    rw [hsource, hdestination]
    have hparts := hblocks.parts _ _ _ _ (Nat.le_refl _) (Nat.le_refl _)
    exact hparts.of_layout_eq hlayout

/-- The two steps of a pass do not leave the loop before they are over. -/
theorem runFor_pass {moved : Machine} (hmove : (step handlers).run machine = .ok .next moved)
    (hpc : moved.registers.pc = machine.registers.pc + BitVec.ofNat 32 2)
    (hnext : (step handlers).run moved = .ok .next next) :
    (∀ limit, runFor handlers (limit + 2) machine = runFor handlers limit next) ∧
      ∀ steps < 2, ∃ middle, runFor handlers steps machine = (none, middle) ∧
        middle.registers.pc ≠ machine.registers.pc + BitVec.ofNat 32 6 := by
  refine ⟨fun limit ↦ ?_, fun steps hsteps ↦ ?_⟩
  · rw [runFor_succ_of_run hmove, runFor_succ_of_run hnext]
  · obtain rfl | rfl : steps = 0 ∨ steps = 1 := by omega
    · refine ⟨machine, rfl, fun heq ↦ ?_⟩
      have hadvanced :=
        (BitVec.add_right_inj machine.registers.pc).1 ((BitVec.add_zero _).trans heq)
      exact absurd hadvanced (by decide)
    · refine ⟨moved, runFor_succ_of_run hmove 0, fun heq ↦ ?_⟩
      have hadvanced := (BitVec.add_right_inj machine.registers.pc).1 (hpc.symm.trans heq)
      exact absurd hadvanced (by decide)

/-- The loop copies all the values, and is left then and not before. -/
theorem Ready.exists_runFor (h : CopyLoop size counter source destination move count)
    (hready : Ready size counter source destination move count (value :: rest) machine) :
    ∃ final, runFor handlers (2 * (rest.length + 1)) machine = (none, final) ∧
      final.registers = machine.registers.copied source destination counter
        (size.bytes * (rest.length + 1)) 0xFFFF (machine.registers.pc + BitVec.ofNat 32 6)
        (machine.registers.flags.setResult ((rest.getLastD value).signExtend 32)) ∧
      Space.Rising ⟨machine.registers.supervisor, false⟩ size (machine.registers.getA destination)
        (value :: rest) machine.memory final.memory ∧
      ∀ steps < 2 * (rest.length + 1), ∃ middle, runFor handlers steps machine = (none, middle) ∧
        middle.registers.pc ≠ machine.registers.pc + BitVec.ofNat 32 6 := by
  -- The induction is on the values that are left, with `Ready` as the invariant of the loop.
  induction rest generalizing value machine with
  | nil =>
    obtain ⟨moved, next, hmove, hpc, hnext, hregisters, hwrite, -⟩ := hready.exists_run_pass h
    obtain ⟨hrun, hearly⟩ := runFor_pass hmove hpc hnext
    have hzero : Size.word.low (machine.registers.getD counter) = (0 : BitVec 16) :=
      BitVec.eq_of_toNat_eq (Nat.succ.inj hready.count)
    have hleft : Size.word.low (machine.registers.getD counter) - 1 = 0xFFFF :=
      (sub_one_eq_iff _).2 hzero
    rw [passed, if_pos hleft, hleft] at hregisters
    refine ⟨next, hrun 0, ?_, ⟨next.memory, hwrite, rfl⟩, hearly⟩
    rw [List.length_nil, Nat.zero_add, Nat.mul_one]
    exact hregisters
  | cons value' rest ih =>
    obtain ⟨moved, next, hmove, hpc, hnext, hregisters, hwrite, hundisturbed⟩ :=
      hready.exists_run_pass h
    obtain ⟨hrun, hearly⟩ := runFor_pass hmove hpc hnext
    have hrest := List.cons_ne_nil value' rest
    have hready' := hready.of_pass h.ne hrest hregisters hwrite hundisturbed
    obtain ⟨final, hrun', hfinal, hrising, hearly'⟩ := ih hready'
    obtain ⟨hagain, hsupervisor, hdestination⟩ := hready.next_pass_begins hrest hregisters
    rw [passed_eq_of_ne_zero (hready.low_ne_zero hrest)] at hregisters
    have hbytes : size.bytes + size.bytes * (rest.length + 1) =
        size.bytes * ((value' :: rest).length + 1) := by
      rw [List.length_cons, Nat.mul_succ _ (rest.length + 1), Nat.add_comm]
    refine ⟨final, (hrun _).trans hrun', ?_, ⟨next.memory, hwrite, ?_⟩, fun steps hsteps ↦ ?_⟩
    · rw [hfinal, hagain, hregisters, Registers.copied_copied _ h.ne, hbytes, List.getLastD_cons]
      rfl
    · rw [← hsupervisor, ← hdestination]
      exact hrising
    · by_cases hfirst : steps < 2
      · exact hearly steps hfirst
      · obtain ⟨steps, rfl⟩ := Nat.exists_eq_add_of_le' (Nat.le_of_not_lt hfirst)
        rw [hrun, ← hagain]
        exact hearly' steps (by rw [List.length_cons] at hsteps; omega)

end Block

end CopyLoop

/-! ## Flat maps -/

/-- A block that has no byte at a place fits on the bus. -/
theorem Space.length_le_of_not_modEq {width : BusWidth} {address place : Address} {length : Nat}
    (h : ∀ j < length,
      ¬ place.toNat ≡ (address + BitVec.ofNat 32 j).toNat [MOD 2 ^ width.bits]) :
    length ≤ 2 ^ width.bits := by
  obtain ⟨offset, hoffset, hmod⟩ := width.exists_modEq_add_ofNat address place
  exact Nat.le_of_not_lt fun hlt ↦ h offset (hoffset.trans hlt) hmod

/-- A MOVE with post-increment on both sides and a DBF back to it copy one operand more than the
counter says, if the destination can be written and overlaps neither the source nor the code. The
instruction after the loop is reached after two steps for each operand and not before. Then the
destination holds what the source held, both pointers are behind their blocks, the low word of the
counter is minus one, and N, Z, V and C are those of the last operand, while X is as it was. No
other byte or register has changed. -/
theorem copy_loop_copies (size : Size) (counter source destination : Fin 8) (width : BusWidth)
    (layers : Layers) (values : List size.Value) (start : Machine) {move count : Opcode}
    (hloop : CopyLoop size counter source destination move count)
    (hundisturbed : start.Undisturbed)
    (hmemory : start.memory = .map width layers) (hsingle : layers.All Space.IsMemory)
    (hlies : CopyLoop.LiesAt move count ⟨start.registers.supervisor, true⟩ start.registers.pc
      start.memory)
    (hcount : (Size.word.low (start.registers.getD counter)).toNat + 1 = values.length)
    (hreads : ∀ i (hi : i < values.length), start.memory.read ⟨start.registers.supervisor, false⟩
      (start.registers.getA source + BitVec.ofNat 32 (size.bytes * i)) size = .ok values[i])
    (hwritable : ∀ i < values.length, start.memory.Writable ⟨start.registers.supervisor, false⟩
      (start.registers.getA destination + BitVec.ofNat 32 (size.bytes * i)) size)
    (hblocks : ∀ i < size.bytes * values.length, ∀ j < size.bytes * values.length,
      ¬ (start.registers.getA source + BitVec.ofNat 32 i).toNat ≡
        (start.registers.getA destination + BitVec.ofNat 32 j).toNat [MOD 2 ^ width.bits])
    (hcode : ∀ i < 6, ∀ j < size.bytes * values.length,
      ¬ (start.registers.pc + BitVec.ofNat 32 i).toNat ≡
        (start.registers.getA destination + BitVec.ofNat 32 j).toNat [MOD 2 ^ width.bits]) :
    ∃ final, runFor handlers (2 * values.length) start = (none, final) ∧
      (∀ steps < 2 * values.length, ∃ middle, runFor handlers steps start = (none, middle) ∧
        middle.registers.pc ≠ start.registers.pc + BitVec.ofNat 32 6) ∧
      final.registers = start.registers.copied source destination counter
        (size.bytes * values.length) 0xFFFF (start.registers.pc + BitVec.ofNat 32 6)
        (start.registers.flags.setResult ((values.getLastD 0).signExtend 32)) ∧
      final.registers.flags.ccr = { start.registers.flags.ccr with
        negative := (values.getLastD 0).msb
        zero := values.getLastD 0 == 0
        overflow := false
        carry := false } ∧
      (∀ code i (hi : i < values.length), final.memory.read code
        (start.registers.getA destination + BitVec.ofNat 32 (size.bytes * i)) size =
          .ok values[i]) ∧
      ∀ (code : FunctionCode) (other : Address),
        (∀ j < size.bytes * values.length, ¬ other.toNat ≡
          (start.registers.getA destination + BitVec.ofNat 32 j).toNat [MOD 2 ^ width.bits]) →
        final.memory.getByte code other = start.memory.getByte code other := by
  have hdistinct {first second : Address} (h : ¬ first.toNat ≡ second.toNat [MOD 2 ^ width.bits]) :
      start.memory.Distinct first second := by
    rw [hmemory]
    exact Space.distinct_of_not_modEq hsingle h
  -- A destination that went round the bus would meet the code.
  have hunaliased : start.memory.Unaliased (start.registers.getA destination)
      (size.bytes * values.length) := by
    rw [hmemory]
    exact (Space.unaliased_of_memories hsingle _).head
      (Space.length_le_of_not_modEq (hcode 0 (by decide)))
  have hready : CopyLoop.Ready size counter source destination move count values start :=
    ⟨hundisturbed, hlies, hcount, hreads, hwritable,
      fun i hi j hj ↦ hdistinct (hcode i hi j hj), fun i hi j hj ↦ hdistinct (hblocks i hi j hj)⟩
  cases values with
  | nil => cases hcount
  | cons value rest =>
    obtain ⟨final, hrun, hfinal, hrising, hearly⟩ := hready.exists_runFor hloop
    rw [List.getLastD_cons]
    refine ⟨final, hrun, hearly, hfinal, ?_, fun code i hi ↦ ?_, fun code other hother ↦ ?_⟩
    · rw [hfinal]
      exact Flags.ccr_setResult size.bits_le _ _
    · exact hrising.read_getElem code hunaliased hi
    · have hread : final.memory.read code other .byte = start.memory.read code other .byte := by
        refine hrising.read_of_apart fun i hi j hj ↦ ?_
        obtain rfl : i = 0 := Nat.lt_one_iff.1 hi
        rw [BitVec.add_zero]
        exact hdistinct (hother j hj)
      exact hread

/-- Copies three bytes while X is set. -/
def copyingProgram : Machine where
  registers :=
    { d := #v[0x12340002, 0, 0, 0, 0, 0, 0, 0]
      a := #v[0x100, 0x200, 0, 0, 0, 0, 0, 0]
      flags := .ofCcr { Ccr.clear with extend := true } }
  memory := .map (.clamp 24) (Layers.empty.insert (.clamp 24) 0 0x2000 (.ram
    { size := 0x2000
      written := .ofList [(0x00, (0x12 : Byte)), (0x01, 0xD8), (0x02, 0x51), (0x03, 0xC8),
        (0x04, 0xFF), (0x05, 0xFC), (0x100, 0x11), (0x101, 0x22), (0x102, 0x83)] }))

theorem copy_loop_copies_copyingProgram :
    ∃ final, runFor handlers 6 copyingProgram = (none, final) ∧
      final.registers.pc = 6 ∧ final.registers.getD 0 = 0x1234FFFF ∧
      final.registers.getA 0 = 0x103 ∧ final.registers.getA 1 = 0x203 ∧
      final.registers.flags.ccr = { Ccr.clear with extend := true, negative := true } ∧
      final.memory.read .userData 0x202 .byte = .ok (0x83 : Byte) ∧
      final.memory.getByte .userData 0x203 = .ok 0 := by
  have hmove : instructionSet.lookup 0x12D8 = some (.move .byte) := by
    rw [lookup_instructionSet]
    decide +kernel
  have hcount : instructionSet.lookup 0x51C8 = some .decrementAndBranch := by
    rw [lookup_instructionSet]
    decide +kernel
  have hloop : CopyLoop .byte 0 0 1 0x12D8 0x51C8 :=
    ⟨by decide, fun _ ↦ by decide, hmove, rfl, rfl, hcount, rfl, rfl⟩
  have hreads (i : Nat) (hi : i < 3) : copyingProgram.memory.read .supervisorData
      (0x100 + BitVec.ofNat 32 (Size.byte.bytes * i)) .byte =
        .ok ([0x11, 0x22, 0x83] : List Byte)[i] := by
    obtain rfl | rfl | rfl : i = 0 ∨ i = 1 ∨ i = 2 := by omega
    all_goals rfl
  have hwritable (i : Nat) (hi : i < 3) : copyingProgram.memory.Writable .supervisorData
      (0x200 + BitVec.ofNat 32 (Size.byte.bytes * i)) .byte := by
    obtain rfl | rfl | rfl : i = 0 ∨ i = 1 ∨ i = 2 := by omega
    all_goals exact ⟨(0 : Byte), _, rfl⟩
  obtain ⟨final, hrun, -, hregisters, hcodes, hcopied, hkept⟩ := copy_loop_copies .byte 0 0 1
    (.clamp 24) _ [0x11, 0x22, 0x83] copyingProgram hloop ⟨rfl, rfl⟩ rfl ⟨trivial, trivial⟩
    ⟨rfl, rfl, rfl⟩ rfl hreads hwritable (by decide +kernel) (by decide +kernel)
  refine ⟨final, hrun, ?_, ?_, ?_, ?_, hcodes.trans rfl, hcopied _ 2 (by decide),
    (hkept _ _ (by decide +kernel)).trans rfl⟩
  all_goals
    rw [hregisters]
    rfl

end M68000
