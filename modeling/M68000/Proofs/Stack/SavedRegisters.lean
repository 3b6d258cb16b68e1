import M68000.Proofs.Arithmetic.Performed
import M68000.Proofs.Memory.Series
import M68000.Proofs.Registers.Lists
import M68000.Proofs.Run.Instruction
import M68000.Proofs.Stack.Block

/-!
# Saved registers

MOVEM saves the registers of a list below an address register and restores them from there. The
list is reversed when they are saved, since the highest register is stored first.
-/

namespace M68000

open Exec Instruction

/-! ## Register lists -/

/-- A list and its reverse name the same registers, counted from the other end. -/
theorem map_rev_listed_reverse (list : BitVec 16) :
    (listed list.reverse).map Fin.rev = (listed list).reverse := by
  have hbit (number : Fin 16) : list.reverse.getLsbD number = list.getLsbD number.rev := by
    rw [BitVec.getLsbD_reverse, BitVec.getMsbD_eq_getLsbD, Fin.val_rev]
    simp
  rw [listed, listed, ← List.filter_reverse, List.finRange_reverse, List.filter_map]
  congr 2
  funext number
  exact hbit number

theorem ofNumber_rev_listed_reverse (list : BitVec 16) :
    (listed list.reverse).map (fun number ↦ Register.ofNumber number.rev) =
      (listedRegisters list).reverse := by
  rw [listedRegisters, ← List.map_reverse, ← map_rev_listed_reverse, List.map_map]
  rfl

theorem length_listedRegisters_le (list : BitVec 16) : (listedRegisters list).length ≤ 16 := by
  rw [listedRegisters, List.length_map]
  exact (List.length_filter_le ..).trans_eq List.length_finRange

/-! ## Register values -/

namespace Registers

variable (registers : Registers)

/-- Gives each register of a list a new value. -/
def setAll (value : Register → BitVec 32) (chosen : List Register) : Registers :=
  chosen.foldl (fun registers register ↦ registers.set register (value register)) registers

variable {value : Register → BitVec 32} {chosen : List Register}

theorem get_setAll (register : Register) :
    (registers.setAll value chosen).get register =
      if register ∈ chosen then value register else registers.get register := by
  induction chosen generalizing registers with
  | nil => rfl
  | cons first rest ih =>
    refine (ih (registers.set first (value first))).trans ?_
    rw [get_set]
    by_cases hrest : register ∈ rest
    · rw [if_pos hrest, if_pos (List.mem_cons_of_mem _ hrest)]
    · by_cases hfirst : register = first
      · rw [if_neg hrest, if_pos hfirst, if_pos (List.mem_cons.2 (.inl hfirst)), hfirst]
      · rw [if_neg hrest, if_neg hfirst, if_neg (by simp [hfirst, hrest])]

/-- Everything but the data and address registers is as before. -/
theorem exists_setAll_eq : ∃ d a, registers.setAll value chosen = { registers with d, a } := by
  induction chosen generalizing registers with
  | nil => exact ⟨registers.d, registers.a, rfl⟩
  | cons first rest ih =>
    obtain ⟨d, a, h⟩ := ih (registers.set first (value first))
    refine ⟨d, a, h.trans ?_⟩
    cases first <;> rfl

/-- The registers after an address register has been lowered, a list of registers has been loaded,
and that register has been raised again. -/
def reloaded (number : Fin 8) (lowered pc : Address) (value : Register → BitVec 32)
    (chosen : List Register) : Registers :=
  (({ registers.setA number lowered with pc }.setAll value chosen).setA number
    (registers.getA number)).advancePc 4

variable {number : Fin 8} {lowered pc : Address}

theorem exists_reloaded_eq :
    ∃ d a, registers.reloaded number lowered pc value chosen =
      { registers with d, a, pc := pc + BitVec.ofNat 32 4 } := by
  obtain ⟨d, a, h⟩ := exists_setAll_eq { registers.setA number lowered with pc }
  rw [reloaded, h]
  exact ⟨_, _, rfl⟩

/-- The address register is as it was, whether it is one of the loaded ones or not. -/
theorem get_reloaded (register : Register) :
    (registers.reloaded number lowered pc value chosen).get register =
      if register ∈ chosen ∧ register ≠ .address number then value register
      else registers.get register := by
  let saved : Registers := { registers.setA number lowered with pc }
  have hraised : (registers.reloaded number lowered pc value chosen).get register =
      if register = .address number then registers.getA number
      else (saved.setAll value chosen).get register :=
    (get_with_pc ..).trans (get_setA ..)
  have hlowered : saved.get register =
      if register = .address number then lowered else registers.get register :=
    (get_with_pc ..).trans (get_setA ..)
  rw [hraised, get_setAll, hlowered]
  by_cases hnumber : register = .address number
  · rw [if_pos hnumber, if_neg fun h ↦ h.2 hnumber, hnumber]
    rfl
  · rw [if_neg hnumber, if_neg hnumber]
    by_cases hchosen : register ∈ chosen
    · rw [if_pos hchosen, if_pos ⟨hchosen, hnumber⟩]
    · rw [if_neg hchosen, if_neg fun h ↦ hchosen h.1]

/-- Registers that are loaded with what they held are all as before. -/
theorem reloaded_eq (hvalue : ∀ register, value register = registers.get register) :
    registers.reloaded number lowered pc value chosen =
      { registers with pc := pc + BitVec.ofNat 32 4 } := by
  obtain ⟨d, a, h⟩ : ∃ d a, registers.reloaded number lowered pc value chosen =
      { registers with d, a, pc := pc + BitVec.ofNat 32 4 } := registers.exists_reloaded_eq
  have hget (register : Register) : ({ registers with d, a } : Registers).get register =
      registers.get register := by
    have hregister : (registers.reloaded number lowered pc value chosen).get register = _ :=
      registers.get_reloaded register
    rw [h, hvalue, ite_self] at hregister
    exact (get_with_pc ..).symm.trans hregister
  have hd : d = registers.d := Vector.ext fun i hi ↦ hget (.data ⟨i, hi⟩)
  have ha : a = registers.a := Vector.ext fun i hi ↦ hget (.address ⟨i, hi⟩)
  rw [h, hd, ha]

end Registers

/-! ## Storing -/

section Storing

variable {machine final : Machine} {size : Size} {top lowest address : Address}
  {chosen : List Register}

theorem storeDownward_append (size : Size) (top : Address) (first second : List Register) :
    storeDownward size top (first ++ second) =
      storeDownward size top first >>= (storeDownward size · second) := by
  induction first generalizing top with
  | nil => rfl
  | cons register rest ih =>
    simp only [List.cons_append, storeDownward, ih, bind_assoc]

/-- The parts of registers that are stored. -/
def Registers.lows (registers : Registers) (size : Size) (chosen : List Register) :
    List size.Value :=
  chosen.map fun register ↦ size.low (registers.get register)

theorem Registers.length_lows (registers : Registers) :
    (registers.lows size chosen).length = chosen.length :=
  List.length_map _

theorem Registers.getElem_lows (registers : Registers) {i : Nat} (hi : i < chosen.length)
    (hi' : i < (registers.lows size chosen).length) :
    (registers.lows size chosen)[i] = size.low (registers.get chosen[i]) :=
  List.getElem_map _

/-- All registers together take a small part of a page. -/
theorem fits_lows (registers : Registers) (size : Size) (list : BitVec 16) :
    size.bytes * (registers.lows size (listedRegisters list)).length ≤ 2 ^ pageBits := by
  have hlength := length_listedRegisters_le list
  have hbytes : size.bytes ≤ 4 := by cases size <;> decide
  rw [Registers.length_lows, pageBits]
  exact (Nat.mul_le_mul hbytes hlength).trans (by decide)

/-- Registers that are stored at falling addresses lie there from the lowest address on. -/
theorem exists_of_run_storeDownward
    (hrun : (storeDownward size top chosen.reverse).run machine = .ok lowest final) :
    lowest = top - BitVec.ofNat 32 (size.bytes * chosen.length) ∧ ∃ memory trace,
      Space.Falling machine.dataCode size lowest (machine.registers.lows size chosen)
        machine.memory memory ∧
      final = { machine with memory, trace } := by
  induction chosen generalizing lowest final with
  | nil =>
    cases hrun
    exact ⟨(BitVec.sub_zero _).symm, machine.memory, machine.trace, rfl, rfl⟩
  | cons register rest ih =>
    rw [List.reverse_cons, storeDownward_append] at hrun
    obtain ⟨address, _, hrest, hfirst⟩ := run_bind_eq_ok.1 hrun
    obtain ⟨rfl, middle, trace, hfalling, rfl⟩ := ih hrest
    obtain ⟨_, _, hregisters, hfirst⟩ := run_bind_eq_ok.1 hfirst
    cases hregisters
    obtain ⟨_, _, hdone, hfirst⟩ := run_bind_eq_ok.1 hfirst
    obtain ⟨memory, hwrite, rfl⟩ := run_writeAs_eq_ok.1 hdone
    cases hfirst
    refine ⟨?_, memory, _, ⟨middle, ?_, hwrite⟩, rfl⟩
    · rw [BitVec.sub_sub, ← BitVec.ofNat_add, List.length_cons, Nat.mul_succ]
    · rw [BitVec.sub_add_cancel]
      exact hfalling

/-- Registers can be stored at rising addresses if their values can be written there. -/
theorem exists_run_storeUpward {memory : Space}
    (h : Space.Rising machine.dataCode size address (machine.registers.lows size chosen)
      machine.memory memory) :
    ∃ trace, (storeUpward size address chosen).run machine =
      .ok () { machine with memory, trace } := by
  induction chosen generalizing machine address with
  | nil =>
    obtain rfl : memory = machine.memory := h
    exact ⟨machine.trace, rfl⟩
  | cons register rest ih =>
    obtain ⟨middle, hwrite, hrest⟩ := h
    obtain ⟨trace, hstored⟩ : ∃ trace,
        (write size address (size.low (machine.registers.get register))).run machine =
          .ok () { machine with memory := middle, trace } :=
      ⟨_, run_writeAs_eq_ok.2 ⟨middle, hwrite, rfl⟩⟩
    let stored : Machine := { machine with memory := middle, trace }
    have hrest : Space.Rising stored.dataCode size (address + BitVec.ofNat 32 size.bytes)
        (stored.registers.lows size rest) stored.memory memory := hrest
    obtain ⟨trace', hrun⟩ := ih hrest
    exact ⟨trace', run_bind_eq_ok.2 ⟨_, _, rfl, run_bind_eq_ok.2 ⟨(), _, hstored, hrun⟩⟩⟩

end Storing

/-! ## Loading -/

section Loading

variable {machine : Machine} {size : Size} {address : Address} {chosen : List Register}
  {value : Register → size.Value}

/-- What lies at rising addresses can be loaded. -/
theorem exists_run_loadUpward
    (hreads : ∀ i (hi : i < chosen.length), machine.memory.read machine.dataCode
      (address + BitVec.ofNat 32 (size.bytes * i)) size = .ok (value chosen[i])) :
    ∃ trace, (loadUpward size false address chosen).run machine =
      .ok (address + BitVec.ofNat 32 (size.bytes * chosen.length)) { machine with
        registers := machine.registers.setAll (fun register ↦ (value register).signExtend 32) chosen
        trace } := by
  induction chosen generalizing machine address with
  | nil =>
    rw [List.length_nil, Nat.mul_zero, BitVec.add_zero]
    exact ⟨_, rfl⟩
  | cons register rest ih =>
    have hfirst : machine.memory.read machine.dataCode address size = .ok (value register) := by
      have hread := hreads 0 (Nat.zero_lt_succ _)
      rwa [Nat.mul_zero, BitVec.add_zero] at hread
    obtain ⟨trace, hread⟩ : ∃ trace,
        (read size address).run machine = .ok (value register) { machine with trace } :=
      ⟨_, run_readAs_eq_ok.2 ⟨hfirst, rfl⟩⟩
    let loaded : Machine := { machine with
      registers := machine.registers.set register ((value register).signExtend 32), trace }
    have hrest (i : Nat) (hi : i < rest.length) : loaded.memory.read loaded.dataCode
        (address + BitVec.ofNat 32 size.bytes + BitVec.ofNat 32 (size.bytes * i)) size =
          .ok (value rest[i]) := by
      have hread := hreads (i + 1) (Nat.succ_lt_succ hi)
      rw [Nat.mul_succ, Nat.add_comm, BitVec.ofNat_add, ← BitVec.add_assoc] at hread
      exact hread
    obtain ⟨trace', hrun⟩ := ih hrest
    rw [BitVec.add_assoc, ← BitVec.ofNat_add, Nat.add_comm, ← Nat.mul_succ] at hrun
    exact ⟨trace', run_bind_eq_ok.2 ⟨_, _, hread, run_bind_eq_ok.2 ⟨(), loaded, rfl, hrun⟩⟩⟩

end Loading

/-! ## The instructions -/

section Instructions

variable (machine : Machine) {final : Machine} {size : Size} {opcode : Opcode} {number : Fin 8}
  {list : BitVec 16}

/-- Saving the registers of a list below an address register lowers that register. -/
theorem exists_of_run_storeMultiple
    (hmode : Mode.ofField? opcode.operandField = some (.preDecrement number))
    (hlist : machine.memory.read machine.programCode
      (machine.registers.pc + BitVec.ofNat 32 2) .word = .ok list.reverse)
    (hrun : (storeMultiple size opcode).run machine = .ok () final) :
    let lowered := machine.registers.getA number -
      BitVec.ofNat 32 (size.bytes * (listedRegisters list).length)
    ∃ memory trace,
      Space.Falling machine.dataCode size lowered
        (machine.registers.lows size (listedRegisters list)) machine.memory memory ∧
      final = { machine with
        registers := (machine.registers.setA number lowered).advancePc 4, memory, trace } := by
  obtain ⟨found, _, hfetch, hrun⟩ := run_bind_eq_ok.1 hrun
  obtain ⟨trace, hfound, rfl⟩ := exists_of_run_readAs hfetch
  obtain rfl : found = list.reverse := Except.ok.inj (hfound.symm.trans hlist)
  replace hrun := Operand.run_of_ofField? hmode hrun
  obtain ⟨top, _, htop, hrun⟩ := run_bind_eq_ok.1 hrun
  cases htop
  obtain ⟨lowest, _, hstore, hrun⟩ := run_bind_eq_ok.1 hrun
  rw [ofNumber_rev_listed_reverse] at hstore
  obtain ⟨rfl, memory, trace', hfalling, rfl⟩ := exists_of_run_storeDownward hstore
  cases hrun
  exact ⟨memory, trace', hfalling, rfl⟩

/-- A list that can be read is fetched, and then the operand decoded. -/
theorem exists_run_fetch_list {mode : Mode} (hmode : Mode.ofField? opcode.operandField = some mode)
    (hlist : machine.memory.read machine.programCode
      (machine.registers.pc + BitVec.ofNat 32 2) .word = .ok list) :
    ∃ trace, (fetchWord 2).run machine = .ok list { machine with trace } ∧
      (Operand.ofField size opcode.operandField 4).run { machine with trace } =
        .ok ⟨mode, 4⟩ { machine with trace } := by
  refine ⟨_, run_readAs_eq_ok.2 ⟨hlist, rfl⟩, ?_⟩
  rw [Operand.ofField, hmode]
  rfl

/-- The registers of a list can be stored from the address in a register on if their values can be
written there. -/
theorem exists_run_storeMultiple {memory : Space}
    (hmode : Mode.ofField? opcode.operandField = some (.indirect number))
    (hlist : machine.memory.read machine.programCode
      (machine.registers.pc + BitVec.ofNat 32 2) .word = .ok list)
    (h : Space.Rising machine.dataCode size (machine.registers.getA number)
      (machine.registers.lows size (listedRegisters list)) machine.memory memory) :
    ∃ trace, (storeMultiple size opcode).run machine =
      .ok () { machine with registers := machine.registers.advancePc 4, memory, trace } := by
  obtain ⟨trace, hfetch, hfield⟩ := exists_run_fetch_list machine hmode hlist
  let fetched : Machine := { machine with trace }
  have hrising : Space.Rising fetched.dataCode size (machine.registers.getA number)
      (fetched.registers.lows size (listedRegisters list)) fetched.memory memory := h
  obtain ⟨trace', hstore⟩ := exists_run_storeUpward hrising
  exact ⟨trace', run_bind_eq_ok.2 ⟨list, fetched, hfetch, run_bind_eq_ok.2 ⟨_, fetched, hfield,
    run_bind_eq_ok.2 ⟨_, fetched, rfl, run_bind_eq_ok.2 ⟨(), _, hstore, rfl⟩⟩⟩⟩⟩

/-- Restoring registers from an address register on raises that register, whatever it has been
loaded with. -/
theorem exists_run_loadMultiple {value : Register → size.Value}
    (hmode : Mode.ofField? opcode.operandField = some (.postIncrement number))
    (hlist : machine.memory.read machine.programCode
      (machine.registers.pc + BitVec.ofNat 32 2) .word = .ok list)
    (hreads : ∀ i (hi : i < (listedRegisters list).length), machine.memory.read machine.dataCode
      (machine.registers.getA number + BitVec.ofNat 32 (size.bytes * i)) size =
        .ok (value (listedRegisters list)[i])) :
    let loaded := machine.registers.setAll (fun register ↦ (value register).signExtend 32)
      (listedRegisters list)
    let raised := machine.registers.getA number +
      BitVec.ofNat 32 (size.bytes * (listedRegisters list).length)
    ∃ trace, (loadMultiple size opcode).run machine = .ok () { machine with
      registers := (loaded.setA number raised).advancePc 4, trace } := by
  obtain ⟨trace, hfetch, hfield⟩ := exists_run_fetch_list machine hmode hlist
  let fetched : Machine := { machine with trace }
  have hreads' : ∀ i (hi : i < (listedRegisters list).length), fetched.memory.read fetched.dataCode
      (fetched.registers.getA number + BitVec.ofNat 32 (size.bytes * i)) size =
        .ok (value (listedRegisters list)[i]) := hreads
  obtain ⟨trace', hload⟩ := exists_run_loadUpward hreads'
  exact ⟨trace', run_bind_eq_ok.2 ⟨list, fetched, hfetch, run_bind_eq_ok.2 ⟨_, fetched, hfield,
    run_bind_eq_ok.2 ⟨_, fetched, rfl, run_bind_eq_ok.2 ⟨_, _, hload, rfl⟩⟩⟩⟩⟩

end Instructions

/-! ## Saving and restoring -/

/-- The next instruction is a MOVEM with an operand of the mode and the list in its second word. -/
structure Machine.MeetsMultiple (machine before : Machine) (operation : Operation) (mode : Mode)
    (list : BitVec 16) (opcode : Opcode) : Prop where
  meets : machine.Meets before opcode operation
  mode : Mode.ofField? opcode.operandField = some mode
  list : before.memory.read ⟨before.registers.supervisor, true⟩
    (before.registers.pc + BitVec.ofNat 32 2) .word = .ok list

section Steps

variable {machine before final : Machine} {progress : Progress} {size : Size} {opcode : Opcode}
  {number : Fin 8} {list : BitVec 16}

/-- A step that saves registers. -/
theorem exists_of_run_step_store
    (h : machine.MeetsMultiple before (.storeMultiple size) (.preDecrement number) list.reverse
      opcode)
    (hrun : (step handlers).run machine = .ok progress final) :
    let lowered := before.registers.getA number -
      BitVec.ofNat 32 (size.bytes * (listedRegisters list).length)
    final.registers = (before.registers.setA number lowered).advancePc 4 ∧
      Space.Falling ⟨before.registers.supervisor, false⟩ size lowered
        (before.registers.lows size (listedRegisters list)) before.memory final.memory := by
  obtain ⟨trace, performed, exitRequest, hexecute, rfl⟩ := h.meets.exists_of_run_step hrun
  have hsync := busSupervisor_of_run_acceptInterrupt h.meets.accepted
  have hlist := h.list
  rw [← hsync] at hlist ⊢
  obtain ⟨memory, trace', hfalling, rfl⟩ :=
    exists_of_run_storeMultiple { before with opcode, trace } h.mode hlist hexecute
  exact ⟨rfl, hfalling⟩

/-- A step that restores registers is done if they can be read. -/
theorem exists_run_step_load (value : Register → size.Value)
    (h : machine.MeetsMultiple before (.loadMultiple size) (.postIncrement number) list opcode)
    (hreads : ∀ code i (hi : i < (listedRegisters list).length), before.memory.read code
      (before.registers.getA number + BitVec.ofNat 32 (size.bytes * i)) size =
        .ok (value (listedRegisters list)[i])) :
    let loaded := before.registers.setAll (fun register ↦ (value register).signExtend 32)
      (listedRegisters list)
    let raised := before.registers.getA number +
      BitVec.ofNat 32 (size.bytes * (listedRegisters list).length)
    ∃ progress final, (step handlers).run machine = .ok progress final ∧
      final.registers = (loaded.setA number raised).advancePc 4 ∧
      final.memory = before.memory := by
  obtain ⟨trace, hstep⟩ := h.meets.exists_run_step
  have hsync := busSupervisor_of_run_acceptInterrupt h.meets.accepted
  have hlist := h.list
  rw [← hsync] at hlist
  obtain ⟨trace', hexecute⟩ := exists_run_loadMultiple { before with opcode, trace } h.mode hlist
    (hreads _)
  obtain ⟨progress, exitRequest, hrun⟩ := hstep _ hexecute
  exact ⟨progress, _, hrun, rfl, rfl⟩

/-- A step that stores registers from the address in another register on is done if their values can
be written there. -/
theorem exists_run_step_store {memory : Space}
    (h : machine.MeetsMultiple before (.storeMultiple size) (.indirect number) list opcode)
    (hrising : Space.Rising ⟨before.registers.supervisor, false⟩ size
      (before.registers.getA number) (before.registers.lows size (listedRegisters list))
      before.memory memory) :
    ∃ progress final, (step handlers).run machine = .ok progress final ∧
      final.memory = memory := by
  obtain ⟨trace, hstep⟩ := h.meets.exists_run_step
  have hsync := busSupervisor_of_run_acceptInterrupt h.meets.accepted
  have hlist := h.list
  rw [← hsync] at hlist hrising
  obtain ⟨trace', hexecute⟩ :=
    exists_run_storeMultiple { before with opcode, trace } h.mode hlist hrising
  obtain ⟨progress, exitRequest, hrun⟩ := hstep _ hexecute
  exact ⟨progress, _, hrun, rfl⟩

end Steps

section Saved

variable {before storing reloading other next : Machine} {saved : Space} {size : Size}
  {number base : Fin 8} {list : BitVec 16} {opcode : Opcode} {lowered pc : Address}

/-- Registers that have been stored at falling addresses can be stored at rising ones from the
lowest on, which leaves the same bytes. -/
theorem exists_run_step_store_alike
    (hfalling : Space.Falling ⟨before.registers.supervisor, false⟩ size lowered
      (before.registers.lows size (listedRegisters list)) before.memory saved)
    (h : other.MeetsMultiple storing (.storeMultiple size) (.indirect base) list opcode)
    (hbase : list.getLsbD (8 + base) = false) (hmemory : storing.memory = before.memory)
    (hregisters : storing.registers = { before.registers.setA base lowered with pc }) :
    ∃ progress stored, (step handlers).run other = .ok progress stored ∧
      ∀ code address, stored.memory.getByte code address = saved.getByte code address := by
  have hlows : storing.registers.lows size (listedRegisters list) =
      before.registers.lows size (listedRegisters list) := by
    refine List.map_congr_left fun register hregister ↦ ?_
    have hne : register ≠ .address base :=
      fun heq ↦ address_not_mem_listedRegisters hbase (heq ▸ hregister)
    rw [hregisters, Registers.get_with_pc]
    exact congrArg size.low ((Registers.get_setA ..).trans (if_neg hne))
  have hlowest : storing.registers.getA base = lowered := by
    rw [hregisters]
    exact before.registers.getA_setA_self base lowered
  have hsupervisor : storing.registers.supervisor = before.registers.supervisor := by
    rw [hregisters]
    rfl
  obtain ⟨written, hrising⟩ := hfalling.exists_rising rfl
  have hrising' : Space.Rising ⟨storing.registers.supervisor, false⟩ size
      (storing.registers.getA base) (storing.registers.lows size (listedRegisters list))
      storing.memory written := by
    rw [hlows, hlowest, hsupervisor, hmemory]
    exact hrising
  obtain ⟨progress, stored, hrun, rfl⟩ := exists_run_step_store h hrising'
  refine ⟨progress, stored, hrun, fun code address ↦ ?_⟩
  have hmatches : before.memory.MatchesAt code address before.memory := ⟨rfl, rfl⟩
  exact (hmatches.rising_falling (fits_lows ..) hrising hfalling).byte.symm

/-- Registers that lie at rising addresses from a lowered address register on are restored. -/
theorem exists_run_step_restore
    (hreads : ∀ code i (hi : i < (listedRegisters list).length),
      saved.read code (before.registers.getA number -
        BitVec.ofNat 32 (size.bytes * (listedRegisters list).length) +
          BitVec.ofNat 32 (size.bytes * i)) size =
        .ok (size.low (before.registers.get (listedRegisters list)[i])))
    (h : next.MeetsMultiple reloading (.loadMultiple size) (.postIncrement number) list opcode)
    (hmemory : reloading.memory = saved)
    (hregisters : reloading.registers = { before.registers.setA number (before.registers.getA number
      - BitVec.ofNat 32 (size.bytes * (listedRegisters list).length)) with pc }) :
    ∃ progress final, (step handlers).run next = .ok progress final ∧ final.memory = saved ∧
      final.registers = before.registers.reloaded number (before.registers.getA number -
        BitVec.ofNat 32 (size.bytes * (listedRegisters list).length)) pc
        (fun register ↦ (size.low (before.registers.get register)).signExtend 32)
        (listedRegisters list) := by
  have hnumber : reloading.registers.getA number = before.registers.getA number -
      BitVec.ofNat 32 (size.bytes * (listedRegisters list).length) := by
    rw [hregisters]
    exact before.registers.getA_setA_self number _
  have hreads' : ∀ code i (hi : i < (listedRegisters list).length), reloading.memory.read code
      (reloading.registers.getA number + BitVec.ofNat 32 (size.bytes * i)) size =
        .ok (size.low (before.registers.get (listedRegisters list)[i])) := by
    rw [hmemory, hnumber]
    exact hreads
  obtain ⟨progress, final, hrun, hloaded, hkept⟩ := exists_run_step_load
    (fun register ↦ size.low (before.registers.get register)) h hreads'
  rw [hnumber, BitVec.sub_add_cancel, hregisters] at hloaded
  exact ⟨progress, final, hrun, hkept.trans hmemory, hloaded⟩

end Saved

/-- Registers that MOVEM has saved below an address register are restored by MOVEM from there if
nothing changes in between, in any memory. Long words give back all registers, words the low words
with their signs extended, and the address register is as before even if it is in the list itself.
In between it is lower by the bytes stored, and the registers lie there in ascending order, byte for
byte as a MOVEM upward from the same address would have stored them. -/
theorem saved_registers_restored (size : Size) (number : Fin 8) (list : BitVec 16)
    {start before saved : Machine} {progress : Progress} {opcode : Opcode}
    (hstore : start.MeetsMultiple before (.storeMultiple size) (.preDecrement number) list.reverse
      opcode)
    (hsaved : (step handlers).run start = .ok progress saved) :
    let chosen := listedRegisters list
    let lowered := before.registers.getA number - BitVec.ofNat 32 (size.bytes * chosen.length)
    saved.registers = (before.registers.setA number lowered).advancePc 4 ∧
    (∀ code i (hi : i < chosen.length),
      saved.memory.read code (lowered + BitVec.ofNat 32 (size.bytes * i)) size =
        .ok (size.low (before.registers.get chosen[i]))) ∧
    (∀ (other storing : Machine) (base : Fin 8) (opcode : Opcode),
      other.MeetsMultiple storing (.storeMultiple size) (.indirect base) list opcode →
      list.getLsbD (8 + base) = false → storing.memory = before.memory →
      (∃ pc, storing.registers = { before.registers.setA base lowered with pc }) →
      ∃ progress stored, (step handlers).run other = .ok progress stored ∧
        ∀ code address, stored.memory.getByte code address = saved.memory.getByte code address) ∧
    ∀ (next reloading : Machine) (opcode : Opcode),
      next.MeetsMultiple reloading (.loadMultiple size) (.postIncrement number) list opcode →
      reloading.memory = saved.memory →
      (∃ pc, reloading.registers = { saved.registers with pc }) →
      ∃ progress final, (step handlers).run next = .ok progress final ∧
        final.memory = saved.memory ∧
        (∃ d a, final.registers =
          { before.registers with d, a, pc := reloading.registers.pc + BitVec.ofNat 32 4 }) ∧
        (∀ register, final.registers.get register =
          if register ∈ chosen ∧ register ≠ .address number then
            (size.low (before.registers.get register)).signExtend 32
          else before.registers.get register) ∧
        (size = .long → final.registers =
          { before.registers with pc := reloading.registers.pc + BitVec.ofNat 32 4 }) := by
  intro chosen lowered
  obtain ⟨hlowered, hfalling⟩ := exists_of_run_step_store hstore hsaved
  have hreads (code : FunctionCode) (i : Nat) (hi : i < chosen.length) :
      saved.memory.read code (lowered + BitVec.ofNat 32 (size.bytes * i)) size =
        .ok (size.low (before.registers.get chosen[i])) := by
    have hi' : i < (before.registers.lows size chosen).length :=
      Nat.lt_of_lt_of_eq hi before.registers.length_lows.symm
    rw [← before.registers.getElem_lows hi hi']
    exact hfalling.read_getElem code (Space.unaliased_of_page _ (fits_lows ..)) hi'
  refine ⟨hlowered, hreads, ?_, ?_⟩
  · rintro other storing base opcode hother hbase hmemory ⟨pc, hregisters⟩
    exact exists_run_step_store_alike hfalling hother hbase hmemory hregisters
  · rintro next reloading opcode hnext hmemory ⟨pc, hregisters⟩
    rw [hlowered] at hregisters
    obtain ⟨progress, final, hrun, hkept, hreloaded⟩ :=
      exists_run_step_restore hreads hnext hmemory hregisters
    have hpc : reloading.registers.pc = pc := by rw [hregisters]
    obtain ⟨d, a, hshape⟩ := before.registers.exists_reloaded_eq
    rw [hpc]
    refine ⟨progress, final, hrun, hkept, ⟨d, a, hreloaded.trans hshape⟩, fun register ↦ ?_, ?_⟩
    · rw [hreloaded]
      exact before.registers.get_reloaded register
    · rintro rfl
      rw [hreloaded]
      refine before.registers.reloaded_eq fun register ↦ ?_
      change ((before.registers.get register).setWidth 32).signExtend 32 = _
      rw [BitVec.setWidth_eq, BitVec.signExtend_eq]

/-- Saves a data register and the base register itself, and restores them. -/
def savingProgram : Machine where
  registers := { d := #v[0, 0x12345678, 0, 0, 0, 0, 0, 0], a := #v[0, 0, 0, 0x40, 0, 0, 0, 0] }
  memory := .ram
    { size := 0x40
      written := .ofList [(0x00, (0x48 : Byte)), (0x01, 0xE3), (0x02, 0x40), (0x03, 0x10),
        (0x04, 0x4C), (0x05, 0xDB), (0x06, 0x08), (0x07, 0x02)] }

theorem saved_registers_restored_savingProgram :
    ∃ saved progress final, (step handlers).run savingProgram = .ok .next saved ∧
      (step handlers).run saved = .ok progress final ∧
      saved.registers.getA 3 = 0x38 ∧
      saved.memory.read .userData 0x38 .long = .ok (0x12345678 : BitVec 32) ∧
      saved.memory.read .userData 0x3C .long = .ok (0x40 : BitVec 32) ∧
      final.registers = { savingProgram.registers with pc := 8 } := by
  have hstore : instructionSet.lookup 0x48E3 = some (.storeMultiple .long) := by
    rw [lookup_instructionSet]
    decide +kernel
  have hload : instructionSet.lookup 0x4CDB = some (.loadMultiple .long) := by
    rw [lookup_instructionSet]
    decide +kernel
  have hsave : savingProgram.MeetsMultiple savingProgram (.storeMultiple .long) (.preDecrement 3)
      (BitVec.reverse 0x0802) 0x48E3 :=
    ⟨⟨rfl, rfl, hstore⟩, rfl, rfl⟩
  obtain ⟨saved, hsaved, haccept⟩ : ∃ saved,
      (step handlers).run savingProgram = .ok .next saved ∧
      acceptInterrupt.run saved.syncPrivilege = .ok () saved :=
    ⟨_, run_step_of_lookup hstore rfl rfl rfl, rfl⟩
  obtain ⟨hlowered, hreads, -, hrestores⟩ := saved_registers_restored .long 3 0x0802 hsave hsaved
  obtain ⟨-, hfalling⟩ := exists_of_run_step_store hsave hsaved
  have hkept (address : Address) (hapart : address.Apart 2 0x38 8) :
      saved.memory.read .supervisorProgram address .word =
        savingProgram.memory.read .supervisorProgram address .word :=
    hfalling.read_of_apart (Space.apart_of_places _ hapart)
  have hrestore : saved.MeetsMultiple saved (.loadMultiple .long) (.postIncrement 3) 0x0802
      0x4CDB := by
    refine ⟨⟨haccept, ?_, hload⟩, rfl, ?_⟩
    · rw [hlowered]
      exact hkept 4 (by unfold Address.Apart; decide)
    · rw [hlowered]
      exact hkept 6 (by unfold Address.Apart; decide)
  obtain ⟨progress, final, hfinal, -, -, -, hregisters⟩ :=
    hrestores saved saved 0x4CDB hrestore rfl ⟨_, rfl⟩
  refine ⟨saved, progress, final, hsaved, hfinal, ?_, hreads _ 0 (by decide),
    hreads _ 1 (by decide), ?_⟩
  · rw [hlowered]
    rfl
  · rw [hregisters rfl, hlowered]
    rfl

end M68000
