import M68000.Proofs.Chained.Instruction
import M68000.Proofs.Memory.Writable
import M68000.Proofs.Chained.Number
import M68000.Proofs.Stack.Instructions

/-!
# Nested calls and frames

Code that is built from calls with their returns and from frames that are set up and taken down
again, nested in any way. Where it is laid out in memory, and where it can stack what it has to
stack without overwriting itself, it runs to its end. Every call is returned from, every frame
pointer is restored, and nothing is left changed but long words below the stack pointer.
-/

namespace M68000

open Exec

/-! ## Registers -/

namespace Registers

variable (registers : Registers)

/-- The registers in a subroutine, with the return address stacked. -/
def called (target : Address) : Registers :=
  { registers.setA stackPointer (registers.getA stackPointer - BitVec.ofNat 32 4) with
    pc := target }

/-- A return undoes a call. -/
theorem returned_called (target : Address) (length bytes : Nat) :
    let inside := (registers.called target).advancePc length
    { inside.setA stackPointer (inside.getA stackPointer + BitVec.ofNat 32 4) with
      pc := registers.pc + BitVec.ofNat 32 bytes } = registers.advancePc bytes := by
  have htop : ((registers.called target).advancePc length).getA stackPointer =
      registers.getA stackPointer - BitVec.ofNat 32 4 := getA_setA_self ..
  have hraised (value : Address) :
      { ((registers.called target).advancePc length).setA stackPointer value with
        pc := registers.pc + BitVec.ofNat 32 bytes } =
      (registers.setA stackPointer value).advancePc bytes :=
    congrArg (advancePc · bytes) (registers.setA_setA stackPointer _ value)
  intro inside
  rw [hraised, htop, BitVec.sub_add_cancel, setA_getA_self]

/-- The registers in a frame, with the frame pointer stacked. -/
def framed (number : Fin 8) (displacement : BitVec 16) : Registers :=
  let frame := registers.getA stackPointer - BitVec.ofNat 32 4
  ((registers.setA number frame).setA stackPointer
    (frame + displacement.signExtend 32)).advancePc 4

section Framed

variable {number : Fin 8} (hne : number ≠ stackPointer) (displacement : BitVec 16) (length : Nat)

include hne

theorem getA_framed : (registers.framed number displacement).getA number =
    registers.getA stackPointer - BitVec.ofNat 32 4 :=
  (getA_setA_of_ne _ hne _).trans (getA_setA_self ..)

/-- UNLK undoes LINK. -/
theorem unlinked_framed :
    let inside := (registers.framed number displacement).advancePc length
    ((inside.setA stackPointer (inside.getA number + BitVec.ofNat 32 4)).setA number
      (registers.getA number)).advancePc 2 = registers.advancePc (4 + length + 2) := by
  have hframe : ((registers.framed number displacement).advancePc length).getA number =
      registers.getA stackPointer - BitVec.ofNat 32 4 := registers.getA_framed hne displacement
  have hset : (((registers.framed number displacement).setA stackPointer
      (registers.getA stackPointer)).setA number (registers.getA number)) =
        registers.advancePc 4 := by
    change advancePc ((((registers.setA number _).setA stackPointer _).setA stackPointer
      (registers.getA stackPointer)).setA number (registers.getA number)) 4 = _
    rw [setA_setA, setA_comm _ hne, setA_setA, setA_getA_self, setA_getA_self]
  intro inside
  rw [hframe, BitVec.sub_add_cancel]
  calc
    _ = ((((registers.framed number displacement).setA stackPointer
          (registers.getA stackPointer)).setA number
            (registers.getA number)).advancePc length).advancePc 2 := rfl
    _ = registers.advancePc (4 + length + 2) := by
      rw [hset]
      simp only [advancePc, BitVec.ofNat_add, BitVec.add_assoc]

end Framed

end Registers

/-! ## Changes of long words -/

namespace Space

/-- Nothing changes outside the long words at some places. -/
structure ChangesOnly (places : List Address) (before after : Space) : Prop where
  layout : after.layout = before.layout
  reads : ∀ code other size, (∀ place ∈ places, before.Apart other size.bytes place 4) →
    after.read code other size = before.read code other size

namespace ChangesOnly

variable {places places' : List Address} {before middle after : Space}

theorem refl (places : List Address) (space : Space) : ChangesOnly places space space :=
  ⟨rfl, fun _ _ _ _ ↦ rfl⟩

theorem of_write {code : FunctionCode} {address : Address} {value : Size.long.Value}
    (h : before.write code address .long value = .ok () after) :
    ChangesOnly [address] before after :=
  ⟨layout_of_write .long h, fun _ _ _ hapart ↦
    read_write_of_apart (hapart address List.mem_cons_self) h⟩

theorem mono (h : ChangesOnly places before after) (hsubset : places ⊆ places') :
    ChangesOnly places' before after :=
  ⟨h.layout, fun code other size hapart ↦
    h.reads code other size fun place hplace ↦ hapart place (hsubset hplace)⟩

theorem trans (hfirst : ChangesOnly places before middle)
    (hsecond : ChangesOnly places middle after) : ChangesOnly places before after := by
  refine ⟨hsecond.layout.trans hfirst.layout, fun code other size hapart ↦ ?_⟩
  rw [hsecond.reads code other size fun place hplace ↦
    (hapart place hplace).of_layout_eq hfirst.layout, hfirst.reads code other size hapart]

end ChangesOnly

end Space

/-! ## Blocks -/

/-- Instructions that are executed in a row, with those of subroutines in between. -/
inductive Block where
  | empty
  | append (first second : Block)
  | call (form : CallForm) (body : Block)
  | frame (number : Fin 8) (displacement : BitVec 16) (body : Block)

namespace Block

/-- Bytes that the block takes up in a row. The bodies of its subroutines lie elsewhere. -/
def bytes : Block → Nat
  | empty => 0
  | append first second => first.bytes + second.bytes
  | call form _ => form.bytes
  | frame _ _ body => 4 + body.bytes + 2

/-- How far below the stack pointer the block stacks its long words. -/
def stacked : Block → List Nat
  | empty => []
  | append first second => first.stacked ++ second.stacked
  | call _ body => 4 :: body.stacked.map (4 + ·)
  | frame _ displacement body => 4 :: body.stacked.map (4 + (-displacement.toInt).toNat + ·)

/-- Where the block stacks its long words. -/
def places (block : Block) (top : Address) : List Address :=
  block.stacked.map (top - BitVec.ofNat 32 ·)

end Block

/-- The opcode of an instruction lies at the program counter, and the instruction overlaps none of
the places. -/
structure Finds (memory : Space) (places : List Address) (registers : Registers) (bytes : Nat)
    (opcode : Opcode) : Prop where
  read : memory.read ⟨registers.supervisor, true⟩ registers.pc .word = .ok opcode
  clear : ∀ place ∈ places, memory.Apart registers.pc bytes place 4

namespace Block

/-- The code of the block lies in memory where the registers get to it, apart from the places, and
its long words can be stacked. -/
def Laid (memory : Space) (places : List Address) : Block → Registers → Prop
  | empty, _ => True
  | append first second, registers =>
    first.Laid memory places registers ∧
      second.Laid memory places (registers.advancePc first.bytes)
  | call form body, registers =>
    ∃ opcode target opcode',
      Finds memory places registers form.bytes opcode ∧ form.Encodes opcode ∧
      (∃ next,
        (form.target opcode).run { registers, memory, busSupervisor := registers.supervisor } =
          .ok target next) ∧
      memory.Writable ⟨registers.supervisor, false⟩
        (registers.getA stackPointer - BitVec.ofNat 32 4) .long ∧
      body.Laid memory places (registers.called target) ∧
      Finds memory places ((registers.called target).advancePc body.bytes) 2 opcode' ∧
      instructionSet.lookup opcode' = some .returnFromSubroutine
  | frame number displacement body, registers =>
    ∃ opcode opcode',
      Finds memory places registers 4 opcode ∧ instructionSet.lookup opcode = some .link ∧
      opcode.lowRegister = number ∧ number ≠ stackPointer ∧
      memory.read ⟨registers.supervisor, true⟩ (registers.pc + BitVec.ofNat 32 2) .word =
        .ok displacement ∧
      displacement.toInt ≤ 0 ∧
      memory.Writable ⟨registers.supervisor, false⟩
        (registers.getA stackPointer - BitVec.ofNat 32 4) .long ∧
      body.Laid memory places (registers.framed number displacement) ∧
      Finds memory places ((registers.framed number displacement).advancePc body.bytes) 2 opcode' ∧
      instructionSet.lookup opcode' = some .unlink ∧ opcode'.lowRegister = number

/-- The block has been executed, every return has gone on after its call, and every frame pointer
has been restored. -/
inductive Unwinds : Block → Machine → Machine → Prop
  | empty (machine : Machine) : Unwinds .empty machine machine
  | append {first second : Block} {start middle final : Machine}
      (hfirst : Unwinds first start middle) (hsecond : Unwinds second middle final) :
      Unwinds (.append first second) start final
  | call {form : CallForm} {body : Block} {start entered returning final : Machine}
      (calls : (step handlers).run start = .ok .next entered)
      (inner : Unwinds body entered returning)
      (returns : (step handlers).run returning = .ok .next final)
      (goesOn : final.registers.pc = start.registers.pc + BitVec.ofNat 32 form.bytes) :
      Unwinds (.call form body) start final
  | frame {number : Fin 8} {displacement : BitVec 16} {body : Block}
      {start entered leaving final : Machine}
      (links : (step handlers).run start = .ok .next entered)
      (inner : Unwinds body entered leaving)
      (unlinks : (step handlers).run leaving = .ok .next final)
      (restores : final.registers.getA number = start.registers.getA number) :
      Unwinds (.frame number displacement body) start final

theorem four_le_of_mem_stacked {block : Block} {offset : Nat} (h : offset ∈ block.stacked) :
    4 ≤ offset := by
  induction block generalizing offset with
  | empty => cases h
  | append first second ihFirst ihSecond =>
    obtain h | h := List.mem_append.1 h
    · exact ihFirst h
    · exact ihSecond h
  | call form body ih =>
    obtain rfl | h := List.mem_cons.1 h
    · exact Nat.le_refl 4
    · obtain ⟨inner, -, rfl⟩ := List.mem_map.1 h
      omega
  | frame number displacement body ih =>
    obtain rfl | h := List.mem_cons.1 h
    · exact Nat.le_refl 4
    · obtain ⟨inner, -, rfl⟩ := List.mem_map.1 h
      omega

end Block

/-! ## Execution -/

/-- The machine has come to these registers, and only long words at the places may have changed. -/
structure Machine.Reaches (memory : Space) (places : List Address) (registers : Registers)
    (machine : Machine) : Prop where
  registers : machine.registers = registers
  memory : memory.ChangesOnly places machine.memory
  undisturbed : machine.Undisturbed

section Execution

variable {memory : Space} {places : List Address} {registers : Registers} {machine : Machine}

theorem Finds.reads {bytes offset : Nat} {size : Size} {opcode : Opcode}
    {later : Space} (h : Finds memory places registers bytes opcode)
    (hmemory : memory.ChangesOnly places later) (hpart : offset + size.bytes ≤ bytes)
    (code : FunctionCode) :
    later.read code (registers.pc + BitVec.ofNat 32 offset) size =
      memory.read code (registers.pc + BitVec.ofNat 32 offset) size :=
  hmemory.reads code _ size fun place hplace ↦ (h.clear place hplace).first_part offset _ hpart

/-- The step of an instruction that lies in memory. -/
theorem Finds.exists_run_step {bytes : Nat} {opcode : Opcode} {operation : Operation}
    (registers' : Registers) {memory' : Space} (h : Finds memory places registers bytes opcode)
    (hbytes : 2 ≤ bytes) (hreaches : machine.Reaches memory places registers)
    (hlookup : instructionSet.lookup opcode = some operation)
    (hmask : registers'.interruptMask = registers.interruptMask)
    (hmemory : memory.ChangesOnly places memory')
    (hrun : ∀ fetched : Machine, fetched.registers = registers →
      fetched.memory = machine.memory → fetched.busSupervisor = registers.supervisor →
        ∃ trace, (operation.execute opcode).run fetched =
          .ok () { fetched with registers := registers', memory := memory', trace }) :
    ∃ final, (step handlers).run machine = .ok .next final ∧ final.memory = memory' ∧
      final.Reaches memory places registers' := by
  obtain ⟨rfl, hchanges, hundisturbed⟩ := hreaches
  have hread := h.read
  rw [← BitVec.add_zero machine.registers.pc] at hread
  have hpart : 0 + Size.word.bytes ≤ bytes := (Nat.zero_add _).trans_le hbytes
  have hsame := h.reads hchanges hpart ⟨machine.registers.supervisor, true⟩
  have hfetched := hsame.trans hread
  rw [BitVec.add_zero] at hfetched
  obtain ⟨final, hstep, hregisters, hmemory', hundisturbed⟩ :=
    exists_run_step_of_run hundisturbed hfetched hlookup hmask hrun
  exact ⟨final, hstep, hmemory', hregisters, hmemory' ▸ hmemory, hundisturbed⟩

/-- What is stacked where the machine has come to stays there. -/
theorem Machine.Reaches.exists_write (h : machine.Reaches memory places registers)
    {code : FunctionCode} {place : Address} (hwritable : memory.Writable code place .long)
    (hplace : place ∈ places) (value : Size.long.Value) :
    ∃ written, machine.memory.write code place .long value = .ok () written ∧
      Space.ChangesOnly [place] machine.memory written ∧ memory.ChangesOnly places written := by
  obtain ⟨written, hwrite⟩ := hwritable.exists_write h.memory.layout value
  have hchanges := Space.ChangesOnly.of_write hwrite
  exact ⟨written, hwrite, hchanges,
    h.memory.trans (hchanges.mono fun _ hother ↦ List.mem_singleton.1 hother ▸ hplace)⟩

end Execution

/-! ### Pairs of instructions -/

section Pairs

variable (memory : Space) (places : List Address) (place : Address) (value : Size.long.Value)
  (registers inside outside : Registers) (opcode : Opcode) (operation : Operation)

/-- The instruction stacks a value and goes on with the registers inside. -/
def Opens : Prop :=
  ∀ (fetched : Machine) (written : Space), fetched.registers = registers →
    memory.ChangesOnly places fetched.memory → fetched.busSupervisor = registers.supervisor →
    fetched.memory.write fetched.dataCode (registers.getA stackPointer - BitVec.ofNat 32 4) .long
      value = .ok () written →
    ∃ trace, (operation.execute opcode).run fetched =
      .ok () { fetched with registers := inside, memory := written, trace }

/-- The instruction finds the value in its place and goes on with the registers outside. -/
def Closes : Prop :=
  ∀ fetched : Machine, fetched.registers = inside →
    fetched.memory.read fetched.dataCode place .long = .ok value →
    ∃ trace, (operation.execute opcode).run fetched =
      .ok () { fetched with registers := outside, trace }

/-- One instruction stacks a value, and another one that lies behind the code inside takes it from
there. -/
structure Brackets (bytes length : Nat) : Prop where
  opens : ∃ opcode operation, Finds memory places registers bytes opcode ∧ 2 ≤ bytes ∧
    instructionSet.lookup opcode = some operation ∧
      Opens memory places value registers inside opcode operation
  writable : memory.Writable ⟨registers.supervisor, false⟩
    (registers.getA stackPointer - BitVec.ofNat 32 4) .long
  closes : ∃ opcode operation, Finds memory places (inside.advancePc length) 2 opcode ∧
    instructionSet.lookup opcode = some operation ∧
      Closes (registers.getA stackPointer - BitVec.ofNat 32 4) value (inside.advancePc length)
        outside opcode operation
  supervisor : inside.supervisor = registers.supervisor
  interruptMask : inside.interruptMask = registers.interruptMask
  interruptMaskOutside : outside.interruptMask = inside.interruptMask

end Pairs

section Opening

variable {memory : Space} {places : List Address} {registers : Registers} {opcode : Opcode}

theorem opens_call {form : CallForm} {target : Address} {next : Machine}
    (hfinds : Finds memory places registers form.bytes opcode) (hencodes : form.Encodes opcode)
    (htarget : (form.target opcode).run
      { registers, memory, busSupervisor := registers.supervisor } = .ok target next) :
    Opens memory places (registers.pc + BitVec.ofNat 32 form.bytes) registers
      (registers.called target) opcode form.operation := by
  intro fetched written hregisters hchanges hbus hwrite
  have hsame : SameResult { registers, memory, busSupervisor := registers.supervisor } fetched
      (form.target opcode) :=
    CallForm.sameResult_target hencodes hregisters hbus fun size hsize ↦
      hfinds.reads hchanges hsize _
  obtain ⟨-, hresult⟩ := hsame none fetched.trace target next htarget
  subst hregisters
  exact CallForm.exists_run_execute hencodes hresult hwrite

theorem opens_link {displacement : BitVec 16} (hfinds : Finds memory places registers 4 opcode)
    (hne : opcode.lowRegister ≠ stackPointer)
    (hword : memory.read ⟨registers.supervisor, true⟩ (registers.pc + BitVec.ofNat 32 2) .word =
      .ok displacement) :
    Opens memory places (registers.getA opcode.lowRegister) registers
      (registers.framed opcode.lowRegister displacement) opcode .link := by
  intro fetched written hregisters hchanges hbus hwrite
  have hpart : 2 + Size.word.bytes ≤ 4 := Nat.le_refl 4
  have hread := (hfinds.reads hchanges hpart _).trans hword
  rw [← hbus] at hread
  subst hregisters
  exact Instruction.exists_run_link hne hread hwrite

/-- A return goes on after the call. -/
theorem closes_return (target : Address) (bytes length : Nat) :
    Closes (registers.getA stackPointer - BitVec.ofNat 32 4)
      (registers.pc + BitVec.ofNat 32 bytes) ((registers.called target).advancePc length)
      (registers.advancePc bytes) opcode .returnFromSubroutine := by
  intro fetched hregisters hread
  have htop : fetched.registers.getA stackPointer =
      registers.getA stackPointer - BitVec.ofNat 32 4 := by
    rw [hregisters]
    exact Registers.getA_setA_self ..
  rw [← htop] at hread
  obtain ⟨trace, hrun⟩ := Instruction.exists_run_returnFromSubroutine hread
  rw [hregisters, registers.returned_called] at hrun
  exact ⟨trace, hrun⟩

/-- UNLK restores the frame pointer. -/
theorem closes_unlink {number : Fin 8} (hnumber : opcode.lowRegister = number)
    (hne : number ≠ stackPointer) (displacement : BitVec 16) (length : Nat) :
    Closes (registers.getA stackPointer - BitVec.ofNat 32 4) (registers.getA number)
      ((registers.framed number displacement).advancePc length)
      (registers.advancePc (4 + length + 2)) opcode .unlink := by
  subst hnumber
  intro fetched hregisters hread
  have hframe : fetched.registers.getA opcode.lowRegister =
      registers.getA stackPointer - BitVec.ofNat 32 4 := by
    rw [hregisters]
    exact registers.getA_framed hne displacement
  rw [← hframe] at hread
  obtain ⟨trace, hrun⟩ := Instruction.exists_run_unlink hread
  rw [hregisters, registers.unlinked_framed hne] at hrun
  exact ⟨trace, hrun⟩

end Opening

/-! ## Runs of blocks -/

namespace Block

variable {memory : Space} {places : List Address} {bound : Nat}

/-- The block comes to its end wherever it is laid out and finds room for what it stacks. -/
def Returns (memory : Space) (places : List Address) (bound : Nat) (block : Block) : Prop :=
  ∀ (registers : Registers) (machine : Machine), block.Laid memory places registers →
    machine.Reaches memory places registers → (∀ offset ∈ block.stacked, offset ≤ bound) →
    block.places (registers.getA stackPointer) ⊆ places →
    ∃ final, block.Unwinds machine final ∧
      final.Reaches memory places (registers.advancePc block.bytes) ∧
      Space.ChangesOnly (block.places (registers.getA stackPointer)) machine.memory final.memory

theorem returns_empty : Returns memory places bound .empty := by
  intro registers machine hlaid hreaches hspan hplaces
  have hstays : registers.advancePc 0 = registers := by
    rw [Registers.advancePc, BitVec.add_zero]
  exact ⟨machine, .empty machine, hstays.symm ▸ hreaches, .refl _ _⟩

theorem returns_append {first second : Block} (hfirst : first.Returns memory places bound)
    (hsecond : second.Returns memory places bound) :
    (append first second).Returns memory places bound := by
  intro registers machine hlaid hreaches hspan hplaces
  have hparts (top : Address) :
      (append first second).places top = first.places top ++ second.places top := List.map_append
  rw [hparts] at hplaces ⊢
  obtain ⟨hfirstPlaces, hsecondPlaces⟩ := List.append_subset.1 hplaces
  obtain ⟨middle, hunwinds, hmiddle, hchanges⟩ := hfirst registers machine hlaid.1 hreaches
    (fun offset hoffset ↦ hspan offset (List.mem_append_left _ hoffset)) hfirstPlaces
  obtain ⟨final, hunwinds', hfinal, hchanges'⟩ :=
    hsecond (registers.advancePc first.bytes) middle hlaid.2 hmiddle
      (fun offset hoffset ↦ hspan offset (List.mem_append_right _ hoffset)) hsecondPlaces
  have hadvance : (registers.advancePc first.bytes).advancePc second.bytes =
      registers.advancePc (first.bytes + second.bytes) := by
    rw [Registers.advancePc, Registers.advancePc, Registers.advancePc, BitVec.add_assoc,
      ← BitVec.ofNat_add]
  exact ⟨final, .append hunwinds hunwinds', hadvance ▸ hfinal,
    (hchanges.mono (List.subset_append_left ..)).trans
      (hchanges'.mono (List.subset_append_right ..))⟩

/-- A long word on the stack is apart from those stacked below it. -/
theorem apart_of_mem_places (hflat : ∀ address, memory.Unaliased address bound) {block : Block}
    {top below place : Address} (room : Nat) (hbelow : below = top - BitVec.ofNat 32 room)
    (hspan : ∀ offset ∈ block.stacked, 4 + room + offset ≤ bound)
    (hplace : place ∈ block.places below) : memory.Apart top 4 place 4 := by
  obtain ⟨offset, hoffset, rfl⟩ := List.mem_map.1 hplace
  have hle := four_le_of_mem_stacked hoffset
  have hbound := hspan offset hoffset
  have hapart := (hflat (top - BitVec.ofNat 32 (offset + room))).parts (offset + room) 4 0 4
    (by omega) (by omega) (by omega)
  rw [BitVec.sub_add_cancel, BitVec.add_zero] at hapart
  rw [hbelow, Address.sub_ofNat_sub_ofNat]
  exact hapart

section Bracketed

variable {block body : Block} {room : Nat}
  (hstacked : block.stacked = 4 :: body.stacked.map (4 + room + ·))

include hstacked

theorem places_of_stacked (top : Address) :
    block.places top = (top - BitVec.ofNat 32 4) ::
      body.places (top - BitVec.ofNat 32 4 - BitVec.ofNat 32 room) := by
  rw [places, hstacked, List.map_cons, List.map_map]
  congr 1
  refine List.map_congr_left fun offset _ ↦ ?_
  rw [Function.comp, Address.sub_ofNat_sub_ofNat, Address.sub_ofNat_sub_ofNat]
  congr 2
  omega

/-- What the opening instruction has stacked is still there for the closing one, as the body stacks
below it. -/
theorem Returns.exists_run_bracketed (hbody : body.Returns memory places bound)
    (hflat : ∀ address, memory.Unaliased address bound) {registers inside outside : Registers}
    {machine : Machine} {value : Size.long.Value} {bytes : Nat}
    (hbrackets : Brackets memory places value registers inside outside bytes body.bytes)
    (htop : inside.getA stackPointer =
      registers.getA stackPointer - BitVec.ofNat 32 4 - BitVec.ofNat 32 room)
    (hlaid : body.Laid memory places inside) (hreaches : machine.Reaches memory places registers)
    (hspan : ∀ offset ∈ block.stacked, offset ≤ bound)
    (hplaces : block.places (registers.getA stackPointer) ⊆ places) :
    ∃ entered leaving final, (step handlers).run machine = .ok .next entered ∧
      body.Unwinds entered leaving ∧ (step handlers).run leaving = .ok .next final ∧
      final.Reaches memory places outside ∧
      Space.ChangesOnly (block.places (registers.getA stackPointer)) machine.memory
        final.memory := by
  obtain ⟨⟨opcode, operation, hfinds, hbytes, hlookup, hopens⟩, hwritable,
    ⟨opcode', operation', hfinds', hlookup', hcloses⟩, hsupervisor, hmask, hmask'⟩ := hbrackets
  rw [places_of_stacked hstacked] at hplaces ⊢
  obtain ⟨hplace, hplacesBody⟩ := List.cons_subset.1 hplaces
  obtain ⟨written, hwrite, hchanges, hmemory⟩ := hreaches.exists_write hwritable hplace value
  obtain ⟨entered, hopen, rfl, hentered⟩ := hfinds.exists_run_step inside hbytes hreaches hlookup
    hmask hmemory fun fetched hregisters hfetched hbus ↦ by
      rw [← hfetched, ← hbus] at hwrite
      exact hopens fetched _ hregisters (hfetched ▸ hreaches.memory) hbus hwrite
  have hspanBody (offset : Nat) (hoffset : offset ∈ body.stacked) : 4 + room + offset ≤ bound :=
    hspan _ (hstacked ▸ List.mem_cons_of_mem _ (List.mem_map_of_mem hoffset))
  obtain ⟨leaving, hunwinds, hleaving, hchangesBody⟩ := hbody inside entered hlaid hentered
    (fun offset hoffset ↦ Nat.le_of_add_left_le (hspanBody offset hoffset))
    (by rw [htop]; exact hplacesBody)
  rw [htop] at hchangesBody
  have hread : leaving.memory.read ⟨inside.supervisor, false⟩
      (registers.getA stackPointer - BitVec.ofNat 32 4) .long = .ok value := by
    rw [hsupervisor, hchangesBody.reads _ _ .long fun place hplace ↦ ?_, Space.read_write hwrite]
    have hapart := apart_of_mem_places hflat room rfl hspanBody hplace
    exact hapart.of_layout_eq hmemory.layout
  obtain ⟨final, hclose, hkept, hfinal⟩ := hfinds'.exists_run_step outside (Nat.le_refl 2) hleaving
    hlookup' hmask' hleaving.memory fun fetched hregisters hfetched hbus ↦ by
      change fetched.busSupervisor = inside.supervisor at hbus
      rw [← hfetched, ← hbus] at hread
      rw [← hfetched]
      exact hcloses fetched hregisters hread
  refine ⟨entered, leaving, final, hopen, hunwinds, hclose, hfinal, hkept ▸ ?_⟩
  exact (hchanges.mono (List.cons_subset_cons _ (List.nil_subset _))).trans
    (hchangesBody.mono (List.subset_cons_self ..))

end Bracketed

theorem two_le_bytes (form : CallForm) : 2 ≤ form.bytes := by
  cases form with
  | branch | branchWord => decide
  | jump mode => exact Nat.le_add_right 2 _

theorem returns_call (hflat : ∀ address, memory.Unaliased address bound) {form : CallForm}
    {body : Block} (hbody : body.Returns memory places bound) :
    (call form body).Returns memory places bound := by
  intro registers machine hlaid hreaches hspan hplaces
  obtain ⟨opcode, target, opcode', hfinds, hencodes, ⟨next, htarget⟩, hwritable, hlaidBody,
    hreturn, hlookup⟩ := hlaid
  have hbrackets : Brackets memory places (registers.pc + BitVec.ofNat 32 form.bytes) registers
      (registers.called target) (registers.advancePc form.bytes) form.bytes body.bytes :=
    ⟨⟨opcode, _, hfinds, two_le_bytes form, hencodes.1, opens_call hfinds hencodes htarget⟩,
      hwritable, ⟨opcode', _, hreturn, hlookup, closes_return target form.bytes body.bytes⟩,
      rfl, rfl, rfl⟩
  have htop : (registers.called target).getA stackPointer =
      registers.getA stackPointer - BitVec.ofNat 32 4 - BitVec.ofNat 32 0 :=
    (Registers.getA_setA_self ..).trans (BitVec.sub_zero _).symm
  have hstacked : (call form body).stacked = 4 :: body.stacked.map (4 + 0 + ·) := rfl
  obtain ⟨entered, returning, final, hcalls, hunwinds, hreturns, hfinal, hchanges⟩ :=
    hbody.exists_run_bracketed hstacked hflat hbrackets htop hlaidBody hreaches hspan hplaces
  have hgoesOn : final.registers.pc = machine.registers.pc + BitVec.ofNat 32 form.bytes := by
    rw [hfinal.registers, hreaches.registers]
    rfl
  exact ⟨final, .call hcalls hunwinds hreturns hgoesOn, hfinal, hchanges⟩

/-- The room that LINK leaves below its frame pointer. -/
theorem signExtend_eq_neg {displacement : BitVec 16} (h : displacement.toInt ≤ 0) :
    displacement.signExtend 32 = -BitVec.ofNat 32 (-displacement.toInt).toNat := by
  have hroom : ((-displacement.toInt).toNat : Int) = -displacement.toInt :=
    Int.toNat_of_nonneg (Int.neg_nonneg_of_nonpos h)
  rw [← BitVec.ofInt_natCast, hroom, ← BitVec.ofInt_neg, Int.neg_neg]
  rfl

theorem returns_frame (hflat : ∀ address, memory.Unaliased address bound) {number : Fin 8}
    {displacement : BitVec 16} {body : Block} (hbody : body.Returns memory places bound) :
    (frame number displacement body).Returns memory places bound := by
  intro registers machine hlaid hreaches hspan hplaces
  obtain ⟨opcode, opcode', hfinds, hlookup, rfl, hne, hword, hnegative, hwritable, hlaidBody,
    hleave, hlookup', hsame⟩ := hlaid
  have hbrackets : Brackets memory places (registers.getA opcode.lowRegister) registers
      (registers.framed opcode.lowRegister displacement)
      (registers.advancePc (4 + body.bytes + 2)) 4 body.bytes :=
    ⟨⟨opcode, _, hfinds, by decide, hlookup, opens_link hfinds hne hword⟩, hwritable,
      ⟨opcode', _, hleave, hlookup', closes_unlink hsame hne displacement body.bytes⟩, rfl, rfl,
      rfl⟩
  have htop : (registers.framed opcode.lowRegister displacement).getA stackPointer =
      registers.getA stackPointer - BitVec.ofNat 32 4 -
        BitVec.ofNat 32 (-displacement.toInt).toNat := by
    rw [BitVec.sub_eq_add_neg _ (BitVec.ofNat 32 (-displacement.toInt).toNat),
      ← signExtend_eq_neg hnegative]
    exact Registers.getA_setA_self ..
  have hstacked : (frame opcode.lowRegister displacement body).stacked =
      4 :: body.stacked.map (4 + (-displacement.toInt).toNat + ·) := rfl
  obtain ⟨entered, leaving, final, hlinks, hunwinds, hunlinks, hfinal, hchanges⟩ :=
    hbody.exists_run_bracketed hstacked hflat hbrackets htop hlaidBody hreaches hspan hplaces
  have hrestores : final.registers.getA opcode.lowRegister =
      machine.registers.getA opcode.lowRegister := by
    rw [hfinal.registers, hreaches.registers]
    rfl
  exact ⟨final, .frame hlinks hunwinds hunlinks hrestores, hfinal, hchanges⟩

/-- Every block comes to its end. -/
theorem returns (hflat : ∀ address, memory.Unaliased address bound) (block : Block) :
    block.Returns memory places bound := by
  induction block with
  | empty => exact returns_empty
  | append first second hfirst hsecond => exact returns_append hfirst hsecond
  | call form body hbody => exact returns_call hflat hbody
  | frame number displacement body hbody => exact returns_frame hflat hbody

end Block

/-! ## Flat maps -/

namespace Space

variable {width : BusWidth} {layers : Layers} (hsingle : layers.All IsMemory)

include hsingle

/-- In a map of single memories, bytes are different if the bus tells their addresses apart. -/
theorem distinct_of_not_modEq {first second : Address}
    (h : ¬ first.toNat ≡ second.toNat [MOD 2 ^ width.bits]) :
    (Space.map width layers).Distinct first second := by
  have hne : width.truncate first ≠ width.truncate second :=
    fun heq ↦ h (BusWidth.truncate_eq_iff_modEq.1 heq)
  exact Layers.distinct_of_all (hsingle.imp fun region hregion ↦ hregion.distinct hne) hne

/-- No block that fits on the bus has an alias there. -/
theorem unaliased_of_memories (address : Address) :
    (Space.map width layers).Unaliased address (2 ^ width.bits) := by
  intro i hi j hj hne
  refine distinct_of_not_modEq hsingle fun hmod ↦ hne ?_
  have hplaces := ((width.toNat_add_ofNat_modEq address i).symm.trans hmod).trans
    (width.toNat_add_ofNat_modEq address j)
  exact (Nat.ModEq.add_left_cancel' _ hplaces).eq_of_lt_of_lt hi hj

end Space

/-- A block of calls and frames, nested in any way, runs to its end in a flat map of memories if it
is laid out there and the long words that it stacks lie within one turn of the bus, can be written
and overlap none of its instructions. Each return goes on after its call and each frame pointer is
restored. In the end the program counter is behind the block, all other registers are as they were,
and no byte has changed but those of the long words, so none from the stack pointer upwards. -/
theorem nested_blocks_unwind (block : Block) (width : BusWidth) (layers : Layers) (start : Machine)
    (hmemory : start.memory = .map width layers) (hsingle : layers.All Space.IsMemory)
    (hundisturbed : start.Undisturbed)
    (hspan : ∀ offset ∈ block.stacked, offset ≤ 2 ^ width.bits)
    (hlaid : block.Laid start.memory (block.places (start.registers.getA stackPointer))
      start.registers) :
    ∃ final, block.Unwinds start final ∧
      final.registers = start.registers.advancePc block.bytes ∧
      Space.ChangesOnly (block.places (start.registers.getA stackPointer)) start.memory
        final.memory ∧
      ∀ (code : FunctionCode) (i : Nat), (∀ offset ∈ block.stacked, i + offset < 2 ^ width.bits) →
        final.memory.getByte code (start.registers.getA stackPointer + BitVec.ofNat 32 i) =
          start.memory.getByte code (start.registers.getA stackPointer + BitVec.ofNat 32 i) := by
  have hflat (address : Address) : start.memory.Unaliased address (2 ^ width.bits) := by
    rw [hmemory]
    exact Space.unaliased_of_memories hsingle address
  obtain ⟨final, hunwinds, hfinal, hchanges⟩ := block.returns hflat start.registers start hlaid
    ⟨rfl, .refl _ _, hundisturbed⟩ hspan (List.Subset.refl _)
  refine ⟨final, hunwinds, hfinal.registers, hchanges, fun code i hi ↦ ?_⟩
  refine hchanges.reads code _ .byte fun place hplace ↦ ?_
  obtain ⟨offset, hoffset, rfl⟩ := List.mem_map.1 hplace
  have hle := Block.four_le_of_mem_stacked hoffset
  have hlt := hi offset hoffset
  have hapart := (hflat (start.registers.getA stackPointer - BitVec.ofNat 32 offset)).parts
    (offset + i) 1 0 4 (by omega) (by omega) (by omega)
  rw [BitVec.ofNat_add, ← BitVec.add_assoc, BitVec.sub_add_cancel, BitVec.add_zero] at hapart
  exact hapart

/-- A flat memory with a program that calls a subroutine, which sets up a frame and calls another
one through a register. -/
def nestedLayers : Layers :=
  Layers.empty.insert (.clamp 24) 0 0x10000 (.ram
    { size := 0x10000
      written := .ofList [(0x1000, (0x61 : Byte)), (0x1001, 0x0E), (0x1010, 0x4E), (0x1011, 0x56),
        (0x1012, 0xFF), (0x1013, 0xF8), (0x1014, 0x4E), (0x1015, 0x90), (0x1016, 0x4E),
        (0x1017, 0x5E), (0x1018, 0x4E), (0x1019, 0x75), (0x1020, 0x4E), (0x1021, 0x75)] })

def nestedProgram : Machine where
  registers :=
    { a := #v[0x1020, 0, 0, 0, 0, 0, 0x1234, 0x8000]
      pc := 0x1000 }
  memory := .map (.clamp 24) nestedLayers

/-- The blocks of that program, with the registers that its LINK and its JSR name. -/
def nestedBlock : Block :=
  .call .branch (.frame (Opcode.lowRegister 0x4E56) 0xFFF8
    (.call (.jump (.indirect (Opcode.lowRegister 0x4E90))) .empty))

theorem places_nestedBlock : nestedBlock.places 0x8000 = [0x7FFC, 0x7FF8, 0x7FEC] := by
  decide

theorem finds_nestedProgram {registers : Registers} {bytes : Nat} {opcode : Opcode}
    (hread : nestedProgram.memory.read ⟨registers.supervisor, true⟩ registers.pc .word = .ok opcode)
    (hbelow : registers.pc.toNat + bytes ≤ 0x7000) :
    Finds nestedProgram.memory (nestedBlock.places 0x8000) registers bytes opcode := by
  refine ⟨hread, fun place hplace i hi j hj ↦ ?_⟩
  have hsingle : nestedLayers.All Space.IsMemory := ⟨trivial, trivial⟩
  refine Space.distinct_of_not_modEq hsingle fun hmod ↦ ?_
  have hrange : 0x7000 ≤ place.toNat ∧ place.toNat < 0x8000 := by
    rw [places_nestedBlock] at hplace
    simp only [List.mem_cons, List.not_mem_nil, or_false] at hplace
    obtain rfl | rfl | rfl := hplace <;> decide
  change _ % 2 ^ 24 = _ % 2 ^ 24 at hmod
  rw [BitVec.toNat_add, BitVec.toNat_add, BitVec.toNat_ofNat, BitVec.toNat_ofNat] at hmod
  omega

theorem nested_blocks_unwind_nestedProgram :
    ∃ final, nestedBlock.Unwinds nestedProgram final ∧ final.registers.pc = 0x1002 ∧
      final.registers.a = nestedProgram.registers.a ∧
      final.memory.getByte .supervisorData 0x8000 = .ok 0 := by
  have hlookups : instructionSet.lookup 0x610E = some .branchToSubroutine ∧
      instructionSet.lookup 0x4E56 = some .link ∧
      instructionSet.lookup 0x4E90 = some .jumpToSubroutine ∧
      instructionSet.lookup 0x4E5E = some .unlink ∧
      instructionSet.lookup 0x4E75 = some .returnFromSubroutine := by
    simp only [lookup_instructionSet]
    decide +kernel
  obtain ⟨hbsr, hlink, hjsr, hunlk, hrts⟩ := hlookups
  have hsingle : nestedLayers.All Space.IsMemory := ⟨trivial, trivial⟩
  have hjump : Block.Laid nestedProgram.memory (nestedBlock.places 0x8000)
      (.call (.jump (.indirect 0)) .empty)
      ((nestedProgram.registers.called 0x1010).framed 6 0xFFF8) :=
    ⟨0x4E90, 0x1020, 0x4E75, finds_nestedProgram rfl (by decide), ⟨hjsr, rfl⟩, ⟨_, rfl⟩,
      ⟨0, _, rfl⟩, trivial, finds_nestedProgram rfl (by decide), hrts⟩
  have hframe : Block.Laid nestedProgram.memory (nestedBlock.places 0x8000)
      (.frame 6 0xFFF8 (.call (.jump (.indirect 0)) .empty))
      (nestedProgram.registers.called 0x1010) :=
    ⟨0x4E56, 0x4E5E, finds_nestedProgram rfl (by decide), hlink, rfl, by decide, rfl, by decide,
      ⟨0, _, rfl⟩, hjump, finds_nestedProgram rfl (by decide), hunlk, rfl⟩
  have hlaid : nestedBlock.Laid nestedProgram.memory (nestedBlock.places 0x8000)
      nestedProgram.registers :=
    ⟨0x610E, 0x1010, 0x4E75, finds_nestedProgram rfl (by decide), ⟨hbsr, by decide⟩, ⟨_, rfl⟩,
      ⟨0, _, rfl⟩, hframe, finds_nestedProgram rfl (by decide), hrts⟩
  obtain ⟨final, hunwinds, hregisters, -, hbytes⟩ := nested_blocks_unwind nestedBlock (.clamp 24)
    nestedLayers nestedProgram rfl hsingle ⟨rfl, rfl⟩ (by decide) hlaid
  have hbyte := hbytes .supervisorData 0 (by decide)
  refine ⟨final, hunwinds, ?_, ?_, ?_⟩
  · rw [hregisters]
    rfl
  · rw [hregisters]
    rfl
  · exact hbyte

end M68000
