import M68000.Proofs.Chained.Instruction
import M68000.Proofs.Chained.Number
import M68000.Proofs.Dispatch.Lookup
import M68000.Proofs.Run.Executes

/-!
# Chains of any operation

What the repetition of an instruction leaves behind depends on what it does to one part only. It
works on the parts of two numbers from the lowest on and passes the flags along, and it changes no
memory but the number that it leaves.
-/

namespace M68000

open Exec

variable {size : Size} {operation : PartOperation size}

/-- A number and its flags as an operation leaves them that works on one part after the other. -/
inductive PartByPart (operation : PartOperation size) :
    (count : Nat) → (destination source : BitVec (size.bits * count)) → (before : Ccr) →
      (result : BitVec (size.bits * count)) → (after : Ccr) → Prop
  | none (destination source result : BitVec (size.bits * 0)) (codes : Ccr) :
    PartByPart operation 0 destination source codes result codes
  | cons {count : Nat} {high high' result : BitVec (size.bits * count)} {low low' : size.Value}
      {before after : Ccr}
      (rest : PartByPart operation count high high'
        ((operation.combine low low' before.extend).codesAfter before) result after) :
    PartByPart operation (count + 1) (high ++ low) (high' ++ low') before
      (result ++ (operation.combine low low' before.extend).value) after

/-- C, V and X are those of the highest part, N and Z those of the whole number. -/
theorem PartByPart.exists_codes {count : Nat}
    {destination source result : BitVec (size.bits * count)} {before after : Ccr}
    (h : PartByPart operation count destination source before result after) (hcount : 0 < count) :
    ∃ high high' extend, after =
      { extend := (operation.combine high high' extend).carry
        negative := result.msb
        zero := result == 0 && before.zero
        overflow := (operation.combine high high' extend).overflow
        carry := (operation.combine high high' extend).carry } := by
  induction h with
  | none => exact absurd hcount (Nat.lt_irrefl 0)
  | @cons count high high' result low low' before after rest ih =>
    rw [BitVec.msb_append, ChainedResult.append_beq_zero]
    obtain rfl | hpos := Nat.eq_zero_or_pos count
    · cases rest
      have hnothing : (result == 0) = true := beq_iff_eq.2 (BitVec.eq_of_zero_length rfl)
      rw [if_pos (Nat.mul_zero _), hnothing, Bool.and_true]
      exact ⟨low, low', before.extend, rfl⟩
    · obtain ⟨top, top', extend, rfl⟩ := ih hpos
      rw [if_neg (Nat.ne_of_gt (Nat.mul_pos size.bits_pos hpos)),
        Bool.and_comm (_ == 0) (result == 0), Bool.and_assoc]
      exact ⟨top, top', extend, rfl⟩

/-! ## Repeated opcodes -/

/-- An opcode is executed a number of times, with success and without an interrupt. -/
inductive Repeats (opcode : Opcode) : Nat → Machine → Machine → Prop
  | zero (machine : Machine) : Repeats opcode 0 machine machine
  | succ {count : Nat} {before next after : Machine} {progress : Progress}
      (notDue : before.dueInterrupt? = none)
      (fetched : before.memory.read ⟨before.registers.supervisor, true⟩ before.registers.pc .word =
        .ok opcode)
      (done : (step handlers).run before = .ok progress next)
      (rest : Repeats opcode count next after) :
      Repeats opcode (count + 1) before after

variable {x y : Fin 8} {before after : Machine} {opcode : Opcode} {progress : Progress}
  {count : Nat}

/-- The opcode does an operation on the operands below two address registers. -/
def Opcode.Does (opcode : Opcode) (operation : PartOperation size) (x y : Fin 8) : Prop :=
  ∀ machine performed : Machine, machine.busSupervisor = machine.registers.supervisor →
    (perform handlers opcode).run machine = .ok () performed →
      ∃ destination source, Works operation x y destination source machine performed

/-- A step with such an opcode does the operation. -/
theorem works_of_run_step (hdoes : opcode.Does operation x y)
    (notDue : before.dueInterrupt? = none)
    (fetched : before.memory.read ⟨before.registers.supervisor, true⟩ before.registers.pc .word =
      .ok opcode)
    (done : (step handlers).run before = .ok progress after) :
    ∃ destination source, Works operation x y destination source before after := by
  obtain ⟨interrupts, executed, hexecutes, -⟩ := exists_executes_of_run_step notDue done
  obtain rfl : opcode = executed := Except.ok.inj (fetched.symm.trans hexecutes.fetched)
  obtain ⟨trace, performed, exitRequest, hperform, rfl⟩ := hexecutes.performed
  obtain ⟨destination, source, h⟩ := hdoes _ performed rfl hperform
  exact ⟨destination, source, h.reads, h.readsSource, h.writes, h.codes, h.lowers, h.lowersSource,
    h.supervisor, h.advances⟩

/-! ## Whole numbers -/

/-- A number has been left in memory in the place of another one, and nothing else. -/
structure Leaves (size : Size) (x : Fin 8) (count : Nat) (result : BitVec (size.bits * count))
    (codes : Ccr) (start final : Machine) : Prop where
  number : ∀ code,
    final.memory.number code size (start.registers.getA x) count = .ok result
  codes : final.registers.flags.ccr = codes
  lowered : final.registers.getA x = Space.numberStart size (start.registers.getA x) count
  memory : Space.ChangesWithin (Space.numberStart size (start.registers.getA x) count)
    (size.bytes * count) start.memory final.memory

/-- The lowest part is worked on, and then the rest of the number. -/
theorem Leaves.cons {low low' : size.Value}
    {result : BitVec (size.bits * count)} {codes : Ccr} {middle : Machine}
    (hlow : Works operation x y low low' before middle)
    (hrest : Leaves size x count result codes middle after)
    (hunaliased : before.memory.Unaliased
      (Space.numberStart size (before.registers.getA x) (count + 1)) (size.bytes * (count + 1))) :
    Leaves size x (count + 1)
      (result ++ (operation.combine low low' before.registers.flags.extend).value) codes
      before after := by
  have hwritten := Space.ChangesWithin.of_write hlow.writes
  obtain ⟨-, -, hbehind⟩ := hunaliased.number
  constructor
  case number =>
    intro code
    have hhigh := hrest.number code
    have hkept := hrest.memory.reads code (middle.registers.getA x) size
    rw [hlow.lowers] at hhigh hkept
    have hkept := hkept (hbehind.of_layout_eq hwritten.layout)
    exact Space.number_succ_eq_ok_iff.2
      ⟨_, _, hhigh, hkept.trans (Space.read_write hlow.writes), rfl⟩
  case codes => exact hrest.codes
  case lowered => rw [hrest.lowered, hlow.lowers, Space.numberStart_succ]
  case memory =>
    have hmemory := hrest.memory
    rw [hlow.lowers] at hmemory
    exact hwritten.trans_number hmemory

/-- What an opcode does to operands it does to whole numbers part by part. -/
theorem exists_leaves_of_repeats (hdoes : opcode.Does operation x y)
    {start final : Machine} (hrepeats : Repeats opcode count start final)
    {destination : BitVec (size.bits * count)} (source : BitVec (size.bits * count))
    (hdestination : start.memory.number ⟨start.registers.supervisor, false⟩ size
      (start.registers.getA x) count = .ok destination)
    (hsource : operation.TakesSource →
      start.memory.number ⟨start.registers.supervisor, false⟩ size
        (start.registers.getA y) count = .ok source)
    (hunaliased : start.memory.Unaliased (Space.numberStart size (start.registers.getA x) count)
      (size.bytes * count))
    (hapart : operation.TakesSource →
      start.memory.Apart (Space.numberStart size (start.registers.getA y) count)
        (size.bytes * count) (Space.numberStart size (start.registers.getA x) count)
        (size.bytes * count)) :
    ∃ result codes,
      PartByPart operation count destination source start.registers.flags.ccr result codes ∧
        Leaves size x count result codes start final ∧
        (operation.TakesSource →
          final.registers.getA y = Space.numberStart size (start.registers.getA y) count) := by
  induction hrepeats with
  | zero machine =>
    have hnumber : destination = BitVec.ofNat 0 0 := BitVec.eq_of_zero_length rfl
    refine ⟨_, _, .none _ _ destination _, ⟨fun code ↦ ?_, rfl, ?_, .refl _ _ _⟩, fun _ ↦ ?_⟩
    · exact congrArg Except.ok hnumber.symm
    · exact (BitVec.sub_zero _).symm
    · exact (BitVec.sub_zero _).symm
  | @succ count before next after progress notDue fetched done rest ih =>
    obtain ⟨high, low, hhigh, hlow, rfl⟩ := Space.number_succ_eq_ok_iff.1 hdestination
    obtain ⟨high', low', rfl, hhigh', hlow'⟩ := Space.exists_append_of_number hsource
    obtain ⟨_, _, hworks⟩ := works_of_run_step hdoes notDue fetched done
    have hworks := hworks.eq_of_read hlow hlow'
    have hwritten := Space.ChangesWithin.of_write hworks.writes
    obtain ⟨hrest, hbefore, -⟩ := hunaliased.number
    have hapartRest (htakes : operation.TakesSource) := (hapart htakes).first_number.1.second_number
    have hhigh : next.memory.number ⟨next.registers.supervisor, false⟩ size
        (next.registers.getA x) count = .ok high := by
      rw [hworks.supervisor, hworks.lowers, hwritten.number_eq hbefore]
      exact hhigh
    have hhigh' (htakes : operation.TakesSource) :
        next.memory.number ⟨next.registers.supervisor, false⟩ size
          (next.registers.getA y) count = .ok high' := by
      rw [hworks.supervisor, hworks.lowersSource htakes, hwritten.number_eq (hapartRest htakes).2]
      exact hhigh' htakes
    have hunaliased' : next.memory.Unaliased
        (Space.numberStart size (next.registers.getA x) count) (size.bytes * count) := by
      rw [hworks.lowers]
      exact hrest.of_layout_eq hwritten.layout
    have hapart' (htakes : operation.TakesSource) :
        next.memory.Apart (Space.numberStart size (next.registers.getA y) count)
          (size.bytes * count) (Space.numberStart size (next.registers.getA x) count)
          (size.bytes * count) := by
      rw [hworks.lowers, hworks.lowersSource htakes]
      exact (hapartRest htakes).1.of_layout_eq hwritten.layout
    obtain ⟨result, codes, hparts, hleaves, hlowered⟩ :=
      ih high' hhigh hhigh' hunaliased' hapart'
    rw [hworks.codes] at hparts
    refine ⟨_, codes, .cons hparts, .cons hworks hleaves hunaliased, fun htakes ↦ ?_⟩
    rw [hlowered htakes, hworks.lowersSource htakes, Space.numberStart_succ]

/-! ### Code without a branch -/

/-- A run through a row of equal opcodes repeats the opcode, if no interrupt is requested and the
row is no part of the number that is worked on. -/
theorem repeats_of_runFor {opcode : Opcode} (hdoes : opcode.Does operation x y)
    {start final : Machine} (hpending : start.interrupts.pending = false)
    (hcode : ∀ i < count, start.memory.read ⟨start.registers.supervisor, true⟩
      (start.registers.pc + BitVec.ofNat 32 (2 * i)) .word = .ok opcode)
    (hapart : start.memory.Apart start.registers.pc (2 * count)
      (Space.numberStart size (start.registers.getA x) count) (size.bytes * count))
    (hrun : runFor handlers count start = (none, final)) :
    Repeats opcode count start final := by
  induction count generalizing start with
  | zero =>
    cases hrun
    exact .zero _
  | succ count ih =>
    have notDue : start.dueInterrupt? = none := by
      rw [Machine.dueInterrupt?, hpending]
      rfl
    have fetched := hcode 0 (Nat.succ_pos count)
    rw [Nat.mul_zero, BitVec.add_zero] at fetched
    obtain ⟨next, hstep, hrun⟩ := exists_run_of_runFor_succ hrun
    obtain ⟨low, low', hworks⟩ := works_of_run_step hdoes notDue fetched hstep
    have hwritten := Space.ChangesWithin.of_write hworks.writes
    obtain ⟨hapartRest, hapartLow⟩ := hapart.second_number
    refine .succ notDue fetched hstep (ih ?_ (fun i hi ↦ ?_) ?_ hrun)
    · rw [interrupts_of_run_step hpending hstep]
      exact hpending
    · have hplace : start.registers.pc + 2 + BitVec.ofNat 32 (2 * i) =
          start.registers.pc + BitVec.ofNat 32 (2 * (i + 1)) := by
        rw [BitVec.add_assoc, Nat.mul_succ, Nat.add_comm, BitVec.ofNat_add]
        rfl
      rw [hworks.supervisor, hworks.advances, hplace,
        hwritten.reads _ _ .word (hapartLow.first_part (2 * (i + 1)) 2 (by omega))]
      exact hcode (i + 1) (Nat.succ_lt_succ hi)
    · rw [hworks.advances, hworks.lowers]
      have hlater := hapartRest.first_part 2 (2 * count) (by omega)
      exact hlater.of_layout_eq hwritten.layout

end M68000
