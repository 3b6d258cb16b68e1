import M68000.Proofs.Chained.Parts

/-!
# Chains

An instruction that works on one part of two numbers is repeated, from the lowest part on. It
leaves what the operation gives on the whole numbers, with their flags, if X is clear and Z is set
at the start.
-/

namespace M68000

open Exec

namespace LimbOperation

/-- There is a second operand, that of the second register. -/
def TakesSource : LimbOperation → Prop
  | binary _ => True
  | negate => False

/-- The operation on parts of a size. -/
def part (operation : LimbOperation) (size : Size) : PartOperation size where
  combine := operation.combine
  TakesSource := operation.TakesSource
  ignores hnone := by
    match operation with
    | binary _ => exact absurd trivial hnone
    | negate => exact fun _ _ _ _ ↦ rfl

/-- What is done part by part is done to the whole numbers. -/
theorem eq_of_partByPart {operation : LimbOperation} {size : Size} {count : Nat}
    {destination source result : BitVec (size.bits * count)} {before after : Ccr}
    (h : PartByPart (operation.part size) count destination source before result after) :
    result = (operation.combine destination source before.extend).value ∧
      after = operation.codesAfter destination source before := by
  induction h with
  | none destination source result codes =>
    rw [codesAfter, if_pos (Nat.mul_zero _)]
    exact ⟨BitVec.eq_of_zero_length rfl, rfl⟩
  | @cons count high high' result low low' before after rest ih =>
    have hlow : ((operation.part size).combine low low' before.extend).codesAfter before =
        operation.codesAfter low low' before :=
      (operation.codesAfter_of_pos size.bits_pos low low' before).symm
    have hextend : (operation.codesAfter low low' before).extend =
        operation.carryOut low low' before.extend := by
      rw [codesAfter, if_neg (Nat.ne_of_gt size.bits_pos)]
    rw [hlow, hextend] at ih
    obtain ⟨rfl, rfl⟩ := ih
    exact ⟨(operation.value_append _ _ _ _ _).symm,
      (operation.codesAfter_append size.bits_pos _ _ _ _ _).symm⟩

end LimbOperation

variable {size : Size} {x y : Fin 8} {count : Nat}

/-- An opcode that does an operation on operands does it on whole numbers, from their lowest
operands on. -/
theorem leaves_of_repeats {operation : LimbOperation} {opcode : Opcode}
    (hdoes : opcode.Does (operation.part size) x y)
    {start final : Machine} (hrepeats : Repeats opcode count start final)
    {destination : BitVec (size.bits * count)} (source : BitVec (size.bits * count))
    (hdestination : start.memory.number ⟨start.registers.supervisor, false⟩ size
      (start.registers.getA x) count = .ok destination)
    (hsource : operation.TakesSource → start.memory.number ⟨start.registers.supervisor, false⟩ size
      (start.registers.getA y) count = .ok source)
    (hunaliased : start.memory.Unaliased (Space.numberStart size (start.registers.getA x) count)
      (size.bytes * count))
    (hapart : operation.TakesSource →
      start.memory.Apart (Space.numberStart size (start.registers.getA y) count)
        (size.bytes * count) (Space.numberStart size (start.registers.getA x) count)
        (size.bytes * count)) :
    Leaves size x count
        (operation.combine destination source start.registers.flags.extend).value
        (operation.codesAfter destination source start.registers.flags.ccr) start final ∧
      (operation.TakesSource →
        final.registers.getA y = Space.numberStart size (start.registers.getA y) count) := by
  obtain ⟨result, codes, hparts, hleaves, hlowered⟩ :=
    exists_leaves_of_repeats hdoes hrepeats source hdestination hsource hunaliased hapart
  obtain ⟨rfl, rfl⟩ := LimbOperation.eq_of_partByPart hparts
  exact ⟨hleaves, hlowered⟩

/-! ## The instructions -/

namespace Opcode

variable (opcode : Opcode)

/-- ADDX or SUBX on the operands below two address registers. -/
def IsChained (operation : ChainedOperation) (size : Size) (x y : Fin 8) : Prop :=
  instructionSet.lookup opcode = some (.chainedBinary operation size true) ∧
    opcode.highRegister = x ∧ opcode.lowRegister = y

/-- NEGX on the operand below an address register. -/
def IsNegation (size : Size) (x : Fin 8) : Prop :=
  instructionSet.lookup opcode = some (.unary .negx size) ∧
    Mode.ofField? opcode.operandField = some (.preDecrement x)

variable {opcode} (hx : size = .byte → x ≠ stackPointer)

include hx

theorem IsChained.does {operation : ChainedOperation} (h : opcode.IsChained operation size x y)
    (hne : x ≠ y) (hy : size = .byte → y ≠ stackPointer) :
    opcode.Does ((LimbOperation.binary operation).part size) x y := by
  obtain ⟨hlookup, rfl, rfl⟩ := h
  intro machine performed hbus hperform
  rw [perform_of_lookup hlookup] at hperform
  cases operation <;> exact Instruction.works_of_run_chained hbus hne hx hy hperform

theorem IsNegation.does (h : opcode.IsNegation size x) (y : Fin 8) :
    opcode.Does (LimbOperation.negate.part size) x y := by
  obtain ⟨hlookup, hmode⟩ := h
  intro machine performed hbus hperform
  rw [perform_of_lookup hlookup] at hperform
  obtain ⟨destination, memory, trace, hread, hwrite, rfl⟩ :=
    Instruction.exists_of_run_negx hmode hperform
  exact ⟨destination, 0, Instruction.works_of_replaced hbus hx id y hread hwrite⟩

end Opcode

/-- Two numbers end just below the address registers `x` and `y`. With X clear and Z set, repeating
ADDX, SUBX or NEGX as often as a number has operands adds, subtracts or negates the numbers. All
flags are those of the whole numbers, the address registers end where the numbers begin, and in
memory nothing but the result in place of the first number changes. -/
theorem chains_work_on_numbers (size : Size) (x : Fin 8) (hx : size = .byte → x ≠ stackPointer)
    (count : Nat) (hcount : 0 < count) (start final : Machine)
    (hextend : start.registers.flags.extend = false) (hzero : start.registers.flags.zero = true)
    (d : BitVec (size.bits * count))
    (hd : start.memory.number ⟨start.registers.supervisor, false⟩ size (start.registers.getA x)
      count = .ok d)
    (hunaliased : start.memory.Unaliased (Space.numberStart size (start.registers.getA x) count)
      (size.bytes * count)) :
    (∀ (y : Fin 8) (t : BitVec (size.bits * count)), x ≠ y → (size = .byte → y ≠ stackPointer) →
      start.memory.number ⟨start.registers.supervisor, false⟩ size (start.registers.getA y) count =
        .ok t →
      start.memory.Apart (Space.numberStart size (start.registers.getA y) count)
        (size.bytes * count) (Space.numberStart size (start.registers.getA x) count)
        (size.bytes * count) →
      (∀ opcode : Opcode, opcode.IsChained .add size x y → Repeats opcode count start final →
        Leaves size x count (d + t)
          { extend := unsignedOutOfRange (size.bits * count) (d.toNat + t.toNat)
            negative := (d + t).msb
            zero := d + t == 0
            overflow := signedOutOfRange (size.bits * count) (d.toInt + t.toInt)
            carry := unsignedOutOfRange (size.bits * count) (d.toNat + t.toNat) } start final ∧
        final.registers.getA y = Space.numberStart size (start.registers.getA y) count ∧
        ∀ code, final.memory.number code size (start.registers.getA y) count =
          start.memory.number code size (start.registers.getA y) count) ∧
      (∀ opcode : Opcode, opcode.IsChained .sub size x y → Repeats opcode count start final →
        Leaves size x count (d - t)
          { extend := unsignedOutOfRange (size.bits * count) (d.toNat - t.toNat)
            negative := (d - t).msb
            zero := d - t == 0
            overflow := signedOutOfRange (size.bits * count) (d.toInt - t.toInt)
            carry := unsignedOutOfRange (size.bits * count) (d.toNat - t.toNat) } start final ∧
        final.registers.getA y = Space.numberStart size (start.registers.getA y) count ∧
        ∀ code, final.memory.number code size (start.registers.getA y) count =
          start.memory.number code size (start.registers.getA y) count)) ∧
    ∀ opcode : Opcode, opcode.IsNegation size x → Repeats opcode count start final →
      Leaves size x count (-d)
        { extend := d != 0
          negative := (-d).msb
          zero := -d == 0
          overflow := signedOutOfRange (size.bits * count) (-d.toInt)
          carry := d != 0 } start final := by
  have hpos : 0 < size.bits * count := Nat.mul_pos size.bits_pos hcount
  refine ⟨fun y t hne hy ht hapart ↦ ⟨fun opcode hopcode hrepeats ↦ ?_,
    fun opcode hopcode hrepeats ↦ ?_⟩, fun opcode hopcode hrepeats ↦ ?_⟩
  · obtain ⟨hleaves, hlowered⟩ := leaves_of_repeats (hopcode.does hx hne hy) hrepeats t
      hd (fun _ ↦ ht) hunaliased (fun _ ↦ hapart)
    rw [hextend, LimbOperation.value_add,
      LimbOperation.codesAfter_add _ _ hpos hextend hzero] at hleaves
    exact ⟨hleaves, hlowered trivial, fun code ↦ hleaves.memory.number_eq hapart⟩
  · obtain ⟨hleaves, hlowered⟩ := leaves_of_repeats (hopcode.does hx hne hy) hrepeats t
      hd (fun _ ↦ ht) hunaliased (fun _ ↦ hapart)
    rw [hextend, LimbOperation.value_sub,
      LimbOperation.codesAfter_sub _ _ hpos hextend hzero] at hleaves
    exact ⟨hleaves, hlowered trivial, fun code ↦ hleaves.memory.number_eq hapart⟩
  · obtain ⟨hleaves, -⟩ := leaves_of_repeats (hopcode.does hx x) hrepeats 0 hd
      nofun hunaliased nofun
    rw [hextend, LimbOperation.value_negate,
      LimbOperation.codesAfter_negate _ _ hpos hextend hzero] at hleaves
    exact hleaves

/-- The numbers 0x01FF and 0x0001 of two bytes each, and a program that adds them. -/
def twoBytes : Machine where
  registers :=
    { a := #v[0x12, 0x22, 0, 0, 0, 0, 0, 0]
      flags := .ofCcr { Ccr.clear with zero := true } }
  memory := .ram
    { size := 0x30
      written := .ofList [(0x00, (0xD1 : Byte)), (0x01, 0x09), (0x02, 0xD1), (0x03, 0x09),
        (0x10, 0x01), (0x11, 0xFF), (0x21, 0x01)] }

/-- The same after the low bytes, which left a carry. -/
def twoBytesHalfway : Machine where
  registers :=
    { a := #v[0x11, 0x21, 0, 0, 0, 0, 0, 0]
      pc := 2
      flags := .ofCcr ⟨true, false, true, false, true⟩ }
  memory := .ram
    { size := 0x30
      written := (Std.TreeMap.ofList [(0x00, (0xD1 : Byte)), (0x01, 0x09), (0x02, 0xD1),
        (0x03, 0x09), (0x10, 0x01), (0x11, 0xFF), (0x21, 0x01)]).insert 0x11 0 }
  opcode := 0xD109

theorem chains_work_on_numbers_twoBytes :
    ∃ final, runFor handlers 2 twoBytes = (none, final) ∧ Repeats 0xD109 2 twoBytes final ∧
      (∀ code, final.memory.number code .byte 0x12 2 = .ok 0x0200#16) ∧
      final.registers.flags.ccr = .clear := by
  have hlookup : instructionSet.lookup 0xD109 = some (.chainedBinary .add .byte true) := by
    rw [lookup_instructionSet]
    decide +kernel
  have hfirst : (step handlers).run twoBytes = .ok .next twoBytesHalfway :=
    run_step_of_lookup hlookup rfl rfl rfl
  obtain ⟨final, hsecond⟩ : ∃ final, (step handlers).run twoBytesHalfway = .ok .next final :=
    ⟨_, run_step_of_lookup hlookup rfl rfl rfl⟩
  have hrun : runFor handlers 2 twoBytes = (none, final) := by
    rw [runFor_succ_of_run hfirst, runFor_succ_of_run hsecond, runFor]
  have hchained : Opcode.IsChained 0xD109 .add .byte 0 1 := ⟨hlookup, rfl, rfl⟩
  have hbytes : twoBytes.memory.IsMemory := trivial
  have hunaliased : twoBytes.memory.Unaliased 0x10 2 :=
    Space.unaliased_of_isMemory hbytes (by decide)
  have hapart : twoBytes.memory.Apart 0x20 2 0x10 2 :=
    Space.apart_of_isMemory hbytes (by decide)
  have hapartCode : twoBytes.memory.Apart 0 (2 * 2) 0x10 2 :=
    Space.apart_of_isMemory hbytes (by decide)
  have hcode (i : Nat) (hi : i < 2) : twoBytes.memory.read .supervisorProgram
      (0 + BitVec.ofNat 32 (2 * i)) .word = .ok (0xD109 : BitVec 16) := by
    obtain rfl | rfl : i = 0 ∨ i = 1 := by omega
    all_goals rfl
  have hrepeats : Repeats 0xD109 2 twoBytes final :=
    repeats_of_runFor (hchained.does (by decide) (by decide) (by decide)) rfl hcode hapartCode hrun
  obtain ⟨hbinary, -⟩ := chains_work_on_numbers .byte 0 (by decide) 2 (by decide) twoBytes final
    rfl rfl 0x01FF#16 rfl hunaliased
  obtain ⟨hleaves, -⟩ := (hbinary 1 0x0001#16 (by decide) (by decide) rfl hapart).1 0xD109
    hchained hrepeats
  exact ⟨final, hrun, hrepeats, hleaves.number, hleaves.codes⟩

end M68000
