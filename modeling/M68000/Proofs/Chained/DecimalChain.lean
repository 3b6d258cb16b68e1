import M68000.Proofs.Chained.Decimal

/-!
# Packed decimal chains

ABCD, SBCD and NBCD are repeated, from the lowest byte on. They leave the decimal sum, difference
or complement of the whole numbers, with their flags, if X is clear and Z is set at the start.
-/

namespace M68000

open Exec

variable {x y : Fin 8} {opcode : Opcode} {final : Machine}

/-! ## The instructions -/

namespace Opcode

variable (opcode)

/-- ABCD or SBCD on the bytes below two address registers. -/
def IsDecimalChained (operation : ChainedOperation) (x y : Fin 8) : Prop :=
  instructionSet.lookup opcode = some (.chainedDecimal operation true) ∧
    opcode.highRegister = x ∧ opcode.lowRegister = y

/-- NBCD on the byte below an address register. -/
def IsDecimalNegation (x : Fin 8) : Prop :=
  instructionSet.lookup opcode = some .negateDecimal ∧
    Mode.ofField? opcode.operandField = some (.preDecrement x)

variable {opcode} (hx : x ≠ stackPointer)

include hx

theorem IsDecimalChained.does {operation : ChainedOperation}
    (h : opcode.IsDecimalChained operation x y) (hne : x ≠ y) (hy : y ≠ stackPointer) :
    opcode.Does (LimbOperation.binary operation).decimal x y := by
  obtain ⟨hlookup, rfl, rfl⟩ := h
  intro machine performed hbus hperform
  rw [perform_of_lookup hlookup] at hperform
  cases operation <;>
    exact Instruction.works_of_run_chained hbus hne (fun _ ↦ hx) (fun _ ↦ hy) hperform

theorem IsDecimalNegation.does (h : opcode.IsDecimalNegation x) (y : Fin 8) :
    opcode.Does LimbOperation.negate.decimal x y := by
  obtain ⟨hlookup, hmode⟩ := h
  intro machine performed hbus hperform
  rw [perform_of_lookup hlookup] at hperform
  obtain ⟨destination, memory, trace, hread, hwrite, rfl⟩ :=
    Instruction.exists_of_run_negateDecimal hmode hperform
  exact ⟨destination, 0,
    Instruction.works_of_replaced hbus (fun _ ↦ hx) id y hread hwrite⟩

end Opcode

/-! ## Decimal numbers -/

/-- A decimal number of a value has been left in the place of another one, with its flags and the
carry out of it. -/
def LeavesDecimal (x : Fin 8) (count value : Nat) (carry : Bool) (start final : Machine) : Prop :=
  ∃ result : BitVec (Size.byte.bits * count), result.IsDecimal ∧ result.decimalValue = value ∧
    Leaves .byte x count result
      { extend := carry
        negative := result.msb
        zero := result == 0
        overflow := false
        carry := carry } start final

theorem LimbOperation.overflow_decimal (operation : LimbOperation)
    (destination source : Size.byte.Value) (extend : Bool) :
    (operation.decimal.combine destination source extend).overflow = false := by
  match operation with
  | binary .add | binary .sub | negate => rfl

section Repeated

variable {operation : LimbOperation} {count : Nat} {start : Machine}
  (hcount : 0 < count) (hextend : start.registers.flags.extend = false)
  (hzero : start.registers.flags.zero = true)

include hcount hextend hzero

/-- From X clear and Z set on, the number that is left balances with the carry. -/
theorem exists_leavesDecimal_of_repeats (hdoes : opcode.Does operation.decimal x y)
    (hrepeats : Repeats opcode count start final)
    {destination : BitVec (Size.byte.bits * count)} (source : BitVec (Size.byte.bits * count))
    (hdecimal : destination.IsDecimal)
    (hdecimalSource : operation.decimal.TakesSource → source.IsDecimal)
    (hdestination : start.memory.number ⟨start.registers.supervisor, false⟩ .byte
      (start.registers.getA x) count = .ok destination)
    (hsource : operation.decimal.TakesSource →
      start.memory.number ⟨start.registers.supervisor, false⟩ .byte
        (start.registers.getA y) count = .ok source)
    (hunaliased : start.memory.Unaliased (Space.numberStart .byte (start.registers.getA x) count)
      (Size.byte.bytes * count))
    (hapart : operation.decimal.TakesSource →
      start.memory.Apart (Space.numberStart .byte (start.registers.getA y) count)
        (Size.byte.bytes * count) (Space.numberStart .byte (start.registers.getA x) count)
        (Size.byte.bytes * count)) :
    ∃ value carry, value < 10 ^ (2 * count) ∧
      operation.Balances (10 ^ (2 * count)) destination.decimalValue source.decimalValue 0 value
        carry.toNat ∧
      LeavesDecimal x count value carry start final := by
  obtain ⟨result, codes, hparts, hleaves, -⟩ :=
    exists_leaves_of_repeats hdoes hrepeats source hdestination hsource hunaliased hapart
  obtain ⟨hresult, hbalances⟩ :=
    LimbOperation.decimal_of_partByPart hparts hdecimal hdecimalSource
  obtain ⟨high, high', extend, rfl⟩ := hparts.exists_codes hcount
  have hlt := hresult.decimalValue_lt
  have hdigits : Size.byte.bits * count / 4 = 2 * count := by
    change 8 * count / 4 = 2 * count
    omega
  have hmodulus : 10 ^ (2 * count) = 100 ^ count := Nat.pow_mul 10 2 count
  have hstart : start.registers.flags.ccr.extend = false := hextend
  have hstartZero : start.registers.flags.ccr.zero = true := hzero
  rw [hdigits] at hlt
  rw [hstart, ← hmodulus] at hbalances
  rw [hstartZero, Bool.and_true, LimbOperation.overflow_decimal] at hleaves
  exact ⟨_, _, hlt, hbalances, result, hresult, rfl, hleaves⟩

end Repeated

/-- Two packed decimal numbers end just below the address registers `x` and `y`. With X clear and Z
set, repeating ABCD, SBCD or NBCD as often as a number has bytes adds, subtracts or complements
the numbers. What is left is decimal again, C and X tell of the decimal carry or borrow, and in
memory nothing but the result in place of the first number changes. -/
theorem decimal_chains_work_on_numbers (x : Fin 8) (hx : x ≠ stackPointer) (count : Nat)
    (hcount : 0 < count) (start final : Machine)
    (hextend : start.registers.flags.extend = false) (hzero : start.registers.flags.zero = true)
    (d : BitVec (Size.byte.bits * count)) (hdecimal : d.IsDecimal)
    (hd : start.memory.number ⟨start.registers.supervisor, false⟩ .byte (start.registers.getA x)
      count = .ok d)
    (hunaliased : start.memory.Unaliased (Space.numberStart .byte (start.registers.getA x) count)
      (Size.byte.bytes * count)) :
    (∀ (y : Fin 8) (t : BitVec (Size.byte.bits * count)), x ≠ y → y ≠ stackPointer →
      t.IsDecimal →
      start.memory.number ⟨start.registers.supervisor, false⟩ .byte (start.registers.getA y) count =
        .ok t →
      start.memory.Apart (Space.numberStart .byte (start.registers.getA y) count)
        (Size.byte.bytes * count) (Space.numberStart .byte (start.registers.getA x) count)
        (Size.byte.bytes * count) →
      (∀ opcode : Opcode, opcode.IsDecimalChained .add x y → Repeats opcode count start final →
        LeavesDecimal x count ((d.decimalValue + t.decimalValue) % 10 ^ (2 * count))
          (10 ^ (2 * count) ≤ d.decimalValue + t.decimalValue) start final) ∧
      (∀ opcode : Opcode, opcode.IsDecimalChained .sub x y → Repeats opcode count start final →
        LeavesDecimal x count
          ((d.decimalValue + 10 ^ (2 * count) - t.decimalValue) % 10 ^ (2 * count))
          (d.decimalValue < t.decimalValue) start final)) ∧
    ∀ opcode : Opcode, opcode.IsDecimalNegation x → Repeats opcode count start final →
      LeavesDecimal x count ((10 ^ (2 * count) - d.decimalValue) % 10 ^ (2 * count))
        (d.decimalValue ≠ 0) start final := by
  have hlt := hdecimal.decimalValue_lt
  have hdigits : Size.byte.bits * count / 4 = 2 * count := by
    change 8 * count / 4 = 2 * count
    omega
  rw [hdigits] at hlt
  refine ⟨fun y t hne hy htDecimal ht hapart ↦ ⟨fun opcode hopcode hrepeats ↦ ?add,
    fun opcode hopcode hrepeats ↦ ?sub⟩, fun opcode hopcode hrepeats ↦ ?negate⟩
  case add =>
    obtain ⟨value, carry, hvalue, hbalances, hleaves⟩ := exists_leavesDecimal_of_repeats hcount
      hextend hzero (hopcode.does hx hne hy) hrepeats t hdecimal (fun _ ↦ htDecimal) hd (fun _ ↦ ht)
      hunaliased fun _ ↦ hapart
    obtain ⟨rfl, rfl⟩ := LimbOperation.eq_mod_of_balances_add hvalue hbalances
    exact hleaves
  case sub =>
    have hltSource := htDecimal.decimalValue_lt
    rw [hdigits] at hltSource
    obtain ⟨value, borrow, hvalue, hbalances, hleaves⟩ := exists_leavesDecimal_of_repeats hcount
      hextend hzero (hopcode.does hx hne hy) hrepeats t hdecimal (fun _ ↦ htDecimal) hd (fun _ ↦ ht)
      hunaliased fun _ ↦ hapart
    obtain ⟨rfl, rfl⟩ := LimbOperation.eq_mod_of_balances_sub hvalue hbalances hltSource
    exact hleaves
  case negate =>
    obtain ⟨value, borrow, hvalue, hbalances, hleaves⟩ := exists_leavesDecimal_of_repeats hcount
      hextend hzero (hopcode.does hx x) hrepeats 0 hdecimal nofun hd nofun hunaliased nofun
    obtain ⟨rfl, rfl⟩ := LimbOperation.eq_mod_of_balances_negate hvalue hbalances hlt
    exact hleaves

/-- The numbers 1985 and 167 of two bytes each, and a program that adds them. -/
def decimalBytes : Machine where
  registers :=
    { a := #v[0x14, 0x24, 0, 0, 0, 0, 0, 0]
      flags := .ofCcr { Ccr.clear with zero := true } }
  memory := .ram
    { size := 0x30
      written := .ofList [(0x00, (0xC1 : Byte)), (0x01, 0x09), (0x02, 0xC1), (0x03, 0x09),
        (0x12, 0x19), (0x13, 0x85), (0x22, 0x01), (0x23, 0x67)] }

/-- The same after the low bytes, which left a carry. -/
def decimalBytesHalfway : Machine where
  registers :=
    { a := #v[0x13, 0x23, 0, 0, 0, 0, 0, 0]
      pc := 2
      flags := .ofCcr ⟨true, false, false, false, true⟩ }
  memory := .ram
    { size := 0x30
      written := (Std.TreeMap.ofList [(0x00, (0xC1 : Byte)), (0x01, 0x09), (0x02, 0xC1),
        (0x03, 0x09), (0x12, 0x19), (0x13, 0x85), (0x22, 0x01), (0x23, 0x67)]).insert 0x13 0x52 }
  opcode := 0xC109

theorem decimal_chains_work_on_numbers_decimalBytes :
    ∃ final, runFor handlers 2 decimalBytes = (none, final) ∧ Repeats 0xC109 2 decimalBytes final ∧
      LeavesDecimal 0 2 2152 false decimalBytes final := by
  have hlookup : instructionSet.lookup 0xC109 = some (.chainedDecimal .add true) := by
    rw [lookup_instructionSet]
    decide +kernel
  have hfirst : (step handlers).run decimalBytes = .ok .next decimalBytesHalfway :=
    run_step_of_lookup hlookup rfl rfl rfl
  obtain ⟨final, hsecond⟩ : ∃ final, (step handlers).run decimalBytesHalfway = .ok .next final :=
    ⟨_, run_step_of_lookup hlookup rfl rfl rfl⟩
  have hrun : runFor handlers 2 decimalBytes = (none, final) := by
    rw [runFor_succ_of_run hfirst, runFor_succ_of_run hsecond, runFor]
  have hchained : Opcode.IsDecimalChained 0xC109 .add 0 1 := ⟨hlookup, rfl, rfl⟩
  have hbytes : decimalBytes.memory.IsMemory := trivial
  have hunaliased : decimalBytes.memory.Unaliased 0x12 2 :=
    Space.unaliased_of_isMemory hbytes (by decide)
  have hapart : decimalBytes.memory.Apart 0x22 2 0x12 2 :=
    Space.apart_of_isMemory hbytes (by decide)
  have hapartCode : decimalBytes.memory.Apart 0 (2 * 2) 0x12 2 :=
    Space.apart_of_isMemory hbytes (by decide)
  have hcode (i : Nat) (hi : i < 2) : decimalBytes.memory.read .supervisorProgram
      (0 + BitVec.ofNat 32 (2 * i)) .word = .ok (0xC109 : BitVec 16) := by
    obtain rfl | rfl : i = 0 ∨ i = 1 := by omega
    all_goals rfl
  have hrepeats : Repeats 0xC109 2 decimalBytes final :=
    repeats_of_runFor (hchained.does (by decide) (by decide) (by decide)) rfl hcode hapartCode hrun
  have hdecimal : BitVec.IsDecimal 0x1985#16 := by
    change ∀ digit ∈ [5, 8, 9, 1], digit ≤ 9
    decide
  have hdecimalSource : BitVec.IsDecimal 0x0167#16 := by
    change ∀ digit ∈ [7, 6, 1, 0], digit ≤ 9
    decide
  obtain ⟨hbinary, -⟩ := decimal_chains_work_on_numbers 0 (by decide) 2 (by decide) decimalBytes
    final rfl rfl 0x1985#16 hdecimal rfl hunaliased
  obtain ⟨hadd, -⟩ := hbinary 1 0x0167#16 (by decide) (by decide) hdecimalSource rfl hapart
  exact ⟨final, hrun, hrepeats, hadd 0xC109 hchained hrepeats⟩

end M68000
