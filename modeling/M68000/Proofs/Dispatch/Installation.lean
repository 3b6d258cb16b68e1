import M68000.Proofs.Run.Fetch
import Mathlib.Data.Set.Card

/-!
# Installing handlers

A table that has been filled by any number of installations, overlapping or not, holds for each
opcode what the last matching installation has put there, and what the table held at first where
none matches. A step executes just that, and faults without a change where the table holds nothing.
-/

namespace M68000

open Exec

/-- A handler is installed, with the data that it is executed with, at all opcodes that match. -/
structure Installation extends Pattern where
  handler : Opcode → BitVec 32 → Exec Unit
  data : BitVec 32

namespace Installation

/-- What the opcodes of the installation do. -/
def action (call : Installation) : Handler :=
  fun opcode ↦ call.handler opcode call.data

/-- The installation is the last one that matches the opcode. -/
def Decides (call : Installation) (calls : List Installation) (opcode : Opcode) : Prop :=
  ∃ earlier later, calls = earlier ++ call :: later ∧ call.covers opcode = true ∧
    ∀ other ∈ later, other.covers opcode = false

/-- If an installation matches, there is a last one that does. -/
theorem exists_decides {calls : List Installation} {opcode : Opcode}
    (hmatch : ∃ call ∈ calls, call.covers opcode = true) :
    ∃ call : Installation, call.Decides calls opcode := by
  induction calls with
  | nil =>
    obtain ⟨call, hcall, -⟩ := hmatch
    cases hcall
  | cons first rest ih =>
    by_cases hrest : ∃ call ∈ rest, call.covers opcode = true
    · obtain ⟨call, earlier, later, rfl, hdecides⟩ := ih hrest
      exact ⟨call, first :: earlier, later, rfl, hdecides⟩
    · have hnone : ∀ other ∈ rest, other.covers opcode = false := by
        intro other hother
        exact Bool.eq_false_iff.2 fun hcovers ↦ hrest ⟨other, hother, hcovers⟩
      obtain ⟨call, hcall, hcovers⟩ := hmatch
      obtain rfl | hcall := List.mem_cons.1 hcall
      · exact ⟨call, [], rest, rfl, hcovers, hnone⟩
      · exact absurd ⟨call, hcall, hcovers⟩ hrest

end Installation

namespace Table

/-- The table after installations, the earliest first. -/
def installAll (table : Table Handler) (calls : List Installation) : Table Handler :=
  calls.foldl (fun table call ↦ table.install call.toPattern call.action) table

/-! ## Lookups -/

section Lookup

variable (table : Table Handler) {calls : List Installation} {call : Installation}
  {opcode : Opcode}

theorem lookup_installAll_of_unmatched (hnone : ∀ call ∈ calls, call.covers opcode = false) :
    (table.installAll calls).lookup opcode = table.lookup opcode := by
  induction calls generalizing table with
  | nil => rfl
  | cons first rest ih =>
    obtain ⟨hfirst, hrest⟩ := List.forall_mem_cons.1 hnone
    have hinstall := table.lookup_install first.toPattern first.action opcode
    rw [hfirst] at hinstall
    exact (ih _ hrest).trans hinstall

theorem lookup_installAll_of_decides (hdecides : call.Decides calls opcode) :
    (table.installAll calls).lookup opcode = some call.action := by
  obtain ⟨earlier, later, rfl, hcall, hlater⟩ := hdecides
  rw [installAll, List.foldl_append, List.foldl_cons]
  refine (lookup_installAll_of_unmatched _ hlater).trans ?_
  rw [lookup_install, hcall]
  rfl

theorem isInstalled_installAll_iff :
    (table.installAll calls).isInstalled opcode = true ↔
      (∃ call ∈ calls, call.covers opcode = true) ∨ table.isInstalled opcode = true := by
  by_cases hmatch : ∃ call ∈ calls, call.covers opcode = true
  · obtain ⟨call, hdecides⟩ := Installation.exists_decides hmatch
    rw [isInstalled, table.lookup_installAll_of_decides hdecides]
    exact iff_of_true rfl (.inl hmatch)
  · have hnone : ∀ call ∈ calls, call.covers opcode = false := by
      intro call hcall
      exact Bool.eq_false_iff.2 fun hcovers ↦ hmatch ⟨call, hcall, hcovers⟩
    rw [isInstalled, table.lookup_installAll_of_unmatched hnone]
    exact (or_iff_right hmatch).symm

end Lookup

/-! ## Counting -/

section Count

variable {α : Type}

theorem length_filter_finRange {n : Nat} (slots : Vector α n) (p : α → Bool) :
    ((List.finRange n).filter fun index ↦ p (slots.get index)).length = slots.countP p := by
  have hslots : slots = Vector.ofFn slots.get := by
    ext i hi
    rw [Vector.getElem_ofFn]
    rfl
  conv_rhs => rw [hslots]
  rw [← Vector.countP_toList, Vector.toList_ofFn, List.ofFn_eq_map, List.countP_map,
    List.countP_eq_length_filter]
  rfl

/-- Every opcode that is installed counts, and none counts twice. -/
theorem installedCount_eq_ncard (table : Table α) :
    table.installedCount = {opcode : Opcode | table.isInstalled opcode = true}.ncard := by
  have hinjective : Function.Injective (BitVec.ofFin : Fin (2 ^ 16) → Opcode) :=
    fun _ _ h ↦ BitVec.ofFin.inj h
  have hnodup := ((List.nodup_finRange 0x10000).filter
    fun index ↦ (table.slots.get index).isSome).map hinjective
  have hset : {opcode : Opcode | table.isInstalled opcode = true} =
      (((((List.finRange 0x10000).filter fun index ↦ (table.slots.get index).isSome).map
        BitVec.ofFin).toFinset : Finset Opcode) : Set Opcode) := by
    ext opcode
    simp only [Set.mem_ofPred_eq, List.coe_toFinset, List.mem_map, List.mem_filter,
      List.mem_finRange, true_and]
    constructor
    · intro h
      exact ⟨opcode.toFin, h, rfl⟩
    · rintro ⟨index, hindex, rfl⟩
      exact hindex
  rw [hset, Set.ncard_coe_finset, List.toFinset_card_of_nodup hnodup, List.length_map,
    length_filter_finRange]
  rfl

end Count

end Table

/-- The last installation that matches an opcode decides what it does, and the table held at first
does where none matches. The opcodes that are installed are those of the installations and those
installed at first. Where no interrupt is due, a step executes the handler with the opcode and the
data that it was installed with, and an opcode that is not installed is illegal and changes neither
registers nor memory. -/
theorem installations_decide (start : Table Handler) (calls : List Installation)
    (opcode : Opcode) :
    let table := start.installAll calls
    (∀ call : Installation, call.Decides calls opcode →
      table.lookup opcode = some fun opcode ↦ call.handler opcode call.data) ∧
    ((∀ call ∈ calls, call.covers opcode = false) →
      table.lookup opcode = start.lookup opcode) ∧
    (table.isInstalled opcode = true ↔
      (∃ call ∈ calls, call.covers opcode = true) ∨ start.isInstalled opcode = true) ∧
    table.installedCount =
      {opcode : Opcode | (∃ call ∈ calls, call.covers opcode = true) ∨
        start.isInstalled opcode = true}.ncard ∧
    ∀ machine : Machine, machine.dueInterrupt? = none →
      machine.memory.read ⟨machine.registers.supervisor, true⟩ machine.registers.pc .word =
        .ok opcode →
      (table.isInstalled opcode = false → ∃ final,
        (step table).run machine = .error (.illegalInstruction opcode machine.registers.pc) final ∧
          final.registers = machine.registers ∧ final.memory = machine.memory) ∧
      (∀ call : Installation, call.Decides calls opcode → ∃ fetched,
        machine.Fetched opcode fetched ∧ (step table).run machine = (do
          call.handler opcode call.data
          takeExit).run fetched) ∧
      ∀ handler, (∀ call ∈ calls, call.covers opcode = false) →
        start.lookup opcode = some handler → ∃ fetched,
          machine.Fetched opcode fetched ∧ (step table).run machine = (do
            handler opcode
            takeExit).run fetched := by
  have hset : {opcode : Opcode | (start.installAll calls).isInstalled opcode = true} =
      {opcode : Opcode | (∃ call ∈ calls, call.covers opcode = true) ∨
        start.isInstalled opcode = true} :=
    Set.ext fun opcode ↦ start.isInstalled_installAll_iff
  refine ⟨fun call ↦ start.lookup_installAll_of_decides, start.lookup_installAll_of_unmatched,
    start.isInstalled_installAll_iff, ?_, fun machine hdue hread ↦ ⟨?_, ?_, ?_⟩⟩
  · rw [Table.installedCount_eq_ncard, hset]
  · intro hinstalled
    obtain ⟨fetched, hfetched, hrun⟩ := exists_run_step_of_not_installed hdue hread hinstalled
    exact ⟨fetched, hrun, hfetched.registers, hfetched.memory⟩
  · intro call hdecides
    exact exists_run_step_of_lookup hdue hread (start.lookup_installAll_of_decides hdecides)
  · intro handler hnone hlookup
    have hkept := start.lookup_installAll_of_unmatched hnone
    exact exists_run_step_of_lookup hdue hread (hkept.trans hlookup)

/-- A handler that stores its data in a register. -/
def storeData : Opcode → BitVec 32 → Exec Unit := fun _ data ↦ do
  setD 0 data
  advancePc 2

/-- All traps are replaced, and some of them a second time, by a pattern with free base bits. -/
def replacedTraps : List Installation :=
  [⟨⟨0x4E40, 0x000F⟩, storeData, 1⟩, ⟨⟨0x4E45, 0x0005⟩, storeData, 2⟩]

theorem installations_decide_replacedTraps :
    ∃ final, (step (handlers.installAll replacedTraps)).run (userProgram 0x4E40) =
        .ok .next final ∧
      final.registers.getD 0 = 2 := by
  have hdecides : Installation.Decides ⟨⟨0x4E45, 0x0005⟩, storeData, 2⟩ replacedTraps 0x4E40 :=
    ⟨[⟨⟨0x4E40, 0x000F⟩, storeData, 1⟩], [], rfl, by decide, nofun⟩
  obtain ⟨-, -, -, -, hsteps⟩ := installations_decide handlers replacedTraps 0x4E40
  obtain ⟨fetched, ⟨interrupts, trace, -, rfl⟩, hrun⟩ :=
    (hsteps (userProgram 0x4E40) rfl rfl).2.1 _ hdecides
  exact ⟨_, hrun, rfl⟩

end M68000
