import M68000.Proofs.Memory.RoundTrip
import Mathlib.Data.Nat.Find
import Mathlib.Logic.Function.Iterate

/-!
# Where a string ends

A string is read byte by byte, and only a zero byte or a refused one ends the search. The address
runs round the bus, so that after one turn of the bus the search has come by every byte there. It
has ended by then, or it never does.
-/

namespace M68000

/-- Where the search for the end of a string stands: the bytes that it has found and the address
that is read next, or its answer. -/
inductive Search where
  | reading (next : Address) (found : List Byte)
  | done (answer : Except BusError (List Byte))

namespace Search

def answer? : Search → Option (Except BusError (List Byte))
  | reading _ _ => none
  | done answer => some answer

variable (space : Space) (code : FunctionCode)

/-- One turn of the search reads one byte. -/
def turn : Search → Search
  | reading next found =>
    match space.getByte code next with
    | .error refusal => done (.error refusal)
    | .ok byte => if byte = 0 then done (.ok found) else reading (next + 1) (found ++ [byte])
  | done answer => done answer

/-- The search for the end of the string at an address, after so many reads. -/
def after (address : Address) (reads : Nat) : Search :=
  (turn space code)^[reads] (reading address [])

theorem iterate_turn_done (reads : Nat) (answer : Except BusError (List Byte)) :
    (turn space code)^[reads] (done answer) = done answer :=
  Function.iterate_fixed rfl reads

variable {space code} {address : Address}

/-- By induction on the reads that are left, for any bytes found before. -/
theorem answer?_iterate_turn (reads : Nat) (next : Address) (found : List Byte) :
    ((turn space code)^[reads] (reading next found)).answer? =
      (space.readStringWithin code reads next).map (·.map (found ++ ·)) := by
  induction reads generalizing next found with
  | zero => rfl
  | succ reads ih =>
    rw [Function.iterate_succ_apply, turn, Space.readStringWithin]
    cases space.getByte code next with
    | error refusal =>
      rw [iterate_turn_done]
      rfl
    | ok byte =>
      by_cases hzero : byte = 0
      · simp only [if_pos hzero, iterate_turn_done, answer?, Option.map_some, Except.map,
          List.append_nil]
      · simp only [if_neg hzero, ih, Option.map_map]
        refine congrArg (Option.map · _) (funext fun answer ↦ ?_)
        cases answer with
        | error refusal => rfl
        | ok rest => exact congrArg Except.ok (List.append_assoc ..)

/-- The string that is read within a limit is what the search has found after as many reads. -/
theorem answer?_after (reads : Nat) :
    (after space code address reads).answer? = space.readStringWithin code reads address := by
  rw [after, answer?_iterate_turn]
  have hid : (fun answer : Except BusError (List Byte) ↦ answer.map ([] ++ ·)) = id := by
    funext answer
    cases answer <;> rfl
  exact (congrArg (Option.map · _) hid).trans Option.map_id_apply

theorem after_succ (reads : Nat) :
    after space code address (reads + 1) = turn space code (after space code address reads) :=
  Function.iterate_succ_apply' ..

theorem after_of_le {first reads : Nat} {answer : Except BusError (List Byte)}
    (h : after space code address first = done answer) (hle : first ≤ reads) :
    after space code address reads = done answer := by
  obtain ⟨more, rfl⟩ := Nat.exists_eq_add_of_le' hle
  rw [after, Function.iterate_add_apply]
  change (turn space code)^[more] (after space code address first) = done answer
  rw [h, iterate_turn_done]

end Search

namespace Space

variable {space : Space} {code : FunctionCode} {address other : Address} {byte : Byte}
  {bytes : List Byte} {answer : Except BusError (List Byte)}

/-- The address can be read and does not hold zero, so a string goes on there. -/
def GoesOnAt (space : Space) (code : FunctionCode) (address : Address) : Prop :=
  ∃ byte, byte ≠ 0 ∧ space.getByte code address = .ok byte

/-- What the string at an address comes to: the bytes there before the first zero byte, or the
refusal of the byte after them if that is not read. -/
structure StringAt (space : Space) (code : FunctionCode) (address : Address) (bytes : List Byte)
    (answer : Except BusError (List Byte)) : Prop where
  holds : space.Holds code address bytes
  nonzero : 0 ∉ bytes
  ends : (space.getByte code (address + BitVec.ofNat 32 bytes.length) = .ok 0 ∧
      answer = .ok bytes) ∨
    ∃ refusal, space.getByte code (address + BitVec.ofNat 32 bytes.length) = .error refusal ∧
      answer = .error refusal

theorem Holds.concat (h : space.Holds code address bytes)
    (hbyte : space.getByte code (address + BitVec.ofNat 32 bytes.length) = .ok byte) :
    space.Holds code address (bytes ++ [byte]) := by
  intro i hi
  obtain hlt | rfl : i < bytes.length ∨ i = bytes.length := by
    rw [List.length_append, List.length_singleton] at hi
    omega
  · rw [List.getElem_append_left hlt]
    exact h i hlt
  · rw [List.getElem_concat_length rfl]
    exact hbyte

/-- One read of the search: where a string goes on, its byte is kept. -/
theorem exists_turn_eq_reading (bytes : List Byte) (h : space.GoesOnAt code other) :
    ∃ byte, byte ≠ 0 ∧ space.getByte code other = .ok byte ∧
      Search.turn space code (.reading other bytes) = .reading (other + 1) (bytes ++ [byte]) := by
  obtain ⟨byte, hzero, hbyte⟩ := h
  refine ⟨byte, hzero, hbyte, ?_⟩
  simp only [Search.turn, hbyte, if_neg hzero]

/-- The search goes on as long as the string does, and keeps the bytes that it has come by. -/
theorem exists_after_eq_reading (reads : Nat)
    (h : ∀ i < reads, space.GoesOnAt code (address + BitVec.ofNat 32 i)) :
    ∃ bytes, bytes.length = reads ∧ space.Holds code address bytes ∧ 0 ∉ bytes ∧
      Search.after space code address reads =
        .reading (address + BitVec.ofNat 32 reads) bytes := by
  induction reads with
  | zero =>
    refine ⟨[], rfl, nofun, nofun, ?_⟩
    rw [BitVec.add_zero]
    rfl
  | succ reads ih =>
    obtain ⟨bytes, rfl, hholds, hbytes, hafter⟩ := ih fun i hi ↦ h i (Nat.lt_succ_of_lt hi)
    obtain ⟨byte, hzero, hbyte, hturn⟩ :=
      exists_turn_eq_reading bytes (h bytes.length (Nat.lt_succ_self _))
    refine ⟨bytes ++ [byte], List.length_append .., hholds.concat hbyte, ?_, ?_⟩
    · rw [List.mem_append, List.mem_singleton]
      exact not_or.2 ⟨hbytes, hzero.symm⟩
    · have hnext : address + BitVec.ofNat 32 bytes.length + 1 =
          address + BitVec.ofNat 32 (bytes.length + 1) := by
        rw [BitVec.add_assoc, BitVec.ofNat_add]
        rfl
      rw [Search.after_succ, hafter, hturn, hnext]

/-- Where a string does not go on, the search ends with the next read. -/
theorem exists_stringAt (hholds : space.Holds code address bytes) (hbytes : 0 ∉ bytes)
    (h : ¬ space.GoesOnAt code (address + BitVec.ofNat 32 bytes.length)) :
    ∃ answer, space.StringAt code address bytes answer ∧
      Search.turn space code (.reading (address + BitVec.ofNat 32 bytes.length) bytes) =
        .done answer := by
  rw [Search.turn]
  cases hread : space.getByte code (address + BitVec.ofNat 32 bytes.length) with
  | error refusal => exact ⟨_, ⟨hholds, hbytes, .inr ⟨refusal, hread, rfl⟩⟩, rfl⟩
  | ok byte =>
    obtain rfl : byte = 0 := by
      by_contra hzero
      exact h ⟨byte, hzero, hread⟩
    exact ⟨_, ⟨hholds, hbytes, .inl ⟨hread, rfl⟩⟩, if_pos rfl⟩

theorem goesOnAt_map_congr {width : BusWidth} {layers : Layers}
    (h : address.toNat ≡ other.toNat [MOD 2 ^ width.bits]) :
    (Space.map width layers).GoesOnAt code address ↔
      (Space.map width layers).GoesOnAt code other := by
  rw [GoesOnAt, GoesOnAt, getByte_map_congr (BusWidth.truncate_eq_iff_modEq.2 h)]

/-- If the string does not go on everywhere, there is a first place within one turn of the bus. -/
theorem exists_first_end {width : BusWidth} {layers : Layers}
    (h : ∃ other, ¬ (Space.map width layers).GoesOnAt code other) (address : Address) :
    ∃ length < 2 ^ width.bits,
      ¬ (Space.map width layers).GoesOnAt code (address + BitVec.ofNat 32 length) ∧
      ∀ i < length, (Space.map width layers).GoesOnAt code (address + BitVec.ofNat 32 i) := by
  obtain ⟨other, hother⟩ := h
  obtain ⟨offset, hoffset, hmod⟩ := width.exists_modEq_add_ofNat address other
  have hends : ∃ length, ¬ (Space.map width layers).GoesOnAt code
      (address + BitVec.ofNat 32 length) :=
    ⟨offset, fun hgoes ↦ hother ((goesOnAt_map_congr hmod).2 hgoes)⟩
  classical
  refine ⟨Nat.find hends, ?_, Nat.find_spec hends, fun i hi ↦ ?_⟩
  · exact (Nat.find_le fun hgoes ↦ hother ((goesOnAt_map_congr hmod).2 hgoes)).trans_lt hoffset
  · exact not_not.1 (Nat.find_min hends hi)

theorem readString_eq_answer? (space : Space) (code : FunctionCode) (address : Address) :
    space.readString code address = (Search.after space code address addressCount).answer? :=
  (Search.answer?_after addressCount).symm

/-- If a zero byte or an unreadable one is anywhere on the bus, a string ends after at most as many
reads as the bus has bytes, and comes to the bytes before its first zero byte or to the refusal of
its first unreadable byte. If every byte of the bus can be read and none is zero, the search goes on
after any number of reads: it never ends. -/
theorem string_ends_within_bus_or_never (width : BusWidth) (layers : Layers) (code : FunctionCode)
    (address : Address) :
    let space := Space.map width layers
    ((∃ other, ¬ space.GoesOnAt code other) → ∃ bytes answer,
      space.StringAt code address bytes answer ∧ bytes.length + 1 ≤ 2 ^ width.bits ∧
        (∀ reads ≤ bytes.length, (Search.after space code address reads).answer? = none) ∧
        (∀ reads, bytes.length < reads → Search.after space code address reads = .done answer) ∧
        space.readString code address = some answer) ∧
    ((∀ other, space.GoesOnAt code other) →
      (∀ reads, ∃ bytes, bytes.length = reads ∧ space.Holds code address bytes ∧ 0 ∉ bytes ∧
        Search.after space code address reads =
          .reading (address + BitVec.ofNat 32 reads) bytes) ∧
        space.readString code address = none) := by
  intro space
  refine ⟨fun hends ↦ ?_, fun hgoes ↦ ?_⟩
  · obtain ⟨length, hlength, hend, hbefore⟩ := exists_first_end hends address
    obtain ⟨bytes, rfl, hholds, hbytes, hafter⟩ := exists_after_eq_reading _ hbefore
    obtain ⟨answer, hstring, hturn⟩ := exists_stringAt hholds hbytes hend
    have hdone : Search.after space code address (bytes.length + 1) = .done answer := by
      rw [Search.after_succ, hafter, hturn]
    refine ⟨bytes, answer, hstring, hlength, fun reads hreads ↦ ?_,
      fun reads hreads ↦ Search.after_of_le hdone hreads, ?_⟩
    · obtain ⟨_, -, -, -, hreading⟩ :=
        exists_after_eq_reading reads fun i hi ↦ hbefore i (Nat.lt_of_lt_of_le hi hreads)
      rw [hreading]
      rfl
    · have hspan : bytes.length < 2 ^ space.bus.bits := hlength
      have hcount : bytes.length < addressCount := length_lt_addressCount hspan
      rw [readString_eq_answer?, Search.after_of_le hdone hcount]
      rfl
  · have hreading (reads : Nat) := exists_after_eq_reading reads
      fun i _ ↦ hgoes (address + BitVec.ofNat 32 i)
    refine ⟨hreading, ?_⟩
    obtain ⟨_, -, -, -, hafter⟩ := hreading addressCount
    rw [readString_eq_answer?, hafter]
    rfl

/-- A bus with a single page, whose first bytes are all the letter A in a read-only image. -/
def letters (count : Nat) : Space :=
  .map (.clamp 13)
    (Layers.empty.insert (.clamp 13) 0 0x2000 (.rom { image := Array.replicate count 0x41 }))

theorem getByte_letters (count : Nat) :
    (letters count).getByte code address =
      if ((BusWidth.clamp 13).truncate address).toNat < count then .ok 0x41
      else .error ⟨(BusWidth.clamp 13).truncate address, code, .read⟩ := by
  let place := (BusWidth.clamp 13).truncate address
  have hplace : place.toNat < 2 ^ pageBits := (BusWidth.clamp 13).toNat_truncate_lt address
  have hpage : (⟨0, 0⟩ : PageRange).contains place.page = true := by
    rw [place.page_eq_div, Nat.div_eq_of_lt hplace]
    rfl
  have hregion : (letters count).getByte code address =
      Rom.getByte { image := Array.replicate count 0x41 } code place := by
    change (if (⟨0, 0⟩ : PageRange).contains place.page = true then _ else _) = _
    rw [if_pos hpage]
    rfl
  have hoffset : (place - 0).toNat = place.toNat := congrArg BitVec.toNat (BitVec.sub_zero place)
  rw [hregion, Rom.getByte, Rom.offset, hoffset, Array.size_replicate]
  by_cases hlt : place.toNat < count
  · have hinside : ¬ (count < place.toNat + 1 ∨ false = true ∧ code.program = true) := by
      simp only [Bool.false_eq_true, false_and, or_false]
      omega
    have hbyte : (Array.replicate count (0x41 : Byte)).getD place.toNat 0 = 0x41 := by
      rw [Array.getD_eq_getD_getElem?, Array.getElem?_replicate, if_pos hlt, Option.getD_some]
    rw [if_neg hinside, if_pos hlt]
    exact congrArg Except.ok hbyte
  · rw [if_pos (.inl (by omega)), if_neg hlt]
    rfl

theorem goesOnAt_letters_iff (count : Nat) :
    (letters count).GoesOnAt code address ↔
      ((BusWidth.clamp 13).truncate address).toNat < count := by
  rw [GoesOnAt, getByte_letters]
  split
  next hlt => exact iff_of_true ⟨0x41, by decide, rfl⟩ hlt
  next hlt => exact iff_of_false nofun hlt

/-- No byte of the page ends the string. -/
theorem string_never_ends_letters :
    (∀ reads answer,
      Search.after (letters 0x2000) .supervisorData 0 reads ≠ .done answer) ∧
    (letters 0x2000).readString .supervisorData 0 = none := by
  have hgoes (reads : Nat) : ∃ bytes, Search.after (letters 0x2000) .supervisorData 0 reads =
      .reading (0 + BitVec.ofNat 32 reads) bytes := by
    obtain ⟨bytes, -, -, -, hafter⟩ := exists_after_eq_reading reads
      fun i _ ↦ (goesOnAt_letters_iff 0x2000).2 ((BusWidth.clamp 13).toNat_truncate_lt _)
    exact ⟨bytes, hafter⟩
  refine ⟨fun reads answer hdone ↦ ?_, ?_⟩
  · obtain ⟨bytes, hreading⟩ := hgoes reads
    cases hreading.symm.trans hdone
  · obtain ⟨bytes, hreading⟩ := hgoes addressCount
    rw [readString_eq_answer?, hreading]
    rfl

/-- If only two bytes of the page can be read, they are the last ones that the search finds. -/
theorem string_ends_within_bus_or_never_letters :
    (∃ bytes answer, (letters 2).StringAt .userData 0 bytes answer ∧ bytes.length + 1 ≤ 0x2000 ∧
      (letters 2).readString .userData 0 = some answer) ∧
    (letters 0x2000).readString .userData 0 = none := by
  have hshort := (string_ends_within_bus_or_never (.clamp 13) _ .userData 0).1
    ⟨2, (goesOnAt_letters_iff 2).not.2 (by decide)⟩
  have hfull := (string_ends_within_bus_or_never (.clamp 13) _ .userData 0).2
    fun other ↦ (goesOnAt_letters_iff 0x2000).2 ((BusWidth.clamp 13).toNat_truncate_lt other)
  obtain ⟨bytes, answer, hstring, hlength, -, -, hread⟩ := hshort
  exact ⟨⟨bytes, answer, hstring, hlength, hread⟩, hfull.2⟩

end Space

end M68000
