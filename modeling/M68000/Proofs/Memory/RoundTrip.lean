import M68000.Proofs.Memory.Stopped

/-!
# Blocks and strings read back

In a single memory, or a map of such memories, a block that has been written is found again by reads
of every kind, and so is a string, if the bus tells all of their addresses apart. That a block
crosses into another page or another memory, or goes round the top of the bus, makes no difference.
-/

namespace M68000.Space

variable {space after : Space} {code : FunctionCode} {address : Address} {byte : Byte}
  {bytes rest : List Byte}

/-! ## Bytes that stand in a row -/

/-- The bytes stand at the address and those after it. -/
def Holds (space : Space) (code : FunctionCode) (address : Address) (bytes : List Byte) : Prop :=
  ∀ (i : Nat) (hi : i < bytes.length),
    space.getByte code (address + BitVec.ofNat 32 i) = .ok bytes[i]

theorem holds_cons :
    space.Holds code address (byte :: rest) ↔
      space.getByte code address = .ok byte ∧ space.Holds code (address + 1) rest := by
  have hnext (i : Nat) : address + 1 + BitVec.ofNat 32 i = address + BitVec.ofNat 32 (i + 1) :=
    calc
      address + 1 + BitVec.ofNat 32 i = address + (BitVec.ofNat 32 1 + BitVec.ofNat 32 i) :=
        BitVec.add_assoc _ _ _
      _ = address + BitVec.ofNat 32 (i + 1) := by rw [← BitVec.ofNat_add, Nat.add_comm]
  constructor
  · intro h
    have hfirst := h 0 (Nat.succ_pos _)
    rw [BitVec.add_zero] at hfirst
    refine ⟨hfirst, fun i hi ↦ ?_⟩
    rw [hnext]
    exact h (i + 1) (Nat.succ_lt_succ hi)
  · rintro ⟨hfirst, hrest⟩ i hi
    match i with
    | 0 =>
      rw [BitVec.add_zero]
      exact hfirst
    | i + 1 =>
      rw [← hnext]
      exact hrest i (Nat.lt_of_succ_lt_succ hi)

/-- A block is read as it stands there. -/
theorem Holds.readBytes (h : space.Holds code address bytes) :
    space.readBytes code address bytes.length = .ok bytes := by
  induction bytes generalizing address with
  | nil => rfl
  | cons byte rest ih =>
    obtain ⟨hfirst, hrest⟩ := holds_cons.1 h
    rw [List.length_cons, Space.readBytes, hfirst, ih hrest]
    rfl

/-- A string is read up to the zero byte, if that comes before the search is given up. -/
theorem Holds.readStringWithin {limit : Nat} (h : space.Holds code address (bytes ++ [0]))
    (hbytes : 0 ∉ bytes) (hlimit : bytes.length < limit) :
    space.readStringWithin code limit address = some (.ok bytes) := by
  induction bytes generalizing address limit with
  | nil =>
    obtain ⟨limit, rfl⟩ := Nat.exists_eq_succ_of_ne_zero hlimit.ne'
    rw [Space.readStringWithin, (holds_cons.1 h).1]
    exact if_pos rfl
  | cons byte rest ih =>
    obtain ⟨limit, rfl⟩ := Nat.exists_eq_succ_of_ne_zero (Nat.ne_zero_of_lt hlimit)
    obtain ⟨hbyte, hrest⟩ := not_or.1 (List.mem_cons.not.1 hbytes)
    obtain ⟨hfirst, hrest'⟩ := holds_cons.1 h
    rw [Space.readStringWithin, hfirst]
    simp only [if_neg (Ne.symm hbyte), ih hrest' hrest (Nat.lt_of_succ_lt_succ hlimit)]
    rfl

/-! ## What has been written -/

/-- By induction on the bytes that are left: the later ones do not come round to the one before. -/
theorem filled_of_writeBytes (hflat : space.Flat) (hlength : bytes.length ≤ 2 ^ space.bus.bits)
    (h : space.writeBytes code address bytes = .ok () after) :
    space.Filled after address bytes := by
  induction bytes generalizing space address with
  | nil =>
    cases h
    exact filled_nil after address
  | cons byte rest ih =>
    rw [List.length_cons] at hlength
    rw [writeBytes] at h
    cases hbyte : space.putByte code address byte with
    | error refusal stopped =>
      rw [hbyte] at h
      cases h
    | ok _ middle =>
      rw [hbyte] at h
      obtain ⟨hbus, hflat', hfilled⟩ := filled_of_putByte hflat hbyte
      have hrest := ih hflat' (by rw [hbus]; omega) h
      exact hfilled.append hrest hbus (by rw [List.length_singleton]; omega)

theorem length_lt_addressCount (h : bytes.length < 2 ^ space.bus.bits) :
    bytes.length < addressCount :=
  calc
    bytes.length < 2 ^ space.bus.bits := h
    _ ≤ 2 ^ 32 := Nat.pow_le_pow_right (by decide) space.bus.le
    _ = addressCount := by decide

/-- A block that is no longer than the bus is read back after it has been written, with accesses of
any kind, and no other byte of the bus has changed. A string without a zero byte is read back if the
bus has room for its end. -/
theorem readBytes_writeBytes_and_readString_writeString (space : Space) (hflat : space.Flat)
    (code : FunctionCode) (address : Address) (bytes : List Byte) :
    (∀ after, bytes.length ≤ 2 ^ space.bus.bits →
      space.writeBytes code address bytes = .ok () after →
        (∀ reader, after.readBytes reader address bytes.length = .ok bytes) ∧
        ∀ (reader : FunctionCode) (other : Address),
          (∀ i < bytes.length, ¬ other.toNat ≡ address.toNat + i [MOD 2 ^ space.bus.bits]) →
            after.getByte reader other = space.getByte reader other) ∧
    ∀ after, bytes.length < 2 ^ space.bus.bits → 0 ∉ bytes →
      space.writeString code address bytes = .ok () after →
        ∀ reader, after.readString reader address = some (.ok bytes) := by
  refine ⟨fun after hlength h ↦ ?_, fun after hlength hbytes h reader ↦ ?_⟩
  · have hfilled := filled_of_writeBytes hflat hlength h
    refine ⟨fun reader ↦ ?_, hfilled.keeps⟩
    have hholds : after.Holds reader address bytes := hfilled.holds reader
    exact hholds.readBytes
  · have hend : (bytes ++ [0]).length ≤ 2 ^ space.bus.bits := by
      rw [List.length_append, List.length_singleton]
      exact hlength
    have hholds : after.Holds reader address (bytes ++ [0]) :=
      (filled_of_writeBytes hflat hend h).holds reader
    exact hholds.readStringWithin hbytes (length_lt_addressCount hlength)

/-- A block from the first memory into the second, and a string round the top of the bus from the
second into the first. -/
theorem readBytes_writeBytes_and_readString_writeString_twoMemories :
    let space := Space.map (.clamp 14) twoMemories
    space.Flat ∧
      (∃ after, space.writeBytes .supervisorData 0x1ffe [1, 0, 3, 4] = .ok () after ∧
        after.readBytes .userProgram 0x1ffe 4 = .ok [1, 0, 3, 4] ∧
        after.getByte .userData 0x1ffd = .ok 0 ∧ after.getByte .userData 0x2002 = .ok 0) ∧
      ∃ after, space.writeString .userData 0x3ffe [0x41, 0x42, 0x43] = .ok () after ∧
        after.readString .userProgram 0x3ffe = some (.ok [0x41, 0x42, 0x43]) := by
  have hflat : (Space.map (.clamp 14) twoMemories).Flat := ⟨trivial, trivial, trivial⟩
  obtain ⟨hblock, -⟩ := readBytes_writeBytes_and_readString_writeString
    (.map (.clamp 14) twoMemories) hflat .supervisorData 0x1ffe [1, 0, 3, 4]
  obtain ⟨-, hstring⟩ := readBytes_writeBytes_and_readString_writeString
    (.map (.clamp 14) twoMemories) hflat .userData 0x3ffe [0x41, 0x42, 0x43]
  obtain ⟨hread, hkept⟩ := hblock _ (by decide) rfl
  refine ⟨hflat, ⟨_, rfl, hread .userProgram, ?_, ?_⟩, ⟨_, rfl, ?_⟩⟩
  · exact hkept .userData 0x1ffd (by decide)
  · exact hkept .userData 0x2002 (by decide)
  · exact hstring _ (by decide) (by decide) rfl .userProgram

end M68000.Space
