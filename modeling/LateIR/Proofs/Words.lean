import LateIR.Builtin
import LateIR.Location.State
import LateIR.Proofs.Memory.Parts

/-!
The two words of a long. Its high and low halves put together are the long again, and they are
what a pair of registers holds, what the arguments of a built-in call are put together from, and
what is found in its upper and lower four bytes in memory (`words_agree`).
-/

namespace LateIR

/-! ### Halves -/

/-- The lower 32 bits. -/
def lowHalf (n : Int64) : Int32 := n.toInt32

/-- The upper 32 bits. -/
def highHalf (n : Int64) : Int32 := (n >>> 32).toInt32

/-- The long with the given halves. The lower one is not sign-extended, or a negative one would
spill into the upper half. -/
def ofHalves (high low : Int32) : Int64 :=
  (high.toInt64 <<< 32) ||| low.toUInt32.toUInt64.toInt64

/-- Bits `8 * k` to `8 * k + 7`. -/
def byteOf (n : Int64) (k : Nat) : UInt8 := .ofBitVec (n.toBitVec.extractLsb' (8 * k) 8)

theorem toBitVec_lowHalf (n : Int64) : (lowHalf n).toBitVec = n.toBitVec.extractLsb' 0 32 := by
  have cut : (lowHalf n).toBitVec = n.toBitVec.setWidth 32 :=
    BitVec.signExtend_eq_setWidth_of_le n.toBitVec (by decide)
  rw [cut, BitVec.setWidth_eq_extractLsb' (by decide)]

theorem toBitVec_highHalf (n : Int64) :
    (highHalf n).toBitVec = n.toBitVec.extractLsb' 32 32 := by
  have cut : (highHalf n).toBitVec = (n.toBitVec.sshiftRight 32).setWidth 32 :=
    BitVec.signExtend_eq_setWidth_of_le (n.toBitVec.sshiftRight 32) (by decide)
  rw [cut]
  apply BitVec.eq_of_getLsbD_eq
  intro i inside
  -- the copies of the sign bit that come in from the left are cut off again
  have kept : 32 + i < 64 := by omega
  have within : ¬ 64 ≤ i := by omega
  simp [BitVec.getLsbD_sshiftRight, inside, kept, within]

/-- A shift and a disjunction put the halves next to each other, since they have no bit in common.
-/
theorem toBitVec_ofHalves (high low : Int32) :
    (ofHalves high low).toBitVec = high.toBitVec ++ low.toBitVec := by
  have joined : (ofHalves high low).toBitVec =
    (high.toBitVec.signExtend 64 <<< 32) ||| low.toBitVec.setWidth 64 := rfl
  rw [joined]
  apply BitVec.eq_of_getLsbD_eq
  intro i inside
  refine Eq.trans ?_ BitVec.getLsbD_append.symm
  rw [BitVec.getLsbD_or, BitVec.getLsbD_shiftLeft, BitVec.getLsbD_signExtend,
    BitVec.getLsbD_setWidth]
  by_cases early : i < 32
  · simp [inside, early]
  · have beyond : low.toBitVec.getLsbD i = false := BitVec.getLsbD_of_ge _ _ (by omega)
    have within : i - 32 < 32 := by omega
    have below : i - 32 < 64 := by omega
    simp [inside, early, beyond, within, below]

/-- Nothing is lost when a long is taken apart and put together. -/
theorem ofHalves_halves (n : Int64) : ofHalves (highHalf n) (lowHalf n) = n := by
  apply Int64.toBitVec_inj.mp
  rw [toBitVec_ofHalves, toBitVec_highHalf, toBitVec_lowHalf]
  exact (BitVec.extractLsb'_append_extractLsb'_eq_extractLsb' rfl).trans BitVec.extractLsb'_eq_self

theorem highHalf_ofHalves (high low : Int32) : highHalf (ofHalves high low) = high := by
  apply Int32.toBitVec_inj.mp
  rw [toBitVec_highHalf, toBitVec_ofHalves]
  exact BitVec.extractLsb'_append_eq_left

theorem lowHalf_ofHalves (high low : Int32) : lowHalf (ofHalves high low) = low := by
  apply Int32.toBitVec_inj.mp
  rw [toBitVec_lowHalf, toBitVec_ofHalves]
  exact BitVec.extractLsb'_append_eq_right

/-! The halves and bytes of a long as parts of its unsigned reading. -/

theorem toNat_lowHalf (n : Int64) :
    (lowHalf n).toUInt32.toNat = n.toUInt64.toNat % 4294967296 := by
  have bits : (lowHalf n).toUInt32.toNat = (n.toBitVec.extractLsb' 0 32).toNat :=
    congrArg BitVec.toNat (toBitVec_lowHalf n)
  rw [bits, BitVec.extractLsb'_toNat]
  rfl

theorem toNat_highHalf (n : Int64) :
    (highHalf n).toUInt32.toNat = n.toUInt64.toNat / 4294967296 := by
  have bits : (highHalf n).toUInt32.toNat = (n.toBitVec.extractLsb' 32 32).toNat :=
    congrArg BitVec.toNat (toBitVec_highHalf n)
  have bound : n.toBitVec.toNat < 18446744073709551616 := n.toUInt64.toNat_lt
  rw [bits, BitVec.extractLsb'_toNat, Nat.shiftRight_eq_div_pow]
  exact Nat.mod_eq_of_lt (by omega)

theorem toNat_byteOf (n : Int64) (k : Nat) :
    (byteOf n k).toNat = n.toUInt64.toNat / Nat.pow 256 k % 256 := by
  have weight : Nat.pow 256 k = Nat.pow 2 (8 * k) := (Nat.pow_mul 2 8 k).symm
  have bits : (byteOf n k).toNat = (n.toBitVec.extractLsb' (8 * k) 8).toNat := rfl
  rw [bits, BitVec.extractLsb'_toNat, Nat.shiftRight_eq_div_pow, weight]
  rfl

/-! ### Values and registers -/

namespace Val

theorem longOfWords_halves (n : Int64) :
    (long n).highWord.longOfWords (long n).lowWord = long n :=
  congrArg long (ofHalves_halves n)

theorem highWord_longOfWords (high low : Int32) :
    ((int high).longOfWords (int low)).highWord = int high :=
  congrArg int (highHalf_ofHalves high low)

theorem lowWord_longOfWords (high low : Int32) :
    ((int high).longOfWords (int low)).lowWord = int low :=
  congrArg int (lowHalf_ofHalves high low)

end Val

/-- A pair of registers into which a long has been written in halves. -/
theorem RegFile.get_setAll_halves (file : RegFile) {high low : Reg} (differ : high ≠ low)
    (v : Val) :
    (file.setAll ((Split.halves high low).writes v)).get high = v.highWord ∧
      (file.setAll ((Split.halves high low).writes v)).get low = v.lowWord := by
  show ((file.set high v.highWord).set low v.lowWord).get high = v.highWord ∧
    ((file.set high v.highWord).set low v.lowWord).get low = v.lowWord
  rw [get_set, get_set, get_set, if_neg (Ne.symm differ), if_pos rfl, if_pos rfl]
  exact ⟨rfl, rfl⟩

/-! ### Memory -/

/-- A long is stored as its low half with the high one behind it. -/
theorem Chunk.encode_long (n : Int64) :
    int64.encode (.long n) =
      int32.encode (.int (lowHalf n)) ++ int32.encode (.int (highHalf n)) := by
  show int64.bytes n.toUInt64.toNat =
    int32.bytes (lowHalf n).toUInt32.toNat ++ int32.bytes (highHalf n).toUInt32.toNat
  have low : int32.bytes (lowHalf n).toUInt32.toNat = int32.bytes n.toUInt64.toNat := by
    apply bytes_congr
    rw [toNat_lowHalf]
    exact Nat.mod_mod _ _
  rw [low, toNat_highHalf, bytes, bytes, bytes, ← List.map_append]
  exact congrArg (List.map MemByte.byte) (bytesOfNat_add 4 4 n.toUInt64.toNat)

namespace Mem

variable {m m' : Mem} {b : BlockId} {ofs : Int}

theorem accessible_halves (accessible : m.accessible .int64 b ofs) :
    m.accessible .int32 b ofs ∧ m.accessible .int32 b (ofs + 4) := by
  obtain ⟨covered, aligned⟩ := accessible_iff_covers.mp accessible
  obtain ⟨lo, hi, live, -, first, last⟩ := covers_iff.mp covered
  have aligned : (8 : Int) ∣ ofs := aligned
  have last : ofs + 8 ≤ hi := last
  have low : (4 : Int) ∣ ofs := by omega
  have high : (4 : Int) ∣ ofs + 4 := by omega
  have inside : ofs + (4 : Int) ≤ hi ∧ ofs + 4 + (4 : Int) ≤ hi := by omega
  exact ⟨accessible_of_liveBounds? live first inside.1 low,
    accessible_of_liveBounds? live (by omega) inside.2 high⟩

/-- What is found in the words and bytes of a long that has been stored. -/
theorem load?_of_store?_long {n : Int64} (stored : m.store? .int64 b ofs (.long n) = some m') :
    m'.load? .int32 b ofs = some (.int (lowHalf n)) ∧
      m'.load? .int32 b (ofs + 4) = some (.int (highHalf n)) ∧
      ∀ k : Nat, k < 8 →
        m'.load? .int8Unsigned b (ofs + k) = some (.int (byteOf n k).toUInt32.toInt32) := by
  have aligned : (8 : Int) ∣ ofs := (accessible_iff_covers.mp (store?_eq_some_iff.mp stored).1).2
  have low : (4 : Int) ∣ ofs := by omega
  have high : (4 : Int) ∣ ofs + 4 := by omega
  have whole := loadBytes?_store?_same stored
  have halves := whole
  rw [Chunk.encode_long] at halves
  obtain ⟨lower, upper⟩ := (loadBytes?_append_iff (Chunk.int32.length_encode _)
    (Chunk.int32.length_encode _)).mp halves
  refine ⟨?_, ?_, ?_⟩
  · have found := load?_of_loadBytes? (c := .int32) lower low
    rwa [Chunk.decode_encode rfl] at found
  · have found := load?_of_loadBytes? (c := .int32) upper high
    rwa [Chunk.decode_encode rfl] at found
  · intro k inside
    rw [load?_part (c := .int8Unsigned) whole inside (Int.one_dvd _), Chunk.decode_bytes_mod]
    have digit : UInt8.ofNat (n.toUInt64.toNat / Nat.pow 256 k % 256) = byteOf n k := by
      rw [← toNat_byteOf, UInt8.ofNat_toNat]
    exact congrArg (fun byte : UInt8 => some (Val.int byte.toUInt32.toInt32)) digit

/-- Two stores of halves, the lower one first, make up a long that is loaded whole. -/
theorem load?_of_store?_halves {m₁ m₂ : Mem} {high low : Int32}
    (first : m.store? .int32 b ofs (.int low) = some m₁)
    (second : m₁.store? .int32 b (ofs + 4) (.int high) = some m₂)
    (aligned : (8 : Int) ∣ ofs) :
    m₂.load? .int64 b ofs = some (.long (ofHalves high low)) := by
  have upper := loadBytes?_store?_same second
  have lower :
      m₂.loadBytes? b ofs (Chunk.int32.size : Nat) = some (Chunk.int32.encode (.int low)) := by
    rw [← loadBytes?_store?_same first]
    exact loadBytes?_storeBytes?_apart (store?_eq_some_iff.mp second).2 fun _ =>
      .of_le (.inl (Int.le_refl _))
  have whole := (loadBytes?_append_iff (Chunk.int32.length_encode _)
    (Chunk.int32.length_encode _)).mpr ⟨lower, upper⟩
  have joined := Chunk.encode_long (ofHalves high low)
  rw [lowHalf_ofHalves, highHalf_ofHalves] at joined
  rw [← joined] at whole
  have found := load?_of_loadBytes? (c := .int64) whole aligned
  rwa [Chunk.decode_encode rfl] at found

end Mem

/-- The halves of a long agree wherever they are found: as values, in two registers and in the
bytes of memory. -/
theorem words_agree :
    (∀ n : Int64, (Val.long n).highWord.longOfWords (Val.long n).lowWord = .long n) ∧
    (∀ high low : Int32,
      ((Val.int high).longOfWords (.int low)).highWord = .int high ∧
      ((Val.int high).longOfWords (.int low)).lowWord = .int low) ∧
    (∀ (n : Int64) (high low : Reg), high ≠ low →
      (∀ (ls : LocState) (symbols : Symbols) (sp : Val) (m : Mem),
        (BuiltinArg.splitLong (.base (.reg high)) (.base (.reg low))).eval? symbols
          (ls.setRegs ((BuiltinRes.into (.halves high low)).writes (.long n))).get sp m =
            some (.long n)) ∧
      (∀ (regs : RegFile) (symbols : Symbols) (sp : Val) (m : Mem),
        (BuiltinArg.splitLong (.base high) (.base low)).eval? symbols
          (regs.setAll ((BuiltinRes.into (.halves high low)).writes (.long n))).get sp m =
            some (.long n)) ∧
      ∀ ls : LocState, (ls.setSplit (.halves high low) (.long n)).getSplit
        (.halves (.reg high) (.reg low)) = .long n) ∧
    ∀ (m : Mem) (b : BlockId) (ofs : Int), m.accessible .int64 b ofs →
      (∀ n : Int64, ∃ m', m.store? .int64 b ofs (.long n) = some m' ∧
        m'.load? .int32 b ofs = some (Val.long n).lowWord ∧
        m'.load? .int32 b (ofs + 4) = some (Val.long n).highWord ∧
        ∀ k : Nat, k < 8 →
          m'.load? .int8Unsigned b (ofs + k) = some (.int (byteOf n k).toUInt32.toInt32)) ∧
      ∀ high low : Int32, ∃ m₁ m₂,
        m.store? .int32 b ofs (.int low) = some m₁ ∧
        m₁.store? .int32 b (ofs + 4) (.int high) = some m₂ ∧
        m₂.load? .int64 b ofs = some ((Val.int high).longOfWords (.int low)) := by
  refine ⟨Val.longOfWords_halves, ?_, ?_, ?_⟩
  · intro high low
    exact ⟨Val.highWord_longOfWords high low, Val.lowWord_longOfWords high low⟩
  · intro n high low differ
    have together : ∀ regs : RegFile,
        (Split.halves high low).read
          (regs.setAll ((Split.halves high low).writes (.long n))).get = .long n := by
      intro regs
      obtain ⟨upper, lower⟩ := regs.get_setAll_halves differ (.long n)
      rw [Split.read, upper, lower, Val.longOfWords_halves]
    exact ⟨fun ls _ _ _ => congrArg some (together ls.regs),
      fun regs _ _ _ => congrArg some (together regs), fun ls => together ls.regs⟩
  · intro m b ofs accessible
    obtain ⟨lower, upper⟩ := Mem.accessible_halves accessible
    constructor
    · intro n
      obtain ⟨m', stored⟩ := Mem.store?_isSome (.long n) accessible
      exact ⟨m', stored, Mem.load?_of_store?_long stored⟩
    · intro high low
      obtain ⟨m₁, first⟩ := Mem.store?_isSome (.int low) lower
      have upper : m₁.accessible .int32 b (ofs + 4) := by
        rwa [Mem.accessible_storeBytes? (Mem.store?_eq_some_iff.mp first).2]
      obtain ⟨m₂, second⟩ := Mem.store?_isSome (.int high) upper
      have aligned := (Mem.accessible_iff_covers.mp accessible).2
      exact ⟨m₁, m₂, first, second, Mem.load?_of_store?_halves first second aligned⟩

/-! Sixteen bytes around offset 0, the first eight of which are a long. -/

def aroundZero : Mem := ⟨#[.live (-8) (.replicate 16 .undefined)]⟩

theorem words_agree_aroundZero :
    Reg.dx ≠ .ax ∧
    (LocState.empty.setSplit (.halves .dx .ax) (.long (-2))).getSplit
      (.halves (.reg .dx) (.reg .ax)) = .long (-2) ∧
    aroundZero.accessible .int64 1 (-8) ∧
    (∃ m, aroundZero.store? .int64 1 (-8) (.long (-2)) = some m ∧
      m.load? .int32 1 (-8) = some (.int (-2)) ∧ m.load? .int32 1 (-4) = some (.int (-1)) ∧
      m.load? .int8Unsigned 1 (-8) = some (.int 254)) ∧
    ∃ m₁ m₂, aroundZero.store? .int32 1 (-8) (.int (-2)) = some m₁ ∧
      m₁.store? .int32 1 (-4) (.int (-1)) = some m₂ ∧
      m₂.load? .int64 1 (-8) = some (.long (-2)) := by
  obtain ⟨-, -, registers, memory⟩ := words_agree
  have differ : Reg.dx ≠ .ax := by decide
  have accessible : aroundZero.accessible .int64 1 (-8) := by decide
  obtain ⟨stores, halves⟩ := memory aroundZero 1 (-8) accessible
  obtain ⟨m, stored, lower, upper, bytes⟩ := stores (-2)
  obtain ⟨m₁, m₂, first, second, joined⟩ := halves (-1) (-2)
  exact ⟨differ, (registers (-2) .dx .ax differ).2.2 .empty, accessible,
    ⟨m, stored, lower, upper, bytes 0 (by decide)⟩, m₁, m₂, first, second, joined⟩

end LateIR
