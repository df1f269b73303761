import LateIR.Memory.Byte

/-!
What an access writes is decoded to what it makes of the value
(`Chunk.decode_encode`): integers and floating-point words bit for bit, pointers
whole, and anything that the access does not carry as undefined. The accesses
that store every value whole find its fragments again by comparing numbers, so
they lose words that are not numbers (`Chunk.decode_encode_whole`).
-/

namespace LateIR

theorem BinaryFormat.compare?_self (format : BinaryFormat) (bits : Nat) :
    format.compare? bits bits = if format.isNaN bits then none else some .eq := by
  have same : compare (format.position bits) (format.position bits) = .eq := Std.ReflCmp.compare_self
  rw [compare?, Bool.or_self, same]

namespace Val

/-- Whether the value is a floating-point word that is not a number. -/
def isNaN : Val → Bool
  | float x => x.isNaN
  | single x => x.isNaN
  | _ => false

/-- Only words that are not numbers differ from themselves. -/
theorem numEq_self (v : Val) : LateIR.numEq v v = !v.isNaN := by
  cases v with
  | float x =>
      show x.numEq x = !x.isNaN
      rw [Binary64.numEq, Binary64.compare?, BinaryFormat.compare?_self, Binary64.isNaN]
      cases BinaryFormat.double.isNaN x.bits.toNat <;> rfl
  | single x =>
      show x.numEq x = !x.isNaN
      rw [Binary32.numEq, Binary32.compare?, BinaryFormat.compare?_self, Binary32.isNaN]
      cases BinaryFormat.single.isNaN x.bits.toNat <;> rfl
  | _ => simp [LateIR.numEq, NumEq.numEq, Val.numEq, isNaN]

/-- A type keeps all of a value that it admits. -/
theorem loadResult_of_hasType {v : Val} {t : Typ} (typed : v.hasType t) :
    v.loadResult (.ofTyp t) = v := by
  cases v <;> cases t <;> first | rfl | cases typed

end Val

namespace MemByte

theorem concrete?_map_byte (bytes : List UInt8) : concrete? (bytes.map byte) = some bytes := by
  induction bytes with
  | nil => rfl
  | cons b rest ih => simp [concrete?, ih]

theorem continues_fragments (v : Val) (size index count : Nat) :
    continues v size index ((List.range' index count).map (fragment v size)) =
      (count = 0 || !v.isNaN) := by
  induction count generalizing index with
  | zero => rfl
  | succ count ih =>
      rw [List.range'_succ, List.map_cons, continues, ih, Val.numEq_self]
      cases v.isNaN <;> simp

/-- A value is found again in its fragments if it equals itself. -/
theorem whole?_fragments (v : Val) {size : Nat} (pos : 0 < size) :
    whole? (fragments v size) = if v.isNaN then none else some v := by
  obtain ⟨rest, rfl⟩ := Nat.exists_eq_succ_of_ne_zero (Nat.ne_of_gt pos)
  have split : fragments v (rest + 1) =
      fragment v (rest + 1) 0 :: (List.range' 1 rest).map (fragment v (rest + 1)) := by
    rw [fragments, List.range_eq_range', List.range'_succ, List.map_cons]
  have checked := continues_fragments v (rest + 1) 0 (rest + 1)
  rw [List.range'_succ, List.map_cons] at checked
  rw [split, whole?, List.length_map, List.length_range', checked]
  cases v.isNaN <;> rfl

theorem concrete?_fragments (v : Val) {size : Nat} (pos : 0 < size) :
    concrete? (fragments v size) = none := by
  obtain ⟨rest, rfl⟩ := Nat.exists_eq_succ_of_ne_zero (Nat.ne_of_gt pos)
  rw [fragments, List.range_eq_range', List.range'_succ, List.map_cons]
  rfl

end MemByte

/-! ### Integers that are cut to a width -/

theorem toInt8_of_toUInt32 (n : Int32) : n.toUInt32.toUInt8.toInt8 = n.toInt8 :=
  Int8.toBitVec_inj.mp (BitVec.signExtend_eq_setWidth_of_le n.toBitVec (by decide)).symm

theorem toInt16_of_toUInt32 (n : Int32) : n.toUInt32.toUInt16.toInt16 = n.toInt16 :=
  Int16.toBitVec_inj.mp (BitVec.signExtend_eq_setWidth_of_le n.toBitVec (by decide)).symm

namespace Chunk

/-- Whether the access carries values of one kind only, with all their bits. -/
def carriesWords : Chunk → Bool
  | int32 | int64 | float32 | float64 => true
  | _ => false

/-- Whether the access stores every value that it carries whole. -/
def storesWhole : Chunk → Bool
  | any32 | any64 => true
  | _ => false

/-- What is read back of a value that was stored with the same access. -/
def readBack (c : Chunk) (v : Val) : Val :=
  if c.storesWhole ∧ (v.loadResult c).isNaN then .undefined else v.loadResult c

/-- Of a number, the access keeps the low bytes. -/
theorem decode_bytes_mod (c : Chunk) (n : Nat) :
    c.decode (c.bytes n) = c.ofWord (n % Nat.pow 256 c.size) := by
  simp only [decode, bytes, MemByte.concrete?_map_byte, natOfBytes_bytesOfNat]

theorem decode_bytes {c : Chunk} {n : Nat} (fits : n < Nat.pow 256 c.size) :
    c.decode (c.bytes n) = c.ofWord n := by
  rw [decode_bytes_mod, Nat.mod_eq_of_lt fits]

theorem decode_undefined (c : Chunk) :
    c.decode (List.replicate c.size .undefined) = .undefined := by
  cases c <;> rfl

/-- What is read from the fragments of a value. -/
theorem decode_fragments (c : Chunk) (v : Val) :
    c.decode (MemByte.fragments v c.size) =
      match c, if v.isNaN then none else some v with
      | int64, some (.ptr b ofs) => .ptr b ofs
      | any32, some v => v.loadResult any32
      | any64, some v => v
      | _, _ => .undefined := by
  have pos : 0 < c.size := by cases c <;> decide
  rw [decode, MemByte.concrete?_fragments v pos, ← MemByte.whole?_fragments v pos]
  rfl

/-- A value stored with a typed access is read back as the access leaves it. -/
theorem decode_encode {c : Chunk} (carries : c.carriesWords) (v : Val) :
    c.decode (c.encode v) = v.loadResult c := by
  cases c with
  | int32 =>
      cases v with
      | int n =>
          show decode int32 (bytes int32 n.toUInt32.toNat) = .int n
          rw [decode_bytes n.toUInt32.toNat_lt]
          simp [ofWord]
      | _ => exact decode_undefined _
  | int64 =>
      cases v with
      | long n =>
          show decode int64 (bytes int64 n.toUInt64.toNat) = .long n
          rw [decode_bytes n.toUInt64.toNat_lt]
          simp [ofWord]
      | ptr b ofs => exact decode_fragments int64 (.ptr b ofs)
      | _ => exact decode_undefined _
  | float32 =>
      cases v with
      | single x =>
          show decode float32 (bytes float32 x.bits.toNat) = .single x
          rw [decode_bytes x.bits.toNat_lt]
          simp [ofWord]
      | _ => exact decode_undefined _
  | float64 =>
      cases v with
      | float x =>
          show decode float64 (bytes float64 x.bits.toNat) = .float x
          rw [decode_bytes x.bits.toNat_lt]
          simp [ofWord]
      | _ => exact decode_undefined _
  | _ => cases carries

/-- A value stored with a narrow access is cut to its width. -/
theorem decode_encode_narrow {c : Chunk} (narrow : c.size < 4) (v : Val) :
    c.decode (c.encode v) = v.loadResult c := by
  cases c with
  | int8Signed =>
      cases v with
      | int n =>
          show decode int8Signed (bytes int8Signed n.toUInt32.toNat) = .int n.toInt8.toInt32
          rw [decode_bytes_mod, ← toInt8_of_toUInt32]
          exact congrArg (Val.int ·.toInt8.toInt32) UInt8.ofNat_mod_size
      | _ => exact decode_undefined _
  | int8Unsigned =>
      cases v with
      | int n =>
          show decode int8Unsigned (bytes int8Unsigned n.toUInt32.toNat) = _
          rw [decode_bytes_mod]
          exact congrArg (Val.int ·.toUInt32.toInt32) UInt8.ofNat_mod_size
      | _ => exact decode_undefined _
  | int16Signed =>
      cases v with
      | int n =>
          show decode int16Signed (bytes int16Signed n.toUInt32.toNat) = .int n.toInt16.toInt32
          rw [decode_bytes_mod, ← toInt16_of_toUInt32]
          exact congrArg (Val.int ·.toInt16.toInt32) UInt16.ofNat_mod_size
      | _ => exact decode_undefined _
  | int16Unsigned =>
      cases v with
      | int n =>
          show decode int16Unsigned (bytes int16Unsigned n.toUInt32.toNat) = _
          rw [decode_bytes_mod]
          exact congrArg (Val.int ·.toUInt32.toInt32) UInt16.ofNat_mod_size
      | _ => exact decode_undefined _
  | _ => exact absurd narrow (by decide)

theorem decode_encode_any32 (v : Val) :
    decode any32 (encode any32 v) = if v.isNaN then .undefined else v.loadResult any32 := by
  cases v with
  | int n => exact decode_fragments any32 (.int n)
  | single x =>
      refine (decode_fragments any32 (.single x)).trans ?_
      cases (Val.single x).isNaN <;> rfl
  | float x => exact (decode_undefined any32).trans (ite_self _).symm
  | _ => exact decode_undefined any32

theorem decode_encode_any64 (v : Val) :
    decode any64 (encode any64 v) = if v.isNaN then .undefined else v := by
  cases v with
  | undefined => exact decode_undefined any64
  | _ =>
      refine (decode_fragments any64 _).trans ?_
      cases Val.isNaN _ <;> rfl

/-- What is read back, for every access and value. -/
theorem decode_encode_eq_readBack (c : Chunk) (v : Val) : c.decode (c.encode v) = c.readBack v := by
  cases c with
  | int8Signed | int8Unsigned | int16Signed | int16Unsigned =>
      exact decode_encode_narrow (by decide) v
  | int32 | int64 | float32 | float64 => exact decode_encode rfl v
  | any32 =>
      rw [decode_encode_any32, readBack]
      -- a double is no `any32` value, so that it is lost whether it is a number or not
      cases v with
      | float x => exact ite_self _
      | single x => simp [storesWhole, Val.loadResult]
      | _ => rfl
  | any64 =>
      rw [decode_encode_any64, readBack]
      simp [storesWhole, Val.loadResult]

end Chunk

end LateIR
