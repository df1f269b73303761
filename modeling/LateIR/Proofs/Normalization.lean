import LateIR.Proofs.Memory.Access
import LateIR.Proofs.Memory.Fragments

/-!
What memory makes of values. A load finds a value of the type of its access that the access
would not change, whatever mixture of bytes it reads, and the value is still found when it has
been stored back; a store of a value is a store of what the access makes of it
(`loads_normalized`).
-/

namespace LateIR

/-! ### What is loaded -/

theorem Val.loadResult_undefined (c : Chunk) : Val.undefined.loadResult c = .undefined := by
  cases c <;> rfl

/-- A value that an access leaves alone has the type of the access. -/
theorem Val.hasType_of_loadResult {c : Chunk} {v : Val} (normal : v.loadResult c = v) :
    v.hasType c.typ := by
  cases c <;> cases v <;> first | rfl | cases normal

namespace Chunk

theorem loadResult_ofWord (c : Chunk) (n : Nat) : (c.ofWord n).loadResult c = c.ofWord n := by
  cases c <;> simp [ofWord, Val.loadResult]

theorem loadResult_ofWhole (c : Chunk) (bytes : List MemByte) :
    (c.ofWhole bytes).loadResult c = c.ofWhole bytes := by
  unfold ofWhole
  split
  · rfl
  · rename_i v _
    cases v <;> rfl
  · rfl
  · exact Val.loadResult_undefined _

/-- No access changes what it has read. -/
theorem loadResult_decode (c : Chunk) (bytes : List MemByte) :
    (c.decode bytes).loadResult c = c.decode bytes := by
  unfold decode
  split
  · exact c.loadResult_ofWord _
  · exact c.loadResult_ofWhole bytes

/-- Accesses that look for whole values find none that is not a number. -/
theorem isNaN_decode {c : Chunk} (whole : c.storesWhole) (bytes : List MemByte) :
    (c.decode bytes).isNaN = false := by
  unfold decode
  split
  · cases c <;> first | rfl | cases whole
  · unfold ofWhole
    split
    · rfl
    · rename_i v found
      have number := MemByte.isNaN_of_whole? found
      cases v <;> first | rfl | exact number
    · exact MemByte.isNaN_of_whole? ‹_›
    · rfl

/-- What has been read is read again once it has been stored. -/
theorem readBack_decode (c : Chunk) (bytes : List MemByte) :
    c.readBack (c.decode bytes) = c.decode bytes := by
  rw [readBack, loadResult_decode, if_neg]
  rintro ⟨whole, nan⟩
  simp [isNaN_decode whole] at nan

end Chunk

/-! ### What is stored -/

theorem bytesOfNat_mod (size n : Nat) : bytesOfNat size (n % Nat.pow 256 size) = bytesOfNat size n := by
  induction size generalizing n with
  | zero => rfl
  | succ size ih =>
      have next : Nat.pow 256 (size + 1) = 256 * Nat.pow 256 size := Nat.mul_comm ..
      rw [bytesOfNat, bytesOfNat, next, Nat.mod_mul_right_mod, Nat.mod_mul_right_div_self, ih]

/-! An integer that is cut to a width keeps its low bits. -/

theorem toUInt8_of_toInt8 (n : Int32) : n.toInt8.toInt32.toUInt32.toUInt8 = n.toUInt32.toUInt8 := by
  have same : n.toInt8.toInt32.toUInt32.toUInt8.toInt8 = n.toUInt32.toUInt8.toInt8 := by
    rw [toInt8_of_toUInt32, toInt8_of_toUInt32, Int8.toInt8_toInt32]
  exact congrArg Int8.toUInt8 same

theorem toUInt16_of_toInt16 (n : Int32) :
    n.toInt16.toInt32.toUInt32.toUInt16 = n.toUInt32.toUInt16 := by
  have same : n.toInt16.toInt32.toUInt32.toUInt16.toInt16 = n.toUInt32.toUInt16.toInt16 := by
    rw [toInt16_of_toUInt32, toInt16_of_toUInt32, Int16.toInt16_toInt32]
  exact congrArg Int16.toUInt16 same

theorem toUInt8_of_toUInt8 (n : Int32) :
    n.toUInt32.toUInt8.toUInt32.toInt32.toUInt32.toUInt8 = n.toUInt32.toUInt8 := by
  rw [UInt32.toUInt32_toInt32, UInt8.toUInt8_toUInt32]

theorem toUInt16_of_toUInt16 (n : Int32) :
    n.toUInt32.toUInt16.toUInt32.toInt32.toUInt32.toUInt16 = n.toUInt32.toUInt16 := by
  rw [UInt32.toUInt32_toInt32, UInt16.toUInt16_toUInt32]

namespace Chunk

/-- An access writes the low bytes of a number. -/
theorem bytes_congr {c : Chunk} {n n' : Nat}
    (same : n % Nat.pow 256 c.size = n' % Nat.pow 256 c.size) : c.bytes n = c.bytes n' := by
  rw [bytes, bytes, ← bytesOfNat_mod, same, bytesOfNat_mod]

/-- A value is stored as what the access makes of it. -/
theorem encode_loadResult (c : Chunk) (v : Val) : c.encode (v.loadResult c) = c.encode v := by
  cases c with
  | int8Signed =>
      cases v with
      | int n => exact bytes_congr (congrArg UInt8.toNat (toUInt8_of_toInt8 n))
      | _ => rfl
  | int8Unsigned =>
      cases v with
      | int n => exact bytes_congr (congrArg UInt8.toNat (toUInt8_of_toUInt8 n))
      | _ => rfl
  | int16Signed =>
      cases v with
      | int n => exact bytes_congr (congrArg UInt16.toNat (toUInt16_of_toInt16 n))
      | _ => rfl
  | int16Unsigned =>
      cases v with
      | int n => exact bytes_congr (congrArg UInt16.toNat (toUInt16_of_toUInt16 n))
      | _ => rfl
  | _ => cases v <;> rfl

end Chunk

/-- What a load finds has the type of the access and is what the access makes of it, and the
same load finds it again when it has been stored back. Values of which the access makes the
same are stored alike. -/
theorem loads_normalized (m : Mem) (c : Chunk) (b : BlockId) (ofs : Int) :
    (∀ v, m.load? c b ofs = some v → v.hasType c.typ ∧ v.loadResult c = v ∧
      ∃ m', m.store? c b ofs v = some m' ∧ m'.load? c b ofs = some v) ∧
    ∀ w, m.store? c b ofs (w.loadResult c) = m.store? c b ofs w := by
  constructor
  · intro v loaded
    obtain ⟨accessible, loaded⟩ := Option.ite_none_right_eq_some.mp loaded
    obtain ⟨data, -, rfl⟩ := Option.map_eq_some_iff.mp loaded
    have normal := c.loadResult_decode data
    obtain ⟨m', stored⟩ := Mem.store?_isSome (c.decode data) accessible
    refine ⟨Val.hasType_of_loadResult normal, normal, m', stored, ?_⟩
    rw [Mem.load?_store?_same stored, c.decode_encode_eq_readBack, c.readBack_decode]
  · intro w
    rw [Mem.store?, Mem.store?, c.encode_loadResult]

/-! Four bytes of three kinds, which do not make up a value together. -/

def scraps : Mem := ⟨#[.live 0 #[.byte 0xfe, .byte 0xff, .undefined, .fragment (.ptr 1 0) 8 3]]⟩

/-- A halfword and a scrap are found and stored back. A byte that was not there yet is found as
the access makes it, whichever of two values it is stored as, and stored back as well. -/
theorem loads_normalized_scraps :
    (scraps.load? .int16Signed 1 0 = some (.int (-2)) ∧ (Val.int (-2)).hasType .int ∧
      ∃ m, scraps.store? .int16Signed 1 0 (.int (-2)) = some m ∧
        m.load? .int16Signed 1 0 = some (.int (-2))) ∧
    (scraps.load? .any32 1 0 = some .undefined ∧
      ∃ m, scraps.store? .any32 1 0 .undefined = some m ∧
        m.load? .any32 1 0 = some .undefined) ∧
    scraps.load? .int8Unsigned 1 3 = some .undefined ∧
    ∃ m, scraps.store? .int8Unsigned 1 3 (.int 255) = some m ∧
      scraps.store? .int8Unsigned 1 3 (.int (-1)) = some m ∧
      m.load? .int8Unsigned 1 3 = some (.int 255) ∧ (Val.int 255).hasType .int ∧
      ∃ m', m.store? .int8Unsigned 1 3 (.int 255) = some m' ∧
        m'.load? .int8Unsigned 1 3 = some (.int 255) := by
  refine ⟨?_, ?_, by decide, ?_⟩
  · have found : scraps.load? .int16Signed 1 0 = some (.int (-2)) := by decide
    obtain ⟨typed, -, again⟩ := (loads_normalized scraps .int16Signed 1 0).1 _ found
    exact ⟨found, typed, again⟩
  · have found : scraps.load? .any32 1 0 = some .undefined := by decide
    obtain ⟨-, -, again⟩ := (loads_normalized scraps .any32 1 0).1 _ found
    exact ⟨found, again⟩
  · have cut : Val.int 255 = (Val.int (-1)).loadResult .int8Unsigned := by decide
    obtain ⟨m, stored, found⟩ : ∃ m, scraps.store? .int8Unsigned 1 3 (.int (-1)) = some m ∧
        m.load? .int8Unsigned 1 3 = some (.int 255) := ⟨_, rfl, by decide⟩
    have alike : scraps.store? .int8Unsigned 1 3 (.int 255) = some m := by
      rw [cut, (loads_normalized scraps .int8Unsigned 1 3).2 (.int (-1)), stored]
    obtain ⟨typed, -, again⟩ := (loads_normalized m .int8Unsigned 1 3).1 _ found
    exact ⟨m, alike, stored, found, typed, again⟩

end LateIR
