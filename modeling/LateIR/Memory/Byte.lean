import LateIR.Value

/-!
Bytes of memory and the encoding of values in them. Integers and floating-point
words are stored as concrete bytes, the low one first. Pointers, and any value
stored without regard to its type, are stored whole: each byte is a numbered
fragment of the value, and only all of its fragments in order give it back.
-/

namespace LateIR

/-- Contents of one byte of memory. -/
inductive MemByte where
  | undefined
  | byte (b : UInt8)
  /-- Byte `index` of the `size` bytes of a value stored whole. -/
  | fragment (val : Val) (size index : Nat)
  deriving DecidableEq

namespace MemByte

instance : Inhabited MemByte := ⟨undefined⟩

protected def numEq : MemByte → MemByte → Bool
  | undefined, undefined => true
  | byte a, byte b => a = b
  | fragment v size index, fragment v' size' index' =>
      LateIR.numEq v v' && size = size' && index = index'
  | _, _ => false

instance : NumEq MemByte := ⟨MemByte.numEq⟩

/-- The block that the byte refers to, if it belongs to a pointer. -/
def target? : MemByte → Option BlockId
  | fragment (.ptr b _) _ _ => some b
  | _ => none

end MemByte

/-! ### Concrete bytes -/

/-- The low `size` bytes of a number, the lowest first. -/
def bytesOfNat : Nat → Nat → List UInt8
  | 0, _ => []
  | size + 1, n => .ofNat (n % 256) :: bytesOfNat size (n / 256)

/-- The number with the given bytes, the lowest first. -/
def natOfBytes : List UInt8 → Nat
  | [] => 0
  | b :: rest => b.toNat + 256 * natOfBytes rest

theorem length_bytesOfNat (size n : Nat) : (bytesOfNat size n).length = size := by
  induction size generalizing n with
  | zero => rfl
  | succ size ih => simp [bytesOfNat, ih]

theorem natOfBytes_bytesOfNat (size n : Nat) :
    natOfBytes (bytesOfNat size n) = n % Nat.pow 256 size := by
  induction size generalizing n with
  | zero => simp [bytesOfNat, natOfBytes, Nat.mod_one]
  | succ size ih =>
    have low : (UInt8.ofNat (n % 256)).toNat = n % 256 := by simp
    have next : Nat.pow 256 (size + 1) = 256 * Nat.pow 256 size := Nat.mul_comm ..
    rw [bytesOfNat, natOfBytes, ih, low, next, Nat.mod_mul]

namespace MemByte

/-- The numbers of the bytes, when all of them are concrete. -/
def concrete? : List MemByte → Option (List UInt8)
  | [] => some []
  | byte b :: rest => (concrete? rest).map (b :: ·)
  | _ :: _ => none

/-- The fragments of a value stored whole in `size` bytes. -/
def fragments (v : Val) (size : Nat) : List MemByte :=
  (List.range size).map (fragment v size)

/-- Whether the bytes, the first of which has number `index`, continue a value
equal to `v` that takes `size` bytes. -/
def continues (v : Val) (size : Nat) : Nat → List MemByte → Bool
  | _, [] => true
  | index, fragment v' size' index' :: rest =>
      LateIR.numEq v' v && size' = size && index' = index && continues v size (index + 1) rest
  | _, _ :: _ => false

/-- The value whose fragments the bytes are, all of them and in order. -/
def whole? : List MemByte → Option Val
  | fragment v size index :: rest =>
      if continues v (rest.length + 1) 0 (fragment v size index :: rest) then some v else none
  | _ => none

end MemByte

/-! ### Values -/

namespace Chunk

/-- The bytes of a number stored by the access. -/
def bytes (c : Chunk) (n : Nat) : List MemByte := (bytesOfNat c.size n).map .byte

/-- What a store of the value writes. A value of a kind that the access does not
carry leaves undefined bytes. -/
def encode (c : Chunk) (v : Val) : List MemByte :=
  match c, v with
  | int8Signed, .int n | int8Unsigned, .int n | int16Signed, .int n | int16Unsigned, .int n
  | int32, .int n => c.bytes n.toUInt32.toNat
  | int64, .long n => c.bytes n.toUInt64.toNat
  | int64, .ptr .. => MemByte.fragments v c.size
  | float32, .single x => c.bytes x.bits.toNat
  | float64, .float x => c.bytes x.bits.toNat
  | any32, .int _ | any32, .single _ => MemByte.fragments v c.size
  | any64, .undefined => List.replicate c.size .undefined
  | any64, _ => MemByte.fragments v c.size
  | _, _ => List.replicate c.size .undefined

/-- The value of concrete bytes that make up the number. -/
def ofWord (c : Chunk) (n : Nat) : Val :=
  match c with
  | int8Signed => .int (UInt8.ofNat n).toInt8.toInt32
  | int8Unsigned => .int (UInt8.ofNat n).toUInt32.toInt32
  | int16Signed => .int (UInt16.ofNat n).toInt16.toInt32
  | int16Unsigned => .int (UInt16.ofNat n).toUInt32.toInt32
  | int32 => .int (UInt32.ofNat n).toInt32
  | int64 => .long (UInt64.ofNat n).toInt64
  | float32 => .single ⟨.ofNat n⟩
  | float64 => .float ⟨.ofNat n⟩
  | any32 | any64 => .undefined

/-- The value of bytes that are not all concrete. -/
def ofWhole (c : Chunk) (bytes : List MemByte) : Val :=
  match c, MemByte.whole? bytes with
  | int64, some (.ptr b ofs) => .ptr b ofs
  | any32, some v => v.loadResult .any32
  | any64, some v => v
  | _, _ => .undefined

/-- What a load makes of the bytes it reads. -/
def decode (c : Chunk) (bytes : List MemByte) : Val :=
  match MemByte.concrete? bytes with
  | some bs => c.ofWord (natOfBytes bs)
  | none => c.ofWhole bytes

theorem length_encode (c : Chunk) (v : Val) : (c.encode v).length = c.size := by
  cases c <;> cases v <;> simp [encode, bytes, MemByte.fragments, length_bytesOfNat]

end Chunk

end LateIR
