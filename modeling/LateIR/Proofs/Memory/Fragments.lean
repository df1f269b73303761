import LateIR.Proofs.Memory.Encoding

/-!
Values stored whole, and which bytes give one back. The fragments of a value are recognised by
comparing numbers, so what is put together from bytes is the value of all of them up to the
sign of a zero (`MemByte.whole?_eq_some_iff`, `Val.numEq_iff`).
-/

namespace LateIR

/-! ### Equality as numbers -/

namespace BinaryFormat

variable (format : BinaryFormat)

/-- The weight of the sign bit. -/
def signBit : Nat := Nat.pow 2 (format.exponentBits + format.fractionBits)

theorem signBit_pos : 0 < format.signBit := Nat.pow_pos (by decide)

theorem isNegative_iff {bits : Nat} (fits : bits < 2 * format.signBit) :
    format.isNegative bits ↔ format.signBit ≤ bits := by
  have shift : bits >>> (format.exponentBits + format.fractionBits) = bits / format.signBit :=
    Nat.shiftRight_eq_div_pow ..
  have top : bits / format.signBit < 2 := Nat.div_lt_of_lt_mul (by omega)
  rw [isNegative, shift, decide_eq_true_eq, Nat.mod_eq_of_lt top,
    ← Nat.div_pos_iff.trans (and_iff_right format.signBit_pos)]
  omega

/-- A word is its magnitude, with the sign bit above it. -/
theorem eq_magnitude_add {bits : Nat} (fits : bits < 2 * format.signBit) :
    bits = format.magnitude bits + if format.isNegative bits then format.signBit else 0 := by
  have low : format.magnitude bits = bits % format.signBit := rfl
  rw [low]
  split
  · rename_i negative
    have above := (format.isNegative_iff fits).mp negative
    rw [Nat.mod_eq_sub_mod above, Nat.mod_eq_of_lt (by omega)]
    omega
  · rename_i positive
    rw [format.isNegative_iff fits, Nat.not_le] at positive
    rw [Nat.mod_eq_of_lt positive, Nat.add_zero]

/-- Different words at one place of the number line are the two zeros. -/
theorem position_eq_iff {a b : Nat} (fits : a < 2 * format.signBit)
    (fits' : b < 2 * format.signBit) :
    format.position a = format.position b ↔
      a = b ∨ format.magnitude a = 0 ∧ format.magnitude b = 0 := by
  have word := format.eq_magnitude_add fits
  have word' := format.eq_magnitude_add fits'
  have small : format.magnitude a < format.signBit := Nat.mod_lt _ format.signBit_pos
  have small' : format.magnitude b < format.signBit := Nat.mod_lt _ format.signBit_pos
  unfold position
  cases negative : format.isNegative a <;> cases negative' : format.isNegative b <;>
    simp only [negative, negative', if_true, if_false, Bool.false_eq_true] at word word' ⊢ <;>
    omega

theorem isNaN_of_magnitude {bits : Nat} (zero : format.magnitude bits = 0) :
    format.isNaN bits = false := by
  simp [isNaN, zero]

/-- Words are equal as numbers if they are the same number or two zeros. -/
theorem compare?_eq_some_eq_iff {a b : Nat} (fits : a < 2 * format.signBit)
    (fits' : b < 2 * format.signBit) :
    format.compare? a b = some .eq ↔
      format.isNaN a = false ∧ (a = b ∨ format.magnitude a = 0 ∧ format.magnitude b = 0) := by
  rw [compare?, Option.ite_none_left_eq_some, Option.some_inj, Std.LawfulEqCmp.compare_eq_iff_eq,
    format.position_eq_iff fits fits', Bool.not_eq_true, Bool.or_eq_false_iff]
  constructor
  · rintro ⟨⟨number, -⟩, same⟩
    exact ⟨number, same⟩
  · rintro ⟨number, same⟩
    refine ⟨⟨number, ?_⟩, same⟩
    rcases same with rfl | ⟨-, zero⟩
    · exact number
    · exact format.isNaN_of_magnitude zero

end BinaryFormat

namespace Val

/-- Whether the value is a floating-point zero, of either sign. -/
def isZero : Val → Bool
  | float x => BinaryFormat.double.magnitude x.bits.toNat = 0
  | single x => BinaryFormat.single.magnitude x.bits.toNat = 0
  | _ => false

/-- Whether the values are floating-point zeros of one width. -/
def bothZero : Val → Val → Bool
  | float x, float y => (float x).isZero && (float y).isZero
  | single x, single y => (single x).isZero && (single y).isZero
  | _, _ => false

/-- Whether the values are the same but for the sign of a floating-point zero. -/
def SameUpToZero (v w : Val) : Prop := v = w ∨ v.bothZero w

theorem SameUpToZero.symm {v w : Val} (same : v.SameUpToZero w) : w.SameUpToZero v := by
  rcases same with rfl | zeros
  · exact .inl rfl
  · refine .inr ?_
    cases v <;> cases w <;> simp_all [bothZero]

theorem SameUpToZero.trans {u v w : Val} (first : u.SameUpToZero v) (second : v.SameUpToZero w) :
    u.SameUpToZero w := by
  rcases first with rfl | zeros
  · exact second
  · rcases second with rfl | zeros'
    · exact .inr zeros
    · refine .inr ?_
      cases u <;> cases v <;> cases w <;> simp_all [bothZero]

theorem SameUpToZero.eq_of_not_isZero {v w : Val} (same : v.SameUpToZero w)
    (notZero : w.isZero = false) : v = w := by
  rcases same with rfl | zeros
  · rfl
  · cases v <;> cases w <;> simp_all [bothZero]

/-- Values are equal as numbers if they are the same number, up to the sign of a zero. -/
theorem numEq_iff {v w : Val} : LateIR.numEq v w ↔ v.isNaN = false ∧ v.SameUpToZero w := by
  unfold SameUpToZero
  cases v with
  | float x =>
      cases w with
      | float y =>
          obtain ⟨a⟩ := x
          obtain ⟨b⟩ := y
          show decide (BinaryFormat.double.compare? a.toNat b.toNat = some .eq) ↔ _
          rw [decide_eq_true_eq, BinaryFormat.double.compare?_eq_some_eq_iff a.toNat_lt b.toNat_lt,
            UInt64.toNat_inj]
          simp [isNaN, Binary64.isNaN, bothZero, isZero]
      | _ => simp [LateIR.numEq, NumEq.numEq, Val.numEq, bothZero]
  | single x =>
      cases w with
      | single y =>
          obtain ⟨a⟩ := x
          obtain ⟨b⟩ := y
          show decide (BinaryFormat.single.compare? a.toNat b.toNat = some .eq) ↔ _
          rw [decide_eq_true_eq, BinaryFormat.single.compare?_eq_some_eq_iff a.toNat_lt b.toNat_lt,
            UInt32.toNat_inj]
          simp [isNaN, Binary32.isNaN, bothZero, isZero]
      | _ => simp [LateIR.numEq, NumEq.numEq, Val.numEq, bothZero]
  | _ => cases w <;> simp [LateIR.numEq, NumEq.numEq, Val.numEq, isNaN, bothZero]

theorem isZero_of_bothZero {v w : Val} (zeros : v.bothZero w) : v.isZero := by
  cases v <;> cases w <;> simp_all [bothZero]

theorem isNaN_of_isZero {v : Val} (zero : v.isZero) : v.isNaN = false := by
  cases v with
  | float x => exact BinaryFormat.double.isNaN_of_magnitude (of_decide_eq_true zero)
  | single x => exact BinaryFormat.single.isNaN_of_magnitude (of_decide_eq_true zero)
  | _ => cases zero

theorem numEq_iff_of_number {v w : Val} (number : w.isNaN = false) :
    LateIR.numEq v w ↔ v.SameUpToZero w := by
  rw [numEq_iff]
  refine ⟨And.right, fun same => ⟨?_, same⟩⟩
  rcases same with rfl | zeros
  · exact number
  · exact isNaN_of_isZero (isZero_of_bothZero zeros)

end Val

/-! ### Fragments -/

namespace MemByte

/-- Whether the byte is the one at `index` of the value stored whole in `size` bytes, up to the
sign of a zero. -/
def PartOf (v : Val) (size index : Nat) (byte : MemByte) : Prop :=
  ∃ w : Val, byte = fragment w size index ∧ w.SameUpToZero v

theorem partOf_fragment_iff {v w : Val} {size size' index index' : Nat} :
    (fragment w size' index').PartOf v size index ↔
      w.SameUpToZero v ∧ size' = size ∧ index' = index := by
  constructor
  · rintro ⟨w', same, like⟩
    cases same
    exact ⟨like, rfl, rfl⟩
  · rintro ⟨like, rfl, rfl⟩
    exact ⟨w, rfl, like⟩

theorem PartOf.of_sameUpToZero {u v : Val} {size index : Nat} {byte : MemByte}
    (part : byte.PartOf u size index) (like : u.SameUpToZero v) : byte.PartOf v size index := by
  obtain ⟨w, rfl, same⟩ := part
  exact ⟨w, rfl, same.trans like⟩

/-- A byte is a part of one value only. -/
theorem PartOf.unique {u v : Val} {size index : Nat} {byte : MemByte}
    (part : byte.PartOf u size index) (part' : byte.PartOf v size index) : u.SameUpToZero v := by
  obtain ⟨w, rfl, same⟩ := part
  exact same.symm.trans (partOf_fragment_iff.mp part').1

theorem PartOf.eq_fragment {v : Val} {size index : Nat} {byte : MemByte}
    (part : byte.PartOf v size index) (notZero : v.isZero = false) :
    byte = fragment v size index := by
  obtain ⟨w, rfl, same⟩ := part
  rw [same.eq_of_not_isZero notZero]

theorem PartOf.not_concrete {v : Val} {size index : Nat} {byte : MemByte}
    (part : byte.PartOf v size index) (n : UInt8) : byte ≠ .byte n := by
  obtain ⟨w, rfl, -⟩ := part
  exact MemByte.noConfusion

/-- Bytes continue a value if each of them is the one of its place. -/
theorem continues_iff {v : Val} (number : v.isNaN = false) {size index : Nat}
    {bytes : List MemByte} :
    continues v size index bytes ↔
      ∀ i (byte : MemByte), bytes[i]? = some byte → byte.PartOf v size (index + i) := by
  induction bytes generalizing index with
  | nil => simp [continues]
  | cons first rest ih =>
      have split : (∀ i (byte : MemByte), (first :: rest)[i]? = some byte →
            byte.PartOf v size (index + i)) ↔
          first.PartOf v size index ∧ ∀ i (byte : MemByte), rest[i]? = some byte →
            byte.PartOf v size (index + 1 + i) := by
        constructor
        · intro all
          refine ⟨all 0 first rfl, ?_⟩
          intro i byte here
          have next := all (i + 1) byte here
          rwa [Nat.add_comm i, ← Nat.add_assoc] at next
        · rintro ⟨start, later⟩ i byte here
          cases i with
          | zero =>
              cases here
              exact start
          | succ i =>
              have next := later i byte here
              rwa [Nat.add_assoc, Nat.add_comm 1] at next
      rw [split, ← ih]
      cases first with
      | fragment w size' index' =>
          rw [partOf_fragment_iff, ← Val.numEq_iff_of_number number]
          simp [continues, and_assoc]
      | undefined | byte => simp [continues, PartOf]

/-- What is found whole equals itself. -/
theorem isNaN_of_whole? {bytes : List MemByte} {v : Val} (whole : whole? bytes = some v) :
    v.isNaN = false := by
  cases bytes with
  | nil => cases whole
  | cons first rest =>
      cases first with
      | fragment w size index =>
          -- the first fragment is compared with itself
          obtain ⟨continued, same⟩ := Option.ite_none_right_eq_some.mp whole
          cases same
          simp only [continues, Bool.and_eq_true, Val.numEq_self] at continued
          exact (Bool.not_eq_true' _).mp continued.1.1.1
      | undefined | byte => cases whole

/-- A value is found whole in bytes that start with its first fragment and are all parts of it. -/
theorem whole?_eq_some_iff {bytes : List MemByte} {v : Val} :
    whole? bytes = some v ↔
      v.isNaN = false ∧ bytes[0]? = some (fragment v bytes.length 0) ∧
        ∀ i (byte : MemByte), bytes[i]? = some byte → byte.PartOf v bytes.length i := by
  constructor
  · intro whole
    have number := isNaN_of_whole? whole
    cases bytes with
    | nil => cases whole
    | cons first rest =>
        cases first with
        | fragment w size index =>
            obtain ⟨continued, same⟩ := Option.ite_none_right_eq_some.mp whole
            cases same
            have parts := (continues_iff number).mp continued
            simp only [Nat.zero_add] at parts
            obtain ⟨-, rfl, rfl⟩ := partOf_fragment_iff.mp (parts 0 _ rfl)
            exact ⟨number, rfl, parts⟩
        | undefined | byte => cases whole
  · rintro ⟨number, start, parts⟩
    cases bytes with
    | nil => cases start
    | cons first rest =>
        obtain rfl : first = fragment v (rest.length + 1) 0 := Option.some.inj start
        refine if_pos ((continues_iff number).mpr ?_)
        intro i byte here
        rw [Nat.zero_add]
        exact parts i byte here

/-- Bytes are the fragments of a value if each of them is the one of its place. -/
theorem eq_fragments {bytes : List MemByte} {v : Val}
    (parts : ∀ i byte, bytes[i]? = some byte → byte = fragment v bytes.length i) :
    bytes = fragments v bytes.length := by
  apply List.ext_getElem?
  intro i
  cases here : bytes[i]? with
  | none =>
      have beyond := List.getElem?_eq_none_iff.mp here
      simp [fragments, beyond]
  | some byte =>
      obtain ⟨inside, -⟩ := List.getElem?_eq_some_iff.mp here
      simp [fragments, inside, parts i byte here]

theorem concrete?_eq_none {bytes : List MemByte} {byte : MemByte} (mem : byte ∈ bytes)
    (mixed : ∀ n, byte ≠ .byte n) : concrete? bytes = none := by
  induction bytes with
  | nil => cases mem
  | cons first rest ih =>
      cases first with
      | byte n =>
          rcases List.mem_cons.mp mem with same | mem
          · exact absurd same (mixed n)
          · rw [concrete?, ih mem, Option.map_none]
      | undefined | fragment => rfl

end MemByte

end LateIR
