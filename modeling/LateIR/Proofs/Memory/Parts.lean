import LateIR.Proofs.Memory.Bytes
import LateIR.Proofs.Normalization

/-!
Parts of numbers in memory. Where the bytes of a number are stored, the bytes from a position on
are those of the number divided by the weight of the position, so that a narrower load finds a
part of the number (`Mem.load?_part`). Ranges that lie next to each other are read as one
(`Mem.loadBytes?_append_iff`).
-/

namespace LateIR

theorem bytesOfNat_add (size size' n : Nat) :
    bytesOfNat (size + size') n =
      bytesOfNat size n ++ bytesOfNat size' (n / Nat.pow 256 size) := by
  induction size generalizing n with
  | zero =>
      rw [Nat.zero_add, bytesOfNat, List.nil_append]
      exact congrArg (bytesOfNat size') (Nat.div_one n).symm
  | succ size ih =>
      have next : Nat.pow 256 (size + 1) = 256 * Nat.pow 256 size := Nat.mul_comm ..
      rw [Nat.succ_add, bytesOfNat, bytesOfNat, List.cons_append, ih, next,
        Nat.div_div_eq_div_mul]

theorem bytesOfNat_part {size k part : Nat} (inside : k + part ≤ size) (n : Nat) :
    ((bytesOfNat size n).drop k).take part = bytesOfNat part (n / Nat.pow 256 k) := by
  obtain ⟨rest, rfl⟩ := Nat.exists_eq_add_of_le inside
  rw [Nat.add_assoc, bytesOfNat_add, bytesOfNat_add, List.drop_left' (length_bytesOfNat ..),
    List.take_left' (length_bytesOfNat ..)]

namespace Mem

variable {m : Mem} {b : BlockId} {ofs : Int}

/-- Two ranges next to each other are read as one. -/
theorem loadBytes?_append_iff {len len' : Nat} {data data' : List MemByte}
    (length : data.length = len) (length' : data'.length = len') :
    m.loadBytes? b ofs (len + len' : Nat) = some (data ++ data') ↔
      m.loadBytes? b ofs len = some data ∧ m.loadBytes? b (ofs + len) len' = some data' := by
  subst length length'
  constructor
  · intro loaded
    have first := loadBytes?_part loaded (Nat.le_trans (Nat.le_of_eq (Nat.zero_add data.length))
      (Nat.le_add_right data.length data'.length))
    have second := loadBytes?_part loaded (Nat.le_refl (data.length + data'.length))
    rw [List.drop_zero, List.take_left, Int.natCast_zero, Int.add_zero] at first
    rw [List.drop_left, List.take_length] at second
    exact ⟨first, second⟩
  · rintro ⟨first, second⟩
    obtain ⟨covered, -, bytes⟩ := loadBytes?_eq_some_iff.mp first
    obtain ⟨covered', -, bytes'⟩ := loadBytes?_eq_some_iff.mp second
    obtain ⟨lo, hi, live, -, start, -⟩ := covers_iff.mp covered
    obtain ⟨lo', hi', live', -, -, last⟩ := covers_iff.mp covered'
    cases live.symm.trans live'
    refine loadBytes?_eq_some_iff.mpr ⟨?_, List.length_append, ?_⟩
    · exact covers_iff.mpr ⟨lo, hi, live, Int.natCast_nonneg _, start, by omega⟩
    · intro i inside
      by_cases early : i < data.length
      · rw [List.getElem?_append_left early, bytes i early]
      · have shift : ofs + data.length + (i - data.length : Nat) = ofs + i := by omega
        rw [List.getElem?_append_right (by omega), bytes' (i - data.length) (by omega), shift]

/-- A load from a place inside a number that is stored finds the digits from that place on. -/
theorem load?_part {c : Chunk} {size k n : Nat}
    (loaded : m.loadBytes? b ofs size = some ((bytesOfNat size n).map .byte))
    (inside : k + c.size ≤ size) (aligned : (c.size : Int) ∣ ofs + k) :
    m.load? c b (ofs + k) = some (c.decode (c.bytes (n / Nat.pow 256 k))) := by
  have part := loadBytes?_part loaded inside
  rw [← List.map_drop, ← List.map_take, bytesOfNat_part inside] at part
  exact load?_of_loadBytes? part aligned

end Mem

end LateIR
