import LateIR.Operation

/-!
Sums of longs and pointers. Addition is commutative and associative on values of every kind, so
that a sum is undefined however its operands are grouped as soon as two of them are pointers.
Subtraction takes back a long that was added, and the distance from one pointer into a block to
another leads there. The offsets of nested addresses therefore add up (`address_arithmetic`).
-/

namespace LateIR

namespace Val

theorem addLong_comm (a b : Val) : a.addLong b = b.addLong a := by
  cases a with
  | long k =>
      cases b with
      | long n => exact congrArg long (Int64.add_comm k n)
      | _ => rfl
  | _ => cases b <;> rfl

/-- Two pointers have no sum, and neither has anything that is not a number of 64 bits. -/
theorem addLong_assoc (a b c : Val) : (a.addLong b).addLong c = a.addLong (b.addLong c) := by
  cases a with
  | long k =>
      cases b with
      | long n =>
          cases c with
          | long p => exact congrArg long (Int64.add_assoc k n p)
          | ptr block ofs =>
              have moved : ofs + (k + n) = ofs + n + k := by
                rw [Int64.add_comm k n, Int64.add_assoc]
              exact congrArg (ptr block) moved
          | _ => rfl
      | ptr block ofs =>
          cases c with
          | long p =>
              have moved : ofs + k + p = ofs + p + k := by
                rw [Int64.add_assoc, Int64.add_comm k p, Int64.add_assoc]
              exact congrArg (ptr block) moved
          | _ => rfl
      | _ => rfl
  | ptr block ofs =>
      cases b with
      | long n =>
          cases c with
          | long p => exact congrArg (ptr block) (Int64.add_assoc ofs n p)
          | _ => rfl
      | _ => cases c <;> rfl
  | _ => rfl

/-- What is added to a long or a pointer can be taken back; other values are lost. -/
theorem subLong_addLong (v : Val) (n : Int64) :
    (v.addLong (.long n)).subLong (.long n) = v.loadResult .int64 := by
  cases v with
  | long k => exact congrArg long (Int64.add_sub_cancel k n)
  | ptr block ofs => exact congrArg (ptr block) (Int64.add_sub_cancel ofs n)
  | _ => rfl

/-- The distance between two pointers into one block leads from one to the other. -/
theorem addLong_subLong_ptr (block : BlockId) (ofs ofs' : Int64) :
    (ptr block ofs').addLong ((ptr block ofs).subLong (ptr block ofs')) = ptr block ofs := by
  have distance : (ptr block ofs).subLong (ptr block ofs') = long (ofs - ofs') := if_pos rfl
  rw [distance]
  refine congrArg (ptr block) ?_
  rw [Int64.add_comm, Int64.sub_add_cancel]

end Val

namespace Addressing

variable (symbols : Symbols) (sp v w : Val)

/-- An offset from an address at an offset. -/
theorem eval?_indexed_indexed (outer inner : Int64) :
    ∃ address, (indexed inner).eval? symbols sp [v] = some address ∧
      (indexed outer).eval? symbols sp [address] = some (v.addLong (.long (outer + inner))) := by
  refine ⟨v.addLong (.long inner), rfl, congrArg some ?_⟩
  rw [Val.addLong_assoc, Int64.add_comm outer inner]
  rfl

/-- The operands of an address may change places. -/
theorem eval?_indexed2_comm (ofs : Int64) :
    (indexed2 ofs).eval? symbols sp [w, v] = some ((v.addLong w).addLong (.long ofs)) := by
  rw [Val.addLong_comm v w]
  rfl

end Addressing

/-- How longs and pointers add up, and with them the offsets of addresses. -/
theorem address_arithmetic (a b c : Val) :
    a.addLong b = b.addLong a ∧
    (a.addLong b).addLong c = a.addLong (b.addLong c) ∧
    (∀ k n : Int64, ((Val.long k).addLong (.long n)).subLong (.long n) = .long k) ∧
    (∀ (block : BlockId) (ofs n : Int64),
      ((Val.ptr block ofs).addLong (.long n)).subLong (.long n) = .ptr block ofs) ∧
    (∀ (block : BlockId) (ofs ofs' : Int64),
      (Val.ptr block ofs').addLong ((Val.ptr block ofs).subLong (.ptr block ofs')) =
        .ptr block ofs) ∧
    ∀ (symbols : Symbols) (sp : Val),
      (∀ outer inner : Int64,
        (∃ address, (Addressing.indexed inner).eval? symbols sp [a] = some address ∧
          (Addressing.indexed outer).eval? symbols sp [address] =
            some (a.addLong (.long (outer + inner)))) ∧
        (Addressing.indexed (outer + inner)).eval? symbols sp [a] =
          some (a.addLong (.long (outer + inner)))) ∧
      ∀ ofs : Int64,
        (Addressing.indexed2 ofs).eval? symbols sp [a, b] =
          some ((a.addLong b).addLong (.long ofs)) ∧
        (Addressing.indexed2 ofs).eval? symbols sp [b, a] =
          some ((a.addLong b).addLong (.long ofs)) ∧
        (Addressing.indexed ofs).eval? symbols sp [a.addLong b] =
          some ((a.addLong b).addLong (.long ofs)) := by
  refine ⟨a.addLong_comm b, a.addLong_assoc b c, ?_, ?_, Val.addLong_subLong_ptr, ?_⟩
  · intro k n
    exact (Val.long k).subLong_addLong n
  · intro block ofs n
    exact (Val.ptr block ofs).subLong_addLong n
  · intro symbols sp
    constructor
    · intro outer inner
      exact ⟨Addressing.eval?_indexed_indexed symbols sp a outer inner, rfl⟩
    · intro ofs
      exact ⟨rfl, Addressing.eval?_indexed2_comm symbols sp a b ofs, rfl⟩

end LateIR
