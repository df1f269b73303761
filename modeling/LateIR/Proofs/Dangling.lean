import LateIR.Proofs.Memory.History
import LateIR.Proofs.Program.GlobalEnv
import LateIR.Proofs.Provenance.Memory

/-!
Dangling pointers. After any history of requests, the test that no pointer dangles says of the
blocks that every byte of a pointer in a live block names, whole pointer or not, that they are
among those that allocations of the history have returned, live or freed since. It says so but
for number zero, which no block has and which the test lets pass (`dangling_exact`,
`not_always_allocated`).
-/

namespace LateIR

namespace Mem

/-- The test for allocated blocks is a bound on their numbers, which start at one. -/
theorem allocated_iff {requests : List Request} {ids : List BlockId} {m : Mem}
    (served : serve requests .empty = (ids, m)) (b : BlockId) :
    m.Allocated b ↔ b = 0 ∨ b ∈ ids := by
  have history := history_serve requests .empty
  rw [served] at history
  obtain ⟨next, numbers⟩ := history.ids
  have next : m.nextBlock = 1 + ids.length := next
  have number : b ∈ ids ↔ 1 ≤ b ∧ b < 1 + ids.length := by
    rw [← List.mem_range'_1]
    exact Iff.of_eq (congrArg (b ∈ ·) numbers)
  rw [Allocated, next, number]
  rcases Nat.eq_zero_or_pos b with rfl | positive
  · exact iff_of_true (Nat.add_pos_left Nat.one_pos _) (.inl rfl)
  · simp [Nat.ne_of_gt positive, Nat.succ_le_of_lt positive]

theorem pointsInto_congr {blocks blocks' : BlockId → Prop} {m : Mem}
    (same : ∀ b, blocks b ↔ blocks' b) : m.PointsInto blocks ↔ m.PointsInto blocks' :=
  ⟨PointsInto.imp fun b => (same b).mp, PointsInto.imp fun b => (same b).mpr⟩

end Mem

/-- When no pointer dangles after a history of requests, and what a memory that is accepted for
a program can point to. -/
theorem dangling_exact (requests : List Mem.Request) (ids : List BlockId) (m : Mem)
    (served : Mem.serve requests .empty = (ids, m)) :
    (m.noDangling ↔ m.PointsInto fun b => b = 0 ∨ b ∈ ids) ∧
    (m.PointsInto (· ≠ 0) → (m.noDangling ↔ m.PointsInto (· ∈ ids))) ∧
    ∀ (F : Type) (env : GlobalEnv F), env.checkMemory m = .ok () →
      m.PointsInto fun b => b = 0 ∨ b ∈ ids := by
  have exact : m.noDangling ↔ m.PointsInto fun b => b = 0 ∨ b ∈ ids :=
    Mem.noDangling_iff.trans (Mem.pointsInto_congr (Mem.allocated_iff served))
  refine ⟨exact, ?_, ?_⟩
  · intro nonzero
    rw [exact]
    constructor
    · intro points b blk here byte mem target pointer
      exact (points b blk here byte mem target pointer).resolve_left
        (nonzero b blk here byte mem target pointer)
    · exact Mem.PointsInto.imp fun b => .inr
  · intro F env accepted
    exact exact.mp (env.allocated_of_checkMemory accepted).2

/-! A part of a pointer to a block that has been freed, and one to a block that never was. -/

/-- A pointer to a block that is freed, the first half of which is then overwritten. -/
def staleHalf : List Mem.Request :=
  [.alloc 0 8, .alloc 0 8, .store .int64 1 0 (.ptr 2 4), .free 2 0 8, .store .int32 1 0 (.int 1)]

/-- A byte of a pointer to block 3, written raw, where only blocks 1 and 2 were allocated. -/
def wildHalf : List Mem.Request :=
  staleHalf ++ [.storeBytes 1 2 [.fragment (.ptr 3 0) 8 2]]

def noDefinitions : GlobalEnv Unit := ⟨⟨[], "main"⟩, List.nodup_nil⟩

theorem dangling_exact_halves :
    (∃ m, Mem.serve staleHalf .empty = ([1, 2], m) ∧ m.PointsInto (· ≠ 0) ∧
      m.PointsInto (· ∈ [1, 2]) ∧ m.noDangling ∧ noDefinitions.checkMemory m = .ok () ∧
      m.PointsInto fun b => b = 0 ∨ b ∈ [1, 2]) ∧
    (∃ m, Mem.serve wildHalf .empty = ([1, 2], m) ∧ ¬ m.noDangling ∧
      ¬ m.PointsInto fun b => b = 0 ∨ b ∈ [1, 2]) := by
  constructor
  · obtain ⟨m, served, nonzero, sound, accepted⟩ :
        ∃ m, Mem.serve staleHalf .empty = ([1, 2], m) ∧ m.PointsInto (· ≠ 0) ∧ m.noDangling ∧
          noDefinitions.checkMemory m = .ok () :=
      ⟨_, rfl, by decide +kernel, by decide +kernel, by decide +kernel⟩
    obtain ⟨-, exact, passed⟩ := dangling_exact staleHalf [1, 2] m served
    exact ⟨m, served, nonzero, (exact nonzero).mp sound, sound, accepted,
      passed Unit noDefinitions accepted⟩
  · obtain ⟨m, served, unsound⟩ :
        ∃ m, Mem.serve wildHalf .empty = ([1, 2], m) ∧ ¬ m.noDangling :=
      ⟨_, rfl, by decide +kernel⟩
    refine ⟨m, served, unsound, fun points => unsound ?_⟩
    exact (dangling_exact wildHalf [1, 2] m served).1.mpr points

/-! A pointer to block zero. -/

def toBlockZero : List Mem.Request := [.alloc 0 8, .store .int64 1 0 (.ptr 0 0)]

def holdsBlockZero : Mem := ⟨#[.live 0 (MemByte.fragments (.ptr 0 0) 8).toArray]⟩

/-- Pointers that do not dangle do not always point to blocks that have been allocated. -/
theorem not_always_allocated :
    ¬ ∀ (requests : List Mem.Request) (ids : List BlockId) (m : Mem),
      Mem.serve requests .empty = (ids, m) → (m.noDangling ↔ m.PointsInto (· ∈ ids)) := by
  intro always
  have sound : holdsBlockZero.noDangling := by decide +kernel
  have points := (always toBlockZero [1] holdsBlockZero rfl).mp sound
  have named : 0 ∈ [1] := points 1 _ rfl (.fragment (.ptr 0 0) 8 0) (by decide +kernel) 0 rfl
  exact absurd named (by decide)

end LateIR
