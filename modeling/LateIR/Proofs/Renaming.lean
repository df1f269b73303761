import LateIR.Proofs.Cfg.Renaming
import LateIR.Proofs.Frame.Renaming
import LateIR.Proofs.Spilling.Code

/-!
What has been allocated before a run cannot be seen in it. Allocations that come before the
entry of a program give all of its own blocks higher numbers, and that is the only difference:
the run ends in the same way after as many steps, with the same result, and its events differ in
the numbers of those blocks alone (`allocation_unobservable`). The host functions must not be
able to tell blocks apart by their numbers, and there must be numbers left.
-/

namespace LateIR

/-! ### Earlier allocations -/

/-- The number of a block after `k` allocations that came before it, where `first` is the
number from which they started. -/
def shiftFrom (first k b : Nat) : Nat := if b < first then b else b + k

section

variable {first k b : Nat}

theorem shiftFrom_of_lt (old : b < first) : shiftFrom first k b = b := if_pos old

theorem shiftFrom_of_le (new : first ≤ b) : shiftFrom first k b = b + k :=
  if_neg (Nat.not_lt.mpr new)

theorem shiftFrom_injective : Function.Injective (shiftFrom first k) := by
  intro a b same
  unfold shiftFrom at same
  split at same <;> split at same <;> omega

end

namespace Mem

/-- Whether `k` allocations, with whatever bounds, lead from the first memory to the second. -/
inductive Allocations : Nat → Mem → Mem → Prop where
  | none (m : Mem) : Allocations 0 m m
  | one {k : Nat} {m mid m' : Mem} {b : BlockId} {lo hi : Int}
      (allocated : m.alloc? lo hi = some (b, mid)) (later : Allocations k mid m') :
      Allocations (k + 1) m m'

namespace Allocations

variable {k : Nat} {m m' : Mem}

theorem nextBlock (allocs : Allocations k m m') : m'.nextBlock = m.nextBlock + k := by
  induction allocs with
  | none m => rfl
  | @one k m mid m' b lo hi allocated later ih =>
      obtain ⟨rfl, next⟩ := nextBlock_alloc? allocated
      rw [ih, next, Nat.add_assoc, Nat.add_comm 1 k]

/-- Blocks that were there before stay as they are. -/
theorem block? (allocs : Allocations k m m') {b : BlockId} (old : b < m.nextBlock) :
    m'.block? b = m.block? b := by
  induction allocs with
  | none m => rfl
  | @one k m mid m' new lo hi allocated later ih =>
      obtain ⟨rfl, rfl⟩ := m.alloc?_eq_some_push allocated
      have kept : b < (m.push (.fresh lo hi)).nextBlock := by
        rw [nextBlock_push]
        exact Nat.lt_succ_of_lt old
      rw [ih kept, push, block?_push, if_neg (Nat.ne_of_lt old)]

theorem pointsInto {blocks : BlockId → Prop} (allocs : Allocations k m m')
    (points : m.PointsInto blocks) : m'.PointsInto blocks := by
  induction allocs with
  | none m => exact points
  | one allocated later ih => exact ih (points.alloc? allocated)

/-- The memory after the allocations corresponds to the one before, since no pointer in it
names a block that gets another number. -/
theorem renamed (allocs : Allocations k m m') (sound : m.PointsInto m.Allocated) :
    m.Renamed (shiftFrom m.nextBlock k) m' where
  inj := shiftFrom_injective
  blocks b := by
    by_cases old : b < m.nextBlock
    · -- The block stays in place, and no pointer in it changes.
      rw [shiftFrom_of_lt old, allocs.block? old]
      cases here : m.block? b with
      | none => rfl
      | some blk =>
          have own : ∀ byte ∈ blk.contents,
              byte.PointsInto fun b => shiftFrom m.nextBlock k b = b := by
            intro byte mem target pointer
            exact shiftFrom_of_lt (sound b blk here byte mem target pointer)
          rw [Option.map_some, Block.rename_eq_self own]
    · -- Neither memory has come to this number yet.
      have new := Nat.not_lt.mp old
      have beyond : m'.nextBlock ≤ b + k := by
        rw [allocs.nextBlock]
        exact Nat.add_le_add_right new k
      rw [shiftFrom_of_le new, block?_eq_none_of_nextBlock_le new,
        block?_eq_none_of_nextBlock_le beyond]
      rfl
  next := by rw [shiftFrom_of_le (Nat.le_refl _), allocs.nextBlock]
  later b new := by
    rw [shiftFrom_of_le new, shiftFrom_of_le (Nat.le_succ_of_le new), Nat.succ_add]
  more := by
    rw [allocs.nextBlock]
    exact Nat.le_add_right ..

end Allocations

end Mem

/-- What entry has checked in a memory makes the memory after more allocations correspond to
it, with the globals in place. -/
theorem GlobalEnv.renamed_of_checkEntry {F : Type} [FunctionBody F] {env : GlobalEnv F} {k : Nat}
    {m m' : Mem} {pointer : Val} {args : List Val} {entry : BlockId × Signature}
    (allocs : Mem.Allocations k m m') (checked : env.checkEntry m pointer args = .ok entry) :
    env.FixedBy (shiftFrom m.nextBlock k) ∧ m.Renamed (shiftFrom m.nextBlock k) m' ∧
      m'.noDangling := by
  obtain ⟨allocated, sound⟩ := env.allocated_of_checkEntry checked
  have points := Mem.noDangling_iff.mp sound
  refine ⟨fun b known => shiftFrom_of_lt (allocated b known), allocs.renamed points, ?_⟩
  have grown : m.nextBlock ≤ m'.nextBlock := by
    rw [allocs.nextBlock]
    exact Nat.le_add_right ..
  exact Mem.noDangling_iff.mpr ((allocs.pointsInto points).imp (Mem.Allocated.mono grown))

/-! ### Both interpreters -/

/-- Whether a run shows nothing of the allocations that came before it. After `k` more of them
the same entry succeeds, and while block numbers are left the run gives the same answer, with
`k` added to the numbers of the blocks that it has itself allocated. -/
def Semantics.HistoryBlind {S : Type} (sem : Semantics S) : Prop :=
  ∀ (k : Nat) (m m' : Mem) (pointer : Val) (args : List Val) (s : S),
    m.Allocations k m' → m'.nextBlock < Mem.blockLimit →
    (∀ v ∈ args, v.PointsInto m.Allocated) → sem.enter m pointer args = .ok s →
    ∃ s', sem.enter m' pointer args = .ok s' ∧
      ∀ options : RunOptions, sem.HasRoom options.maxSteps s' →
        sem.run options s' = renameAnswer (shiftFrom m.nextBlock k) (sem.run options s)

theorem map_rename_shiftFrom {m : Mem} {k : Nat} {args : List Val}
    (old : ∀ v ∈ args, v.PointsInto m.Allocated) :
    args.map (Val.rename (shiftFrom m.nextBlock k)) = args := by
  have same : ∀ v ∈ args, v.rename (shiftFrom m.nextBlock k) = id v := by
    intro v mem
    exact Val.rename_eq_self ((old v mem).imp fun _ => shiftFrom_of_lt)
  rw [List.map_congr_left same, List.map_id]

/-- It is enough that the entry in the later memory, with renamed arguments, leads to a state
that does the same up to the renaming. -/
theorem Semantics.historyBlind_of {S : Type} {sem : Semantics S} {Move : S → S → Prop}
    (keeps : sem.KeepsCheck Move)
    (follows : ∀ (k : Nat) (m m' : Mem) (pointer : Val) (args : List Val) (s : S),
      m.Allocations k m' → m'.nextBlock < Mem.blockLimit → sem.enter m pointer args = .ok s →
      ∃ s' R, sem.enter m' pointer (args.map (Val.rename (shiftFrom m.nextBlock k))) = .ok s' ∧
        R s s' ∧ sem.Renames (shiftFrom m.nextBlock k) R) : sem.HistoryBlind := by
  intro k m m' pointer args s allocs left old entered
  obtain ⟨s', R, entered', related, renames⟩ := follows k m m' pointer args s allocs left entered
  rw [map_rename_shiftFrom old] at entered'
  refine ⟨s', entered', ?_⟩
  intro options room
  exact renames.run keeps related (keeps.enter _ _ _ _ entered) (keeps.enter _ _ _ _ entered') room

/-- Neither interpreter shows what was allocated before a run, when the host functions take
renamed arguments to the renamed result. -/
theorem allocation_unobservable (host : Host) (equivariant : host.Equivariant) :
    (∀ env : Cfg.Env, (Cfg.semantics env host.calls).HistoryBlind) ∧
    ∀ (env : Frame.Env) (choose : Frame.ReturnAddresses),
      (Frame.semantics env choose host.calls).HistoryBlind := by
  constructor
  · intro env
    refine Semantics.historyBlind_of (Cfg.keepsCheck env host.calls) ?_
    intro k m m' pointer args s allocs _ entered
    obtain ⟨entry, checked, -⟩ := bind_eq_ok_iff.mp entered
    obtain ⟨fixed, renamed, sound⟩ := GlobalEnv.renamed_of_checkEntry allocs checked
    obtain ⟨s', entered', related⟩ := Cfg.enter_rename fixed renamed sound entered
    exact ⟨s', _, entered', related, Cfg.renames equivariant fixed⟩
  · intro env choose
    refine Semantics.historyBlind_of (Frame.keepsCheck env choose host.calls) ?_
    intro k m m' pointer args s allocs left entered
    obtain ⟨entry, checked, -⟩ := bind_eq_ok_iff.mp entered
    obtain ⟨fixed, renamed, sound⟩ := GlobalEnv.renamed_of_checkEntry allocs checked
    obtain ⟨s', entered', related⟩ := Frame.enter_rename fixed renamed sound left entered
    exact ⟨s', _, entered', related, Frame.renames equivariant fixed⟩

/-! A program that asks the host whether its frame is a heap block that it has allocated, alone
and after three other allocations. -/

/-- Compares two values. -/
def same? : HostFunction
  | [v, w] => some (.ofBool (v = w))
  | _ => none

def sameHost : Host := fun name => if name = "same" then some same? else none

theorem sameHost_equivariant : sameHost.Equivariant := by
  intro ρ inj name f args found
  obtain ⟨-, here⟩ := Option.ite_none_right_eq_some.mp found
  cases here
  match args with
  | [v, w] =>
      simp only [List.map_cons, List.map_nil, same?, (Val.rename_injective inj).eq_iff]
      rfl
  | [] | [_] | _ :: _ :: _ :: _ => rfl

def sameFunction : ExternalFunction := .external "same" ⟨[.long, .long], some .int, .standard⟩

def Cfg.asker : Cfg.Env := mainOnly "main"
  { sig := .main
    stackSize := 16
    code := [(1, #[.op (.addrStack 0) [] .di, .builtin .malloc [.long 8] (.into (.whole .si)),
      .builtin sameFunction [.base (.reg .di), .base (.reg .si)] (.into (.whole .ax)), .ret])]
    entry := 1 }

def Frame.asker : Frame.Env := mainOnly "main"
  { sig := .main
    code := #[.op (.addrStack 16) [] .di, .builtin .malloc [.long 8] (.into (.whole .si)),
      .builtin sameFunction [.base .di, .base .si] (.into (.whole .ax)), .ret]
    stackSize := 24
    linkOfs := 0
    retAddrOfs := 8 }

/-- The code, and three blocks that are not the program's. -/
def busyMem : Mem := ((codeMem.push (.fresh 0 1)).push (.fresh (-8) 8)).push (.fresh 4 2)

def Cfg.busyStart : Cfg.State := .calling [] 1 .empty busyMem

def Frame.busyStart : Frame.State :=
  .calling ⟨[], ⟨.ptr 5 0, .null⟩⟩ 1 .empty (busyMem.push (.live 0 (.replicate 16 (.byte 0))))

theorem busyMem_allocations : codeMem.Allocations 3 busyMem := by
  have first : codeMem.alloc? 0 1 = some (2, codeMem.push (.fresh 0 1)) := rfl
  have second : (codeMem.push (.fresh 0 1)).alloc? (-8) 8 =
      some (3, (codeMem.push (.fresh 0 1)).push (.fresh (-8) 8)) := rfl
  have third : ((codeMem.push (.fresh 0 1)).push (.fresh (-8) 8)).alloc? 4 2 =
      some (4, busyMem) := rfl
  exact .one first (.one second (.one third (.none busyMem)))

theorem allocation_unobservable_asker :
    ((Cfg.semantics Cfg.asker sameHost.calls).run ⟨9, true, true⟩ Cfg.mainStart =
        .ok ⟨0, 6, [.syscall "same" [.ptr 2 0, .ptr 3 0] (.int 0)]⟩ ∧
      (Cfg.semantics Cfg.asker sameHost.calls).run ⟨9, true, true⟩ Cfg.busyStart =
        .ok ⟨0, 6, [.syscall "same" [.ptr 5 0, .ptr 6 0] (.int 0)]⟩) ∧
    (Frame.semantics Frame.asker .position sameHost.calls).run ⟨9, true, true⟩ Frame.mainStart =
        .ok ⟨0, 5, [.syscall "same" [.ptr 3 16, .ptr 4 0] (.int 0)]⟩ ∧
      (Frame.semantics Frame.asker .position sameHost.calls).run ⟨9, true, true⟩ Frame.busyStart =
        .ok ⟨0, 5, [.syscall "same" [.ptr 6 16, .ptr 7 0] (.int 0)]⟩ := by
  obtain ⟨inLocations, inFrames⟩ := allocation_unobservable sameHost sameHost_equivariant
  have room : busyMem.nextBlock < Mem.blockLimit := by decide
  constructor
  · have alone : (Cfg.semantics Cfg.asker sameHost.calls).run ⟨9, true, true⟩ Cfg.mainStart =
        .ok ⟨0, 6, [.syscall "same" [.ptr 2 0, .ptr 3 0] (.int 0)]⟩ := by decide +kernel
    have entered : Cfg.enter Cfg.asker busyMem (.ptr 1 0) [] = .ok Cfg.busyStart := by
      decide +kernel
    have left : (Cfg.semantics Cfg.asker sameHost.calls).HasRoom 9 Cfg.busyStart :=
      Semantics.hasRoom_of_all (by decide +kernel)
    obtain ⟨s', entered', same⟩ := inLocations Cfg.asker 3 codeMem busyMem (.ptr 1 0) []
      Cfg.mainStart busyMem_allocations room (by simp) (Cfg.enter_mainOnly rfl)
    cases entered.symm.trans entered'
    refine ⟨alone, ?_⟩
    rw [same ⟨9, true, true⟩ left, alone]
    rfl
  · have alone : (Frame.semantics Frame.asker .position sameHost.calls).run ⟨9, true, true⟩
        Frame.mainStart = .ok ⟨0, 5, [.syscall "same" [.ptr 3 16, .ptr 4 0] (.int 0)]⟩ := by
      decide +kernel
    have entered : Frame.enter Frame.asker busyMem (.ptr 1 0) [] = .ok Frame.busyStart := by
      decide +kernel
    have left : (Frame.semantics Frame.asker .position sameHost.calls).HasRoom 9
        Frame.busyStart := Semantics.hasRoom_of_all (by decide +kernel)
    obtain ⟨s', entered', same⟩ := inFrames Frame.asker .position 3 codeMem busyMem (.ptr 1 0) []
      Frame.mainStart busyMem_allocations room (by simp) (Frame.enter_mainOnly rfl)
    cases entered.symm.trans entered'
    refine ⟨alone, ?_⟩
    rw [same ⟨9, true, true⟩ left, alone]
    rfl

end LateIR
