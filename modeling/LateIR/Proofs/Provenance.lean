import LateIR.Proofs.Cfg.Provenance
import LateIR.Proofs.Frame.Provenance

/-!
No pointer is forged. When host functions return only pointers that they are
given, a run that starts with pointers to allocated blocks never holds another
one, in a register, a slot, a suspended caller or a byte of memory
(`no_pointer_forged`).
-/

namespace LateIR

/-- In every state that a run reaches from its entry, all pointers are to
allocated blocks, and none in memory dangles. -/
theorem no_pointer_forged (host : Host) (honest : host.ForgesNone) :
    (∀ (env : Cfg.Env) (before : Mem) (pointer : Val) (args : List Val) (s t : Cfg.State),
      (∀ a ∈ args, a.PointsInto before.Allocated) →
      Cfg.enter env before pointer args = .ok s →
      (Cfg.semantics env host.calls).Reachable s t →
      t.PointsInto t.mem.Allocated ∧ t.mem.noDangling) ∧
    ∀ (env : Frame.Env) (choose : Frame.ReturnAddresses) (before : Mem) (pointer : Val)
      (args : List Val) (s t : Frame.State),
      (∀ a ∈ args, a.PointsInto before.Allocated) →
      Frame.enter env before pointer args = .ok s →
      (Frame.semantics env choose host.calls).Reachable s t →
      t.PointsInto t.mem.Allocated ∧ t.mem.noDangling := by
  constructor
  · intro env before pointer args s t given entered reach
    have points := (Cfg.Grounded.reachable honest given entered reach).pointers
    exact ⟨points, Mem.noDangling_iff.mpr points.mem⟩
  · intro env choose before pointer args s t given entered reach
    have points := (Frame.Grounded.reachable honest given entered reach).pointers
    exact ⟨points, Mem.noDangling_iff.mpr points.mem⟩

/-! A pointer to a variable that goes through a host function and ends in the
frame. -/

/-- Returns its first argument. -/
def echoHost : Host := fun name => if name = "echo" then some List.head? else none

theorem echoHost_forgesNone : echoHost.ForgesNone := by
  intro name f args b ofs found returned
  obtain ⟨-, same⟩ := Option.ite_none_right_eq_some.mp found
  cases same
  exact ⟨ofs, List.mem_of_head? returned⟩

def echoSig : Signature := ⟨[.long], some .long, .standard⟩

def Cfg.echo : Cfg.Env where
  program :=
    { defs :=
        [("main", .function (.internal ⟨echoSig, 24, [(1,
            #[.builtin (.builtin "echo" echoSig) [.base (.reg .di)] (.into (.whole .ax)),
              .store .int64 (.stack 16) [] .ax, .ret])], 1⟩)),
          ("cell", .variable [.int64 0])]
      main := "main" }
  distinct := by decide

def Frame.echo : Frame.Env where
  program :=
    { defs :=
        [("main", .function (.internal ⟨echoSig,
            #[.builtin (.builtin "echo" echoSig) [.base .di] (.into (.whole .ax)),
              .store .int64 (.stack 16) [] .ax, .ret], 24, 0, 8⟩)),
          ("cell", .variable [.int64 0])]
      main := "main" }
  distinct := by decide

/-- The code and the variable. -/
def echoMem : Mem := ⟨#[.live 0 #[.undefined], .live 0 (.replicate 8 (.byte 0))]⟩

/-- The argument is passed in the first integer register. -/
def echoRegs : RegFile := RegFile.empty.set .di (.ptr 2 0)

def Cfg.echoStart : Cfg.State := .calling [] 1 ⟨echoRegs, .empty⟩ echoMem

/-- The outermost caller has a null header. -/
def Frame.echoStart : Frame.State :=
  .calling ⟨[], ⟨.ptr 3 0, .null⟩⟩ 1 echoRegs
    ⟨echoMem.blocks.push (.live 0 (.replicate 16 (.byte 0)))⟩

theorem no_pointer_forged_echo :
    (∃ t, Cfg.enter Cfg.echo echoMem (.ptr 1 0) [.ptr 2 0] = .ok Cfg.echoStart ∧
      (Cfg.semantics Cfg.echo echoHost.calls).Reachable Cfg.echoStart t ∧
      t.mem.load? .int64 3 16 = some (.ptr 2 0) ∧ t.PointsInto t.mem.Allocated) ∧
    ∃ t, Frame.enter Frame.echo echoMem (.ptr 1 0) [.ptr 2 0] = .ok Frame.echoStart ∧
      (Frame.semantics Frame.echo .position echoHost.calls).Reachable Frame.echoStart t ∧
      t.mem.load? .int64 4 16 = some (.ptr 2 0) ∧ t.PointsInto t.mem.Allocated := by
  obtain ⟨inLocations, inFrames⟩ := no_pointer_forged echoHost echoHost_forgesNone
  have given : ∀ a ∈ [Val.ptr 2 0], a.PointsInto echoMem.Allocated := by
    intro a mem
    obtain rfl := List.mem_singleton.mp mem
    show 2 < 3
    decide
  constructor
  · have entered : Cfg.enter Cfg.echo echoMem (.ptr 1 0) [.ptr 2 0] = .ok Cfg.echoStart := by
      decide +kernel
    obtain ⟨⟨trace, t⟩, run⟩ := Option.isSome_iff_exists.mp
      (by decide +kernel :
        ((Cfg.semantics Cfg.echo echoHost.calls).steps? 4 Cfg.echoStart).isSome)
    have stored : ((Cfg.semantics Cfg.echo echoHost.calls).steps? 4 Cfg.echoStart).all
        fun u => u.2.mem.load? .int64 3 16 = some (.ptr 2 0) := by decide +kernel
    rw [run] at stored
    have points := (inLocations _ _ _ _ _ t given entered ⟨4, trace, run⟩).1
    exact ⟨t, entered, ⟨4, trace, run⟩, of_decide_eq_true stored, points⟩
  · have entered : Frame.enter Frame.echo echoMem (.ptr 1 0) [.ptr 2 0] = .ok Frame.echoStart := by
      decide +kernel
    obtain ⟨⟨trace, t⟩, run⟩ := Option.isSome_iff_exists.mp
      (by decide +kernel :
        ((Frame.semantics Frame.echo .position echoHost.calls).steps? 3 Frame.echoStart).isSome)
    have stored : ((Frame.semantics Frame.echo .position echoHost.calls).steps? 3
        Frame.echoStart).all fun u => u.2.mem.load? .int64 4 16 = some (.ptr 2 0) := by
      decide +kernel
    rw [run] at stored
    have points := (inFrames _ _ _ _ _ _ t given entered ⟨3, trace, run⟩).1
    exact ⟨t, entered, ⟨3, trace, run⟩, of_decide_eq_true stored, points⟩

end LateIR
