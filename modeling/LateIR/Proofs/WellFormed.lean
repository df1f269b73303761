import LateIR.Proofs.Cfg.WellFormed
import LateIR.Proofs.Frame.WellFormed

/-!
The checks of both interpreters hold of every state that a run enters or moves
to, for any external calls and any choice of return addresses, so checking a run
only costs time (`check_kept`).
-/

namespace LateIR

open Semantics (StackMove)

/-- Entry leads to states that pass the check, and every transition and external
call from such a state is accepted and changes the stack by at most one caller.
Runs with and without checks give the same answer. -/
theorem check_kept (calls : CallService) :
    (∀ env : Cfg.Env, (Cfg.semantics env calls).KeepsCheck fun s t =>
      StackMove s.stack t.stack) ∧
    ∀ (env : Frame.Env) (choose : Frame.ReturnAddresses),
      (Frame.semantics env choose calls).KeepsCheck fun s t =>
        t.stack.entry = s.stack.entry ∧ StackMove s.stack.callers t.stack.callers :=
  ⟨fun env => Cfg.keepsCheck env calls, fun env choose => Frame.keepsCheck env choose calls⟩

/-! A call of a leaf, with the offset 12 for its return address in Frame-IR. -/

def Cfg.callLeaf : Cfg.Env where
  program :=
    { defs :=
        [("leaf", .function (.internal ⟨.main, 0, [(1, #[.op (.intConst 1) [] .ax, .ret])], 1⟩)),
          ("main", .function (.internal
            ⟨.main, 0, [(1, #[.call .main (.symbol "leaf"), .ret])], 1⟩))]
      main := "main" }
  distinct := by decide

def Frame.callLeaf : Frame.Env where
  program :=
    { defs :=
        [("leaf", .function (.internal ⟨.main, #[.op (.intConst 1) [] .ax, .ret], 16, 0, 8⟩)),
          ("main", .function (.internal ⟨.main, #[.call .main (.symbol "leaf"), .ret], 16, 0, 8⟩))]
      main := "main" }
  distinct := by decide

/-- Main before its call. -/
def Cfg.callLeafStart : Cfg.State := .running ⟨[], 2, .null⟩ (.inBlock 1 0) .empty .empty

def Frame.callLeafStart : Frame.State :=
  .running ⟨⟨[], ⟨.null, .null⟩⟩, 2, .null⟩ 0 .empty .empty

theorem check_kept_callLeaf :
    (∃ t, (Cfg.semantics Cfg.callLeaf fun _ _ _ => none).step Cfg.callLeafStart = some ([], t) ∧
      t.stack.length = 1 ∧ Cfg.checkState Cfg.callLeaf t = .ok ()) ∧
    ∃ t, (Frame.semantics Frame.callLeaf (.table [((2, 1), 12)]) fun _ _ _ => none).step
        Frame.callLeafStart = some ([], t) ∧
      t.stack.callerRa = .ptr 2 12 ∧
      Frame.checkState Frame.callLeaf (.table [((2, 1), 12)]) t = .ok () := by
  obtain ⟨inLocations, inFrames⟩ := check_kept fun _ _ _ => none
  constructor
  · have stepped : (Cfg.semantics Cfg.callLeaf fun _ _ _ => none).step Cfg.callLeafStart =
        some ([], .calling [⟨2, .null, .empty, 1, 1⟩] 1 .empty .empty) := by decide +kernel
    have passed : Cfg.checkState Cfg.callLeaf Cfg.callLeafStart = .ok () := by rfl
    have kept := (inLocations Cfg.callLeaf).step Cfg.callLeafStart _ _ passed stepped
    exact ⟨_, stepped, rfl, (Semantics.checkAfter_eq_ok_iff.mp kept.1).2⟩
  · have stepped : (Frame.semantics Frame.callLeaf (.table [((2, 1), 12)]) fun _ _ _ => none).step
        Frame.callLeafStart =
          some ([], .calling ⟨[⟨2, .null, .ptr 2 12, 1⟩], ⟨.null, .null⟩⟩ 1 .empty .empty) := by
      decide +kernel
    have passed : Frame.checkState Frame.callLeaf (.table [((2, 1), 12)]) Frame.callLeafStart =
        .ok () := by rfl
    have kept := (inFrames Frame.callLeaf (.table [((2, 1), 12)])).step Frame.callLeafStart _ _
      passed stepped
    exact ⟨_, stepped, rfl, (Semantics.checkAfter_eq_ok_iff.mp kept.1).2⟩

end LateIR
