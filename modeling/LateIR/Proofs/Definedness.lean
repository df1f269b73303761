import LateIR.Proofs.Cfg.Definedness
import LateIR.Proofs.Frame.Definedness
import LateIR.Proofs.Run.Steps

/-!
Undefined is less information. Filling in undefined registers, slots and bytes of
memory takes no step away from either interpreter and changes no event: the states
after a step are again in the order of definedness, and a result stays what it is
(`definedness_monotone`). Steps in which a host function or an annotation is given
values are the exception, since these may tell undefined values apart.
-/

namespace LateIR

namespace Semantics

variable {S : Type} {sem : Semantics S} {Below : S → S → Prop} {Quiet : S → Prop}

/-- Whether a state does at least what a state below it does, as long as the
lower one is quiet. -/
structure Monotone (sem : Semantics S) (Below : S → S → Prop) (Quiet : S → Prop) : Prop where
  step : ∀ s t events s', Below s t → Quiet s → sem.step s = some (events, s') →
    ∃ t', sem.step t = some (events, t') ∧ Below s' t'
  final : ∀ s t n, Below s t → sem.final? s = some n → sem.final? t = some n

/-- A run through quiet states is followed from above, event by event. -/
theorem Monotone.steps? (mono : sem.Monotone Below Quiet) {n : Nat} {s t s' : S} {trace : Trace}
    (start : Below s t)
    (quiet : ∀ i before u, i < n → sem.steps? i s = some (before, u) → Quiet u)
    (run : sem.steps? n s = some (trace, s')) :
    ∃ t', sem.steps? n t = some (trace, t') ∧ Below s' t' := by
  induction n generalizing s t trace with
  | zero =>
      cases run
      exact ⟨t, rfl, start⟩
  | succ n ih =>
      obtain ⟨events, next, rest, stepped, later, rfl⟩ := steps?_succ_eq_some_iff.mp run
      have first := quiet 0 [] s (Nat.succ_pos n) rfl
      obtain ⟨next', stepped', below⟩ := mono.step s t events next start first stepped
      have quiet' : ∀ i before u, i < n → sem.steps? i next = some (before, u) → Quiet u := by
        intro i before u short upTo
        apply quiet (i + 1) (events ++ before) u (Nat.succ_lt_succ short)
        exact steps?_succ_eq_some_iff.mpr ⟨events, next, before, stepped, upTo, rfl⟩
      obtain ⟨t', later', below'⟩ := ih below quiet' later
      exact ⟨t', steps?_succ_eq_some_iff.mpr ⟨events, next', rest, stepped', later', rfl⟩, below'⟩

/-- An integer result stays when only undefined values change. -/
theorem final?_mono {s t : S} {n : Int32}
    (returned : ∀ v, sem.returned? s = some v → ∃ w, sem.returned? t = some w ∧ v ≤ w)
    (final : sem.final? s = some n) : sem.final? t = some n := by
  obtain ⟨w, returned', le⟩ := returned _ (final?_eq_some_iff.mp final)
  rw [final?_eq_some_iff, returned', le.resolve_left (by simp)]

end Semantics

/-- Both interpreters, run with the host's call service, do from a more defined
state what they do from a less defined one, except in calls of host functions and
in annotations. -/
theorem definedness_monotone (host : Host) :
    (∀ env : Cfg.Env, (Cfg.semantics env host.calls).Monotone Cfg.State.Below fun s =>
      ∀ ef, Cfg.serviceCall? env s = some ef → ef.onlyMemory) ∧
    ∀ (env : Frame.Env) (choose : Frame.ReturnAddresses),
      (Frame.semantics env choose host.calls).Monotone Frame.State.Below fun s =>
        ∀ ef, Frame.serviceCall? env s = some ef → ef.onlyMemory := by
  constructor
  · intro env
    constructor
    · intro s t events s' below quiet stepped
      exact Cfg.step_mono below quiet stepped
    · intro s t n below final
      exact Semantics.final?_mono (fun v returned => Cfg.returned?_mono below returned) final
  · intro env choose
    constructor
    · intro s t events s' below quiet stepped
      exact Frame.step_mono below quiet stepped
    · intro s t n below final
      exact Semantics.final?_mono (fun v returned => Frame.returned?_mono below returned) final

/-! A byte copied from a block into the frame, undefined in one memory and set in
the other. -/

def Cfg.copier : Cfg.Env where
  program :=
    { defs := [("main", .function (.internal
        ⟨.main, 24, [(1,
          #[.builtin (.memcpy 1 1) [.addrStack 16, .base (.reg .di)] .nowhere, .ret])], 1⟩))]
      main := "main" }
  distinct := by decide

def Frame.copier : Frame.Env where
  program :=
    { defs := [("main", .function (.internal
        ⟨.main, #[.builtin (.memcpy 1 1) [.addrStack 16, .base .di] .nowhere, .ret], 24, 0, 8⟩))]
      main := "main" }
  distinct := by decide

/-- A block of one byte, and the frame. -/
def copierMem (byte : MemByte) : Mem :=
  ⟨#[.live 0 #[byte], .live 0 (.replicate 24 .undefined)]⟩

def copierRegs (other : Val) : RegFile := (RegFile.empty.set .di (.ptr 1 0)).set .bx other

def Cfg.copierState (other : Val) (byte : MemByte) : Cfg.State :=
  .running ⟨[], 1, .ptr 2 0⟩ (.inBlock 1 0) ⟨copierRegs other, .empty⟩ (copierMem byte)

def Frame.copierState (other : Val) (byte : MemByte) : Frame.State :=
  .running ⟨⟨[], ⟨.null, .null⟩⟩, 1, .ptr 2 0⟩ 0 (copierRegs other) (copierMem byte)

theorem copierMem_below : (copierMem .undefined).Below (copierMem (.byte 7)) where
  next := rfl
  blocks b := by
    match b with
    | 0 => exact .none
    | 1 => exact .some (.live (.cons (.inl rfl) .nil))
    | 2 => exact .some (.refl _)
    | b + 3 => exact .none

theorem copierRegs_le : copierRegs .undefined ≤ copierRegs (.int 5) :=
  RegFile.set_mono (fun _ => Val.le_refl _) .bx (Val.undefined_le _)

theorem definedness_monotone_copier :
    (∃ s' t', Cfg.step Cfg.copier (Host.calls fun _ => none) (Cfg.copierState .undefined .undefined) =
        some ([], s') ∧
      Cfg.step Cfg.copier (Host.calls fun _ => none) (Cfg.copierState (.int 5) (.byte 7)) =
        some ([], t') ∧ s'.Below t') ∧
    ∃ s' t', Frame.step Frame.copier (Host.calls fun _ => none) .position
        (Frame.copierState .undefined .undefined) = some ([], s') ∧
      Frame.step Frame.copier (Host.calls fun _ => none) .position
        (Frame.copierState (.int 5) (.byte 7)) = some ([], t') ∧ s'.Below t' := by
  obtain ⟨inLocations, inFrames⟩ := definedness_monotone fun _ => none
  constructor
  · have below : (Cfg.copierState .undefined .undefined).Below (Cfg.copierState (.int 5) (.byte 7)) :=
      .running .nil (by decide) (LocState.Below.empty.withRegs copierRegs_le) copierMem_below
    obtain ⟨s', stepped⟩ : ∃ s', Cfg.step Cfg.copier (Host.calls fun _ => none)
        (Cfg.copierState .undefined .undefined) = some ([], s') := ⟨_, rfl⟩
    have quiet : ∀ ef, Cfg.serviceCall? Cfg.copier (Cfg.copierState .undefined .undefined) = some ef →
        ef.onlyMemory := by
      rintro ef here
      cases here
      rfl
    obtain ⟨t', stepped', below'⟩ := (inLocations Cfg.copier).step _ _ _ _ below quiet stepped
    exact ⟨s', t', stepped, stepped', below'⟩
  · have below : (Frame.copierState .undefined .undefined).Below
        (Frame.copierState (.int 5) (.byte 7)) :=
      .running ⟨by decide, by simp⟩ (by decide) copierRegs_le copierMem_below
    obtain ⟨s', stepped⟩ : ∃ s', Frame.step Frame.copier (Host.calls fun _ => none) .position
        (Frame.copierState .undefined .undefined) = some ([], s') := ⟨_, rfl⟩
    have quiet : ∀ ef, Frame.serviceCall? Frame.copier
        (Frame.copierState .undefined .undefined) = some ef → ef.onlyMemory := by
      rintro ef here
      cases here
      rfl
    obtain ⟨t', stepped', below'⟩ :=
      (inFrames Frame.copier .position).step _ _ _ _ below quiet stepped
    exact ⟨s', t', stepped, stepped', below'⟩

end LateIR
