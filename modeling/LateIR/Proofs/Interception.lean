import LateIR.Cfg.WellFormed
import LateIR.External.Host
import LateIR.Frame.WellFormed
import LateIR.Proofs.Program.GlobalEnv
import LateIR.Proofs.Run.Driving

/-!
Runs that answer external calls themselves. At an external call, a step of either
interpreter is the call of the service with the arguments found there, and then the
state that goes on with what the call left (`CallsThrough`). A handler that answers
as the service does is therefore not noticed (`interception_transparent`).
-/

namespace LateIR

/-- Whether the handler answers as the service does, whatever it keeps track of. -/
def Handler.Answers {σ : Type} (handler : Handler σ) (calls : CallService) : Prop :=
  ∀ h ef args m, (handler h ef args m).1 = calls ef args m

namespace Semantics

variable {S σ : Type}

/-- Whether a step at an external call asks the service and goes on with what it
leaves. -/
def CallsThrough (sem : Semantics S) (calls : CallService) : Prop :=
  ∀ s ef args, sem.atExternal? s = some (ef, args) →
    sem.step s = (calls ef args (sem.mem s)).bind fun out =>
      (sem.resume? (some out.result) out.mem s).map (out.trace, ·)

variable {sem : Semantics S} {calls : CallService} {handler : Handler σ}

theorem interceptedStep_fst (through : sem.CallsThrough calls) (answers : handler.Answers calls)
    (h : σ) (s : S) : (sem.interceptedStep handler h s).1 = sem.step s := by
  unfold interceptedStep
  split
  · rename_i ef args at_
    rw [through s ef args at_, ← answers h]
  · rfl

theorem runIntercepting_fst (through : sem.CallsThrough calls) (answers : handler.Answers calls)
    (options : RunOptions) (h : σ) (s : S) :
    (sem.runIntercepting handler options h s).1 = sem.run options s :=
  drive_congr fun h _ s => interceptedStep_fst through answers h s

end Semantics

/-! ### External calls of the interpreters -/

theorem Cfg.callsThrough (env : Cfg.Env) (calls : CallService) :
    (Cfg.semantics env calls).CallsThrough calls := by
  intro s ef args at_
  cases s with
  | calling stack callee locs mem =>
      obtain ⟨ef', outside, same⟩ := Option.map_eq_some_iff.mp at_
      cases same
      have defined := env.externalAt?_eq_some_iff.mp outside
      simp only [Cfg.semantics, Cfg.step, Cfg.resume?, Cfg.State.mem, defined, outside,
        Option.bind_eq_bind, Option.bind_some, Option.map_some]
  | _ => cases at_

theorem Frame.callsThrough (env : Frame.Env) (choose : Frame.ReturnAddresses)
    (calls : CallService) : (Frame.semantics env choose calls).CallsThrough calls := by
  intro s ef args at_
  cases s with
  | calling stack callee regs mem =>
      obtain ⟨ef', outside, at_⟩ := Option.bind_eq_some_iff.mp at_
      obtain ⟨args', readable, same⟩ := Option.bind_eq_some_iff.mp at_
      cases same
      have defined := env.externalAt?_eq_some_iff.mp outside
      simp only [Frame.semantics, Frame.step, Frame.resume?, Frame.State.mem, defined, outside,
        readable, Option.bind_eq_bind, Option.bind_some, Option.map_some]
  | _ => cases at_

/-- A handler that answers as the service does changes no answer, with any options
and from any state. It is not asked by a running function, so not by built-ins. -/
theorem interception_transparent {σ : Type} (calls : CallService) (handler : Handler σ)
    (answers : handler.Answers calls) :
    (∀ env : Cfg.Env,
      (∀ (options : RunOptions) (h : σ) (s : Cfg.State),
        ((Cfg.semantics env calls).runIntercepting handler options h s).1 =
          (Cfg.semantics env calls).run options s) ∧
      ∀ (h : σ) (act : Cfg.Activation) (point : Cfg.Point) (locs : LocState) (mem : Mem),
        ((Cfg.semantics env calls).interceptedStep handler h (.running act point locs mem)).2 =
          h) ∧
    ∀ (env : Frame.Env) (choose : Frame.ReturnAddresses),
      (∀ (options : RunOptions) (h : σ) (s : Frame.State),
        ((Frame.semantics env choose calls).runIntercepting handler options h s).1 =
          (Frame.semantics env choose calls).run options s) ∧
      ∀ (h : σ) (act : Frame.Activation) (pc : Nat) (regs : RegFile) (mem : Mem),
        ((Frame.semantics env choose calls).interceptedStep handler h
          (.running act pc regs mem)).2 = h := by
  constructor
  · intro env
    exact ⟨Semantics.runIntercepting_fst (Cfg.callsThrough env calls) answers,
      fun _ _ _ _ _ => rfl⟩
  · intro env choose
    exact ⟨Semantics.runIntercepting_fst (Frame.callsThrough env choose calls) answers,
      fun _ _ _ _ _ => rfl⟩

/-! A handler that notes the names of the functions it is asked for. The program calls
one after a built-in of the same host. -/

def tickSig : Signature := ⟨[.int], some .int, .standard⟩

/-- Adds one to an integer. -/
def tickHost : Host := fun name =>
  if name = "tick" then some fun
    | [.int n] => some (.int (n + 1))
    | _ => none
  else none

def noting (calls : CallService) : Handler (List String) :=
  fun names ef args m => (calls ef args m, names ++ [ef.name])

def Cfg.ticking : Cfg.Env where
  program :=
    { defs :=
        [("main", .function (.internal ⟨.main, 0, [(1,
            #[.builtin (.builtin "tick" tickSig) [.int 4] (.into (.whole .di)),
              .call tickSig (.symbol "tick"), .ret])], 1⟩)),
          ("tick", .function (.external (.external "tick" tickSig)))]
      main := "main" }
  distinct := by decide

/-- A function with more arguments than there are integer registers. -/
def Frame.crowdedCall : Frame.Env where
  program :=
    { defs := [("sink", .function (.external (.external "sink"
        ⟨[.int, .int, .int, .int, .int, .int, .int], none, .standard⟩)))]
      main := "sink" }
  distinct := by decide

/-- The outermost call, with the code in blocks 1 and 2. -/
def Cfg.tickingStart : Cfg.State :=
  .calling [] 1 .empty ⟨#[.live 0 #[.undefined], .live 0 #[.undefined]]⟩

/-- There is no frame that the last argument could be read from. -/
def Frame.crowdedCallStart : Frame.State :=
  .calling ⟨[], ⟨.null, .null⟩⟩ 1 .empty ⟨#[.live 0 #[.undefined]]⟩

theorem interception_transparent_noting :
    (Cfg.semantics Cfg.ticking tickHost.calls).runIntercepting (noting tickHost.calls)
        ⟨20, true, true⟩ [] Cfg.tickingStart =
          (.ok ⟨6, 7, [.syscall "tick" [.int 5] (.int 6)]⟩, ["tick"]) ∧
      (Frame.semantics Frame.crowdedCall .position tickHost.calls).runIntercepting
        (noting tickHost.calls) ⟨20, false, true⟩ [] Frame.crowdedCallStart =
          (.error (.stuck 0), []) := by
  obtain ⟨inLocations, inFrames⟩ :=
    interception_transparent tickHost.calls (noting tickHost.calls) fun _ _ _ _ => rfl
  constructor
  · apply Prod.ext
    · rw [(inLocations _).1]
      decide +kernel
    · decide +kernel
  · apply Prod.ext
    · rw [(inFrames _ _).1]
      decide +kernel
    · decide +kernel

end LateIR
