import LateIR.Cfg.WellFormed
import LateIR.External.Host
import LateIR.Frame.WellFormed
import LateIR.Proofs.Run.Endings

/-!
What running to the end answers. In both interpreters the outermost call returns
last, so that iterated steps give a run without checks exactly one ending, which
is its answer (`runs_answer`).
-/

namespace LateIR

/-- Nothing follows the return of the outermost call. -/
theorem Cfg.returnsLast (env : Cfg.Env) (calls : CallService) :
    (Cfg.semantics env calls).ReturnsLast := by
  intro s v returned
  cases s with
  | returned stack locs mem =>
      cases stack with
      | nil => rfl
      | cons caller stack => cases returned
  | _ => cases returned

theorem Frame.returnsLast (env : Frame.Env) (choose : Frame.ReturnAddresses)
    (calls : CallService) : (Frame.semantics env choose calls).ReturnsLast := by
  intro s v returned
  cases s with
  | returned stack regs mem =>
      obtain ⟨callers, entry⟩ := stack
      cases callers with
      | nil => rfl
      | cons caller callers => cases returned
  | _ => cases returned

/-- Runs without checks answer what iterated steps determine, from every state. -/
theorem runs_answer (options : RunOptions) (unchecked : options.checkInvariants = false) :
    (∀ (env : Cfg.Env) (calls : CallService) (s : Cfg.State),
      (Cfg.semantics env calls).AnswersBySteps options s) ∧
    ∀ (env : Frame.Env) (choose : Frame.ReturnAddresses) (calls : CallService) (s : Frame.State),
      (Frame.semantics env choose calls).AnswersBySteps options s := by
  constructor
  · intro env calls s
    exact Semantics.answersBySteps (Cfg.returnsLast env calls) unchecked s
  · intro env choose calls s
    exact Semantics.answersBySteps (Frame.returnsLast env choose calls) unchecked s

/-! A function that reports and returns 7, in five steps, and one that returns without
a result, in two. -/

def Cfg.reporter : Cfg.Env where
  program :=
    { defs :=
        [("main", .function (.internal ⟨.main, 0, [(1,
            #[.builtin (.annot "on" []) [] .nowhere, .op (.intConst 7) [] .ax, .ret])], 1⟩))]
      main := "main" }
  distinct := by decide

def Frame.silent : Frame.Env where
  program :=
    { defs := [("main", .function (.internal ⟨.main, #[.ret], 16, 0, 8⟩))]
      main := "main" }
  distinct := by decide

/-- The outermost call, with the code in block 1. -/
def Cfg.reporterStart : Cfg.State := .calling [] 1 .empty ⟨#[.live 0 #[.undefined]]⟩

def Frame.silentStart : Frame.State :=
  .calling ⟨[], ⟨.null, .null⟩⟩ 1 .empty ⟨#[.live 0 #[.undefined]]⟩

/-- The limit is reached at the fourth step and not at the fifth. -/
theorem runs_answer_reporter :
    (Cfg.semantics Cfg.reporter (Host.calls fun _ => none)).run ⟨5, false, true⟩
        Cfg.reporterStart = .ok ⟨7, 5, [.annot "on" []]⟩ ∧
      (Cfg.semantics Cfg.reporter (Host.calls fun _ => none)).run ⟨4, false, true⟩
        Cfg.reporterStart = .error (.stepLimit 4) ∧
      (Frame.semantics Frame.silent .position (Host.calls fun _ => none)).run ⟨3, false, true⟩
        Frame.silentStart = .error (.invalidResult .undefined) := by
  have whole : ((Cfg.semantics Cfg.reporter (Host.calls fun _ => none)).steps? 5
      Cfg.reporterStart).any fun u => u.1 = [.annot "on" []] ∧
        (Cfg.semantics Cfg.reporter (Host.calls fun _ => none)).final? u.2 = some 7 := by
    decide +kernel
  have short : ((Cfg.semantics Cfg.reporter (Host.calls fun _ => none)).steps? 4
      Cfg.reporterStart).any fun u => u.1 = [.annot "on" []] ∧
        (Cfg.semantics Cfg.reporter (Host.calls fun _ => none)).final? u.2 = none := by
    decide +kernel
  have empty : ((Frame.semantics Frame.silent .position (Host.calls fun _ => none)).steps? 2
      Frame.silentStart).any fun u => u.1 = [] ∧
        (Frame.semantics Frame.silent .position (Host.calls fun _ => none)).returned? u.2 =
          some .undefined := by
    decide +kernel
  simp only [Option.any_eq_true, Prod.exists, decide_eq_true_eq] at whole short empty
  refine ⟨?_, ?_, ?_⟩
  · obtain ⟨trace, t, run, rfl, final⟩ := whole
    exact ((runs_answer ⟨5, false, true⟩ rfl).1 _ _ _).answer ⟨5, _, .returned 7⟩
      ⟨t, run, Nat.le_refl 5, final⟩
  · obtain ⟨trace, t, run, rfl, going⟩ := short
    exact ((runs_answer ⟨4, false, true⟩ rfl).1 _ _ _).answer ⟨4, _, .limit⟩
      ⟨t, run, rfl, going⟩
  · obtain ⟨trace, t, run, rfl, returned⟩ := empty
    exact ((runs_answer ⟨3, false, true⟩ rfl).2 _ _ _ _).answer ⟨2, _, .notInteger .undefined⟩
      ⟨t, run, by decide, returned, by simp⟩

end LateIR
