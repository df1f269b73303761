import LateIR.Proofs.Cfg.Transition
import LateIR.Proofs.Run.Checked

/-!
The check of Location-IR states as a property, and why transitions keep it: every
suspended caller goes on right after a call, and the state itself is in place
(`checkState_eq_ok_iff`, `WellFormed.step`).
-/

namespace LateIR.Cfg

open Semantics (StackMove)

section

variable (env : Env)

/-- Whether a suspended caller goes on right after a call of its function. -/
def Suspended.AfterCall (caller : Suspended) : Prop :=
  ∃ index sig callee, caller.index = index + 1 ∧
    instr? env caller.func caller.node index = some (.call sig callee)

/-- Whether what a state runs or calls is there. -/
def State.InPlace : State → Prop
  | .running act point _ _ => ∃ f, env.internalAt? act.func = some f ∧ point.InBody f
  | .calling _ callee _ _ => (env.functionAt? callee).isSome
  | .returned .. => True

structure WellFormed (s : State) : Prop where
  callers : ∀ caller ∈ s.stack, caller.AfterCall env
  inPlace : s.InPlace env

end

variable {env : Env}

/-! ### The check -/

theorem Instr.isCall_iff {instr : Instr} :
    instr.isCall ↔ ∃ sig callee, instr = .call sig callee := by
  cases instr <;> simp [isCall]

theorem instr?_eq_some_iff {func : BlockId} {n : Node} {index : Nat} {instr : Instr} :
    instr? env func n index = some instr ↔
      ∃ f block, env.internalAt? func = some f ∧ f.block? n = some block ∧
        block[index]? = some instr := by
  simp [instr?, Option.bind_eq_some_iff]

theorem Function.not_isLeaf {f : Function} {n : Node} {block : Array Instr} {index : Nat}
    {sig : Signature} {callee : Callee} (found : f.block? n = some block)
    (here : block[index]? = some (.call sig callee)) : f.isLeaf = false := by
  obtain ⟨before, after, code, -⟩ := List.lookup_eq_some_iff.mp found
  obtain ⟨bound, here⟩ := Array.getElem?_eq_some_iff.mp here
  have calls : block.any Instr.isCall := Array.any_eq_true.mpr ⟨index, bound, by rw [here]; rfl⟩
  simp [isLeaf, code, calls]

theorem checkSuspended_eq_ok_iff {depth : Nat} {caller : Suspended} {done : Unit} :
    checkSuspended env depth caller = .ok done ↔ caller.AfterCall env := by
  obtain ⟨func, sp, locs, n, resume⟩ := caller
  simp only [checkSuspended, bind_eq_ok_iff, env.internal_eq_ok_iff, Suspended.AfterCall,
    instr?_eq_some_iff]
  constructor
  · rintro ⟨f, body, checked⟩
    split at checked
    · cases checked
    · split at checked
      · cases checked
      · rename_i block found
        obtain ⟨found, -⟩ := Option.filter_eq_some_iff.mp found
        split at checked
        · rename_i after
          obtain ⟨instr, here, call⟩ := (Option.any_eq_true ..).mp after.2
          obtain ⟨sig, callee, rfl⟩ := Instr.isCall_iff.mp call
          exact ⟨resume - 1, sig, callee, by omega, f, block, body, found, here⟩
        · cases checked
  · rintro ⟨index, sig, callee, rfl, f, block, body, found, here⟩
    have bound : index + 1 ≤ block.size := (Array.getElem?_eq_some_iff.mp here).1
    have kept : (f.block? n).filter (fun block => index + 1 ≤ block.size) = some block :=
      Option.filter_eq_some_iff.mpr ⟨found, decide_eq_true bound⟩
    refine ⟨f, body, ?_⟩
    rw [Function.not_isLeaf found here, kept]
    simp [here, Instr.isCall]

theorem checkStack_eq_ok_iff {stack : CallStack} {depth : Nat} :
    checkStack env stack = .ok depth ↔
      (∀ caller ∈ stack, caller.AfterCall env) ∧ depth = stack.length := by
  induction stack generalizing depth with
  | nil => simp [checkStack, eq_comm]
  | cons caller outer ih =>
      simp only [checkStack, bind_eq_ok_iff, ih, checkSuspended_eq_ok_iff, List.forall_mem_cons,
        List.length_cons, Except.ok.injEq]
      constructor
      · rintro ⟨_, ⟨outside, rfl⟩, -, inside, rfl⟩
        exact ⟨⟨inside, outside⟩, rfl⟩
      · rintro ⟨⟨inside, outside⟩, rfl⟩
        exact ⟨_, ⟨outside, rfl⟩, (), inside, rfl⟩

theorem wellFormed_iff {s : State} :
    WellFormed env s ↔ (∀ caller ∈ s.stack, caller.AfterCall env) ∧ s.InPlace env :=
  ⟨fun well => ⟨well.callers, well.inPlace⟩, fun both => ⟨both.1, both.2⟩⟩

/-- The check accepts the well-formed states and no others. -/
theorem checkState_eq_ok_iff {s : State} : checkState env s = .ok () ↔ WellFormed env s := by
  have checked {s : State} {rest : Except Violation Unit}
      (inPlace : rest = .ok () ↔ s.InPlace env) :
      (checkStack env s.stack >>= fun _ => rest) = .ok () ↔
        (∀ caller ∈ s.stack, caller.AfterCall env) ∧ s.InPlace env := by
    simp only [bind_eq_ok_iff, checkStack_eq_ok_iff, inPlace]
    simp
  rw [wellFormed_iff]
  cases s with
  | running act point locs mem =>
      cases point with
      | atNode n =>
          apply checked
          simp [bind_eq_ok_iff, env.internal_eq_ok_iff, State.InPlace, Point.InBody]
      | inBlock n index =>
          apply checked
          simp [bind_eq_ok_iff, env.internal_eq_ok_iff, State.InPlace, Point.InBody,
            Option.any_eq_true]
  | calling stack callee locs mem =>
      apply checked
      exact env.checkCallee_eq_ok_iff
  | returned stack locs mem =>
      apply checked
      simp [State.InPlace]

/-! ### Entry and transitions -/

theorem WellFormed.enter {m : Mem} {pointer : Val} {args : List Val} {s : State}
    (entered : enter env m pointer args = .ok s) : WellFormed env s := by
  obtain ⟨⟨callee, sig⟩, checked, entered⟩ := bind_eq_ok_iff.mp entered
  obtain ⟨locs, -, same⟩ := bind_eq_ok_iff.mp entered
  cases same
  exact ⟨fun _ none => absurd none List.not_mem_nil, env.known_of_checkEntry checked⟩

/-- A caller that goes on right after a call is in its function's body. -/
theorem Suspended.AfterCall.inBody {caller : Suspended} (after : caller.AfterCall env) :
    ∃ f, env.internalAt? caller.func = some f ∧
      (Point.inBlock caller.node caller.index).InBody f := by
  obtain ⟨index, sig, callee, next, instr⟩ := after
  obtain ⟨f, block, body, found, here⟩ := instr?_eq_some_iff.mp instr
  exact ⟨f, body, block, found, next ▸ (Array.getElem?_eq_some_iff.mp here).1⟩

/-- Well-formed states lead to well-formed states, and the stack changes by at
most one caller. -/
theorem WellFormed.step {calls : CallService} {s t : State} (well : WellFormed env s)
    (transition : Transition env calls s t) : WellFormed env t ∧ StackMove s.stack t.stack := by
  obtain ⟨callers, inPlace⟩ := well
  cases transition with
  | go body inside effect => exact ⟨⟨callers, _, body, inside⟩, .inl rfl⟩
  | call instr known =>
      refine ⟨⟨?_, known⟩, .inr (.inl ⟨_, rfl⟩)⟩
      exact List.forall_mem_cons.mpr ⟨⟨_, _, _, rfl, instr⟩, callers⟩
  | tailCall body known freed => exact ⟨⟨callers, known⟩, .inl rfl⟩
  | ret body freed => exact ⟨⟨callers, trivial⟩, .inl rfl⟩
  | enter body allocated =>
      exact ⟨⟨callers, _, env.internalAt?_eq_some_iff.mpr body, trivial⟩, .inl rfl⟩
  | external outside called => exact ⟨⟨callers, trivial⟩, .inl rfl⟩
  | resume =>
      obtain ⟨caller, outer⟩ := List.forall_mem_cons.mp callers
      exact ⟨⟨outer, caller.inBody⟩, .inr (.inr ⟨_, rfl⟩)⟩

/-- An external call returns to the same callers. -/
theorem WellFormed.resume {result : Option Val} {m : Mem} {s t : State} (well : WellFormed env s)
    (resumed : resume? env result m s = some t) :
    WellFormed env t ∧ StackMove s.stack t.stack := by
  cases s with
  | calling stack callee locs mem =>
      obtain ⟨ef, -, resumed⟩ := Option.bind_eq_some_iff.mp resumed
      obtain ⟨v, -, resumed⟩ := Option.bind_eq_some_iff.mp resumed
      cases resumed
      exact ⟨⟨well.callers, trivial⟩, .inl rfl⟩
  | _ => cases resumed

theorem keepsCheck (env : Env) (calls : CallService) :
    (semantics env calls).KeepsCheck fun s t => StackMove s.stack t.stack := by
  have accepted {s t : State} (next : WellFormed env t ∧ StackMove s.stack t.stack) :
      (semantics env calls).checkStep s t = .ok () ∧ StackMove s.stack t.stack :=
    ⟨Semantics.checkAfter_eq_ok_iff.mpr ⟨next.2.near, checkState_eq_ok_iff.mpr next.1⟩, next.2⟩
  refine Semantics.keepsCheck_of ?_ ?_ ?_
  · intro m pointer args s entered
    exact checkState_eq_ok_iff.mpr (.enter entered)
  · intro s events t passed stepped
    exact accepted ((checkState_eq_ok_iff.mp passed).step (transition_of_step stepped))
  · intro result m s t passed resumed
    exact accepted ((checkState_eq_ok_iff.mp passed).resume resumed)

end LateIR.Cfg
