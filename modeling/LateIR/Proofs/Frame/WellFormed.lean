import LateIR.Proofs.Frame.Entry
import LateIR.Proofs.Frame.Transition
import LateIR.Proofs.Run.Checked

/-!
The check of Frame-IR states as a property, and why transitions keep it: every
suspended caller goes on right after a call, with the return address chosen for
it, and the state itself is in place (`checkState_eq_ok_iff`, `WellFormed.step`).
-/

namespace LateIR.Frame

open Semantics (StackMove)

section

variable (env : Env) (choose : ReturnAddresses)

/-- Whether a suspended caller goes on right after a call of its function, with
the return address chosen for this call. -/
def Suspended.AfterCall (caller : Suspended) : Prop :=
  ∃ f pc sig callee ra, env.internalAt? caller.func = some f ∧ caller.resume = pc + 1 ∧
    f.code[pc]? = some (.call sig callee) ∧ caller.ra = .ptr caller.func ra ∧
    choose caller.func f (pc + 1) = some ra

/-- Whether what a state runs or calls is there. -/
def State.InPlace : State → Prop
  | .running act pc _ _ => ∃ f, env.internalAt? act.func = some f ∧ pc ≤ f.code.size
  | .calling _ callee _ _ => (env.functionAt? callee).isSome
  | .returned .. => True

structure WellFormed (s : State) : Prop where
  callers : ∀ caller ∈ s.stack.callers, caller.AfterCall env choose
  inPlace : s.InPlace env

end

variable {env : Env} {choose : ReturnAddresses}

/-! ### The check -/

theorem Instr.isCall_iff {instr : Instr} :
    instr.isCall ↔ ∃ sig callee, instr = .call sig callee := by
  cases instr <;> simp [isCall]

theorem Function.not_isLeaf {f : Function} {pc : Nat} {sig : Signature} {callee : Callee}
    (here : f.code[pc]? = some (.call sig callee)) : f.isLeaf = false := by
  obtain ⟨bound, here⟩ := Array.getElem?_eq_some_iff.mp here
  have calls : f.code.any Instr.isCall := Array.any_eq_true.mpr ⟨pc, bound, by rw [here]; rfl⟩
  simp [isLeaf, calls]

theorem admitsAddress_iff {func : BlockId} {f : Function} {resume : Nat} {address : Val} :
    admitsAddress choose func f resume address ↔
      ∃ ra, address = .ptr func ra ∧ choose func f resume = some ra := by
  cases address with
  | ptr b ofs =>
      simp only [admitsAddress, ReturnAddresses.admits, Bool.and_eq_true, decide_eq_true_eq]
      constructor
      · rintro ⟨rfl, chosen⟩
        exact ⟨ofs, rfl, chosen⟩
      · rintro ⟨ra, same, chosen⟩
        cases same
        exact ⟨rfl, chosen⟩
  | _ => simp [admitsAddress]

theorem checkSuspended_eq_ok_iff {depth : Nat} {caller : Suspended} {done : Unit} :
    checkSuspended env choose depth caller = .ok done ↔ caller.AfterCall env choose := by
  obtain ⟨func, sp, ra, resume⟩ := caller
  simp only [checkSuspended, bind_eq_ok_iff, env.internal_eq_ok_iff, Suspended.AfterCall]
  constructor
  · rintro ⟨f, body, checked⟩
    split at checked
    · cases checked
    · split at checked
      · cases checked
      · split at checked
        · cases checked
        · rename_i after
          split at checked
          · rename_i admitted
            obtain ⟨pos, call⟩ := Decidable.not_not.mp after
            obtain ⟨instr, here, call⟩ := (Option.any_eq_true ..).mp call
            obtain ⟨sig, callee, rfl⟩ := Instr.isCall_iff.mp call
            obtain ⟨ofs, address, chosen⟩ := admitsAddress_iff.mp admitted
            have next : resume = resume - 1 + 1 := by omega
            exact ⟨f, resume - 1, sig, callee, ofs, body, next, here, address, next ▸ chosen⟩
          · cases checked
  · rintro ⟨f, pc, sig, callee, ofs, body, rfl, here, address, chosen⟩
    have bound : pc + 1 ≤ f.code.size := (Array.getElem?_eq_some_iff.mp here).1
    have admitted := admitsAddress_iff.mpr ⟨ofs, address, chosen⟩
    refine ⟨f, body, ?_⟩
    simp [Function.not_isLeaf here, Nat.not_lt.mpr bound, here, Instr.isCall, admitted]

theorem checkCallers_eq_ok_iff {callers : List Suspended} {depth : Nat} :
    checkCallers env choose callers = .ok depth ↔
      (∀ caller ∈ callers, caller.AfterCall env choose) ∧ depth = callers.length := by
  induction callers generalizing depth with
  | nil => simp [checkCallers, eq_comm]
  | cons caller outer ih =>
      simp only [checkCallers, bind_eq_ok_iff, ih, checkSuspended_eq_ok_iff,
        List.forall_mem_cons, List.length_cons, Except.ok.injEq]
      constructor
      · rintro ⟨_, ⟨outside, rfl⟩, -, inside, rfl⟩
        exact ⟨⟨inside, outside⟩, rfl⟩
      · rintro ⟨⟨inside, outside⟩, rfl⟩
        exact ⟨_, ⟨outside, rfl⟩, (), inside, rfl⟩

theorem wellFormed_iff {s : State} :
    WellFormed env choose s ↔
      (∀ caller ∈ s.stack.callers, caller.AfterCall env choose) ∧ s.InPlace env :=
  ⟨fun well => ⟨well.callers, well.inPlace⟩, fun both => ⟨both.1, both.2⟩⟩

/-- The check accepts the well-formed states and no others. -/
theorem checkState_eq_ok_iff {s : State} :
    checkState env choose s = .ok () ↔ WellFormed env choose s := by
  have checked {s : State} {rest : Except Violation Unit}
      (inPlace : rest = .ok () ↔ s.InPlace env) :
      (checkCallers env choose s.stack.callers >>= fun _ => rest) = .ok () ↔
        (∀ caller ∈ s.stack.callers, caller.AfterCall env choose) ∧ s.InPlace env := by
    simp only [bind_eq_ok_iff, checkCallers_eq_ok_iff, inPlace]
    simp
  rw [wellFormed_iff]
  cases s with
  | running act pc regs mem =>
      apply checked
      simp [bind_eq_ok_iff, env.internal_eq_ok_iff, State.InPlace]
  | calling stack callee regs mem =>
      apply checked
      exact env.checkCallee_eq_ok_iff
  | returned stack regs mem =>
      apply checked
      simp [State.InPlace]

/-! ### Entry and transitions -/

theorem WellFormed.enter {m : Mem} {pointer : Val} {args : List Val} {s : State}
    (entered : enter env m pointer args = .ok s) : WellFormed env choose s := by
  obtain ⟨_, _, _, _, _, _, _, checked, -, -, -, rfl⟩ := enter_eq_ok_iff.mp entered
  exact ⟨fun _ none => absurd none List.not_mem_nil, env.known_of_checkEntry checked⟩

/-- A caller that goes on right after a call is in its function's body. -/
theorem Suspended.AfterCall.inBody {caller : Suspended} (after : caller.AfterCall env choose) :
    ∃ f, env.internalAt? caller.func = some f ∧ caller.resume ≤ f.code.size := by
  obtain ⟨f, pc, sig, callee, ra, body, next, here, -, -⟩ := after
  exact ⟨f, body, next ▸ (Array.getElem?_eq_some_iff.mp here).1⟩

/-- Whether the callers of one state are those of the other, or have one more or
less, inside the same outermost caller. -/
def State.StackMove (s t : State) : Prop :=
  t.stack.entry = s.stack.entry ∧ Semantics.StackMove s.stack.callers t.stack.callers

/-- Well-formed states lead to well-formed states, and the stack changes by at
most one caller. -/
theorem WellFormed.step {calls : CallService} {s t : State} (well : WellFormed env choose s)
    (transition : Transition env calls choose s t) :
    WellFormed env choose t ∧ s.StackMove t := by
  obtain ⟨callers, inPlace⟩ := well
  cases transition with
  | go body inside effect => exact ⟨⟨callers, _, body, inside⟩, rfl, .inl rfl⟩
  | call body instr known chosen =>
      refine ⟨⟨?_, known⟩, rfl, .inr (.inl ⟨_, rfl⟩)⟩
      exact List.forall_mem_cons.mpr ⟨⟨_, _, _, _, _, body, rfl, instr, rfl, chosen⟩, callers⟩
  | tailCall body known released => exact ⟨⟨callers, known⟩, rfl, .inl rfl⟩
  | ret body released => exact ⟨⟨callers, trivial⟩, rfl, .inl rfl⟩
  | enter body allocated written =>
      have inPlace := env.internalAt?_eq_some_iff.mpr body
      exact ⟨⟨callers, _, inPlace, Nat.zero_le _⟩, rfl, .inl rfl⟩
  | external outside called => exact ⟨⟨callers, trivial⟩, rfl, .inl rfl⟩
  | resume =>
      obtain ⟨caller, outer⟩ := List.forall_mem_cons.mp callers
      exact ⟨⟨outer, caller.inBody⟩, rfl, .inr (.inr ⟨_, rfl⟩)⟩

/-- An external call returns to the same callers. -/
theorem WellFormed.resume {result : Option Val} {m : Mem} {s t : State}
    (well : WellFormed env choose s) (resumed : resume? env result m s = some t) :
    WellFormed env choose t ∧ s.StackMove t := by
  cases s with
  | calling stack callee regs mem =>
      obtain ⟨ef, -, resumed⟩ := Option.bind_eq_some_iff.mp resumed
      obtain ⟨v, -, resumed⟩ := Option.bind_eq_some_iff.mp resumed
      cases resumed
      exact ⟨⟨well.callers, trivial⟩, rfl, .inl rfl⟩
  | _ => cases resumed

theorem keepsCheck (env : Env) (choose : ReturnAddresses) (calls : CallService) :
    (semantics env choose calls).KeepsCheck State.StackMove := by
  have accepted {s t : State} (next : WellFormed env choose t ∧ s.StackMove t) :
      (semantics env choose calls).checkStep s t = .ok () ∧ s.StackMove t := by
    obtain ⟨well, entry, move⟩ := next
    exact ⟨Semantics.checkAfter_eq_ok_iff.mpr ⟨move.near, checkState_eq_ok_iff.mpr well⟩,
      entry, move⟩
  refine Semantics.keepsCheck_of ?_ ?_ ?_
  · intro m pointer args s entered
    exact checkState_eq_ok_iff.mpr (.enter entered)
  · intro s events t passed stepped
    exact accepted ((checkState_eq_ok_iff.mp passed).step (transition_of_step stepped))
  · intro result m s t passed resumed
    exact accepted ((checkState_eq_ok_iff.mp passed).resume resumed)

end LateIR.Frame
