import LateIR.Proofs.Cfg.Transition
import LateIR.Proofs.Definedness.Calls
import LateIR.Proofs.Definedness.Evaluation
import LateIR.Proofs.Definedness.Location

/-!
States of Location-IR ordered by definedness. A state is below another one at the
same point, with the same callers and the same frames, when its locations and its
memory are. What a state does, a state above it does too (`step_mono`).
-/

namespace LateIR.Cfg

/-- Callers suspended at the same point with the same frame, one of which may
have more defined locations. -/
inductive Suspended.Below : Suspended → Suspended → Prop
  | intro {func : BlockId} {sp : Val} {locs locs' : LocState} {node : Node} {index : Nat}
      (framed : sp ≠ .undefined) (values : locs.Below locs') :
      Below ⟨func, sp, locs, node, index⟩ ⟨func, sp, locs', node, index⟩

/-- States that differ at most in how defined their locations and their memory
are. -/
inductive State.Below : State → State → Prop
  | running {stack stack' : CallStack} {func : BlockId} {sp : Val} {point : Point}
      {locs locs' : LocState} {mem mem' : Mem}
      (callers : List.Forall₂ Suspended.Below stack stack') (framed : sp ≠ .undefined)
      (values : locs.Below locs') (bytes : mem.Below mem') :
      Below (.running ⟨stack, func, sp⟩ point locs mem) (.running ⟨stack', func, sp⟩ point locs' mem')
  | calling {stack stack' : CallStack} {callee : BlockId} {locs locs' : LocState} {mem mem' : Mem}
      (callers : List.Forall₂ Suspended.Below stack stack') (values : locs.Below locs')
      (bytes : mem.Below mem') :
      Below (.calling stack callee locs mem) (.calling stack' callee locs' mem')
  | returned {stack stack' : CallStack} {locs locs' : LocState} {mem mem' : Mem}
      (callers : List.Forall₂ Suspended.Below stack stack') (values : locs.Below locs')
      (bytes : mem.Below mem') :
      Below (.returned stack locs mem) (.returned stack' locs' mem')

/-- The call of the service that a step from the state makes. -/
def serviceCall? (env : Env) : State → Option ExternalFunction
  | .running act (.inBlock n index) _ _ =>
      match instr? env act.func n index with
      | some (.builtin ef _ _) => some ef
      | _ => none
  | .calling _ callee _ _ => env.externalAt? callee
  | _ => none

variable {env : Env} {host : Host}

theorem callerLocs_mono {stack stack' : CallStack}
    (callers : List.Forall₂ Suspended.Below stack stack') :
    stack.callerLocs.Below stack'.callerLocs := by
  cases callers with
  | nil => exact .empty
  | cons first rest =>
      cases first with
      | intro framed values => exact values

theorem target?_mono {locs locs' : LocState} (values : locs.Below locs') {sig : Signature}
    {callee : Callee} {b : BlockId} (found : target? env locs sig callee = some b) :
    target? env locs' sig callee = some b := by
  unfold target? at found ⊢
  split at found
  · rename_i b' fd resolved
    rw [env.resolve?_mono values.regs resolved]
    exact found
  · cases found

theorem exec_mono {f : Function} {stack stack' : CallStack} {func : BlockId} {sp : Val}
    {node : Node} {index : Nat} {locs locs' : LocState} {mem mem' : Mem} {instr : Instr}
    {events : Trace} {s : State} (callers : List.Forall₂ Suspended.Below stack stack')
    (framed : sp ≠ .undefined) (values : locs.Below locs') (bytes : mem.Below mem')
    (only : ∀ ef args res, instr = .builtin ef args res → ef.onlyMemory)
    (ran : exec env host.calls f ⟨stack, func, sp⟩ node index locs mem instr = some (events, s)) :
    ∃ t, exec env host.calls f ⟨stack', func, sp⟩ node index locs' mem' instr = some (events, t) ∧
      s.Below t := by
  cases instr with
  | op o args dst =>
      obtain ⟨v, evaluated, ran⟩ := Option.bind_eq_some_iff.mp ran
      cases ran
      obtain ⟨w, evaluated', le⟩ :=
        o.eval?_mono_below bytes (RegFile.read_mono values.regs args) evaluated
      refine ⟨_, Option.bind_eq_some_iff.mpr ⟨w, evaluated', rfl⟩, ?_⟩
      exact .running callers framed ((values.clobber _).setReg dst le) bytes
  | load chunk addr args dst =>
      obtain ⟨a, evaluated, ran⟩ := Option.bind_eq_some_iff.mp ran
      obtain ⟨v, loaded, ran⟩ := Option.bind_eq_some_iff.mp ran
      cases ran
      obtain ⟨a', evaluated', same⟩ :=
        Addressing.eval?_mono (RegFile.read_mono values.regs args) evaluated
      obtain ⟨w, loaded', le⟩ := bytes.loadAt? same loaded
      refine ⟨_, Option.bind_eq_some_iff.mpr ⟨a', evaluated',
        Option.bind_eq_some_iff.mpr ⟨w, loaded', rfl⟩⟩, ?_⟩
      exact .running callers framed ((values.clobber _).setReg dst le) bytes
  | getStack kind ofs t dst =>
      obtain ⟨inRange, ran⟩ := Option.ite_none_right_eq_some.mp ran
      cases ran
      refine ⟨_, Option.ite_none_right_eq_some.mpr ⟨inRange, rfl⟩, ?_⟩
      exact .running callers framed
        ((values.clobber _).setReg dst (values.getSlot kind ofs t)) bytes
  | setStack src kind ofs t =>
      obtain ⟨inRange, ran⟩ := Option.ite_none_right_eq_some.mp ran
      cases ran
      refine ⟨_, Option.ite_none_right_eq_some.mpr ⟨inRange, rfl⟩, ?_⟩
      exact .running callers framed
        ((values.clobber _).setSlot inRange (values.regs src)) bytes
  | store chunk addr args src =>
      obtain ⟨a, evaluated, ran⟩ := Option.bind_eq_some_iff.mp ran
      obtain ⟨after, stored, ran⟩ := Option.bind_eq_some_iff.mp ran
      cases ran
      obtain ⟨a', evaluated', same⟩ :=
        Addressing.eval?_mono (RegFile.read_mono values.regs args) evaluated
      obtain ⟨after', stored', bytes'⟩ := bytes.storeAt? same (values.regs src) stored
      refine ⟨_, Option.bind_eq_some_iff.mpr ⟨a', evaluated',
        Option.bind_eq_some_iff.mpr ⟨after', stored', rfl⟩⟩, ?_⟩
      exact .running callers framed (values.clobber _) bytes'
  | call sig callee =>
      obtain ⟨b, found, ran⟩ := Option.bind_eq_some_iff.mp ran
      cases ran
      refine ⟨_, Option.bind_eq_some_iff.mpr ⟨b, target?_mono values found, rfl⟩, ?_⟩
      exact .calling (.cons (.intro framed values) callers) values bytes
  | tailCall sig callee =>
      obtain ⟨b, found, ran⟩ := Option.bind_eq_some_iff.mp ran
      obtain ⟨after, freed, ran⟩ := Option.bind_eq_some_iff.mp ran
      cases ran
      have values' := (callerLocs_mono callers).afterReturn values
      obtain ⟨after', freed', bytes'⟩ := bytes.freeFrame? freed
      refine ⟨_, Option.bind_eq_some_iff.mpr ⟨b, target?_mono values' found,
        Option.bind_eq_some_iff.mpr ⟨after', freed', rfl⟩⟩, ?_⟩
      exact .calling callers values' bytes'
  | builtin ef args res =>
      obtain ⟨vs, evaluated, ran⟩ := Option.bind_eq_some_iff.mp ran
      obtain ⟨out, called, ran⟩ := Option.bind_eq_some_iff.mp ran
      cases ran
      obtain ⟨ws, evaluated', les⟩ := BuiltinArg.evalList?_mono bytes values.get evaluated
      obtain ⟨result, after, called', le, bytes'⟩ :=
        Host.calls_mono (only ef args res rfl) bytes les called
      refine ⟨_, Option.bind_eq_some_iff.mpr ⟨ws, evaluated',
        Option.bind_eq_some_iff.mpr ⟨_, called', rfl⟩⟩, ?_⟩
      exact .running callers framed ((values.clobber _).setRegs (res.writes_mono le)) bytes'
  | branch target =>
      cases ran
      exact ⟨_, rfl, .running callers framed values bytes⟩
  | cond c args ifSo ifNot =>
      obtain ⟨b, decided, ran⟩ := Option.bind_eq_some_iff.mp ran
      cases ran
      have decided' := Condition.eval?_mono bytes (RegFile.read_mono values.regs args) decided
      refine ⟨_, Option.bind_eq_some_iff.mpr ⟨b, decided', rfl⟩, ?_⟩
      exact .running callers framed (values.clobber _) bytes
  | jumpTable r targets =>
      simp only [exec] at ran ⊢
      split at ran
      · rename_i n here
        obtain ⟨target, found, ran⟩ := Option.bind_eq_some_iff.mp ran
        cases ran
        rw [← (values.regs r).resolve_left (by simp [here]), here]
        refine ⟨_, Option.bind_eq_some_iff.mpr ⟨target, found, rfl⟩, ?_⟩
        exact .running callers framed (values.clobber _) bytes
      · cases ran
  | ret =>
      obtain ⟨after, freed, ran⟩ := Option.bind_eq_some_iff.mp ran
      cases ran
      obtain ⟨after', freed', bytes'⟩ := bytes.freeFrame? freed
      refine ⟨_, Option.bind_eq_some_iff.mpr ⟨after', freed', rfl⟩, ?_⟩
      exact .returned callers ((callerLocs_mono callers).afterReturn values) bytes'

/-- A step in which no host function and no annotation sees values is made, with
the same events, from every state above as well. -/
theorem step_mono {s t s' : State} {events : Trace} (below : s.Below t)
    (only : ∀ ef, serviceCall? env s = some ef → ef.onlyMemory)
    (stepped : step env host.calls s = some (events, s')) :
    ∃ t', step env host.calls t = some (events, t') ∧ s'.Below t' := by
  cases below with
  | @running stack stack' func sp point locs locs' mem mem' callers framed values bytes =>
      cases point with
      | atNode n =>
          obtain ⟨f, body, stepped⟩ := Option.bind_eq_some_iff.mp stepped
          obtain ⟨here, stepped⟩ := Option.ite_none_right_eq_some.mp stepped
          cases stepped
          refine ⟨_, Option.bind_eq_some_iff.mpr ⟨f, body,
            Option.ite_none_right_eq_some.mpr ⟨here, rfl⟩⟩, ?_⟩
          exact .running callers framed values bytes
      | inBlock n index =>
          obtain ⟨f, body, stepped⟩ := Option.bind_eq_some_iff.mp stepped
          obtain ⟨block, here, stepped⟩ := Option.bind_eq_some_iff.mp stepped
          obtain ⟨instr, at_, ran⟩ := Option.bind_eq_some_iff.mp stepped
          have only' : ∀ ef args res, instr = .builtin ef args res → ef.onlyMemory := by
            rintro ef args res rfl
            apply only
            have found : instr? env func n index = some (.builtin ef args res) := by
              simp [instr?, body, here, at_]
            simp only [serviceCall?, found]
          obtain ⟨t', ran', below'⟩ := exec_mono callers framed values bytes only' ran
          exact ⟨t', Option.bind_eq_some_iff.mpr ⟨f, body, Option.bind_eq_some_iff.mpr ⟨block, here,
            Option.bind_eq_some_iff.mpr ⟨instr, at_, ran'⟩⟩⟩, below'⟩
  | @calling stack stack' callee locs locs' mem mem' callers values bytes =>
      simp only [step] at stepped ⊢
      split at stepped
      · rename_i f body
        obtain ⟨⟨b, after⟩, allocated, stepped⟩ := Option.bind_eq_some_iff.mp stepped
        cases stepped
        obtain ⟨after', allocated', bytes'⟩ := bytes.alloc? allocated
        refine ⟨_, Option.bind_eq_some_iff.mpr ⟨_, allocated', rfl⟩, ?_⟩
        exact .running callers (by simp) (values.atCall.clobber _) bytes'
      · rename_i ef outside
        obtain ⟨out, called, stepped⟩ := Option.bind_eq_some_iff.mp stepped
        cases stepped
        have only' : ef.onlyMemory := only ef (env.externalAt?_eq_some_iff.mpr outside)
        obtain ⟨result, after', called', le, bytes'⟩ :=
          Host.calls_mono only' bytes (values.args ef.sig) called
        refine ⟨_, Option.bind_eq_some_iff.mpr ⟨_, called', rfl⟩, ?_⟩
        exact .returned callers (values.afterExternal ef.sig le) bytes'
      · cases stepped
  | @returned stack stack' locs locs' mem mem' callers values bytes =>
      cases callers with
      | nil => cases stepped
      | cons first rest =>
          cases first with
          | intro framed suspended =>
              cases stepped
              exact ⟨_, rfl, .running rest framed values bytes⟩

/-- What the outermost call has returned, a state above has returned too, at
least as defined. -/
theorem returned?_mono {s t : State} {v : Val} (below : s.Below t)
    (returned : returned? s = some v) : ∃ w, returned? t = some w ∧ v ≤ w := by
  cases below with
  | running | calling => cases returned
  | returned callers values bytes =>
      cases callers with
      | nil =>
          cases returned
          exact ⟨_, rfl, values.regs _⟩
      | cons first rest => cases returned

end LateIR.Cfg
