import LateIR.Proofs.Definedness.Calls
import LateIR.Proofs.Definedness.Evaluation
import LateIR.Proofs.Definedness.Location
import LateIR.Proofs.Frame.Transition

/-!
States of Frame-IR ordered by definedness, in the manner of those of Location-IR.
Stack pointers and return addresses are defined and the same in both states, so a
header that is intact in the lower memory is intact in the upper one
(`Mem.Below.loadStack?_eq`).
-/

namespace LateIR.Frame

/-- Whether every stack pointer and return address is defined. -/
structure CallStack.Framed (stack : CallStack) : Prop where
  entry : stack.entry.sp ≠ .undefined ∧ stack.entry.ra ≠ .undefined
  callers : ∀ caller ∈ stack.callers, caller.sp ≠ .undefined ∧ caller.ra ≠ .undefined

/-- States that differ at most in how defined their registers and their memory
are. -/
inductive State.Below : State → State → Prop
  | running {stack : CallStack} {func : BlockId} {sp : Val} {pc : Nat} {regs regs' : RegFile}
      {mem mem' : Mem} (callers : stack.Framed) (framed : sp ≠ .undefined) (values : regs ≤ regs')
      (bytes : mem.Below mem') :
      Below (.running ⟨stack, func, sp⟩ pc regs mem) (.running ⟨stack, func, sp⟩ pc regs' mem')
  | calling {stack : CallStack} {callee : BlockId} {regs regs' : RegFile} {mem mem' : Mem}
      (callers : stack.Framed) (values : regs ≤ regs') (bytes : mem.Below mem') :
      Below (.calling stack callee regs mem) (.calling stack callee regs' mem')
  | returned {stack : CallStack} {regs regs' : RegFile} {mem mem' : Mem}
      (callers : stack.Framed) (values : regs ≤ regs') (bytes : mem.Below mem') :
      Below (.returned stack regs mem) (.returned stack regs' mem')

/-- The call of the service that a step from the state makes. -/
def serviceCall? (env : Env) : State → Option ExternalFunction
  | .running act pc _ _ =>
      match instr? env act.func pc with
      | some (.builtin ef _ _) => some ef
      | _ => none
  | .calling _ callee _ _ => env.externalAt? callee
  | _ => none

variable {env : Env} {host : Host} {choose : ReturnAddresses}

namespace CallStack.Framed

variable {stack : CallStack}

theorem callerSp (framed : stack.Framed) : stack.callerSp ≠ .undefined := by
  obtain ⟨callers, entry⟩ := stack
  cases callers with
  | nil => exact framed.entry.1
  | cons caller rest => exact (framed.callers caller List.mem_cons_self).1

theorem callerRa (framed : stack.Framed) : stack.callerRa ≠ .undefined := by
  obtain ⟨callers, entry⟩ := stack
  cases callers with
  | nil => exact framed.entry.2
  | cons caller rest => exact (framed.callers caller List.mem_cons_self).2

theorem push (framed : stack.Framed) {caller : Suspended}
    (here : caller.sp ≠ .undefined ∧ caller.ra ≠ .undefined) : (stack.push caller).Framed where
  entry := framed.entry
  callers outer mem := by
    rcases List.mem_cons.mp mem with rfl | mem
    · exact here
    · exact framed.callers outer mem

theorem pop {caller : Suspended} {callers : List Suspended} {entry : EntryFrame}
    (framed : CallStack.Framed ⟨caller :: callers, entry⟩) :
    caller.sp ≠ .undefined ∧ CallStack.Framed ⟨callers, entry⟩ :=
  ⟨(framed.callers caller List.mem_cons_self).1, framed.entry,
    fun outer mem => framed.callers outer (List.mem_cons_of_mem _ mem)⟩

end CallStack.Framed

/-! ### Frames -/

section

variable {f : Function} {stack : CallStack} {sp : Val} {mem mem' after : Mem}

theorem writeHeader?_mono (bytes : mem.Below mem')
    (written : writeHeader? f stack sp mem = some after) :
    ∃ after', writeHeader? f stack sp mem' = some after' ∧ after.Below after' := by
  obtain ⟨mid, atLink, atRa⟩ := Option.bind_eq_some_iff.mp written
  obtain ⟨mid', atLink', between⟩ := bytes.storeStack? (Val.le_refl _) atLink
  obtain ⟨after', atRa', bytes'⟩ := between.storeStack? (Val.le_refl _) atRa
  exact ⟨after', Option.bind_eq_some_iff.mpr ⟨mid', atLink', atRa'⟩, bytes'⟩

/-- A frame that can be released can be released from a more defined memory. -/
theorem release?_mono (callers : stack.Framed) (bytes : mem.Below mem')
    (released : release? f stack sp mem = some after) :
    ∃ after', release? f stack sp mem' = some after' ∧ after.Below after' := by
  obtain ⟨⟨atLink, atRa⟩, freed⟩ := release?_eq_some_iff.mp released
  obtain ⟨after', freed', bytes'⟩ := bytes.freeFrame? freed
  have atLink' := bytes.loadStack?_eq callers.callerSp atLink
  have atRa' := bytes.loadStack?_eq callers.callerRa atRa
  exact ⟨after', release?_eq_some_iff.mpr ⟨⟨atLink', atRa'⟩, freed'⟩, bytes'⟩

theorem param?_mono (callers : stack.Framed) (bytes : mem.Below mem') {t : Typ} {ofs : Int64}
    {v : Val} (read : param? f stack sp mem t ofs = some v) :
    ∃ w, param? f stack sp mem' t ofs = some w ∧ v ≤ w := by
  obtain ⟨link, atLink, read⟩ := Option.bind_eq_some_iff.mp read
  obtain ⟨rfl, loaded⟩ := Option.ite_none_right_eq_some.mp read
  have atLink' := bytes.loadStack?_eq callers.callerSp atLink
  obtain ⟨w, loaded', le⟩ := bytes.loadStack? loaded
  refine ⟨w, Option.bind_eq_some_iff.mpr ⟨_, atLink', ?_⟩, le⟩
  exact Option.ite_none_right_eq_some.mpr ⟨rfl, loaded'⟩

theorem frameArgs?_mono {regs regs' : RegFile} (values : regs ≤ regs') (bytes : mem.Below mem')
    {s : Signature} {vs : List Val} (read : frameArgs? regs mem sp s = some vs) :
    ∃ ws, frameArgs? regs' mem' sp s = some ws ∧ List.Forall₂ (· ≤ ·) vs ws := by
  apply mapM_mono _ read
  intro l v read
  cases l with
  | reg r =>
      cases read
      exact ⟨_, rfl, values r⟩
  | slot kind ofs t =>
      cases kind with
      | outgoing => exact bytes.loadStack? read
      | spill | incoming => cases read

end

/-! ### Steps -/

theorem target?_mono {regs regs' : RegFile} (values : regs ≤ regs') {callee : Callee} {b : BlockId}
    (found : target? env regs callee = some b) : target? env regs' callee = some b := by
  obtain ⟨known, resolved, rfl⟩ := Option.map_eq_some_iff.mp found
  rw [target?, env.resolve?_mono values resolved, Option.map_some]

theorem exec_mono {f : Function} {stack : CallStack} {func : BlockId} {sp : Val} {pc : Nat}
    {regs regs' : RegFile} {mem mem' : Mem} {instr : Instr} {events : Trace} {s : State}
    (callers : stack.Framed) (framed : sp ≠ .undefined) (values : regs ≤ regs')
    (bytes : mem.Below mem') (only : ∀ ef args res, instr = .builtin ef args res → ef.onlyMemory)
    (ran : exec env host.calls choose f ⟨stack, func, sp⟩ pc regs mem instr = some (events, s)) :
    ∃ t, exec env host.calls choose f ⟨stack, func, sp⟩ pc regs' mem' instr = some (events, t) ∧
      s.Below t := by
  cases instr with
  | getStack ofs t dst =>
      obtain ⟨v, loaded, ran⟩ := Option.bind_eq_some_iff.mp ran
      cases ran
      obtain ⟨w, loaded', le⟩ := bytes.loadStack? loaded
      refine ⟨_, Option.bind_eq_some_iff.mpr ⟨w, loaded', rfl⟩, ?_⟩
      exact .running callers framed (RegFile.set_mono values dst le) bytes
  | setStack src ofs t =>
      obtain ⟨after, stored, ran⟩ := Option.bind_eq_some_iff.mp ran
      cases ran
      obtain ⟨after', stored', bytes'⟩ := bytes.storeStack? (values src) stored
      refine ⟨_, Option.bind_eq_some_iff.mpr ⟨after', stored', rfl⟩, ?_⟩
      exact .running callers framed (RegFile.clobber_mono values _) bytes'
  | getParam ofs t dst =>
      obtain ⟨v, read, ran⟩ := Option.bind_eq_some_iff.mp ran
      cases ran
      obtain ⟨w, read', le⟩ := param?_mono callers bytes read
      refine ⟨_, Option.bind_eq_some_iff.mpr ⟨w, read', rfl⟩, ?_⟩
      exact .running callers framed
        (RegFile.set_mono (RegFile.clobber_mono values _) dst le) bytes
  | op o args dst =>
      obtain ⟨v, evaluated, ran⟩ := Option.bind_eq_some_iff.mp ran
      cases ran
      obtain ⟨w, evaluated', le⟩ :=
        o.eval?_mono_below bytes (RegFile.read_mono values args) evaluated
      refine ⟨_, Option.bind_eq_some_iff.mpr ⟨w, evaluated', rfl⟩, ?_⟩
      exact .running callers framed
        (RegFile.set_mono (RegFile.clobber_mono values _) dst le) bytes
  | load chunk addr args dst =>
      obtain ⟨a, evaluated, ran⟩ := Option.bind_eq_some_iff.mp ran
      obtain ⟨v, loaded, ran⟩ := Option.bind_eq_some_iff.mp ran
      cases ran
      obtain ⟨a', evaluated', same⟩ :=
        Addressing.eval?_mono (RegFile.read_mono values args) evaluated
      obtain ⟨w, loaded', le⟩ := bytes.loadAt? same loaded
      refine ⟨_, Option.bind_eq_some_iff.mpr ⟨a', evaluated',
        Option.bind_eq_some_iff.mpr ⟨w, loaded', rfl⟩⟩, ?_⟩
      exact .running callers framed
        (RegFile.set_mono (RegFile.clobber_mono values _) dst le) bytes
  | store chunk addr args src =>
      obtain ⟨a, evaluated, ran⟩ := Option.bind_eq_some_iff.mp ran
      obtain ⟨after, stored, ran⟩ := Option.bind_eq_some_iff.mp ran
      cases ran
      obtain ⟨a', evaluated', same⟩ :=
        Addressing.eval?_mono (RegFile.read_mono values args) evaluated
      obtain ⟨after', stored', bytes'⟩ := bytes.storeAt? same (values src) stored
      refine ⟨_, Option.bind_eq_some_iff.mpr ⟨a', evaluated',
        Option.bind_eq_some_iff.mpr ⟨after', stored', rfl⟩⟩, ?_⟩
      exact .running callers framed (RegFile.clobber_mono values _) bytes'
  | call sig callee =>
      obtain ⟨b, found, ran⟩ := Option.bind_eq_some_iff.mp ran
      obtain ⟨ra, chosen, ran⟩ := Option.bind_eq_some_iff.mp ran
      cases ran
      refine ⟨_, Option.bind_eq_some_iff.mpr ⟨b, target?_mono values found,
        Option.bind_eq_some_iff.mpr ⟨ra, chosen, rfl⟩⟩, ?_⟩
      exact .calling (callers.push ⟨framed, by simp⟩) values bytes
  | tailCall sig callee =>
      obtain ⟨b, found, ran⟩ := Option.bind_eq_some_iff.mp ran
      obtain ⟨after, released, ran⟩ := Option.bind_eq_some_iff.mp ran
      cases ran
      obtain ⟨after', released', bytes'⟩ := release?_mono callers bytes released
      refine ⟨_, Option.bind_eq_some_iff.mpr ⟨b, target?_mono values found,
        Option.bind_eq_some_iff.mpr ⟨after', released', rfl⟩⟩, ?_⟩
      exact .calling callers values bytes'
  | builtin ef args res =>
      obtain ⟨vs, evaluated, ran⟩ := Option.bind_eq_some_iff.mp ran
      obtain ⟨out, called, ran⟩ := Option.bind_eq_some_iff.mp ran
      cases ran
      obtain ⟨ws, evaluated', les⟩ := BuiltinArg.evalList?_mono bytes values evaluated
      obtain ⟨result, after, called', le, bytes'⟩ :=
        Host.calls_mono (only ef args res rfl) bytes les called
      refine ⟨_, Option.bind_eq_some_iff.mpr ⟨ws, evaluated',
        Option.bind_eq_some_iff.mpr ⟨_, called', rfl⟩⟩, ?_⟩
      exact .running callers framed
        (RegFile.setAll_mono (RegFile.clobber_mono values _) (res.writes_mono le)) bytes'
  | label l =>
      cases ran
      exact ⟨_, rfl, .running callers framed values bytes⟩
  | goto l =>
      obtain ⟨target, found, ran⟩ := Option.bind_eq_some_iff.mp ran
      cases ran
      refine ⟨_, Option.bind_eq_some_iff.mpr ⟨target, found, rfl⟩, ?_⟩
      exact .running callers framed values bytes
  | cond c args l =>
      obtain ⟨b, decided, ran⟩ := Option.bind_eq_some_iff.mp ran
      have decided' := Condition.eval?_mono bytes (RegFile.read_mono values args) decided
      cases b with
      | true =>
          obtain ⟨target, found, ran⟩ := Option.bind_eq_some_iff.mp ran
          cases ran
          refine ⟨_, Option.bind_eq_some_iff.mpr ⟨true, decided',
            Option.bind_eq_some_iff.mpr ⟨target, found, rfl⟩⟩, ?_⟩
          exact .running callers framed (RegFile.clobber_mono values _) bytes
      | false =>
          cases ran
          refine ⟨_, Option.bind_eq_some_iff.mpr ⟨false, decided', rfl⟩, ?_⟩
          exact .running callers framed (RegFile.clobber_mono values _) bytes
  | jumpTable r labels =>
      simp only [exec] at ran ⊢
      split at ran
      · rename_i n here
        obtain ⟨l, entry, ran⟩ := Option.bind_eq_some_iff.mp ran
        obtain ⟨target, found, ran⟩ := Option.bind_eq_some_iff.mp ran
        cases ran
        rw [← (values r).resolve_left (by simp [here]), here]
        refine ⟨_, Option.bind_eq_some_iff.mpr ⟨l, entry,
          Option.bind_eq_some_iff.mpr ⟨target, found, rfl⟩⟩, ?_⟩
        exact .running callers framed (RegFile.clobber_mono values _) bytes
      · cases ran
  | ret =>
      obtain ⟨after, released, ran⟩ := Option.bind_eq_some_iff.mp ran
      cases ran
      obtain ⟨after', released', bytes'⟩ := release?_mono callers bytes released
      refine ⟨_, Option.bind_eq_some_iff.mpr ⟨after', released', rfl⟩, ?_⟩
      exact .returned callers values bytes'

/-- A step in which no host function and no annotation sees values is made, with
the same events, from every state above as well. -/
theorem step_mono {s t s' : State} {events : Trace} (below : s.Below t)
    (only : ∀ ef, serviceCall? env s = some ef → ef.onlyMemory)
    (stepped : step env host.calls choose s = some (events, s')) :
    ∃ t', step env host.calls choose t = some (events, t') ∧ s'.Below t' := by
  cases below with
  | @running stack func sp pc regs regs' mem mem' callers framed values bytes =>
      obtain ⟨f, body, stepped⟩ := Option.bind_eq_some_iff.mp stepped
      obtain ⟨instr, here, ran⟩ := Option.bind_eq_some_iff.mp stepped
      have only' : ∀ ef args res, instr = .builtin ef args res → ef.onlyMemory := by
        rintro ef args res rfl
        apply only
        have found : instr? env func pc = some (.builtin ef args res) := by
          simp [instr?, body, here]
        simp only [serviceCall?, found]
      obtain ⟨t', ran', below'⟩ := exec_mono callers framed values bytes only' ran
      exact ⟨t', Option.bind_eq_some_iff.mpr ⟨f, body,
        Option.bind_eq_some_iff.mpr ⟨instr, here, ran'⟩⟩, below'⟩
  | @calling stack callee regs regs' mem mem' callers values bytes =>
      simp only [step] at stepped ⊢
      split at stepped
      · rename_i f body
        obtain ⟨⟨b, mid⟩, allocated, stepped⟩ := Option.bind_eq_some_iff.mp stepped
        obtain ⟨after, written, stepped⟩ := Option.bind_eq_some_iff.mp stepped
        cases stepped
        obtain ⟨mid', allocated', between⟩ := bytes.alloc? allocated
        obtain ⟨after', written', bytes'⟩ := writeHeader?_mono between written
        refine ⟨_, Option.bind_eq_some_iff.mpr ⟨_, allocated',
          Option.bind_eq_some_iff.mpr ⟨after', written', rfl⟩⟩, ?_⟩
        exact .running callers (by simp) (RegFile.clobber_mono values _) bytes'
      · rename_i ef outside
        obtain ⟨vs, read, stepped⟩ := Option.bind_eq_some_iff.mp stepped
        obtain ⟨out, called, stepped⟩ := Option.bind_eq_some_iff.mp stepped
        cases stepped
        have only' : ef.onlyMemory := only ef (env.externalAt?_eq_some_iff.mpr outside)
        obtain ⟨ws, read', les⟩ := frameArgs?_mono values bytes read
        obtain ⟨result, after', called', le, bytes'⟩ := Host.calls_mono only' bytes les called
        refine ⟨_, Option.bind_eq_some_iff.mpr ⟨ws, read',
          Option.bind_eq_some_iff.mpr ⟨_, called', rfl⟩⟩, ?_⟩
        exact .returned callers (RegFile.afterExternal_mono values ef.sig le) bytes'
      · cases stepped
  | @returned stack regs regs' mem mem' callers values bytes =>
      obtain ⟨frames, entry⟩ := stack
      cases frames with
      | nil => cases stepped
      | cons caller rest =>
          cases stepped
          obtain ⟨framed, outer⟩ := callers.pop
          exact ⟨_, rfl, .running outer framed values bytes⟩

/-- What the outermost call has returned, a state above has returned too, at
least as defined. -/
theorem returned?_mono {s t : State} {v : Val} (below : s.Below t)
    (returned : returned? s = some v) : ∃ w, returned? t = some w ∧ v ≤ w := by
  cases below with
  | running | calling => cases returned
  | @returned stack regs regs' mem mem' callers values bytes =>
      obtain ⟨frames, entry⟩ := stack
      cases frames with
      | nil =>
          cases returned
          exact ⟨_, rfl, values _⟩
      | cons caller rest => cases returned

end LateIR.Frame
