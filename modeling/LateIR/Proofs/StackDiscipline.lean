import LateIR.Proofs.Cfg.Transition
import LateIR.Proofs.Frame.Entry
import LateIR.Proofs.Frame.Transition
import LateIR.Proofs.Memory.Frames
import LateIR.Proofs.Program.InitialMemory
import LateIR.Proofs.Run.Steps

/-!
The call stack and memory agree. In every state of a run with the host's call
service, each function that runs or is suspended has a live block of its own with
the bounds of its frame, and no other block that the run allocated starts where
frames do (`stack_discipline`). So frames can always be freed, one leaves memory
with each function that is left, and the host frees none.
-/

namespace LateIR

open Mem (FramesAt KeepsFrames)

/-! ### Location-IR -/

namespace Cfg

variable (env : Env)

/-- The frame size of each function with a body. -/
def frameSize? (b : BlockId) : Option Int := (env.internalAt? b).map (·.stackSize)

def Suspended.frame (caller : Suspended) : BlockId × Val := (caller.func, caller.sp)

/-- The functions that have frames, with their stack pointers, the innermost
first. -/
def State.frames : State → List (BlockId × Val)
  | .running act .. => (act.func, act.sp) :: act.stack.map Suspended.frame
  | .calling stack .. | .returned stack .. => stack.map Suspended.frame

/-- Whether frames and blocks agree in a state of a run that began with the
memory `before`. -/
def OwnsFrames (before : Mem) (s : State) : Prop :=
  ∃ blocks, FramesAt (frameSize? env) before [] s.frames blocks s.mem

/-- What a state of a run that began with the memory `before` owes to its frames. -/
structure Disciplined (host : Host) (before : Mem) (s : State) : Prop where
  owned : OwnsFrames env before s
  count : (s.mem.framesFrom before.nextBlock).length = s.frames.length
  /-- The frame of the running function can be freed. -/
  frees : ∀ act point locs mem f, s = .running act point locs mem →
    env.internalAt? act.func = some f → (mem.freeFrame? act.sp f.stackSize).isSome
  /-- A tail call gives its frame up before the callee gets one. -/
  tailCall : ∀ act n index locs mem sig callee events t,
    s = .running act (.inBlock n index) locs mem →
    instr? env act.func n index = some (.tailCall sig callee) →
    step env host.calls s = some (events, t) →
    t.stack = s.stack ∧
      t.mem.framesFrom before.nextBlock = (s.mem.framesFrom before.nextBlock).dropLast
  /-- The host frees no frame, and nothing else that starts at offset zero. -/
  hostFree : ∀ args out b hi, host.calls .free args s.mem = some out →
    s.mem.liveBounds? b = some (0, hi) → out.mem.liveBounds? b = some (0, hi)
  /-- Globals stay, also when the host frees. -/
  globals : env.program.initMem = .ok before → ∀ b, (env.globalAt? b).isSome →
    ∃ hi, s.mem.liveBounds? b = some (0, hi)
  /-- Once the outermost call has returned, no frame is left. -/
  ended : ∀ locs mem, s = .returned [] locs mem → mem.framesFrom before.nextBlock = []

variable {env : Env} {host : Host} {before : Mem}

theorem frameSize?_of_functionAt? {b : BlockId} {f : Function}
    (body : env.functionAt? b = some (.internal f)) : frameSize? env b = some f.stackSize := by
  rw [frameSize?, env.internalAt?_eq_some_iff.mpr body, Option.map_some]

theorem OwnsFrames.enter {pointer : Val} {args : List Val} {s : State}
    (entered : enter env before pointer args = .ok s) : OwnsFrames env before s := by
  obtain ⟨callee, -, entered⟩ := bind_eq_ok_iff.mp entered
  obtain ⟨locs, -, same⟩ := bind_eq_ok_iff.mp entered
  cases same
  exact ⟨[], .start _ _⟩

theorem OwnsFrames.step {s t : State} (own : OwnsFrames env before s)
    (transition : Transition env host.calls s t) : OwnsFrames env before t := by
  obtain ⟨blocks, own⟩ := own
  cases transition with
  | go body inside effect => exact ⟨blocks, own.keep effect.keepsFrames⟩
  | call instr known => exact ⟨blocks, own⟩
  | tailCall body known freed =>
      obtain ⟨b, rest, -, outer⟩ := own.pop freed
      exact ⟨rest, outer⟩
  | ret body freed =>
      obtain ⟨b, rest, -, outer⟩ := own.pop freed
      exact ⟨rest, outer⟩
  | enter body allocated => exact ⟨_, own.push (frameSize?_of_functionAt? body) allocated⟩
  | external outside called => exact ⟨blocks, own.keep (Host.keepsFrames_calls called)⟩
  | resume => exact ⟨blocks, own⟩

theorem OwnsFrames.disciplined {s : State} (own : OwnsFrames env before s) :
    Disciplined env host before s := by
  obtain ⟨blocks, own⟩ := own
  refine ⟨⟨blocks, own⟩, own.length_framesFrom, ?_, ?_, ?_, ?_, ?_⟩
  · rintro act point locs mem f rfl body
    refine own.freeFrame?_isSome ?_
    rw [frameSize?, body, Option.map_some]
  · rintro act n index locs mem sig callee events t rfl instr stepped
    obtain ⟨f, body, found⟩ := Option.bind_eq_some_iff.mp instr
    obtain ⟨block, here, found⟩ := Option.bind_eq_some_iff.mp found
    simp only [Cfg.step, body, here, found, Option.bind_eq_bind, Option.bind_some] at stepped
    obtain ⟨b, -, stepped⟩ := Option.bind_eq_some_iff.mp stepped
    obtain ⟨mem', freed, stepped⟩ := Option.bind_eq_some_iff.mp stepped
    cases stepped
    exact ⟨rfl, own.framesFrom_pop freed⟩
  · intro args out b hi called live
    exact ((Host.keepsFrames_calls called).same b hi).mpr live
  · intro started b known
    obtain ⟨old, hi, live⟩ := GlobalEnv.live_of_initMem started known
    exact ⟨hi, own.older b hi old live⟩
  · rintro locs mem rfl
    exact List.eq_nil_of_length_eq_zero own.length_framesFrom

theorem OwnsFrames.reachable {pointer : Val} {args : List Val} {s t : State}
    (entered : Cfg.enter env before pointer args = .ok s)
    (reach : (semantics env host.calls).Reachable s t) : OwnsFrames env before t := by
  have kept : (semantics env host.calls).Preserved (OwnsFrames env before) := by
    intro s events t own stepped
    exact own.step (transition_of_step stepped)
  exact kept.reachable (.enter entered) reach

end Cfg

/-! ### Frame-IR -/

namespace Frame

variable (env : Env)

/-- The frame size of each function with a body. -/
def frameSize? (b : BlockId) : Option Int := (env.internalAt? b).map (·.stackSize)

def Suspended.frame (caller : Suspended) : BlockId × Val := (caller.func, caller.sp)

/-- The functions that have frames, with their stack pointers, the innermost
first. The outermost caller is not a function. -/
def State.frames : State → List (BlockId × Val)
  | .running act .. => (act.func, act.sp) :: act.stack.callers.map Suspended.frame
  | .calling stack .. | .returned stack .. => stack.callers.map Suspended.frame

/-- Whether frames and blocks agree in a state of a run that began with the
memory `before`. The outermost caller has the first block of the run. -/
def OwnsFrames (before : Mem) (s : State) : Prop :=
  ∃ blocks, FramesAt (frameSize? env) before [before.nextBlock] s.frames blocks s.mem

/-- What a state of a run that began with the memory `before` owes to its frames. -/
structure Disciplined (choose : ReturnAddresses) (host : Host) (before : Mem) (s : State) :
    Prop where
  owned : OwnsFrames env before s
  count : (s.mem.framesFrom before.nextBlock).length = s.frames.length + 1
  /-- The frame of the running function can be freed if its header is intact. -/
  frees : ∀ act pc regs mem f, s = .running act pc regs mem →
    env.internalAt? act.func = some f →
    ((release? f act.stack act.sp mem).isSome ↔
      mem.loadStack? act.sp .pointer f.linkOfs = some act.stack.callerSp ∧
        mem.loadStack? act.sp .pointer f.retAddrOfs = some act.stack.callerRa)
  /-- A tail call gives its frame up before the callee gets one. -/
  tailCall : ∀ act pc regs mem sig callee events t, s = .running act pc regs mem →
    instr? env act.func pc = some (.tailCall sig callee) →
    step env host.calls choose s = some (events, t) →
    t.stack = s.stack ∧
      t.mem.framesFrom before.nextBlock = (s.mem.framesFrom before.nextBlock).dropLast
  /-- The host frees no frame, and nothing else that starts at offset zero. -/
  hostFree : ∀ args out b hi, host.calls .free args s.mem = some out →
    s.mem.liveBounds? b = some (0, hi) → out.mem.liveBounds? b = some (0, hi)
  /-- Globals stay, also when the host frees. -/
  globals : env.program.initMem = .ok before → ∀ b, (env.globalAt? b).isSome →
    ∃ hi, s.mem.liveBounds? b = some (0, hi)
  /-- Once the outermost call has returned, only the outermost caller's is left. -/
  ended : ∀ entry regs mem, s = .returned ⟨[], entry⟩ regs mem →
    mem.framesFrom before.nextBlock = [before.nextBlock]

variable {env : Env} {choose : ReturnAddresses} {host : Host} {before : Mem}

theorem frameSize?_of_functionAt? {b : BlockId} {f : Function}
    (body : env.functionAt? b = some (.internal f)) : frameSize? env b = some f.stackSize := by
  rw [frameSize?, env.internalAt?_eq_some_iff.mpr body, Option.map_some]

theorem keepsFrames_writeHeader? {f : Function} {stack : CallStack} {sp : Val} {mem mem' : Mem}
    (written : writeHeader? f stack sp mem = some mem') : KeepsFrames mem mem' := by
  obtain ⟨mid, atLink, atRa⟩ := Option.bind_eq_some_iff.mp written
  exact (KeepsFrames.of_storeAt? atLink).trans (.of_storeAt? atRa)

theorem OwnsFrames.enter {pointer : Val} {args : List Val} {s : State}
    (entered : enter env before pointer args = .ok s) : OwnsFrames env before s := by
  obtain ⟨_, _, b, _, _, _, _, -, allocated, done, written, rfl⟩ := enter_eq_ok_iff.mp entered
  obtain ⟨rfl, -⟩ := Mem.nextBlock_alloc? allocated
  have kept := (keepsFrames_placeArgs done).trans (keepsFrames_writeEntryHeader written)
  exact ⟨[], (FramesAt.start_alloc? _ allocated).keep kept⟩

theorem OwnsFrames.step {s t : State} (own : OwnsFrames env before s)
    (transition : Transition env host.calls choose s t) : OwnsFrames env before t := by
  obtain ⟨blocks, own⟩ := own
  cases transition with
  | go body inside effect => exact ⟨blocks, own.keep effect.keepsFrames⟩
  | call body instr known chosen => exact ⟨blocks, own⟩
  | tailCall body known released =>
      obtain ⟨b, rest, -, outer⟩ := own.pop (release?_eq_some_iff.mp released).2
      exact ⟨rest, outer⟩
  | ret body released =>
      obtain ⟨b, rest, -, outer⟩ := own.pop (release?_eq_some_iff.mp released).2
      exact ⟨rest, outer⟩
  | enter body allocated written =>
      have inner := own.push (frameSize?_of_functionAt? body) allocated
      exact ⟨_, inner.keep (keepsFrames_writeHeader? written)⟩
  | external outside called => exact ⟨blocks, own.keep (Host.keepsFrames_calls called)⟩
  | resume => exact ⟨blocks, own⟩

theorem OwnsFrames.disciplined {s : State} (own : OwnsFrames env before s) :
    Disciplined env choose host before s := by
  obtain ⟨blocks, own⟩ := own
  refine ⟨⟨blocks, own⟩, own.length_framesFrom, ?_, ?_, ?_, ?_, ?_⟩
  · rintro act pc regs mem f rfl body
    have sized : frameSize? env act.func = some f.stackSize := by
      rw [frameSize?, body, Option.map_some]
    obtain ⟨mem', freed⟩ := Option.isSome_iff_exists.mp (own.freeFrame?_isSome sized)
    rw [Option.isSome_iff_exists]
    constructor
    · rintro ⟨mem'', released⟩
      exact (release?_eq_some_iff.mp released).1
    · intro intact
      exact ⟨mem', release?_eq_some_iff.mpr ⟨intact, freed⟩⟩
  · rintro act pc regs mem sig callee events t rfl instr stepped
    obtain ⟨f, body, found⟩ := Option.bind_eq_some_iff.mp instr
    simp only [Frame.step, body, found, Option.bind_eq_bind, Option.bind_some] at stepped
    obtain ⟨b, -, stepped⟩ := Option.bind_eq_some_iff.mp stepped
    obtain ⟨mem', released, stepped⟩ := Option.bind_eq_some_iff.mp stepped
    cases stepped
    exact ⟨rfl, own.framesFrom_pop (release?_eq_some_iff.mp released).2⟩
  · intro args out b hi called live
    exact ((Host.keepsFrames_calls called).same b hi).mpr live
  · intro started b known
    obtain ⟨old, hi, live⟩ := GlobalEnv.live_of_initMem started known
    exact ⟨hi, own.older b hi old live⟩
  · rintro entry regs mem rfl
    have none : blocks = [] := List.eq_nil_of_length_eq_zero own.owned.length_eq
    have left := own.framesFrom_eq
    rw [none] at left
    exact left

theorem OwnsFrames.reachable {pointer : Val} {args : List Val} {s t : State}
    (entered : Frame.enter env before pointer args = .ok s)
    (reach : (semantics env choose host.calls).Reachable s t) : OwnsFrames env before t := by
  have kept : (semantics env choose host.calls).Preserved (OwnsFrames env before) := by
    intro s events t own stepped
    exact own.step (transition_of_step stepped)
  exact kept.reachable (.enter entered) reach

end Frame

/-! ### Both -/

/-- Every state that a run with the host's call service reaches from its entry
agrees with memory about its frames. -/
theorem stack_discipline (host : Host) :
    (∀ (env : Cfg.Env) (before : Mem) (pointer : Val) (args : List Val) (s t : Cfg.State),
      Cfg.enter env before pointer args = .ok s →
      (Cfg.semantics env host.calls).Reachable s t →
      Cfg.Disciplined env host before t) ∧
    ∀ (env : Frame.Env) (choose : Frame.ReturnAddresses) (before : Mem) (pointer : Val)
      (args : List Val) (s t : Frame.State),
      Frame.enter env before pointer args = .ok s →
      (Frame.semantics env choose host.calls).Reachable s t →
      Frame.Disciplined env choose host before t := by
  constructor
  · intro env before pointer args s t entered reach
    exact (Cfg.OwnsFrames.reachable entered reach).disciplined
  · intro env choose before pointer args s t entered reach
    exact (Frame.OwnsFrames.reachable entered reach).disciplined

/-! A caller whose callee goes on to a leaf by a tail call. Two frames are live in
the leaf. -/

def Cfg.chain : Cfg.Env where
  program :=
    { defs :=
        [("leaf", .function (.internal ⟨.main, 8, [(1, #[.ret])], 1⟩)),
          ("via", .function (.internal ⟨.main, 16, [(1, #[.tailCall .main (.symbol "leaf")])], 1⟩)),
          ("main", .function (.internal
            ⟨.main, 0, [(1, #[.call .main (.symbol "via"), .ret])], 1⟩))]
      main := "main" }
  distinct := by decide

def Frame.chain : Frame.Env where
  program :=
    { defs :=
        [("leaf", .function (.internal ⟨.main, #[.ret], 16, 0, 8⟩)),
          ("via", .function (.internal ⟨.main, #[.tailCall .main (.symbol "leaf")], 16, 0, 8⟩)),
          ("main", .function (.internal ⟨.main, #[.call .main (.symbol "via"), .ret], 16, 0, 8⟩))]
      main := "main" }
  distinct := by decide

/-- One byte of code for each function. -/
def chainMem : Mem := ⟨.replicate 3 (.live 0 #[.undefined])⟩

def Cfg.chainStart : Cfg.State := .calling [] 3 .empty chainMem

/-- The outermost caller has a null header. -/
def Frame.chainStart : Frame.State :=
  .calling ⟨[], ⟨.ptr 4 0, .null⟩⟩ 3 .empty
    ⟨chainMem.blocks.push (.live 0 (.replicate 16 (.byte 0)))⟩

theorem stack_discipline_chain :
    (∃ t, Cfg.enter Cfg.chain chainMem (.ptr 3 0) [] = .ok Cfg.chainStart ∧
      (Cfg.semantics Cfg.chain (Host.calls fun _ => none)).Reachable Cfg.chainStart t ∧
      t.frames.length = 2 ∧ (t.mem.framesFrom chainMem.nextBlock).length = 2) ∧
    ∃ t, Frame.enter Frame.chain chainMem (.ptr 3 0) [] = .ok Frame.chainStart ∧
      (Frame.semantics Frame.chain .position (Host.calls fun _ => none)).Reachable
        Frame.chainStart t ∧
      t.frames.length = 2 ∧ (t.mem.framesFrom chainMem.nextBlock).length = 3 := by
  obtain ⟨inLocations, inFrames⟩ := stack_discipline fun _ => none
  constructor
  · have entered : Cfg.enter Cfg.chain chainMem (.ptr 3 0) [] = .ok Cfg.chainStart := by
      decide +kernel
    obtain ⟨⟨trace, t⟩, run⟩ := Option.isSome_iff_exists.mp
      (by decide +kernel : ((Cfg.semantics Cfg.chain (Host.calls fun _ => none)).steps? 7
        Cfg.chainStart).isSome)
    have inLeaf : ((Cfg.semantics Cfg.chain (Host.calls fun _ => none)).steps? 7
        Cfg.chainStart).all fun u => u.2.frames.length = 2 := by decide +kernel
    rw [run] at inLeaf
    have two : t.frames.length = 2 := of_decide_eq_true inLeaf
    have counted := (inLocations _ _ _ _ _ t entered ⟨7, trace, run⟩).count
    exact ⟨t, entered, ⟨7, trace, run⟩, two, counted.trans two⟩
  · have entered : Frame.enter Frame.chain chainMem (.ptr 3 0) [] = .ok Frame.chainStart := by
      decide +kernel
    obtain ⟨⟨trace, t⟩, run⟩ := Option.isSome_iff_exists.mp
      (by decide +kernel : ((Frame.semantics Frame.chain .position
        (Host.calls fun _ => none)).steps? 5 Frame.chainStart).isSome)
    have inLeaf : ((Frame.semantics Frame.chain .position (Host.calls fun _ => none)).steps? 5
        Frame.chainStart).all fun u => u.2.frames.length = 2 := by decide +kernel
    rw [run] at inLeaf
    have two : t.frames.length = 2 := of_decide_eq_true inLeaf
    have counted := (inFrames _ .position _ _ _ _ t entered ⟨5, trace, run⟩).count
    exact ⟨t, entered, ⟨5, trace, run⟩, two, counted.trans (by rw [two])⟩

end LateIR
