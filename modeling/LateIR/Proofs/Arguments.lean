import LateIR.Proofs.Cfg.Arguments
import LateIR.Proofs.Frame.Arguments

/-!
Arguments reach the callee. Whatever the signature and the values, the function
that a program is entered at finds each argument in the location that the signature
gives it, in Location-IR exactly and in Frame-IR up to the words that are not
numbers and travel in slots without a fixed type (`arguments_arrive`).
-/

namespace LateIR

/-- External functions are called with the arguments of the entry, and functions
with a body find them when they have been entered. -/
theorem arguments_arrive :
    (∀ (env : Cfg.Env) (calls : CallService) (mem : Mem) (pointer : Val) (args : List Val)
      (s : Cfg.State), Cfg.enter env mem pointer args = .ok s →
      (∀ b ef, env.function? pointer = some (b, .external ef) →
        Cfg.atExternal? env s = some (ef, args)) ∧
      ∀ b f, env.function? pointer = some (b, .internal f) →
        ((Cfg.step env calls s).isSome ↔ (mem.alloc? 0 f.stackSize).isSome) ∧
        ∀ events t, Cfg.step env calls s = some (events, t) → ∃ act pc locs m,
          t = .running act pc locs m ∧ f.sig.argLocs.map (fun l => locs.get l.atCallee) = args) ∧
    ∀ (env : Frame.Env) (calls : CallService) (choose : Frame.ReturnAddresses) (mem : Mem)
      (pointer : Val) (args : List Val) (s : Frame.State),
      Frame.enter env mem pointer args = .ok s →
      (∀ b ef, env.function? pointer = some (b, .external ef) →
        Frame.atExternal? env s = some (ef, ef.sig.arrivals args)) ∧
      ∀ b f, env.function? pointer = some (b, .internal f) → f.HeaderApart →
        ∀ events t, Frame.step env calls choose s = some (events, t) → ∃ act pc regs m,
          t = .running act pc regs m ∧
            List.Forall₂ (Frame.Receives env calls choose f act regs m) f.sig.argLocs
              (f.sig.arrivals args) := by
  constructor
  · intro env calls mem pointer args s entered
    refine ⟨?_, ?_⟩
    · intro b ef outside
      exact Cfg.atExternal?_of_enter entered outside
    · intro b f inside
      exact Cfg.arguments_of_enter entered inside
  · intro env calls choose mem pointer args s entered
    refine ⟨?_, ?_⟩
    · intro b ef outside
      exact Frame.atExternal?_of_enter entered outside
    · intro b f inside apart events t stepped
      exact Frame.arguments_of_enter apart entered inside stepped

/-! More arguments than there are integer registers: words that are not numbers, in
slots without a fixed type and in a register, and a pointer. -/

/-- Six of the ten arguments fill the integer registers. -/
def crowdedSig : Signature :=
  ⟨[.int, .int, .int, .int, .int, .int, .any64, .any32, .float, .long], none, .standard⟩

def crowdedArgs : List Val :=
  [.int 1, .int 2, .int 3, .int 4, .int 5, .int 6, .float ⟨0x7ff8000000000000⟩,
    .single ⟨0x7fc00000⟩, .float ⟨0x7ff8000000000000⟩, .ptr 1 0]

/-- What a callee finds of them in Frame-IR. -/
def crowdedArrivals : List Val :=
  [.int 1, .int 2, .int 3, .int 4, .int 5, .int 6, .undefined, .undefined,
    .float ⟨0x7ff8000000000000⟩, .ptr 1 0]

def crowdedSink : ExternalFunction := .external "sink" crowdedSig

def Cfg.crowded : Cfg.Env where
  program :=
    { defs := [("main", .function (.internal ⟨crowdedSig, 24, [(1, #[.ret])], 1⟩)),
        ("sink", .function (.external crowdedSink))]
      main := "main" }
  distinct := by decide

def Frame.crowdedMain : Frame.Function := ⟨crowdedSig, #[.ret], 24, 16, 0⟩

def Frame.crowded : Frame.Env where
  program :=
    { defs := [("main", .function (.internal crowdedMain)),
        ("sink", .function (.external crowdedSink))]
      main := "main" }
  distinct := by decide

/-- The code of both functions. -/
def crowdedMem : Mem := ⟨#[.live 0 #[.undefined], .live 0 #[.undefined]]⟩

theorem arguments_arrive_crowded :
    (∃ s t, Cfg.enter Cfg.crowded crowdedMem (.ptr 2 0) crowdedArgs = .ok s ∧
      Cfg.atExternal? Cfg.crowded s = some (crowdedSink, crowdedArgs) ∧
      Cfg.enter Cfg.crowded crowdedMem (.ptr 1 0) crowdedArgs = .ok t ∧
      ∃ events act pc locs m,
        Cfg.step Cfg.crowded (fun _ _ _ => none) t = some (events, .running act pc locs m) ∧
        crowdedSig.argLocs.map (fun l => locs.get l.atCallee) = crowdedArgs) ∧
    ∃ s t, Frame.enter Frame.crowded crowdedMem (.ptr 2 0) crowdedArgs = .ok s ∧
      Frame.atExternal? Frame.crowded s = some (crowdedSink, crowdedArrivals) ∧
      Frame.enter Frame.crowded crowdedMem (.ptr 1 0) crowdedArgs = .ok t ∧
      ∃ events act pc regs m,
        Frame.step Frame.crowded (fun _ _ _ => none) .position t =
          some (events, .running act pc regs m) ∧
        List.Forall₂
          (Frame.Receives Frame.crowded (fun _ _ _ => none) .position Frame.crowdedMain act regs m)
          crowdedSig.argLocs crowdedArrivals := by
  obtain ⟨inLocations, inFrames⟩ := arguments_arrive
  constructor
  · obtain ⟨s, outside⟩ := exists_of_isOk
      (by decide +kernel : (Cfg.enter Cfg.crowded crowdedMem (.ptr 2 0) crowdedArgs).isOk)
    obtain ⟨t, inside⟩ := exists_of_isOk
      (by decide +kernel : (Cfg.enter Cfg.crowded crowdedMem (.ptr 1 0) crowdedArgs).isOk)
    have passed := (inLocations _ (fun _ _ _ => none) _ _ _ s outside).1 2 crowdedSink rfl
    obtain ⟨enterable, found⟩ := (inLocations _ (fun _ _ _ => none) _ _ _ t inside).2 1 _ rfl
    obtain ⟨⟨events, u⟩, stepped⟩ := Option.isSome_iff_exists.mp (enterable.mpr rfl)
    obtain ⟨act, pc, locs, m, rfl, same⟩ := found events u stepped
    exact ⟨s, t, outside, passed, inside, events, act, pc, locs, m, stepped, same⟩
  · obtain ⟨s, outside⟩ := exists_of_isOk
      (by decide +kernel : (Frame.enter Frame.crowded crowdedMem (.ptr 2 0) crowdedArgs).isOk)
    obtain ⟨t, inside⟩ := exists_of_isOk
      (by decide +kernel : (Frame.enter Frame.crowded crowdedMem (.ptr 1 0) crowdedArgs).isOk)
    have arrivals : crowdedSig.arrivals crowdedArgs = crowdedArrivals := by decide +kernel
    have passed := (inFrames _ (fun _ _ _ => none) .position _ _ _ s outside).1 2 crowdedSink rfl
    have found := (inFrames _ (fun _ _ _ => none) .position _ _ _ t inside).2 1 _ rfl
      (.inr (by decide))
    have enterable : ((Frame.enter Frame.crowded crowdedMem (.ptr 1 0) crowdedArgs).toOption.bind
        (Frame.step Frame.crowded (fun _ _ _ => none) .position)).isSome := by decide +kernel
    rw [inside] at enterable
    obtain ⟨⟨events, u⟩, stepped⟩ := Option.isSome_iff_exists.mp enterable
    obtain ⟨act, pc, regs, m, rfl, same⟩ := found events u stepped
    exact ⟨s, t, outside, arrivals ▸ passed, inside, events, act, pc, regs, m, stepped,
      arrivals ▸ same⟩

end LateIR
