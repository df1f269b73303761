import LateIR.Proofs.Cfg.Transition
import LateIR.Proofs.Convention.Placement
import LateIR.Proofs.Program.GlobalEnv

/-!
How arguments reach a callee in Location-IR. The outermost caller finds each
argument in its location, whatever is placed after it (`LocState.get_ofArgs`), and
a callee finds it in the same register or in the incoming slot that the outgoing
one becomes (`LocState.get_atCallee`).
-/

namespace LateIR

/-- Where a callee finds the argument that its caller has in the location. -/
def Loc.atCallee : Loc → Loc
  | .slot .outgoing ofs t => .slot .incoming ofs t
  | l => l

theorem Loc.Accepts.loadResult {l : Loc} {v : Val} (accepts : l.Accepts v) :
    ∀ kind ofs t, l = .slot kind ofs t → v.loadResult (.ofTyp t) = v := by
  rintro kind ofs t rfl
  exact Val.loadResult_of_hasType accepts.2

namespace LocState

variable {ls ls' : LocState} {pairs : List (Loc × Val)} {l : Loc}

/-- Arguments in other locations leave a location as it was. -/
theorem get_placeArgs_apart (apart : ∀ p ∈ pairs, p.1.overlaps l = false)
    (placed : ls.placeArgs pairs = .ok ls') : ls'.get l = ls.get l := by
  induction pairs generalizing ls with
  | nil =>
      cases placed
      rfl
  | cons p rest ih =>
      obtain ⟨here, later⟩ := List.forall_mem_cons.mp apart
      obtain ⟨⟨⟩, inside, placed⟩ := bind_eq_ok_iff.mp placed
      exact (ih later placed).trans (ls.get_set_apart p.2 (Loc.inRange_of_checkOutgoing inside) here)

/-- Every argument is found where it was put. -/
theorem get_placeArgs (placeable : Placeable pairs) (placed : ls.placeArgs pairs = .ok ls') :
    ∀ p ∈ pairs, ls'.get p.1 = p.2 := by
  induction pairs generalizing ls with
  | nil => exact fun p mem => absurd mem List.not_mem_nil
  | cons p rest ih =>
      obtain ⟨fits, apart, placeable⟩ := placeable.cons
      obtain ⟨⟨⟩, inside, placed⟩ := bind_eq_ok_iff.mp placed
      intro q mem
      rcases List.mem_cons.mp mem with rfl | later
      · rw [get_placeArgs_apart apart placed]
        exact ls.get_set_same (Loc.inRange_of_checkOutgoing inside) fits.loadResult
      · exact ih placeable placed q later

/-- The outermost caller has the arguments in the locations of the signature. -/
theorem get_ofArgs {name : String} {s : Signature} {args : List Val}
    (checked : checkEntryArgs name s args = .ok ()) (placed : ofArgs s args = .ok ls) :
    List.Forall₂ (fun l v => ls.get l = v) s.argLocs args := by
  obtain ⟨same, placeable⟩ := placeable_of_checkEntryArgs checked
  refine List.forall₂_iff_zip.mpr ⟨same, ?_⟩
  intro l v mem
  exact get_placeArgs placeable placed (l, v) mem

/-- A callee finds what its caller has in an argument location. -/
theorem get_atCallee (ls : LocState) {s : Signature} (mem : l ∈ s.argLocs) :
    (ls.atCall.clobber Clobber.functionEntry).get l.atCallee = ls.get l := by
  cases l with
  | reg r => exact Signature.get_clobber_functionEntry mem ls.regs
  | slot kind ofs t =>
      obtain ⟨rfl, -, -⟩ := Signature.between_argLocs mem
      exact (getSlot_atCall ..).trans (if_pos rfl)

end LocState

namespace Cfg

variable {env : Env} {calls : CallService} {mem : Mem} {pointer : Val} {args : List Val}
  {s t : State} {events : Trace} {b : BlockId}

/-- Entry calls the designated function with the arguments in their locations. -/
theorem calling_of_enter {fd : FunDef Function} (entered : enter env mem pointer args = .ok s)
    (designates : env.function? pointer = some (b, fd)) :
    ∃ locs, s = .calling [] b locs mem ∧
      List.Forall₂ (fun l v => locs.get l = v) fd.sig.argLocs args := by
  obtain ⟨⟨callee, sig⟩, checked, entered⟩ := bind_eq_ok_iff.mp entered
  obtain ⟨locs, placed, same⟩ := bind_eq_ok_iff.mp entered
  obtain ⟨-, fd', found, rfl, accepted⟩ := env.checkEntry_eq_ok_iff.mp checked
  cases found.symm.trans designates
  cases same
  exact ⟨locs, rfl, LocState.get_ofArgs accepted placed⟩

/-- An external function is called with exactly the arguments. -/
theorem atExternal?_of_enter {ef : ExternalFunction} (entered : enter env mem pointer args = .ok s)
    (outside : env.function? pointer = some (b, .external ef)) :
    atExternal? env s = some (ef, args) := by
  obtain ⟨locs, rfl, found⟩ := calling_of_enter entered outside
  have known := env.externalAt?_eq_some_iff.mpr (env.function?_eq_some_iff.mp outside).2
  have same : locs.args ef.sig = args := by
    exact List.forall₂_eq_eq_eq ▸ List.forall₂_map_left_iff.mpr found
  simp only [atExternal?, known, Option.map_some, same]

/-- A function with a body finds exactly the arguments when it has been entered,
for which it only needs its frame. -/
theorem arguments_of_enter {f : Function} (entered : enter env mem pointer args = .ok s)
    (inside : env.function? pointer = some (b, .internal f)) :
    ((step env calls s).isSome ↔ (mem.alloc? 0 f.stackSize).isSome) ∧
      ∀ events t, step env calls s = some (events, t) → ∃ act pc locs m,
        t = .running act pc locs m ∧ f.sig.argLocs.map (fun l => locs.get l.atCallee) = args := by
  obtain ⟨locs, rfl, found⟩ := calling_of_enter entered inside
  have body := (env.function?_eq_some_iff.mp inside).2
  refine ⟨isSome_step_calling_iff body, ?_⟩
  intro events t stepped
  obtain ⟨sp, m, -, -, rfl⟩ := (step_calling_eq_some_iff body).mp stepped
  refine ⟨_, _, _, _, rfl, ?_⟩
  rw [List.map_congr_left fun l mem => locs.get_atCallee mem]
  exact List.forall₂_eq_eq_eq ▸ List.forall₂_map_left_iff.mpr found

end Cfg

end LateIR
