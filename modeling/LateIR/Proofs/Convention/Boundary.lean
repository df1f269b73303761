import LateIR.Convention.Boundary
import LateIR.Proofs.Location.Slots

/-!
What survives a call, read at single locations. A return and an external call
both leave the callee-saved registers and the slots other than the outgoing ones
as the caller had them (`SurvivesCall`).
-/

namespace LateIR

theorem Reg.index_surjective (i : Fin Reg.count) : ∃ r : Reg, r.index = i := by
  have named : ∀ i : Fin Reg.count, ∃ r ∈ Reg.all, r.index = i := by decide
  obtain ⟨r, -, here⟩ := named i
  exact ⟨r, here⟩

namespace RegFile

/-- A register file is the values of its registers. -/
theorem ext_get {file file' : RegFile} (same : ∀ r, file.get r = file'.get r) : file = file' := by
  obtain ⟨vals⟩ := file
  obtain ⟨vals'⟩ := file'
  apply congrArg RegFile.mk
  apply Vector.ext
  intro i bound
  obtain ⟨r, here⟩ := Reg.index_surjective ⟨i, bound⟩
  have at_ := same r
  simp only [get, here] at at_
  exact at_

theorem get_foldl_set (f : Reg → Val) (rs : List Reg) (file : RegFile) (r : Reg) :
    (rs.foldl (fun file r => file.set r (f r)) file).get r =
      if r ∈ rs then f r else file.get r := by
  induction rs generalizing file with
  | nil => rfl
  | cons s rest ih =>
      rw [List.foldl_cons, ih, get_set]
      by_cases here : s = r
      · simp [here]
      · simp [here, Ne.symm here]

theorem get_clobber (file : RegFile) (rs : List Reg) (r : Reg) :
    (file.clobber rs).get r = if r ∈ rs then .undefined else file.get r :=
  get_foldl_set (fun _ => .undefined) rs file r

theorem clobber_clobber (file : RegFile) (rs : List Reg) :
    (file.clobber rs).clobber rs = file.clobber rs := by
  apply ext_get
  intro r
  rw [get_clobber, get_clobber, ite_eq_right_iff]
  intro here
  rw [if_pos here]

theorem mem_callerSaved {r : Reg} : r ∈ callerSaved ↔ r.isCalleeSaved = false := by
  simp [callerSaved, Reg.mem_all]

/-- The caller's callee-saved registers and the callee's other ones. -/
theorem get_afterReturn (caller callee : RegFile) (r : Reg) :
    (caller.afterReturn callee).get r = if r.isCalleeSaved then caller.get r else callee.get r := by
  rw [afterReturn, get_foldl_set]
  cases saved : r.isCalleeSaved <;> simp [mem_callerSaved, saved]

/-- A callee that has kept the callee-saved registers hands over all of its own. -/
theorem afterReturn_eq_callee {caller callee : RegFile}
    (kept : ∀ r, r.isCalleeSaved → callee.get r = caller.get r) :
    caller.afterReturn callee = callee := by
  apply ext_get
  intro r
  rw [get_afterReturn]
  split
  · rename_i saved
    exact (kept r saved).symm
  · rfl

theorem get_afterExternal {s : Signature} {result : Val} {file : RegFile} {r : Reg}
    (saved : r.isCalleeSaved) : (file.afterExternal s result).get r = file.get r := by
  have other : s.resultReg ≠ r := by
    rintro rfl
    unfold Signature.resultReg at saved
    split at saved <;> exact absurd saved (by decide)
  rw [afterExternal, get_set, if_neg other, clobberCallerSaved, get_clobber]
  simp [mem_callerSaved, saved]

end RegFile

namespace LocState

/-- A callee finds the caller's outgoing slots as its incoming ones, and no
others. -/
theorem getSlot_atCall (caller : LocState) (kind : SlotKind) (ofs : Int) (t : Typ) :
    caller.atCall.getSlot kind ofs t =
      if kind = .incoming then caller.getSlot .outgoing ofs t else .undefined := by
  have found := caller.slots.find?_rekind .outgoing .incoming kind ofs
  by_cases incoming : kind = .incoming
  · rw [if_pos incoming] at found ⊢
    simp only [getSlot, atCall, found]
    cases caller.slots.find? .outgoing ofs <;> rfl
  · rw [if_neg incoming] at found ⊢
    simp only [getSlot, atCall, found]

/-- A caller gets its slots back, except the outgoing ones. -/
theorem getSlot_afterReturn (caller callee : LocState) (kind : SlotKind) (ofs : Int) (t : Typ) :
    (caller.afterReturn callee).getSlot kind ofs t =
      if kind = .outgoing then .undefined else caller.getSlot kind ofs t := by
  have kept := caller.slots.find?_filter (fun e => e.kind ≠ .outgoing) kind ofs
  cases found : caller.slots.find? kind ofs with
  | none =>
      rw [found, Option.filter_none] at kept
      simp only [getSlot, afterReturn, kept, found, ite_self]
  | some e =>
      obtain ⟨-, rfl, -⟩ := SlotMap.find?_eq_some_iff.mp found
      rw [found, Option.filter_some] at kept
      simp only [getSlot, afterReturn, kept, found]
      by_cases outgoing : e.kind = .outgoing <;> simp [outgoing]

/-- A function that is entered when another one is left finds no slots. -/
theorem slots_atCall_afterReturn (caller callee : LocState) :
    (caller.afterReturn callee).atCall.slots.entries = [] := by
  apply List.map_eq_nil_iff.mpr
  apply List.filter_eq_nil_iff.mpr
  intro e stays outgoing
  have inner := (List.mem_filter.mp stays).2
  exact absurd (of_decide_eq_true outgoing) (of_decide_eq_true inner)

end LocState

/-- The locations that a caller finds as it left them when a call returns. -/
def Loc.survivesCall : Loc → Bool
  | .reg r => r.isCalleeSaved
  | .slot kind _ _ => kind ≠ .outgoing

namespace LocState

/-- Whether two location states agree on what survives a call. -/
def SurvivesCall (before after : LocState) : Prop :=
  ∀ l : Loc, l.survivesCall → after.get l = before.get l

theorem SurvivesCall.refl (ls : LocState) : SurvivesCall ls ls := fun _ _ => rfl

theorem SurvivesCall.trans {a b c : LocState} (first : SurvivesCall a b)
    (second : SurvivesCall b c) : SurvivesCall a c :=
  fun l kept => (second l kept).trans (first l kept)

theorem survivesCall_afterReturn (caller callee : LocState) :
    SurvivesCall caller (caller.afterReturn callee) := by
  intro l kept
  cases l with
  | reg r =>
      have saved : r.isCalleeSaved := kept
      show (caller.regs.afterReturn callee.regs).get r = caller.regs.get r
      rw [RegFile.get_afterReturn, if_pos saved]
  | slot kind ofs t =>
      have stays : kind ≠ .outgoing := of_decide_eq_true kept
      show (caller.afterReturn callee).getSlot kind ofs t = caller.getSlot kind ofs t
      rw [getSlot_afterReturn, if_neg stays]

theorem survivesCall_afterExternal (s : Signature) (result : Val) (caller : LocState) :
    SurvivesCall caller (caller.afterExternal s result) := by
  intro l kept
  cases l with
  | reg r =>
      have saved : r.isCalleeSaved := kept
      show (caller.regs.afterExternal s result).get r = caller.regs.get r
      exact RegFile.get_afterExternal saved
  | slot kind ofs t => simp only [get, getSlot, afterExternal]

end LocState

end LateIR
