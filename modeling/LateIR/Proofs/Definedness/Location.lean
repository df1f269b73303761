import LateIR.Builtin
import LateIR.Proofs.Convention.Boundary
import LateIR.Proofs.Operation

/-!
Registers and location states ordered by definedness, location by location.
Writing, clobbering and crossing a call keep the order. A written slot makes the
slots that it overlaps undefined in both states, so a less defined value never
leaves more behind (`LocState.Below.setSlot`).
-/

namespace LateIR

/-! ### Values in parts -/

theorem Val.highWord_mono {v w : Val} (le : v ≤ w) : v.highWord ≤ w.highWord := by
  rcases le with rfl | rfl
  · exact .inl rfl
  · exact le_refl _

theorem Val.lowWord_mono {v w : Val} (le : v ≤ w) : v.lowWord ≤ w.lowWord := by
  rcases le with rfl | rfl
  · exact .inl rfl
  · exact le_refl _

/-- A more defined result leads to the same writes with more defined values. -/
theorem BuiltinRes.writes_mono (res : BuiltinRes) {v w : Val} (le : v ≤ w) :
    List.Forall₂ (fun a b => a.1 = b.1 ∧ a.2 ≤ b.2) (res.writes v) (res.writes w) := by
  cases res with
  | into place =>
      cases place with
      | whole r => exact .cons ⟨rfl, le⟩ .nil
      | halves high low =>
          exact .cons ⟨rfl, Val.highWord_mono le⟩ (.cons ⟨rfl, Val.lowWord_mono le⟩ .nil)
  | nowhere => exact .nil

/-! ### Registers -/

namespace RegFile

instance : LE RegFile := ⟨fun file file' => ∀ r, file.get r ≤ file'.get r⟩

variable {file file' : RegFile}

theorem set_mono (le : file ≤ file') (r : Reg) {v w : Val} (more : v ≤ w) :
    file.set r v ≤ file'.set r w := by
  intro s
  rw [get_set, get_set]
  split
  · exact more
  · exact le s

theorem read_mono (le : file ≤ file') (rs : List Reg) :
    List.Forall₂ (· ≤ ·) (file.read rs) (file'.read rs) := by
  induction rs with
  | nil => exact .nil
  | cons r rest ih => exact .cons (le r) ih

/-- A clobbered register is undefined in both files. -/
theorem clobber_mono (le : file ≤ file') (rs : List Reg) : file.clobber rs ≤ file'.clobber rs := by
  intro r
  rw [get_clobber, get_clobber]
  split
  · exact Val.le_refl _
  · exact le r

/-- The registers written have to be the same, one after the other; the values only have to be in
order. -/
theorem setAll_mono (le : file ≤ file') {writes writes' : List (Reg × Val)}
    (more : List.Forall₂ (fun a b => a.1 = b.1 ∧ a.2 ≤ b.2) writes writes') :
    file.setAll writes ≤ file'.setAll writes' := by
  induction more generalizing file file' with
  | nil => exact le
  | @cons a b _ _ first rest ih =>
      obtain ⟨r, v⟩ := a
      obtain ⟨r', w⟩ := b
      obtain ⟨rfl, more⟩ : r = r' ∧ v ≤ w := first
      exact ih (set_mono le r more)

/-- Each register comes from the same one of the two files. -/
theorem afterReturn_mono {callee callee' : RegFile} (le : file ≤ file') (inner : callee ≤ callee') :
    file.afterReturn callee ≤ file'.afterReturn callee' := by
  intro r
  rw [get_afterReturn, get_afterReturn]
  split
  · exact le r
  · exact inner r

theorem afterExternal_mono (le : file ≤ file') (s : Signature) {v w : Val} (more : v ≤ w) :
    file.afterExternal s v ≤ file'.afterExternal s w :=
  set_mono (clobber_mono le callerSaved) s.resultReg more

end RegFile

/-! ### Location states -/

namespace LocState

/-- Whether no slot that holds a value passes the largest offset. -/
def InRange (ls : LocState) : Prop := ∀ e ∈ ls.slots.entries, e.loc.inRange

namespace InRange

variable {ls : LocState}

theorem empty : LocState.empty.InRange := fun _ mem => absurd mem List.not_mem_nil

/-- Eviction takes slots away and adds none. -/
theorem evict (fits : ls.InRange) (l : Loc) : (ls.evict l).InRange :=
  fun e mem => fits e (List.mem_filter.mp mem).1

theorem setSlot (fits : ls.InRange) {kind : SlotKind} {ofs : Int} {t : Typ} (v : Val)
    (here : (Loc.slot kind ofs t).inRange) : (ls.setSlot kind ofs t v).InRange := by
  have kept := fits.evict (.slot kind ofs t)
  simp only [LocState.setSlot]
  split
  · intro e mem
    rcases SlotMap.mem_insertInto mem with rfl | mem
    · exact here
    · exact kept e mem
  · exact kept

/-- The range of a slot does not depend on its kind. -/
theorem atCall (fits : ls.InRange) : ls.atCall.InRange := by
  intro e mem
  obtain ⟨source, outgoing, rfl⟩ := List.mem_map.mp mem
  exact fits source (List.mem_filter.mp outgoing).1

theorem afterReturn (fits : ls.InRange) (callee : LocState) : (ls.afterReturn callee).InRange :=
  fun e mem => fits e (List.mem_filter.mp mem).1

end InRange

/-- Location states of slots in range, one of which may have more defined
values. -/
structure Below (ls ls' : LocState) : Prop where
  inRange : ls.InRange ∧ ls'.InRange
  get : ∀ l, ls.get l ≤ ls'.get l

namespace Below

variable {ls ls' : LocState}

theorem empty : Below .empty .empty := ⟨⟨.empty, .empty⟩, fun _ => Val.le_refl _⟩

theorem regs (below : Below ls ls') : ls.regs ≤ ls'.regs := fun r => below.get (.reg r)

theorem getSlot (below : Below ls ls') (kind : SlotKind) (ofs : Int) (t : Typ) :
    ls.getSlot kind ofs t ≤ ls'.getSlot kind ofs t :=
  below.get (.slot kind ofs t)

/-- Arguments are as defined as the locations that hold them. -/
theorem args (below : Below ls ls') (s : Signature) :
    List.Forall₂ (· ≤ ·) (ls.args s) (ls'.args s) := by
  simp only [LocState.args]
  induction s.argLocs with
  | nil => exact .nil
  | cons l rest ih => exact .cons (below.get l) ih

/-- Registers may be replaced by others in the same order. -/
theorem withRegs (below : Below ls ls') {regs regs' : RegFile} (le : regs ≤ regs') :
    Below { ls with regs := regs } { ls' with regs := regs' } where
  inRange := below.inRange
  get l := by
    cases l with
    | reg r => exact le r
    | slot kind ofs t => exact below.getSlot kind ofs t

theorem clobber (below : Below ls ls') (rs : List Reg) : Below (ls.clobber rs) (ls'.clobber rs) :=
  below.withRegs (RegFile.clobber_mono below.regs rs)

theorem setReg (below : Below ls ls') (r : Reg) {v w : Val} (more : v ≤ w) :
    Below (ls.setReg r v) (ls'.setReg r w) :=
  below.withRegs (RegFile.set_mono below.regs r more)

theorem setRegs (below : Below ls ls') {writes writes' : List (Reg × Val)}
    (more : List.Forall₂ (fun a b => a.1 = b.1 ∧ a.2 ≤ b.2) writes writes') :
    Below (ls.setRegs writes) (ls'.setRegs writes') :=
  below.withRegs (RegFile.setAll_mono below.regs more)

theorem afterExternal (below : Below ls ls') (s : Signature) {v w : Val} (more : v ≤ w) :
    Below (ls.afterExternal s v) (ls'.afterExternal s w) :=
  below.withRegs (RegFile.afterExternal_mono below.regs s more)

/-- A value that turns out undefined evicts what its slot overlaps all the same, so the lower state
keeps nothing there that the upper one has lost. -/
theorem setSlot (below : Below ls ls') {kind : SlotKind} {ofs : Int} {t : Typ} {v w : Val}
    (here : (Loc.slot kind ofs t).inRange) (more : v ≤ w) :
    Below (ls.setSlot kind ofs t v) (ls'.setSlot kind ofs t w) where
  inRange := ⟨below.inRange.1.setSlot v here, below.inRange.2.setSlot w here⟩
  get l := by
    cases l with
    | reg r =>
        show (ls.setSlot kind ofs t v).regs.get r ≤ (ls'.setSlot kind ofs t w).regs.get r
        rw [regs_setSlot, regs_setSlot]
        exact below.regs r
    | slot kind' ofs' t' =>
        show (ls.setSlot kind ofs t v).getSlot kind' ofs' t' ≤
          (ls'.setSlot kind ofs t w).getSlot kind' ofs' t'
        by_cases same : kind' = kind
        · subst same
          have small := Loc.lt_maxOffset_of_inRange here
          rw [getSlot_setSlot _ _ small, getSlot_setSlot _ _ small]
          -- the slot that was written, one that it overlaps, or one apart from it
          split
          · exact Val.loadResult_mono _ more
          · split
            · exact Val.le_refl _
            · exact below.getSlot kind' ofs' t'
        · rw [getSlot_setSlot_other _ same, getSlot_setSlot_other _ same]
          exact below.getSlot kind' ofs' t'

/-- Incoming slots are what the outgoing ones were; all others are undefined. -/
theorem atCall (below : Below ls ls') : Below ls.atCall ls'.atCall where
  inRange := ⟨below.inRange.1.atCall, below.inRange.2.atCall⟩
  get l := by
    cases l with
    | reg r => exact below.regs r
    | slot kind ofs t =>
        show ls.atCall.getSlot kind ofs t ≤ ls'.atCall.getSlot kind ofs t
        rw [getSlot_atCall, getSlot_atCall]
        split
        · exact below.getSlot .outgoing ofs t
        · exact Val.le_refl _

theorem afterReturn {callee callee' : LocState} (below : Below ls ls')
    (inner : Below callee callee') : Below (ls.afterReturn callee) (ls'.afterReturn callee') where
  inRange := ⟨below.inRange.1.afterReturn callee, below.inRange.2.afterReturn callee'⟩
  get l := by
    cases l with
    | reg r => exact RegFile.afterReturn_mono below.regs inner.regs r
    | slot kind ofs t =>
        show (ls.afterReturn callee).getSlot kind ofs t ≤ (ls'.afterReturn callee').getSlot kind ofs t
        rw [getSlot_afterReturn, getSlot_afterReturn]
        split
        · exact Val.le_refl _
        · exact below.getSlot kind ofs t

end Below

end LocState

end LateIR
