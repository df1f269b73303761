import LateIR.Proofs.Convention.Boundary
import LateIR.Proofs.Location.Extensional
import LateIR.Proofs.Storage

/-!
Writing a location twice. The second write leaves nothing of the first one, at every location
but the slots at the largest offset (`last_write_wins`). The range of such a slot is cut off to
nothing, so a write to it drops no slot, not even the one at its own place, and a write that
keeps nothing of its value changes nothing.
-/

namespace LateIR

theorem RegFile.set_set (file : RegFile) (r : Reg) (v w : Val) :
    (file.set r v).set r w = file.set r w := by
  apply ext_get
  intro s
  rw [get_set, get_set, get_set]
  split <;> rfl

/-- Whether the location is a slot whose range of words is cut off to nothing. -/
def Loc.atTop : Loc → Bool
  | reg _ => false
  | slot _ ofs _ => maxOffset ≤ ofs

theorem Loc.slotsMeet_atTop {ofs : Int} (top : maxOffset ≤ ofs) (t : Typ) (ofs' : Int) (t' : Typ) :
    slotsMeet ofs t ofs' t' = false := by
  have past : ¬ ofs < slotEnd ofs' t' := by
    unfold slotEnd
    omega
  simp [slotsMeet, past]

theorem Loc.keeps_undefined (l : Loc) : l.keeps .undefined = .undefined := by
  cases l with
  | reg r => rfl
  | slot kind ofs t => cases t <;> rfl

namespace LocState

variable (ls : LocState) {kind : SlotKind} {ofs : Int} {t : Typ} {v w : Val}

/-! ### Dropping overlapping slots -/

/-- A slot below the largest offset overlaps every slot at its own place. -/
theorem evict_setSlot (small : ofs < Loc.maxOffset) :
    (ls.setSlot kind ofs t v).evict (.slot kind ofs t) = ls.evict (.slot kind ofs t) := by
  have again : (ls.evict (.slot kind ofs t)).slots.filter
      (fun e => !(Loc.slot kind ofs t).overlaps e.loc) = (ls.evict (.slot kind ofs t)).slots := by
    apply SlotMap.ext_entries
    simp only [SlotMap.filter, evict, List.filter_filter, Bool.and_self]
  have cleared : ∀ x : SlotEntry, x.SamePlace ⟨kind, ofs, t, v.loadResult (.ofTyp t)⟩ →
      (!(Loc.slot kind ofs t).overlaps x.loc) = false := by
    rintro x ⟨kind', ofs'⟩
    have meets := slotsMeet_self small t x.typ
    simp [Loc.overlaps, SlotEntry.loc, kind', ofs', meets]
  simp only [setSlot]
  split
  · exact congrArg (LocState.mk ls.regs) ((SlotMap.filter_insert _ cleared).trans again)
  · exact congrArg (LocState.mk ls.regs) again

/-- A slot at the largest offset overlaps nothing. -/
theorem evict_atTop (top : Loc.maxOffset ≤ ofs) : ls.evict (.slot kind ofs t) = ls := by
  have keepsAll : ∀ e ∈ ls.slots.entries, (!(Loc.slot kind ofs t).overlaps e.loc) = true := by
    intro e _
    simp [Loc.overlaps, SlotEntry.loc, Loc.slotsMeet_atTop top]
  exact congrArg (LocState.mk ls.regs)
    (SlotMap.ext_entries (List.filter_eq_self.mpr keepsAll))

/-! ### Writing twice -/

theorem set_set {l : Loc} (below : ¬ l.atTop) : (ls.set l v).set l w = ls.set l w := by
  cases l with
  | reg r => exact congrArg (LocState.mk · ls.slots) (ls.regs.set_set r v w)
  | slot kind ofs t =>
      have small := Int.not_le.mp fun top => below (decide_eq_true top)
      show (ls.setSlot kind ofs t v).setSlot kind ofs t w = ls.setSlot kind ofs t w
      rw [setSlot, evict_setSlot ls small]
      rfl

/-- At the largest offset a defined value still takes the place of the one before. -/
theorem set_set_atTop {l : Loc} (top : l.atTop) (kept : (l.keeps w).isDefined) :
    (ls.set l v).set l w = ls.set l w := by
  cases l with
  | reg r => cases top
  | slot kind ofs t =>
      have top := of_decide_eq_true top
      have defined : (w.loadResult (.ofTyp t)).isDefined := kept
      simp only [set, setSlot, evict_atTop _ top, defined, if_true]
      split
      · exact congrArg (LocState.mk ls.regs) (ls.slots.insert_insert ⟨rfl, rfl⟩)
      · rfl

/-- Nothing takes no place. -/
theorem set_atTop {l : Loc} (top : l.atTop) (lost : ¬ (l.keeps w).isDefined) :
    ls.set l w = ls := by
  cases l with
  | reg r => cases top
  | slot kind ofs t =>
      have undefined : ¬ (w.loadResult (.ofTyp t)).isDefined := lost
      simp only [set, setSlot, evict_atTop ls (of_decide_eq_true top), undefined]
      rfl

theorem get_set_undefined {l : Loc} (below : ¬ l.atTop) :
    (ls.set l .undefined).get l = .undefined := by
  cases l with
  | reg r => exact (ls.regs.get_set r r .undefined).trans (if_pos rfl)
  | slot kind ofs t =>
      have small := Int.not_le.mp fun top => below (decide_eq_true top)
      exact ((ls.getSlot_setSlot .undefined small).trans (if_pos ⟨rfl, rfl⟩)).trans
        (Loc.keeps_undefined (.slot kind ofs t))

end LocState

/-- The second of two writes to a location leaves the registers and slots that it would leave
without the first, and a location that is made undefined reads as undefined, except for what
slots at the largest offset hold when a write to them keeps nothing of its value. At every
offset a search in the window finds the slots that the write drops. -/
theorem last_write_wins (ls : LocState) (l : Loc) (v w : Val) :
    ((ls.set l v).set l w = ls.set l w ↔
      (l.atTop → (l.keeps w).isDefined ∨ ls.set l v = ls)) ∧
    ((ls.set l .undefined).get l = .undefined ↔ (l.atTop → ls.get l = .undefined)) ∧
    ((∀ e ∈ ls.slots.entries, Loc.minOffset ≤ e.ofs) →
      ∀ kind ofs t, l = .slot kind ofs t → ls.evictFound kind ofs t = ls.evict l) := by
  refine ⟨?_, ?_, fun least kind ofs t here => here ▸ LocState.evictFound_eq least kind ofs t⟩
  · by_cases top : l.atTop
    · rw [forall_prop_of_true top]
      by_cases kept : (l.keeps w).isDefined
      · exact iff_of_true (ls.set_set_atTop top kept) (.inl kept)
      · rw [LocState.set_atTop _ top kept, LocState.set_atTop _ top kept, or_iff_right kept]
    · exact iff_of_true (ls.set_set top) fun atTop => absurd atTop top
  · by_cases top : l.atTop
    · have lost : ¬ (l.keeps .undefined).isDefined := by
        rw [l.keeps_undefined]
        exact Bool.false_ne_true
      rw [forall_prop_of_true top, ls.set_atTop top lost]
    · exact iff_of_true (ls.get_set_undefined top) fun atTop => absurd atTop top

/-! The slot at the largest offset of all. -/

def topSlot : Loc := .slot .spill Loc.maxOffset .int

theorem last_write_wins_topSlot :
    topSlot.atTop ∧
      (LocState.empty.set topSlot (.int 1)).set topSlot (.int 2) =
        LocState.empty.set topSlot (.int 2) ∧
      (LocState.empty.set topSlot .undefined).get topSlot = .undefined ∧
      (LocState.empty.set topSlot (.int 1)).evictFound .spill Loc.maxOffset .int =
        (LocState.empty.set topSlot (.int 1)).evict topSlot := by
  obtain ⟨twice, read, -⟩ := last_write_wins .empty topSlot (.int 1) (.int 2)
  obtain ⟨-, -, found⟩ := last_write_wins (LocState.empty.set topSlot (.int 1)) topSlot (.int 1) (.int 2)
  refine ⟨rfl, twice.mpr fun _ => .inl rfl, read.mpr fun _ => rfl, ?_⟩
  exact found (by decide) .spill Loc.maxOffset .int rfl

/-- An earlier value may outlast a write of nothing. -/
theorem not_always_last_write :
    ¬ ∀ (ls : LocState) (l : Loc) (v w : Val), (ls.set l v).set l w = ls.set l w := by
  intro always
  have lost := always .empty topSlot (.int 1) .undefined
  exact absurd lost (by decide)

end LateIR
