import LateIR.Proofs.Location.Slots

/-!
Location states as storage. A location holds what it keeps of the last value written to it;
a write makes every other slot that has a word in common with it undefined, and shows
nowhere else (`typed_storage`). The slots to drop are all found in a window that begins one
word before the written slot (`LocState.evictFound_eq`).
-/

namespace LateIR

namespace Loc

/-- The least slot offset, `-2 ^ 63`. -/
def minOffset : Int := -9223372036854775808

/-- What a location keeps of a value that is written to it. -/
def keeps : Loc → Val → Val
  | reg _, v => v
  | slot _ _ t, v => v.loadResult (.ofTyp t)

/-- Whether the locations are slots of one kind with a word in common. -/
def SharesWord : Loc → Loc → Prop
  | slot kind ofs t, slot kind' ofs' t' =>
      kind = kind' ∧ ∃ word, (ofs ≤ word ∧ word < ofs + t.words) ∧
        ofs' ≤ word ∧ word < ofs' + t'.words
  | _, _ => False

/-- The ends of the ranges are cut off where no word of a slot in range lies. -/
theorem slotsMeet_iff {ofs : Int} {t : Typ} (inRange : ofs + t.words ≤ maxOffset) (ofs' : Int)
    (t' : Typ) :
    slotsMeet ofs t ofs' t' ↔
      ∃ word, (ofs ≤ word ∧ word < ofs + t.words) ∧ ofs' ≤ word ∧ word < ofs' + t'.words := by
  have pos := t.words_pos
  have pos' := t'.words_pos
  simp only [slotsMeet, slotEnd, Bool.and_eq_true, decide_eq_true_eq, Int.lt_min]
  constructor
  · rintro ⟨⟨before, -⟩, before', -⟩
    exact ⟨max ofs ofs', by omega, by omega⟩
  · rintro ⟨word, own, other⟩
    omega

/-- A slot overlaps another one exactly when they share a word. -/
theorem sharesWord_iff {kind : SlotKind} {ofs : Int} {t : Typ} {l : Loc}
    (inRange : (slot kind ofs t).inRange) :
    (slot kind ofs t).SharesWord l ↔ (slot kind ofs t).overlaps l := by
  cases l with
  | reg r => simp [SharesWord, overlaps]
  | slot kind' ofs' t' =>
      have meet := slotsMeet_iff (of_decide_eq_true inRange) ofs' t'
      simp [SharesWord, overlaps, meet]

end Loc

/-! ### Searching for slots to drop -/

namespace SlotMap

/-- The entries of one kind at offsets from `first` on and before `past`. -/
def range (m : SlotMap) (kind : SlotKind) (first past : Int) : List SlotEntry :=
  m.entries.filter fun e => e.kind = kind && first ≤ e.ofs && e.ofs < past

/-- Removes the entry at a place, if there is one. -/
def erase (m : SlotMap) (kind : SlotKind) (ofs : Int) : SlotMap :=
  m.filter fun e => !e.isAt kind ofs

theorem entries_foldl_erase (m : SlotMap) (found : List SlotEntry) :
    (found.foldl (fun m e => m.erase e.kind e.ofs) m).entries =
      m.entries.filter fun e => !found.any fun x => e.isAt x.kind x.ofs := by
  induction found generalizing m with
  | nil => exact (List.filter_eq_self.mpr fun _ _ => rfl).symm
  | cons x rest ih =>
      rw [List.foldl_cons, ih, erase, filter, List.filter_filter]
      apply List.filter_congr
      intro e _
      rw [List.any_cons, Bool.not_or, Bool.and_comm]

end SlotMap

namespace LocState

/-- The slots that overlap the given one, among those that start in a window. It begins one
word before the slot, as no type has more than two words, and ends with the slot. -/
def overlapping (ls : LocState) (kind : SlotKind) (ofs : Int) (t : Typ) : List SlotEntry :=
  (ls.slots.range kind (max (ofs - 1) Loc.minOffset) (Loc.slotEnd ofs t)).filter fun e =>
    Loc.slotsMeet ofs t e.ofs e.typ

/-- Drops the overlapping slots of the window, one after the other. -/
def evictFound (ls : LocState) (kind : SlotKind) (ofs : Int) (t : Typ) : LocState :=
  { ls with
    slots := (ls.overlapping kind ofs t).foldl (fun m e => m.erase e.kind e.ofs) ls.slots }

theorem mem_overlapping_iff {ls : LocState} {kind : SlotKind} {ofs : Int} {t : Typ}
    {e : SlotEntry} (least : Loc.minOffset ≤ e.ofs) :
    e ∈ ls.overlapping kind ofs t ↔
      e ∈ ls.slots.entries ∧ (Loc.slot kind ofs t).overlaps e.loc := by
  have words := e.typ.words_le
  simp only [overlapping, SlotMap.range, List.mem_filter, Loc.overlaps, SlotEntry.loc,
    Loc.slotsMeet, Loc.slotEnd, decide_eq_true_eq, Bool.and_eq_true]
  constructor
  · rintro ⟨⟨mem, ⟨here, -⟩, -⟩, meets⟩
    exact ⟨mem, here.symm, meets⟩
  · rintro ⟨mem, here, before, after⟩
    have ends : ofs < min (e.ofs + e.typ.words) Loc.maxOffset := of_decide_eq_true before
    have first : max (ofs - 1) Loc.minOffset ≤ e.ofs := by omega
    exact ⟨⟨mem, ⟨here.symm, first⟩, after⟩, before, after⟩

/-- No slot that overlaps starts outside the window. -/
theorem evictFound_eq {ls : LocState} (least : ∀ e ∈ ls.slots.entries, Loc.minOffset ≤ e.ofs)
    (kind : SlotKind) (ofs : Int) (t : Typ) :
    ls.evictFound kind ofs t = ls.evict (.slot kind ofs t) := by
  have same : (ls.overlapping kind ofs t).foldl (fun m e => m.erase e.kind e.ofs) ls.slots =
      ls.slots.filter fun e => !(Loc.slot kind ofs t).overlaps e.loc := by
    apply SlotMap.ext_entries
    rw [SlotMap.entries_foldl_erase, SlotMap.filter]
    apply List.filter_congr
    intro e mem
    congr 1
    rw [Bool.eq_iff_iff, List.any_eq_true]
    constructor
    · rintro ⟨x, found, here⟩
      have place := SlotEntry.isAt_iff.mp here
      have mem' : x ∈ ls.slots.entries := (List.mem_filter.mp (List.mem_filter.mp found).1).1
      obtain rfl := SlotMap.eq_of_samePlace ls.slots.sorted mem mem' place
      exact ((mem_overlapping_iff (least e mem)).mp found).2
    · intro meets
      exact ⟨e, (mem_overlapping_iff (least e mem)).mpr ⟨mem, meets⟩,
        SlotEntry.isAt_iff.mpr ⟨rfl, rfl⟩⟩
  rw [evictFound, same, evict]

/-! ### Reading after writing -/

theorem get_set_keeps (ls : LocState) {l : Loc} (inRange : l.inRange) (v : Val) :
    (ls.set l v).get l = l.keeps v := by
  cases l with
  | reg r => exact (ls.regs.get_set r r v).trans (if_pos rfl)
  | slot kind ofs t =>
      exact (ls.getSlot_setSlot v (Loc.lt_maxOffset_of_inRange inRange)).trans
        (if_pos ⟨rfl, rfl⟩)

/-- A slot does not survive a write to another one that it shares a word with. -/
theorem get_set_sharesWord (ls : LocState) {l l' : Loc} (inRange : l.inRange) (v : Val)
    (other : l' ≠ l) (shares : l.SharesWord l') : (ls.set l v).get l' = .undefined := by
  cases l with
  | reg r => cases shares
  | slot kind ofs t =>
      cases l' with
      | reg r' => cases shares
      | slot kind' ofs' t' =>
          obtain ⟨rfl, meet⟩ := shares
          have elsewhere : ¬ (ofs' = ofs ∧ t' = t) := by
            rintro ⟨rfl, rfl⟩
            exact other rfl
          have meet := (Loc.slotsMeet_iff (of_decide_eq_true inRange) _ _).mpr meet
          show (ls.setSlot kind ofs t v).getSlot kind ofs' t' = .undefined
          rw [getSlot_setSlot ls v (Loc.lt_maxOffset_of_inRange inRange), if_neg elsewhere,
            if_pos meet]

theorem get_set_other (ls : LocState) {l l' : Loc} (inRange : l.inRange) (v : Val)
    (other : l' ≠ l) (apart : ¬ l.SharesWord l') : (ls.set l v).get l' = ls.get l' := by
  apply get_set_apart ls v inRange
  cases l with
  | reg r =>
      cases l' with
      | reg r' => simpa [Loc.overlaps, eq_comm] using other
      | slot kind' ofs' t' => rfl
  | slot kind ofs t =>
      apply Bool.eq_false_iff.mpr
      intro meets
      exact apart ((Loc.sharesWord_iff inRange).mpr meets)

end LocState

/-- A write to a location in range: what is read afterwards from the location itself, from
the slots that share a word with it, and from every other location; that a slot is written
without changing registers, slots of other kinds and the slots next to it; and that a
search in the window finds every slot to drop. -/
theorem typed_storage (ls : LocState) {l : Loc} (inRange : l.inRange) (v : Val) :
    (ls.set l v).get l = l.keeps v ∧
    (∀ l', l' ≠ l → l.SharesWord l' → (ls.set l v).get l' = .undefined) ∧
    (∀ l', l' ≠ l → ¬ l.SharesWord l' → (ls.set l v).get l' = ls.get l') ∧
    ∀ kind ofs t, l = .slot kind ofs t →
      (∀ r, (ls.set l v).get (.reg r) = ls.get (.reg r)) ∧
      (∀ kind' ofs' t', kind' ≠ kind →
        (ls.set l v).get (.slot kind' ofs' t') = ls.get (.slot kind' ofs' t')) ∧
      (∀ ofs' t', ofs' + t'.words ≤ ofs ∨ ofs + t.words ≤ ofs' →
        (ls.set l v).get (.slot kind ofs' t') = ls.get (.slot kind ofs' t')) ∧
      ((∀ e ∈ ls.slots.entries, Loc.minOffset ≤ e.ofs) →
        ls.evictFound kind ofs t = ls.evict l) := by
  refine ⟨ls.get_set_keeps inRange v, ?_, ?_, ?_⟩
  · intro l' other shares
    exact ls.get_set_sharesWord inRange v other shares
  · intro l' other apart
    exact ls.get_set_other inRange v other apart
  · rintro kind ofs t rfl
    refine ⟨?_, ?_, ?_, ?_⟩
    · intro r
      exact ls.get_set_other inRange v (by simp) id
    · intro kind' ofs' t' otherKind
      apply ls.get_set_other inRange v
      · simp [otherKind]
      · rintro ⟨same, -⟩
        exact otherKind same.symm
    · intro ofs' t' next
      have pos := t.words_pos
      have pos' := t'.words_pos
      apply ls.get_set_other inRange v
      · rintro same
        cases same
        omega
      · rintro ⟨-, word, own, other⟩
        omega
    · intro least
      exact LocState.evictFound_eq least kind ofs t

/-! A word in the middle of two long slots and next to a third, at odd negative offsets. -/

def crowdedSlots : LocState :=
  [(-5, Typ.long, Val.long 1), (-3, .long, .long 2), (-1, .long, .long 3)].foldl
    (fun ls (ofs, t, v) => ls.setSlot .spill ofs t v)
    ((LocState.empty.setReg .ax (.int 7)).setSlot .outgoing (-4) .int (.int 8))

theorem typed_storage_crowded :
    (Loc.slot .spill (-4) .long).inRange ∧
      ∃ ls, crowdedSlots.set (.slot .spill (-4) .long) (.long 9) = ls ∧
        ls.get (.slot .spill (-4) .long) = .long 9 ∧
        ls.get (.slot .spill (-5) .long) = .undefined ∧
        ls.get (.slot .spill (-3) .long) = .undefined ∧
        ls.get (.slot .spill (-1) .long) = .long 3 ∧
        ls.get (.slot .outgoing (-4) .int) = .int 8 ∧ ls.get (.reg .ax) = .int 7 := by
  obtain ⟨kept, dropped, same, -⟩ :=
    typed_storage crowdedSlots (l := .slot .spill (-4) .long) (by decide) (.long 9)
  refine ⟨by decide, _, rfl, kept, dropped _ (by decide) ?_, dropped _ (by decide) ?_, ?_, ?_, ?_⟩
  · exact ⟨rfl, -4, by decide, by decide⟩
  · exact ⟨rfl, -3, by decide, by decide⟩
  · rw [same _ (by decide)]
    · decide
    · rintro ⟨-, word, own, other⟩
      simp only [Typ.words, Typ.size] at own other
      omega
  · rw [same _ (by decide)]
    · decide
    · rintro ⟨kinds, -⟩
      cases kinds
  · rw [same _ (by decide) id]
    decide

end LateIR
