import LateIR.Location.State

/-!
Reading slots after writing them. A slot map finds its entries at their places
(`SlotMap.find?_eq_some_iff`), so a written slot reads back what its type keeps
of the value, slots that overlap it become undefined, and the others stay as they
were (`LocState.getSlot_setSlot`).
-/

namespace LateIR

theorem Typ.words_pos (t : Typ) : 0 < t.words := by
  cases t <;> decide

theorem Typ.words_le (t : Typ) : t.words ≤ 2 := by
  cases t <;> decide

theorem Typ.four_mul_words (t : Typ) : 4 * t.words = t.size := by
  cases t <;> rfl

theorem Loc.lt_maxOffset_of_inRange {kind : SlotKind} {ofs : Int} {t : Typ}
    (inRange : (Loc.slot kind ofs t).inRange) : ofs < maxOffset := by
  have ends : ofs + t.words ≤ maxOffset := of_decide_eq_true inRange
  have pos := t.words_pos
  omega

/-- Slots that do not meet lie one after the other. -/
theorem Loc.slotsMeet_eq_false_iff {ofs ofs' : Int} {t t' : Typ}
    (inRange : ofs + t.words ≤ maxOffset) (inRange' : ofs' + t'.words ≤ maxOffset) :
    slotsMeet ofs t ofs' t' = false ↔ ofs' + t'.words ≤ ofs ∨ ofs + t.words ≤ ofs' := by
  simp only [slotsMeet, slotEnd, Int.min_eq_left inRange, Int.min_eq_left inRange',
    Bool.and_eq_false_iff, decide_eq_false_iff_not, Int.not_lt]

theorem Loc.overlaps_comm (l l' : Loc) : l.overlaps l' = l'.overlaps l := by
  cases l <;> cases l' <;> simp [overlaps, slotsMeet, eq_comm, Bool.and_comm]

namespace SlotEntry

/-- Whether two entries are at one place. -/
def SamePlace (a b : SlotEntry) : Prop := a.kind = b.kind ∧ a.ofs = b.ofs

theorem isAt_iff {kind : SlotKind} {ofs : Int} {e : SlotEntry} :
    e.isAt kind ofs ↔ e.kind = kind ∧ e.ofs = ofs := by
  simp [isAt]

theorem SamePlace.symm {a b : SlotEntry} (same : a.SamePlace b) : b.SamePlace a :=
  ⟨same.1.symm, same.2.symm⟩

theorem not_before_of_samePlace {a b : SlotEntry} (same : a.SamePlace b) : ¬ a.Before b := by
  obtain ⟨kind, ofs⟩ := same
  unfold Before
  rw [kind, ofs]
  omega

theorem samePlace_of_not_before {a b : SlotEntry} (ab : ¬ a.Before b) (ba : ¬ b.Before a) :
    a.SamePlace b := by
  unfold Before at ab ba
  exact ⟨SlotKind.rank_inj (by omega), by omega⟩

end SlotEntry

namespace SlotMap

open SlotEntry

theorem ext_entries {m m' : SlotMap} (same : m.entries = m'.entries) : m = m' := by
  cases m
  cases same
  rfl

theorem eq_of_samePlace {l : List SlotEntry} {a b : SlotEntry} (sorted : l.Pairwise Before)
    (ma : a ∈ l) (mb : b ∈ l) (same : a.SamePlace b) : a = b := by
  induction l with
  | nil => cases ma
  | cons e rest ih =>
      obtain ⟨first, later⟩ := List.pairwise_cons.mp sorted
      rcases List.mem_cons.mp ma with rfl | restA
      · rcases List.mem_cons.mp mb with rfl | restB
        · rfl
        · exact absurd (first b restB) (not_before_of_samePlace same)
      · rcases List.mem_cons.mp mb with rfl | restB
        · exact absurd (first a restA) (not_before_of_samePlace same.symm)
        · exact ih later restA restB

/-- An entry is found at its place. -/
theorem find?_eq_some_iff {m : SlotMap} {kind : SlotKind} {ofs : Int} {e : SlotEntry} :
    m.find? kind ofs = some e ↔ e ∈ m.entries ∧ e.kind = kind ∧ e.ofs = ofs := by
  constructor
  · intro found
    exact ⟨List.mem_of_find?_eq_some found, isAt_iff.mp (List.find?_some found)⟩
  · rintro ⟨mem, rfl, rfl⟩
    cases found : m.find? e.kind e.ofs with
    | none => exact absurd (isAt_iff.mpr ⟨rfl, rfl⟩) (List.find?_eq_none.mp found e mem)
    | some x =>
        have here := isAt_iff.mp (List.find?_some found)
        exact congrArg some (eq_of_samePlace m.sorted (List.mem_of_find?_eq_some found) mem here)

theorem find?_filter (m : SlotMap) (keep : SlotEntry → Bool) (kind : SlotKind) (ofs : Int) :
    (m.filter keep).find? kind ofs = (m.find? kind ofs).filter keep := by
  apply Option.ext
  intro e
  rw [find?_eq_some_iff, Option.filter_eq_some_iff, find?_eq_some_iff, filter, List.mem_filter]
  exact and_right_comm

theorem mem_insertInto_iff {e x : SlotEntry} {l : List SlotEntry} (sorted : l.Pairwise Before) :
    x ∈ insertInto e l ↔ x = e ∨ x ∈ l ∧ ¬ x.SamePlace e := by
  induction l with
  | nil => simp [insertInto]
  | cons y rest ih =>
      obtain ⟨first, later⟩ := List.pairwise_cons.mp sorted
      unfold insertInto
      split
      · rename_i ey
        have apart : x ∈ y :: rest → ¬ x.SamePlace e := by
          intro mem same
          rcases List.mem_cons.mp mem with rfl | mem
          · exact not_before_of_samePlace same.symm ey
          · exact not_before_of_samePlace same.symm (ey.trans (first x mem))
        rw [List.mem_cons, and_iff_left_of_imp apart]
      · split
        · rename_i ye
          have apart : ¬ y.SamePlace e := fun same => not_before_of_samePlace same ye
          rw [List.mem_cons, ih later, List.mem_cons]
          constructor
          · rintro (rfl | rfl | ⟨mem, other⟩)
            · exact .inr ⟨.inl rfl, apart⟩
            · exact .inl rfl
            · exact .inr ⟨.inr mem, other⟩
          · rintro (rfl | ⟨rfl | mem, other⟩)
            · exact .inr (.inl rfl)
            · exact .inl rfl
            · exact .inr (.inr ⟨mem, other⟩)
        · rename_i ey ye
          have here : y.SamePlace e := samePlace_of_not_before ye ey
          have apart : x ∈ rest → ¬ x.SamePlace e := by
            intro mem same
            apply not_before_of_samePlace _ (first x mem)
            exact ⟨here.1.trans same.1.symm, here.2.trans same.2.symm⟩
          rw [List.mem_cons, List.mem_cons]
          constructor
          · rintro (rfl | mem)
            · exact .inl rfl
            · exact .inr ⟨.inr mem, apart mem⟩
          · rintro (rfl | ⟨rfl | mem, other⟩)
            · exact .inl rfl
            · exact absurd here other
            · exact .inr mem

theorem find?_insert (m : SlotMap) (e : SlotEntry) (kind : SlotKind) (ofs : Int) :
    (m.insert e).find? kind ofs =
      if e.kind = kind ∧ e.ofs = ofs then some e else m.find? kind ofs := by
  apply Option.ext
  intro x
  rw [find?_eq_some_iff, insert, mem_insertInto_iff m.sorted]
  split
  · rename_i here
    constructor
    · rintro ⟨rfl | ⟨-, other⟩, kind', ofs'⟩
      · rfl
      · exact absurd ⟨kind'.trans here.1.symm, ofs'.trans here.2.symm⟩ other
    · intro same
      cases same
      exact ⟨.inl rfl, here⟩
  · rename_i elsewhere
    rw [find?_eq_some_iff]
    constructor
    · rintro ⟨rfl | ⟨mem, -⟩, here⟩
      · exact absurd here elsewhere
      · exact ⟨mem, here⟩
    · rintro ⟨mem, here⟩
      refine ⟨.inr ⟨mem, ?_⟩, here⟩
      intro same
      exact elsewhere ⟨same.1.symm.trans here.1, same.2.symm.trans here.2⟩

/-- Entries that have changed their kind are found under the new one, and no
others are. -/
theorem find?_rekind (m : SlotMap) (source target kind : SlotKind) (ofs : Int) :
    (m.rekind source target).find? kind ofs =
      if kind = target then (m.find? source ofs).map fun e => { e with kind := target }
      else none := by
  apply Option.ext
  intro x
  rw [find?_eq_some_iff, rekind, List.mem_map]
  split
  · rename_i here
    rw [Option.map_eq_some_iff]
    constructor
    · rintro ⟨⟨e, mem, rfl⟩, -, rfl⟩
      obtain ⟨mem, kind'⟩ := List.mem_filter.mp mem
      exact ⟨e, find?_eq_some_iff.mpr ⟨mem, of_decide_eq_true kind', rfl⟩, rfl⟩
    · rintro ⟨e, found, rfl⟩
      obtain ⟨mem, kind', ofs'⟩ := find?_eq_some_iff.mp found
      exact ⟨⟨e, List.mem_filter.mpr ⟨mem, decide_eq_true kind'⟩, rfl⟩, here.symm, ofs'⟩
  · rename_i elsewhere
    constructor
    · rintro ⟨⟨e, -, rfl⟩, here, -⟩
      exact absurd here.symm elsewhere
    · intro none
      cases none

end SlotMap

namespace LocState

/-- Slots of another kind do not overlap. -/
theorem find?_evict_other (ls : LocState) {kind kind' : SlotKind} (other : kind' ≠ kind)
    (ofs ofs' : Int) (t : Typ) :
    (ls.evict (.slot kind ofs t)).slots.find? kind' ofs' = ls.slots.find? kind' ofs' := by
  rw [evict, SlotMap.find?_filter]
  cases found : ls.slots.find? kind' ofs' with
  | none => rfl
  | some e =>
      obtain ⟨-, kind'', -⟩ := SlotMap.find?_eq_some_iff.mp found
      have apart : (Loc.slot kind ofs t).overlaps e.loc = false := by
        simp [Loc.overlaps, SlotEntry.loc, kind'', Ne.symm other]
      rw [Option.filter_some, apart]
      rfl

theorem getSlot_evict (ls : LocState) (kind : SlotKind) (ofs ofs' : Int) (t t' : Typ) :
    (ls.evict (.slot kind ofs t)).getSlot kind ofs' t' =
      if Loc.slotsMeet ofs t ofs' t' then .undefined else ls.getSlot kind ofs' t' := by
  have kept := ls.slots.find?_filter (fun e => !(Loc.slot kind ofs t).overlaps e.loc) kind ofs'
  cases found : ls.slots.find? kind ofs' with
  | none =>
      rw [found, Option.filter_none] at kept
      simp only [getSlot, evict, kept, found, ite_self]
  | some e =>
      obtain ⟨-, kind', ofs''⟩ := SlotMap.find?_eq_some_iff.mp found
      have meets : (Loc.slot kind ofs t).overlaps e.loc = Loc.slotsMeet ofs t ofs' e.typ := by
        simp [Loc.overlaps, SlotEntry.loc, kind', ofs'']
      rw [found, Option.filter_some, meets] at kept
      simp only [getSlot, evict, kept, found]
      by_cases typed : e.typ = t'
      · subst typed
        cases Loc.slotsMeet ofs t ofs' e.typ <;> simp
      · cases Loc.slotsMeet ofs t ofs' e.typ <;> simp [typed]

theorem slotsMeet_self {ofs : Int} (small : ofs < Loc.maxOffset) (t t' : Typ) :
    Loc.slotsMeet ofs t ofs t' := by
  have beyond : ∀ t : Typ, ofs < Loc.slotEnd ofs t := by
    intro t
    have := t.words_pos
    unfold Loc.slotEnd
    omega
  simp [Loc.slotsMeet, beyond]

@[simp] theorem regs_setSlot (ls : LocState) (kind : SlotKind) (ofs : Int) (t : Typ) (v : Val) :
    (ls.setSlot kind ofs t v).regs = ls.regs := by
  simp only [setSlot]
  split <;> rfl

/-- A written slot leaves slots of other kinds as they were. -/
theorem getSlot_setSlot_other (ls : LocState) {kind kind' : SlotKind} (other : kind' ≠ kind)
    (ofs ofs' : Int) (t t' : Typ) (v : Val) :
    (ls.setSlot kind ofs t v).getSlot kind' ofs' t' = ls.getSlot kind' ofs' t' := by
  have kept := ls.find?_evict_other other ofs ofs' t
  simp only [setSlot]
  split
  · have elsewhere : ¬ (kind = kind' ∧ ofs = ofs') := fun same => other same.1.symm
    simp only [getSlot, SlotMap.find?_insert, if_neg elsewhere, kept]
  · simp only [getSlot, kept]

/-- A written slot holds what its type keeps of the value, slots that overlap it
become undefined, and the other ones stay. -/
theorem getSlot_setSlot (ls : LocState) {kind : SlotKind} {ofs ofs' : Int} {t t' : Typ} (v : Val)
    (small : ofs < Loc.maxOffset) :
    (ls.setSlot kind ofs t v).getSlot kind ofs' t' =
      if ofs' = ofs ∧ t' = t then v.loadResult (.ofTyp t)
      else if Loc.slotsMeet ofs t ofs' t' then .undefined
      else ls.getSlot kind ofs' t' := by
  have evicted := ls.getSlot_evict kind ofs ofs' t t'
  by_cases defined : (v.loadResult (.ofTyp t)).isDefined
  · have found := (ls.evict (.slot kind ofs t)).slots.find?_insert
      ⟨kind, ofs, t, v.loadResult (.ofTyp t)⟩ kind ofs'
    by_cases here : ofs' = ofs
    · subst here
      simp only [true_and, if_true] at found
      simp only [setSlot, defined, if_true, getSlot, found, true_and, slotsMeet_self small t t']
      by_cases typed : t' = t
      · rw [if_pos typed, if_pos typed.symm]
      · rw [if_neg typed, if_neg (Ne.symm typed)]
    · simp only [true_and, if_neg (Ne.symm here)] at found
      have kept : (ls.setSlot kind ofs t v).getSlot kind ofs' t' =
          (ls.evict (.slot kind ofs t)).getSlot kind ofs' t' := by
        simp only [setSlot, defined, if_true, getSlot, found]
      have other : ¬ (ofs' = ofs ∧ t' = t) := fun same => here same.1
      rw [kept, evicted, if_neg other]
  · have undefined : v.loadResult (.ofTyp t) = .undefined := by
      cases value : v.loadResult (.ofTyp t) <;> simp_all [Val.isDefined]
    have kept : ls.setSlot kind ofs t v = ls.evict (.slot kind ofs t) := by
      simp only [setSlot, defined]
      rfl
    rw [kept, evicted, undefined]
    by_cases same : ofs' = ofs ∧ t' = t
    · obtain ⟨rfl, rfl⟩ := same
      rw [slotsMeet_self small, if_pos rfl, if_pos ⟨rfl, rfl⟩]
    · rw [if_neg same]

/-- A slot holds what was defined of the value that it was written with, at any offset. -/
theorem getSlot_setSlot_defined (ls : LocState) {kind : SlotKind} {ofs : Int} {t : Typ} {v : Val}
    (defined : (v.loadResult (.ofTyp t)).isDefined) :
    (ls.setSlot kind ofs t v).getSlot kind ofs t = v.loadResult (.ofTyp t) := by
  simp only [setSlot, defined, if_true, getSlot, SlotMap.find?_insert, and_self]

/-- What a location holds after a write that fits it. -/
theorem get_set_same (ls : LocState) {l : Loc} {v : Val} (inRange : l.inRange)
    (fits : ∀ kind ofs t, l = .slot kind ofs t → v.loadResult (.ofTyp t) = v) :
    (ls.set l v).get l = v := by
  cases l with
  | reg r => exact (ls.regs.get_set r r v).trans (if_pos rfl)
  | slot kind ofs t =>
      refine (ls.getSlot_setSlot v (Loc.lt_maxOffset_of_inRange inRange)).trans ?_
      rw [if_pos ⟨rfl, rfl⟩, fits kind ofs t rfl]

/-- A write leaves locations that it does not overlap as they were. -/
theorem get_set_apart (ls : LocState) {l l' : Loc} (v : Val) (inRange : l.inRange)
    (apart : l.overlaps l' = false) : (ls.set l v).get l' = ls.get l' := by
  cases l with
  | reg r =>
      cases l' with
      | reg r' => exact (ls.regs.get_set r r' v).trans (if_neg (of_decide_eq_false apart))
      | slot kind' ofs' t' => rfl
  | slot kind ofs t =>
      cases l' with
      | reg r' => exact congrArg (RegFile.get · r') (ls.regs_setSlot kind ofs t v)
      | slot kind' ofs' t' =>
          by_cases other : kind' = kind
          · subst other
            have small := Loc.lt_maxOffset_of_inRange inRange
            have noMeet : Loc.slotsMeet ofs t ofs' t' = false := by
              simpa [Loc.overlaps] using apart
            have elsewhere : ¬ (ofs' = ofs ∧ t' = t) := by
              rintro ⟨rfl, rfl⟩
              rw [slotsMeet_self small] at noMeet
              cases noMeet
            show (ls.setSlot kind' ofs t v).getSlot kind' ofs' t' = ls.getSlot kind' ofs' t'
            rw [getSlot_setSlot ls v small, if_neg elsewhere, noMeet]
            rfl
          · exact ls.getSlot_setSlot_other other ofs ofs' t t' v

end LocState

end LateIR
