import LateIR.Proofs.Definedness.Location
import LateIR.Proofs.Location.Extensional
import LateIR.Proofs.Storage

/-!
Canonical location states. Their slots hold defined values of their types and have no word in
common, so what is read determines what is stored (`LocState.Canonical.eq_of_get`). Writes and
call boundaries keep location states canonical, and a callee that is entered by writing the
outgoing slots one after the other finds all of them (`LocState.Canonical.atCallByWrites_eq`).
-/

namespace LateIR

/-- Whether the location is a register or a slot at a 64-bit offset. -/
def Loc.isAddressable : Loc → Bool
  | reg _ => true
  | slot _ ofs _ => minOffset ≤ ofs && ofs ≤ maxOffset

namespace Val

theorem hasType_loadResult (v : Val) (t : Typ) : (v.loadResult (.ofTyp t)).hasType t := by
  cases t <;> cases v <;> rfl

theorem loadResult_ofTyp_twice (v : Val) (t : Typ) :
    (v.loadResult (.ofTyp t)).loadResult (.ofTyp t) = v.loadResult (.ofTyp t) := by
  cases t <;> cases v <;> rfl

end Val

namespace LocState

theorem eq_of_parts {ls ls' : LocState} (regs : ls.regs = ls'.regs)
    (slots : ∀ e, e ∈ ls.slots.entries ↔ e ∈ ls'.slots.entries) : ls = ls' := by
  have slots := SlotMap.ext_mem slots
  cases ls
  cases ls'
  cases regs
  cases slots
  rfl

/-! ### Entries as slots that are read -/

theorem getSlot_of_mem {ls : LocState} {e : SlotEntry} (mem : e ∈ ls.slots.entries) :
    ls.getSlot e.kind e.ofs e.typ = e.val := by
  simp only [getSlot, SlotMap.find?_eq_some_iff.mpr ⟨mem, rfl, rfl⟩, if_true]

/-- A slot that reads as a defined value has an entry. -/
theorem mem_of_getSlot {ls : LocState} {e : SlotEntry} (defined : e.val.isDefined)
    (read : ls.getSlot e.kind e.ofs e.typ = e.val) : e ∈ ls.slots.entries := by
  unfold getSlot at read
  split at read
  · rename_i x found
    obtain ⟨mem, kind, ofs⟩ := SlotMap.find?_eq_some_iff.mp found
    split at read
    · rename_i typ
      cases e
      cases x
      cases kind
      cases ofs
      cases typ
      cases read
      exact mem
    · rw [← read] at defined
      cases defined
  · rw [← read] at defined
    cases defined

/-! ### Canonical states -/

end LocState

/-- Whether an entry is worth keeping: a slot in range with a defined value of its type. -/
structure SlotEntry.Proper (e : SlotEntry) : Prop where
  inRange : e.loc.inRange
  addressable : e.loc.isAddressable
  defined : e.val.isDefined
  normal : e.val.loadResult (.ofTyp e.typ) = e.val

/-- The entry of a callee for an outgoing slot of its caller. -/
def SlotEntry.passed (e : SlotEntry) : SlotEntry := { e with kind := .incoming }

theorem SlotEntry.Proper.passed {e : SlotEntry} (proper : e.Proper) : e.passed.Proper :=
  ⟨proper.inRange, proper.addressable, proper.defined, proper.normal⟩

theorem SlotEntry.overlaps_passed {e e' : SlotEntry} (outgoing : e.kind = .outgoing)
    (outgoing' : e'.kind = .outgoing) :
    e.passed.loc.overlaps e'.passed.loc = e.loc.overlaps e'.loc := by
  simp [Loc.overlaps, loc, SlotEntry.passed, outgoing, outgoing']

namespace LocState

/-- Whether the entries are worth keeping and not in the way of each other. -/
structure Canonical (ls : LocState) : Prop where
  proper : ∀ e ∈ ls.slots.entries, e.Proper
  apart : ∀ e ∈ ls.slots.entries, ∀ e' ∈ ls.slots.entries, e ≠ e' → e.loc.overlaps e'.loc = false

theorem mem_atCall_iff {ls : LocState} {x : SlotEntry} :
    x ∈ ls.atCall.slots.entries ↔ ∃ e ∈ ls.slots.entries, e.kind = .outgoing ∧ e.passed = x := by
  simp only [atCall, SlotMap.rekind, List.mem_map, List.mem_filter, decide_eq_true_eq, and_assoc]
  rfl

/-- Whether no slot overlaps the one of the entry. -/
def FreeFor (ls : LocState) (e : SlotEntry) : Prop :=
  ∀ x ∈ ls.slots.entries, e.loc.overlaps x.loc = false

/-- A slot that is written where it overlaps nothing is added to the others. -/
theorem setSlot_eq_insert {ls : LocState} {e : SlotEntry} (proper : e.Proper)
    (free : ls.FreeFor e) :
    ls.setSlot e.kind e.ofs e.typ e.val = { ls with slots := ls.slots.insert e } := by
  have all : ls.evict (.slot e.kind e.ofs e.typ) = ls := by
    apply congrArg (LocState.mk ls.regs)
    apply SlotMap.ext_entries
    apply List.filter_eq_self.mpr
    intro x mem
    exact (Bool.not_eq_true' _).mpr (free x mem)
  simp only [setSlot, all, proper.normal, proper.defined, if_true]

/-- It takes no place of another one then. -/
theorem mem_insert_iff {ls : LocState} {e : SlotEntry} (proper : e.Proper) (free : ls.FreeFor e)
    (x : SlotEntry) : x ∈ (ls.slots.insert e).entries ↔ x = e ∨ x ∈ ls.slots.entries := by
  have elsewhere : x ∈ ls.slots.entries → ¬ x.SamePlace e := by
    rintro mem ⟨kind, ofs⟩
    have small := Loc.lt_maxOffset_of_inRange proper.inRange
    have meets := slotsMeet_self small e.typ x.typ
    have apart := free x mem
    simp [Loc.overlaps, SlotEntry.loc, kind, ofs, meets] at apart
  rw [SlotMap.insert, SlotMap.mem_insertInto_iff ls.slots.sorted, and_iff_left_of_imp elsewhere]

namespace Canonical

variable {ls ls' : LocState}

theorem empty : LocState.empty.Canonical :=
  ⟨fun _ mem => absurd mem List.not_mem_nil, fun _ mem => absurd mem List.not_mem_nil⟩

/-- Registers may hold anything. -/
theorem withRegs (canonical : ls.Canonical) (regs : RegFile) :
    Canonical { ls with regs := regs } :=
  ⟨canonical.proper, canonical.apart⟩

theorem filter (canonical : ls.Canonical) (regs : RegFile) (keep : SlotEntry → Bool) :
    Canonical ⟨regs, ls.slots.filter keep⟩ := by
  have sub : ∀ e ∈ (ls.slots.filter keep).entries, e ∈ ls.slots.entries :=
    fun e mem => (List.mem_filter.mp mem).1
  constructor
  · intro e mem
    exact canonical.proper e (sub e mem)
  · intro e mem e' mem'
    exact canonical.apart e (sub e mem) e' (sub e' mem')

theorem insert (canonical : ls.Canonical) {e : SlotEntry} (proper : e.Proper)
    (free : ls.FreeFor e) : Canonical { ls with slots := ls.slots.insert e } := by
  constructor
  · intro x mem
    rcases SlotMap.mem_insertInto mem with rfl | mem
    · exact proper
    · exact canonical.proper x mem
  · intro x mem x' mem' other
    rcases SlotMap.mem_insertInto mem with rfl | old
    · rcases SlotMap.mem_insertInto mem' with rfl | old'
      · exact absurd rfl other
      · exact free x' old'
    · rcases SlotMap.mem_insertInto mem' with rfl | old'
      · rw [Loc.overlaps_comm]
        exact free x old
      · exact canonical.apart x old x' old' other

theorem setSlot (canonical : ls.Canonical) {kind : SlotKind} {ofs : Int} {t : Typ} (v : Val)
    (inRange : (Loc.slot kind ofs t).inRange)
    (addressable : (Loc.slot kind ofs t).isAddressable) : (ls.setSlot kind ofs t v).Canonical := by
  have kept : (ls.evict (.slot kind ofs t)).Canonical := canonical.filter _ _
  simp only [LocState.setSlot]
  split
  · rename_i defined
    apply kept.insert (e := ⟨kind, ofs, t, v.loadResult (.ofTyp t)⟩)
    · exact ⟨inRange, addressable, defined, v.loadResult_ofTyp_twice t⟩
    · intro x mem
      exact (Bool.not_eq_true' _).mp (List.mem_filter.mp mem).2
  · exact kept

theorem atCall (canonical : ls.Canonical) : ls.atCall.Canonical := by
  constructor
  · intro e mem
    obtain ⟨s, here, -, rfl⟩ := mem_atCall_iff.mp mem
    exact (canonical.proper s here).passed
  · intro e mem e' mem' other
    obtain ⟨s, here, outgoing, rfl⟩ := mem_atCall_iff.mp mem
    obtain ⟨s', here', outgoing', rfl⟩ := mem_atCall_iff.mp mem'
    rw [SlotEntry.overlaps_passed outgoing outgoing']
    exact canonical.apart s here s' here' fun same => other (congrArg SlotEntry.passed same)

theorem afterReturn (canonical : ls.Canonical) (callee : LocState) :
    (ls.afterReturn callee).Canonical :=
  canonical.filter _ _

/-- No word belongs to two slots. -/
theorem not_sharesWord (canonical : ls.Canonical) {e e' : SlotEntry}
    (mem : e ∈ ls.slots.entries) (mem' : e' ∈ ls.slots.entries) (other : e ≠ e') :
    ¬ e.loc.SharesWord e'.loc := by
  intro shares
  have meets := (Loc.sharesWord_iff (canonical.proper e mem).inRange).mp shares
  exact Bool.false_ne_true ((canonical.apart e mem e' mem' other).symm.trans meets)

/-- States in which the same is read everywhere are the same. -/
theorem eq_of_get (canonical : ls.Canonical) (canonical' : ls'.Canonical)
    (same : ∀ l : Loc, l.isAddressable → ls.get l = ls'.get l) : ls = ls' := by
  apply eq_of_parts (RegFile.ext_get fun r => same (.reg r) rfl)
  intro e
  constructor
  · intro mem
    have proper := canonical.proper e mem
    have read := same e.loc proper.addressable
    exact mem_of_getSlot proper.defined (read.symm.trans (getSlot_of_mem mem))
  · intro mem
    have proper := canonical'.proper e mem
    have read := same e.loc proper.addressable
    exact mem_of_getSlot proper.defined (read.trans (getSlot_of_mem mem))

end Canonical

/-! ### Entering a callee by writes -/

/-- Writes an outgoing slot of the caller as an incoming one. -/
def passSlot (ls : LocState) (e : SlotEntry) : LocState :=
  if e.kind = .outgoing then ls.set (.slot .incoming e.ofs e.typ) e.val else ls

/-- The state in which a callee starts, with the caller's outgoing slots written one after the
other. -/
def atCallByWrites (caller : LocState) : LocState :=
  caller.slots.entries.foldl passSlot ⟨caller.regs, .empty⟩

theorem regs_foldl_passSlot (entries : List SlotEntry) (ls : LocState) :
    (entries.foldl passSlot ls).regs = ls.regs := by
  induction entries generalizing ls with
  | nil => rfl
  | cons e rest ih =>
      rw [List.foldl_cons, ih, passSlot]
      split
      · exact ls.regs_setSlot .incoming e.ofs e.typ e.val
      · rfl

/-- Outgoing slots that overlap neither each other nor what is there all arrive. -/
theorem mem_foldl_passSlot {entries : List SlotEntry} {ls : LocState}
    (proper : ∀ e ∈ entries, e.Proper)
    (apart : entries.Pairwise fun e e' => e.loc.overlaps e'.loc = false)
    (free : ∀ e ∈ entries, e.kind = .outgoing → ls.FreeFor e.passed) (x : SlotEntry) :
    x ∈ (entries.foldl passSlot ls).slots.entries ↔
      x ∈ ls.slots.entries ∨ ∃ e ∈ entries, e.kind = .outgoing ∧ e.passed = x := by
  induction entries generalizing ls with
  | nil => simp
  | cons e rest ih =>
      obtain ⟨properE, properRest⟩ := List.forall_mem_cons.mp proper
      obtain ⟨apartE, apartRest⟩ := List.pairwise_cons.mp apart
      obtain ⟨freeE, freeRest⟩ := List.forall_mem_cons.mp free
      rw [List.foldl_cons, List.exists_mem_cons_iff]
      by_cases outgoing : e.kind = .outgoing
      · have passed := properE.passed
        have step : ls.passSlot e = { ls with slots := ls.slots.insert e.passed } := by
          rw [passSlot, if_pos outgoing]
          exact setSlot_eq_insert passed (freeE outgoing)
        have added := fun y => mem_insert_iff passed (freeE outgoing) y
        have freeAfter : ∀ e' ∈ rest, e'.kind = .outgoing → (ls.passSlot e).FreeFor e'.passed := by
          intro e' mem outgoing' y here
          rw [step] at here
          rcases (added y).mp here with rfl | here
          · rw [SlotEntry.overlaps_passed outgoing' outgoing, Loc.overlaps_comm]
            exact apartE e' mem
          · exact freeRest e' mem outgoing' y here
        rw [ih properRest apartRest freeAfter, step, added, and_iff_right outgoing,
          eq_comm (a := x), or_assoc, or_left_comm]
      · have step : ls.passSlot e = ls := if_neg outgoing
        rw [step, ih properRest apartRest freeRest]
        simp [outgoing]

/-- A callee that is entered by writes finds what the caller left for it. -/
theorem Canonical.atCallByWrites_eq {ls : LocState} (canonical : ls.Canonical) :
    ls.atCallByWrites = ls.atCall := by
  have apart : ls.slots.entries.Pairwise fun e e' => e.loc.overlaps e'.loc = false := by
    apply ls.slots.sorted.imp_of_mem
    intro e e' mem mem' before
    apply canonical.apart e mem e' mem'
    rintro rfl
    exact e.not_before_self before
  have regs : ls.atCallByWrites.regs = ls.atCall.regs := regs_foldl_passSlot _ _
  apply eq_of_parts regs
  intro x
  have free : ∀ e ∈ ls.slots.entries, e.kind = .outgoing →
      FreeFor ⟨ls.regs, .empty⟩ e.passed := fun _ _ _ _ mem => absurd mem List.not_mem_nil
  rw [atCallByWrites, mem_foldl_passSlot canonical.proper apart free, mem_atCall_iff]
  exact or_iff_right List.not_mem_nil

end LocState

end LateIR
