import LateIR.Proofs.Location.Canonical

/-!
Location states are canonical however they were built. They keep no undefined value, no value
that is not of its slot's type, and no two slots with a word in common, so that two of them are
the same state exactly when the same is read from them everywhere (`built_canonical`).
-/

namespace LateIR

namespace LocState

/-- The location states that writes to locations in range, writes and losses of registers, and
crossings of call boundaries lead to. -/
inductive Built : LocState → Prop where
  | empty : Built .empty
  | set {ls : LocState} (built : Built ls) (l : Loc) (v : Val) (inRange : l.inRange)
      (addressable : l.isAddressable) : Built (ls.set l v)
  | setSplit {ls : LocState} (built : Built ls) (place : Split Reg) (v : Val) :
      Built (ls.setSplit place v)
  | clobber {ls : LocState} (built : Built ls) (rs : List Reg) : Built (ls.clobber rs)
  | clobberCallerSaved {ls : LocState} (built : Built ls) : Built ls.clobberCallerSaved
  | atCall {caller : LocState} (built : Built caller) : Built caller.atCall
  /-- The outgoing slots may also be written one after the other. -/
  | atCallByWrites {caller : LocState} (built : Built caller) : Built caller.atCallByWrites
  | afterReturn {caller callee : LocState} (built : Built caller) (inner : Built callee) :
      Built (caller.afterReturn callee)

theorem Canonical.set {ls : LocState} (canonical : ls.Canonical) {l : Loc} (v : Val)
    (inRange : l.inRange) (addressable : l.isAddressable) : (ls.set l v).Canonical := by
  cases l with
  | reg r => exact canonical.withRegs _
  | slot kind ofs t => exact canonical.setSlot v inRange addressable

/-- By induction on how the state was built: every operation keeps the normal form. -/
theorem Built.canonical {ls : LocState} (built : ls.Built) : ls.Canonical := by
  induction built with
  | empty => exact .empty
  | set _ l v inRange addressable ih => exact ih.set v inRange addressable
  | setSplit _ place v ih => exact ih.withRegs _
  | clobber _ rs ih => exact ih.withRegs _
  | clobberCallerSaved _ ih => exact ih.withRegs _
  | atCall _ ih => exact ih.atCall
  | atCallByWrites _ ih =>
      rw [ih.atCallByWrites_eq]
      exact ih.atCall
  | afterReturn _ _ ih _ => exact ih.afterReturn _

end LocState

/-- A location state that was built holds in its slots defined values, which are what their
types keep of them and fit the types, and no two slots share a word. It is the same as another
one exactly when every location reads the same in both. -/
theorem built_canonical {ls ls' : LocState} (built : ls.Built) (built' : ls'.Built) :
    (∀ e ∈ ls.slots.entries, e.val.isDefined ∧ e.val.loadResult (.ofTyp e.typ) = e.val ∧
      e.val.hasType e.typ) ∧
    (∀ e ∈ ls.slots.entries, ∀ e' ∈ ls.slots.entries, e ≠ e' → ¬ e.loc.SharesWord e'.loc) ∧
    (ls = ls' ↔ ∀ l : Loc, l.isAddressable → ls.get l = ls'.get l) := by
  have canonical := built.canonical
  refine ⟨?_, ?_, ?_, canonical.eq_of_get built'.canonical⟩
  · intro e mem
    have normal := (canonical.proper e mem).normal
    refine ⟨(canonical.proper e mem).defined, normal, ?_⟩
    rw [← normal]
    exact e.val.hasType_loadResult e.typ
  · intro e mem e' mem' other
    exact canonical.not_sharesWord mem mem' other
  · rintro rfl l -
    rfl

/-! A slot that is overwritten in part by a callee, against one that is written at once. -/

def overwrittenSlots : LocState :=
  (LocState.empty.set (.slot .outgoing 0 .long) (.ptr 3 8)).atCall.set (.slot .incoming 1 .single)
    (.single ⟨0x7fc00000⟩)

theorem built_overwrittenSlots : overwrittenSlots.Built :=
  .set (.atCall (.set .empty _ _ (by decide) (by decide))) _ _ (by decide) (by decide)

theorem built_canonical_overwrittenSlots :
    ∃ direct, LocState.empty.set (.slot .incoming 1 .single) (.single ⟨0x7fc00000⟩) = direct ∧
      overwrittenSlots.Built ∧ direct.Built ∧
      (∀ e ∈ overwrittenSlots.slots.entries, e.val.hasType e.typ) ∧
      overwrittenSlots = direct ∧
      ∀ l : Loc, l.isAddressable → overwrittenSlots.get l = direct.get l := by
  have built : (LocState.empty.set (.slot .incoming 1 .single) (.single ⟨0x7fc00000⟩)).Built :=
    .set .empty _ _ (by decide) (by decide)
  obtain ⟨typed, -, same⟩ := built_canonical built_overwrittenSlots built
  have equal : overwrittenSlots =
      LocState.empty.set (.slot .incoming 1 .single) (.single ⟨0x7fc00000⟩) := by decide
  exact ⟨_, rfl, built_overwrittenSlots, built, fun e mem => (typed e mem).2.2, equal,
    same.mp equal⟩

end LateIR
