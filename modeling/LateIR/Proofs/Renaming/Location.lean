import LateIR.Builtin
import LateIR.Proofs.Convention.Boundary
import LateIR.Proofs.Location.Slots
import LateIR.Proofs.Renaming.Values

/-!
Renaming the blocks that registers and slots name. Which locations are written, evicted and
carried over does not depend on the blocks, so every operation on a location state passes
through a renaming. The equations move the renaming outwards.
-/

namespace LateIR

variable {ρ : BlockId → BlockId}

/-- Writes to places, with the values renamed. -/
def renameWrites {L : Type} (ρ : BlockId → BlockId) (writes : List (L × Val)) : List (L × Val) :=
  writes.map (Prod.map id (Val.rename ρ))

theorem renameWrites_cons {L : Type} (l : L) (v : Val) (rest : List (L × Val)) :
    renameWrites ρ ((l, v) :: rest) = (l, v.rename ρ) :: renameWrites ρ rest := rfl

/-- A builtin writes its result to the same places after the renaming; the words of a long name no
blocks. -/
theorem BuiltinRes.writes_rename (res : BuiltinRes) (v : Val) :
    res.writes (v.rename ρ) = renameWrites ρ (res.writes v) := by
  cases res with
  | into place =>
      cases place with
      | whole r => rfl
      | halves high low =>
          simp only [writes, Split.writes, Val.highWord_rename, Val.lowWord_rename]
          rfl
  | nowhere => rfl

/-! ### Registers -/

namespace RegFile

/-- The registers with every pointer in them renamed. -/
def rename (ρ : BlockId → BlockId) (file : RegFile) : RegFile := ⟨file.vals.map (Val.rename ρ)⟩

variable (file : RegFile)

@[simp] theorem get_rename (r : Reg) : (file.rename ρ).get r = (file.get r).rename ρ := by
  simp [get, rename]

theorem rename_empty : empty.rename ρ = empty := by
  apply ext_get
  intro r
  rw [get_rename, get_empty]
  rfl

/-- Writing a renamed value is renaming after the write. -/
theorem set_rename (r : Reg) (v : Val) :
    (file.rename ρ).set r (v.rename ρ) = (file.set r v).rename ρ := by
  apply ext_get
  intro s
  rw [get_rename, get_set, get_set, get_rename, apply_ite (Val.rename ρ)]

theorem read_rename (rs : List Reg) :
    (file.rename ρ).read rs = (file.read rs).map (Val.rename ρ) := by
  simp [read]

/-- Which registers a step clobbers does not depend on what they hold. -/
theorem clobber_rename (rs : List Reg) :
    (file.rename ρ).clobber rs = (file.clobber rs).rename ρ := by
  apply ext_get
  intro r
  rw [get_rename, get_clobber, get_clobber, get_rename, apply_ite (Val.rename ρ)]
  rfl

theorem setAll_rename (writes : List (Reg × Val)) :
    (file.rename ρ).setAll (renameWrites ρ writes) = (file.setAll writes).rename ρ := by
  induction writes generalizing file with
  | nil => rfl
  | cons first rest ih =>
      have later := ih (file.set first.1 first.2)
      rw [← set_rename] at later
      exact later

/-- Callee-saved registers come from the caller and the others from the callee, each renamed where
it came from. -/
theorem afterReturn_rename (callee : RegFile) :
    (file.rename ρ).afterReturn (callee.rename ρ) = (file.afterReturn callee).rename ρ := by
  apply ext_get
  intro r
  simp only [get_rename, get_afterReturn, apply_ite (Val.rename ρ)]

/-- After an external call the caller-saved registers are undefined, but for the one that holds the
result. -/
theorem afterExternal_rename (s : Signature) (result : Val) :
    (file.rename ρ).afterExternal s (result.rename ρ) = (file.afterExternal s result).rename ρ := by
  simp only [afterExternal, clobberCallerSaved, clobber_rename, set_rename]

end RegFile

/-! ### Slots -/

/-- The entry at the same place with its value renamed. -/
def SlotEntry.rename (ρ : BlockId → BlockId) (e : SlotEntry) : SlotEntry :=
  { e with val := e.val.rename ρ }

namespace SlotMap

/-- The slots with every pointer in them renamed. Entries keep their places, so they stay sorted. -/
def rename (ρ : BlockId → BlockId) (m : SlotMap) : SlotMap where
  entries := m.entries.map (SlotEntry.rename ρ)
  sorted := List.pairwise_map.mpr m.sorted

variable (m : SlotMap)

theorem rename_empty : empty.rename ρ = empty := rfl

theorem find?_rename (kind : SlotKind) (ofs : Int) :
    (m.rename ρ).find? kind ofs = (m.find? kind ofs).map (SlotEntry.rename ρ) :=
  List.find?_map

/-- A filter that looks at the place and the type of an entry, and not at its value, keeps the same
entries of a renamed map. Eviction and the return from a call filter so. -/
theorem filter_rename {keep : SlotEntry → Bool} (blind : ∀ e, keep (e.rename ρ) = keep e) :
    (m.rename ρ).filter keep = (m.filter keep).rename ρ := by
  apply ext_entries
  simp only [filter, rename, List.filter_map, Function.comp_def, blind]

/-- Where an entry is inserted depends on the places of the entries only. -/
theorem insertInto_rename (e : SlotEntry) (entries : List SlotEntry) :
    insertInto (e.rename ρ) (entries.map (SlotEntry.rename ρ)) =
      (insertInto e entries).map (SlotEntry.rename ρ) := by
  induction entries with
  | nil => rfl
  | cons x rest ih =>
      have before : ∀ a b : SlotEntry, (a.rename ρ).Before (b.rename ρ) ↔ a.Before b :=
        fun _ _ => Iff.rfl
      simp only [List.map_cons, insertInto, before, ih]
      split
      · rfl
      · split <;> rfl

theorem insert_rename (e : SlotEntry) :
    (m.rename ρ).insert (e.rename ρ) = (m.insert e).rename ρ :=
  ext_entries (insertInto_rename e m.entries)

theorem rekind_rename (source target : SlotKind) :
    (m.rename ρ).rekind source target = (m.rekind source target).rename ρ := by
  apply ext_entries
  simp only [rekind, rename, List.filter_map, List.map_map]
  rfl

end SlotMap

/-! ### Location states -/

namespace LocState

/-- The location state with every pointer in a register or a slot renamed. -/
def rename (ρ : BlockId → BlockId) (ls : LocState) : LocState :=
  ⟨ls.regs.rename ρ, ls.slots.rename ρ⟩

variable (ls : LocState)

@[simp] theorem regs_rename : (ls.rename ρ).regs = ls.regs.rename ρ := rfl

theorem rename_empty : empty.rename ρ = empty := by
  rw [rename, empty, RegFile.rename_empty, SlotMap.rename_empty]

/-- A slot read at another type than it was written at is undefined before and after the renaming.
-/
theorem getSlot_rename (kind : SlotKind) (ofs : Int) (t : Typ) :
    (ls.rename ρ).getSlot kind ofs t = (ls.getSlot kind ofs t).rename ρ := by
  simp only [getSlot, rename, SlotMap.find?_rename]
  cases ls.slots.find? kind ofs with
  | none => rfl
  | some e =>
      show (if e.typ = t then _ else _) = _
      split <;> simp_all [SlotEntry.rename, Val.rename]

theorem get_rename (l : Loc) : (ls.rename ρ).get l = (ls.get l).rename ρ := by
  cases l with
  | reg r => exact ls.regs.get_rename r
  | slot kind ofs t => exact ls.getSlot_rename kind ofs t

theorem setReg_rename (r : Reg) (v : Val) :
    (ls.rename ρ).setReg r (v.rename ρ) = (ls.setReg r v).rename ρ :=
  congrArg (LocState.mk · (ls.slots.rename ρ)) (ls.regs.set_rename r v)

theorem setRegs_rename (writes : List (Reg × Val)) :
    (ls.rename ρ).setRegs (renameWrites ρ writes) = (ls.setRegs writes).rename ρ :=
  congrArg (LocState.mk · (ls.slots.rename ρ)) (ls.regs.setAll_rename writes)

theorem evict_rename (l : Loc) : (ls.rename ρ).evict l = (ls.evict l).rename ρ :=
  congrArg (LocState.mk (ls.regs.rename ρ)) (ls.slots.filter_rename fun _ => rfl)

/-- A store into a slot evicts what it overlaps and cuts the value to the type of the slot. Neither
depends on which block a pointer names, and an undefined value stays undefined. -/
theorem setSlot_rename (kind : SlotKind) (ofs : Int) (t : Typ) (v : Val) :
    (ls.rename ρ).setSlot kind ofs t (v.rename ρ) = (ls.setSlot kind ofs t v).rename ρ := by
  simp only [setSlot, evict_rename, Val.loadResult_rename, Val.isDefined_rename]
  split
  · exact congrArg (LocState.mk (ls.regs.rename ρ))
      ((ls.evict (.slot kind ofs t)).slots.insert_rename ⟨kind, ofs, t, v.loadResult (.ofTyp t)⟩)
  · rfl

/-- Locations written and evicted by `set` are the same for a renamed value. -/
theorem set_rename (l : Loc) (v : Val) :
    (ls.rename ρ).set l (v.rename ρ) = (ls.set l v).rename ρ := by
  cases l with
  | reg r => exact ls.setReg_rename r v
  | slot kind ofs t => exact ls.setSlot_rename kind ofs t v

theorem readRegs_rename (rs : List Reg) :
    (ls.rename ρ).readRegs rs = (ls.readRegs rs).map (Val.rename ρ) :=
  ls.regs.read_rename rs

theorem clobber_rename (rs : List Reg) : (ls.rename ρ).clobber rs = (ls.clobber rs).rename ρ :=
  congrArg (LocState.mk · (ls.slots.rename ρ)) (ls.regs.clobber_rename rs)

/-! #### Calls -/

theorem atCall_rename : (ls.rename ρ).atCall = ls.atCall.rename ρ :=
  congrArg (LocState.mk (ls.regs.rename ρ)) (ls.slots.rekind_rename .outgoing .incoming)

theorem afterReturn_rename (callee : LocState) :
    (ls.rename ρ).afterReturn (callee.rename ρ) = (ls.afterReturn callee).rename ρ := by
  simp only [afterReturn, rename, RegFile.afterReturn_rename]
  exact congrArg (LocState.mk _) (ls.slots.filter_rename fun _ => rfl)

theorem afterExternal_rename (s : Signature) (result : Val) :
    (ls.rename ρ).afterExternal s (result.rename ρ) = (ls.afterExternal s result).rename ρ := by
  simp only [afterExternal, rename, RegFile.afterExternal_rename]

/-- The arguments a callee finds for a signature are the renamed ones. -/
theorem args_rename (s : Signature) :
    (ls.rename ρ).args s = (ls.args s).map (Val.rename ρ) := by
  simp [args, get_rename]

/-- Placing renamed arguments gives the renamed location state, or the same error. -/
theorem placeArgs_rename (places : List (Loc × Val)) :
    (ls.rename ρ).placeArgs (renameWrites ρ places) = (ls.placeArgs places).map (rename ρ) := by
  induction places generalizing ls with
  | nil => rfl
  | cons first rest ih =>
      obtain ⟨l, v⟩ := first
      have later := ih (ls.set l v)
      rw [← set_rename] at later
      rw [renameWrites_cons, placeArgs, placeArgs]
      cases l.checkOutgoing with
      | error e => rfl
      | ok => exact later

/-- The location state of a program entered with renamed arguments. -/
theorem ofArgs_rename (s : Signature) (args : List Val) :
    ofArgs s (args.map (Val.rename ρ)) = (ofArgs s args).map (rename ρ) := by
  have placed := empty.placeArgs_rename (ρ := ρ) (s.argLocs.zip args)
  rw [rename_empty, renameWrites, ← List.zip_map_right] at placed
  exact placed

end LocState

end LateIR
