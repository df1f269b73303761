import LateIR.Location.SlotMap

/-!
Location states: a value for every location. A slot that was not written, or was
written at another type, is undefined. Writing a slot makes the slots that
overlap it undefined, and undefined slots are not kept.
-/

namespace LateIR

/-- A value for every location. -/
structure LocState where
  regs : RegFile
  slots : SlotMap
  deriving DecidableEq

namespace LocState

/-- Every location undefined. -/
def empty : LocState := ⟨.empty, .empty⟩

def getSlot (ls : LocState) (kind : SlotKind) (ofs : Int) (t : Typ) : Val :=
  match ls.slots.find? kind ofs with
  | some e => if e.typ = t then e.val else .undefined
  | none => .undefined

def get (ls : LocState) : Loc → Val
  | .reg r => ls.regs.get r
  | .slot kind ofs t => ls.getSlot kind ofs t

def setReg (ls : LocState) (r : Reg) (v : Val) : LocState := { ls with regs := ls.regs.set r v }

/-- Drops the slots that overlap the location. -/
def evict (ls : LocState) (l : Loc) : LocState :=
  { ls with slots := ls.slots.filter fun e => !l.overlaps e.loc }

/-- The value is cut to the type of the slot, and not kept when that leaves
nothing of it. -/
def setSlot (ls : LocState) (kind : SlotKind) (ofs : Int) (t : Typ) (v : Val) : LocState :=
  let kept := ls.evict (.slot kind ofs t)
  let v := v.loadResult (.ofTyp t)
  if v.isDefined then { kept with slots := kept.slots.insert ⟨kind, ofs, t, v⟩ } else kept

def set (ls : LocState) (l : Loc) (v : Val) : LocState :=
  match l with
  | .reg r => ls.setReg r v
  | .slot kind ofs t => ls.setSlot kind ofs t v

def readRegs (ls : LocState) (rs : List Reg) : List Val := ls.regs.read rs

/-- Makes every register of the list undefined. -/
def clobber (ls : LocState) (rs : List Reg) : LocState := { ls with regs := ls.regs.clobber rs }

/-- Makes everything but the callee-saved registers and the slots undefined. -/
def clobberCallerSaved (ls : LocState) : LocState :=
  { ls with regs := ls.regs.clobberCallerSaved }

def getSplit (ls : LocState) (p : Split Loc) : Val := p.read ls.get

/-- Writes registers in order. -/
def setRegs (ls : LocState) (writes : List (Reg × Val)) : LocState :=
  { ls with regs := ls.regs.setAll writes }

def setSplit (ls : LocState) (p : Split Reg) (v : Val) : LocState := ls.setRegs (p.writes v)

instance : NumEq LocState := ⟨fun a b => numEq a.regs b.regs && numEq a.slots b.slots⟩

end LocState

end LateIR
