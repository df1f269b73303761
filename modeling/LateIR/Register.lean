import LateIR.Value

/-!
Machine registers and the register file. There are fifteen integer registers
and sixteen floating-point ones; the stack pointer is part of the states and not
a register.
-/

namespace LateIR

/-- A machine register. -/
inductive Reg where
  | ax | bx | cx | dx | si | di | bp
  | r8 | r9 | r10 | r11 | r12 | r13 | r14 | r15
  | x0 | x1 | x2 | x3 | x4 | x5 | x6 | x7
  | x8 | x9 | x10 | x11 | x12 | x13 | x14 | x15
  deriving DecidableEq

namespace Reg

/-- Number of registers. -/
def count : Nat := 31

/-- Every register, in index order. -/
def all : List Reg :=
  [ax, bx, cx, dx, si, di, bp, r8, r9, r10, r11, r12, r13, r14, r15,
    x0, x1, x2, x3, x4, x5, x6, x7, x8, x9, x10, x11, x12, x13, x14, x15]

def index (r : Reg) : Fin count := ⟨r.ctorIdx, by cases r <;> decide⟩

/-- Registers that a function leaves as it found them. -/
def calleeSaved : List Reg := [bx, bp, r12, r13, r14, r15]

def isCalleeSaved (r : Reg) : Bool := r ∈ calleeSaved

/-- Integer argument registers, in order. -/
def intParams : List Reg := [di, si, dx, cx, r8, r9]

/-- Floating-point argument registers, in order. -/
def floatParams : List Reg := [x0, x1, x2, x3, x4, x5, x6, x7]

/-- Scratch register for the caller's frame while a parameter is read. -/
def parentFrame : Reg := ax

def isFloat (r : Reg) : Bool := 15 ≤ r.index.val

def text : Reg → String
  | ax => "ax" | bx => "bx" | cx => "cx" | dx => "dx" | si => "si" | di => "di" | bp => "bp"
  | r8 => "r8" | r9 => "r9" | r10 => "r10" | r11 => "r11" | r12 => "r12" | r13 => "r13"
  | r14 => "r14" | r15 => "r15"
  | x0 => "x0" | x1 => "x1" | x2 => "x2" | x3 => "x3" | x4 => "x4" | x5 => "x5" | x6 => "x6"
  | x7 => "x7" | x8 => "x8" | x9 => "x9" | x10 => "x10" | x11 => "x11" | x12 => "x12"
  | x13 => "x13" | x14 => "x14" | x15 => "x15"

/-- The texts of the registers, separated by commas. -/
def listText (rs : List Reg) : String := ", ".intercalate (rs.map text)

theorem mem_all (r : Reg) : r ∈ all := by cases r <;> decide

theorem index_inj {r s : Reg} (h : r.index = s.index) : r = s := by
  cases r <;> cases s <;> first | rfl | exact absurd h (by decide)

end Reg

/-- A value for every register. -/
structure RegFile where
  vals : Vector Val Reg.count
  deriving DecidableEq

namespace RegFile

/-- Every register undefined. -/
def empty : RegFile := ⟨.replicate Reg.count .undefined⟩

def get (file : RegFile) (r : Reg) : Val := file.vals[r.index]

def set (file : RegFile) (r : Reg) (v : Val) : RegFile := ⟨file.vals.set r.index v⟩

def read (file : RegFile) (rs : List Reg) : List Val := rs.map file.get

/-- Makes every register of the list undefined. -/
def clobber (file : RegFile) (rs : List Reg) : RegFile :=
  rs.foldl (fun f r => f.set r .undefined) file

/-- Writes registers in order. -/
def setAll (file : RegFile) (writes : List (Reg × Val)) : RegFile :=
  writes.foldl (fun f (r, v) => f.set r v) file

/-- The registers that a call may change. -/
def callerSaved : List Reg := Reg.all.filter fun r => !r.isCalleeSaved

/-- Makes everything but the callee-saved registers undefined. -/
def clobberCallerSaved (file : RegFile) : RegFile := file.clobber callerSaved

/-- The defined registers with their values, in index order. -/
def defined (file : RegFile) : List (Reg × Val) :=
  (Reg.all.map fun r => (r, file.get r)).filter fun (_, v) => v.isDefined

instance : NumEq RegFile := ⟨fun a b => numEq a.vals.toList b.vals.toList⟩

theorem get_set (file : RegFile) (r s : Reg) (v : Val) :
    (file.set r v).get s = if r = s then v else file.get s := by
  by_cases h : r = s
  · simp [h, get, set]
  · have ne : r.index.val ≠ s.index.val := fun e => h (Reg.index_inj (Fin.ext e))
    simp [h, get, set, ne]

@[simp] theorem get_empty (r : Reg) : empty.get r = .undefined := by
  simp [get, empty]

end RegFile

end LateIR
