import LateIR.Value

/-!
Arithmetic on values. Integers wrap around; an operand of the wrong kind gives
`undefined`, except that a division of anything but two suitable integers has no
result at all.
-/

namespace LateIR.Val

/-! ### Operand kinds -/

def liftInt (f : Int32 → Int32 → Int32) : Val → Val → Val
  | int a, int b => int (f a b)
  | _, _ => undefined

def liftLong (f : Int64 → Int64 → Int64) : Val → Val → Val
  | long a, long b => long (f a b)
  | _, _ => undefined

def liftFloat (f : Binary64 → Binary64 → Binary64) : Val → Val → Val
  | float a, float b => float (f a b)
  | _, _ => undefined

/-- A division by zero has no result, and neither has a signed one that
overflows. -/
def divideInt? (overflows : Int32 → Int32 → Bool) (f : Int32 → Int32 → Int32) :
    Val → Val → Option Val
  | int a, int b => if b = 0 || overflows a b then none else some (int (f a b))
  | _, _ => none

/-- The one signed division whose quotient does not fit. -/
def overflowsInt (a b : Int32) : Bool := a = Int32.minValue && b = -1

def overflowsLong (a b : Int64) : Bool := a = Int64.minValue && b = -1

/-! ### Integers of 32 bits -/

def add : Val → Val → Val := liftInt (· + ·)

def sub : Val → Val → Val := liftInt (· - ·)

def mul : Val → Val → Val := liftInt (· * ·)

def and : Val → Val → Val := liftInt (· &&& ·)

def or : Val → Val → Val := liftInt (· ||| ·)

def xor : Val → Val → Val := liftInt (· ^^^ ·)

def neg : Val → Val
  | int a => int (-a)
  | _ => undefined

/-- Truncates toward zero. -/
def div? : Val → Val → Option Val := divideInt? overflowsInt (· / ·)

/-- The remainder of `div?`, with the sign of the dividend. -/
def mod? : Val → Val → Option Val := divideInt? overflowsInt (· % ·)

def divUnsigned? : Val → Val → Option Val :=
  divideInt? (fun _ _ => false) fun a b => (a.toUInt32 / b.toUInt32).toInt32

def modUnsigned? : Val → Val → Option Val :=
  divideInt? (fun _ _ => false) fun a b => (a.toUInt32 % b.toUInt32).toInt32

/-- A shift by an amount outside the width is undefined. -/
def shift (f : Int32 → Int32 → Int32) : Val → Val → Val
  | int a, int b => if 0 ≤ b ∧ b < 32 then int (f a b) else undefined
  | _, _ => undefined

def shl : Val → Val → Val := shift (· <<< ·)

/-- Copies of the sign bit come in from the left. -/
def shr : Val → Val → Val := shift (· >>> ·)

/-! ### Integers of 64 bits and pointers -/

def addLong : Val → Val → Val
  | long a, long b => long (a + b)
  | ptr b ofs, long n => ptr b (ofs + n)
  | long n, ptr b ofs => ptr b (ofs + n)
  | _, _ => undefined

/-- Two pointers into one block differ by a long. -/
def subLong : Val → Val → Val
  | long a, long b => long (a - b)
  | ptr b ofs, long n => ptr b (ofs - n)
  | ptr b o, ptr b' o' => if b = b' then long (o - o') else undefined
  | _, _ => undefined

def mulLong : Val → Val → Val := liftLong (· * ·)

/-- Truncates toward zero. -/
def divLong? : Val → Val → Option Val
  | long a, long b => if b = 0 || overflowsLong a b then none else some (long (a / b))
  | _, _ => none

def negLong : Val → Val
  | long a => long (-a)
  | _ => undefined

/-! ### Floating-point numbers -/

def addFloat : Val → Val → Val := liftFloat Binary64.add

def subFloat : Val → Val → Val := liftFloat Binary64.sub

def mulFloat : Val → Val → Val := liftFloat Binary64.mul

def divFloat : Val → Val → Val := liftFloat Binary64.div

def negFloat : Val → Val
  | float x => float x.neg
  | _ => undefined

/-! ### Conversions -/

/-- Sign-extends. -/
def longOfInt : Val → Val
  | int n => long n.toInt64
  | _ => undefined

/-- Keeps the low 32 bits. -/
def intOfLong : Val → Val
  | long n => int n.toInt32
  | _ => undefined

def floatOfInt : Val → Val
  | int n => float (.ofInt32 n)
  | _ => undefined

/-- Truncates toward zero; has no result when that does not fit. -/
def intOfFloat? : Val → Option Val
  | float x => x.toInt32?.map int
  | _ => none

/-- The high 32 bits of a long. -/
def highWord : Val → Val
  | long n => int (n >>> 32).toInt32
  | _ => undefined

/-- The low 32 bits of a long. -/
def lowWord : Val → Val := intOfLong

/-- The long with the given high and low halves. -/
def longOfWords : Val → Val → Val
  | int high, int low => long ((high.toInt64 <<< 32) ||| low.toUInt32.toUInt64.toInt64)
  | _, _ => undefined

end LateIR.Val
