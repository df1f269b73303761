import LateIR.Register
import LateIR.Value.Arith

/-!
Locations: machine registers and stack slots. A slot has a kind, an offset
counted in four-byte words and a type; slots of one kind overlap when their word
ranges meet.
-/

namespace LateIR

/-- Role of a stack slot. -/
inductive SlotKind where
  /-- Spill slot of the current function. -/
  | spill
  /-- Parameter that the caller passed on the stack. -/
  | incoming
  /-- Argument for the functions that the current one calls. -/
  | outgoing
  deriving DecidableEq

namespace SlotKind

/-- Position in the order of slots. -/
def rank : SlotKind → Nat
  | spill => 0
  | incoming => 1
  | outgoing => 2

def text : SlotKind → String
  | spill => "Local"
  | incoming => "Incoming"
  | outgoing => "Outgoing"

theorem rank_inj {a b : SlotKind} (h : a.rank = b.rank) : a = b := by
  cases a <;> cases b <;> first | rfl | exact absurd h (by decide)

end SlotKind

/-- A register or a stack slot. -/
inductive Loc where
  | reg (r : Reg)
  | slot (kind : SlotKind) (ofs : Int) (typ : Typ)
  deriving DecidableEq

namespace Loc

/-- The largest slot offset, `2 ^ 63 - 1`. -/
def maxOffset : Int := 9223372036854775807

/-- End of the word range of a slot. A range that would pass the largest offset
is cut off there. -/
def slotEnd (ofs : Int) (t : Typ) : Int := min (ofs + t.words) maxOffset

/-- Whether the word range of a slot needs no cutting. -/
def inRange : Loc → Bool
  | reg _ => true
  | slot _ ofs t => ofs + t.words ≤ maxOffset

/-- Whether two slots of one kind have a word in common. -/
def slotsMeet (o : Int) (t : Typ) (o' : Int) (t' : Typ) : Bool :=
  o < slotEnd o' t' && o' < slotEnd o t

/-- Whether two locations share storage. -/
def overlaps : Loc → Loc → Bool
  | reg r, reg r' => r = r'
  | slot k o t, slot k' o' t' => k = k' && slotsMeet o t o' t'
  | _, _ => false

def text : Loc → String
  | reg r => r.text
  | slot kind ofs t => kind.text ++ "(" ++ toString ofs ++ ", " ++ t.text ++ ")"

end Loc

/-- One place for a value, or two for the high and low halves of a long. -/
inductive Split (α : Type) where
  | whole (place : α)
  | halves (high low : α)
  deriving DecidableEq

namespace Split

variable {α : Type}

/-- The value read from the place or put together from the two. -/
def read (get : α → Val) : Split α → Val
  | whole a => get a
  | halves high low => (get high).longOfWords (get low)

/-- The writes that put a value into the place or its halves into the two. -/
def writes (v : Val) : Split α → List (α × Val)
  | whole a => [(a, v)]
  | halves high low => [(high, v.highWord), (low, v.lowWord)]

end Split

end LateIR
