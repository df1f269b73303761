import LateIR.Memory

/-!
The built-ins that work on memory. Heap blocks start with a header, below offset
zero, that holds their size.
-/

namespace LateIR.Heap

/-- Bytes of the size header. -/
def header : Int := 8

/-- Allocates a heap block and writes its size into the header. -/
def malloc? (m : Mem) : List Val → Option (Val × Mem)
  | [.long n] => do
      if n.toInt < 0 then none
      let (b, m) ← m.alloc? (-header) n.toInt
      let m ← m.store? .int64 b (-header) (.long n)
      some (.ptr b 0, m)
  | _ => none

/-- Frees the block that the pointer is the start of; null is left alone. -/
def free? (m : Mem) : List Val → Option Mem
  | [.long n] => if n = 0 then some m else none
  | [.ptr b ofs] => do
      if ofs ≠ 0 then none
      match ← m.load? .int64 b (-header) with
      | .long size => if 0 ≤ size.toInt then m.free? b (-header) size.toInt else none
      | _ => none
  | _ => none

/-- Whether a copy may be asked for: a size that is a multiple of a supported
alignment. -/
def copyable (size align : Int) : Bool :=
  0 ≤ size && (align = 1 || align = 2 || align = 4 || align = 8) && size % align = 0

/-- Copies a range to an aligned range that is the same or does not meet it. -/
def memcpy? (size align : Int) (m : Mem) : List Val → Option Mem
  | [.ptr target t, .ptr source s] =>
      let t := t.toInt
      let s := s.toInt
      if copyable size align && t % align = 0 && s % align = 0 &&
          (target ≠ source || t = s || t + size ≤ s || s + size ≤ t) then
        (m.loadBytes? source s size).bind (m.storeBytes? target t)
      else none
  | _ => none

end LateIR.Heap
