import LateIR.Proofs.Memory.Bytes
import LateIR.Proofs.Memory.Fragments
import LateIR.Proofs.Memory.History
import LateIR.Proofs.Separation

/-!
Values that are read back from fragments are whole. When a load finds a value in bytes that are
not all concrete, each byte is the fragment of its place of that value, up to the sign of a
zero, and the load finds nothing any more once one of them has been overwritten by anything
else (`whole_or_undefined`). Zeros of the two signs are equal as numbers, so that their
fragments may be mixed (`not_always_whole`).
-/

namespace LateIR

namespace Chunk

/-- A value that is not made up of concrete bytes has been found whole. -/
theorem whole?_of_decode {c : Chunk} {bytes : List MemByte}
    (mixed : MemByte.concrete? bytes = none) (defined : (c.decode bytes).isDefined) :
    MemByte.whole? bytes = some (c.decode bytes) := by
  have decoded : c.decode bytes = c.ofWhole bytes := by rw [decode, mixed]
  rw [decoded] at defined ⊢
  unfold ofWhole at defined ⊢
  split at defined
  · rename_i found
    simpa using found
  · rename_i v found
    rw [found]
    cases v <;> first | rfl | cases defined
  · rename_i v found
    simpa using found
  · cases defined

/-- All bytes are parts of what is found in them. -/
theorem partOf_decode {c : Chunk} {bytes : List MemByte} (mixed : MemByte.concrete? bytes = none)
    (defined : (c.decode bytes).isDefined) {i : Nat} {byte : MemByte}
    (here : bytes[i]? = some byte) : byte.PartOf (c.decode bytes) bytes.length i :=
  (MemByte.whole?_eq_some_iff.mp (whole?_of_decode mixed defined)).2.2 i byte here

/-- Nothing is found in bytes of which one is a part of a value and another one is not. -/
theorem decode_of_pieces {c : Chunk} {bytes : List MemByte} {v : Val} {i k : Nat}
    {part foreign : MemByte} (here : bytes[i]? = some part) (belongs : part.PartOf v bytes.length i)
    (there : bytes[k]? = some foreign) (differs : ¬ foreign.PartOf v bytes.length k) :
    c.decode bytes = .undefined := by
  apply Decidable.byContradiction
  intro found
  have defined : (c.decode bytes).isDefined := by
    cases value : c.decode bytes <;> first | rfl | exact absurd value found
  have mixed := MemByte.concrete?_eq_none (List.mem_of_getElem? here) belongs.not_concrete
  have same := (partOf_decode mixed defined here).unique belongs
  exact differs ((partOf_decode mixed defined there).of_sameUpToZero same)

/-- No single byte is enough for a value that is stored whole. -/
theorem one_lt_size_of_decode {c : Chunk} {bytes : List MemByte}
    (mixed : MemByte.concrete? bytes = none) (defined : (c.decode bytes).isDefined) :
    1 < c.size := by
  rw [decode, mixed] at defined
  cases c <;> first | decide | cases defined

end Chunk

/-- What is read from bytes that are not all concrete has all of them as its parts, and there is
nothing to be read any more once one of them has been overwritten by something that is no part
of it, or, however they came together, from bytes some of which are parts of it and some not.
Of a value that is no zero, a part is the fragment of its place and nothing else. -/
theorem whole_or_undefined (m : Mem) (c : Chunk) (b : BlockId) (ofs : Int) (data : List MemByte)
    (v : Val) (read : m.loadBytes? b ofs c.size = some data)
    (mixed : ∃ byte ∈ data, ∀ n, byte ≠ .byte n) (loaded : m.load? c b ofs = some v)
    (defined : v.isDefined) :
    (∀ i (byte : MemByte), data[i]? = some byte → byte.PartOf v c.size i) ∧
    (v.isZero = false → data = MemByte.fragments v c.size) ∧
    (∀ k < c.size, ∀ (byte : MemByte) m', m.storeBytes? b (ofs + k) [byte] = some m' →
      ¬ byte.PartOf v c.size k → m'.load? c b ofs = some .undefined) ∧
    ∀ (m' : Mem) (data' : List MemByte), m'.loadBytes? b ofs c.size = some data' →
      (∃ i < c.size, data'[i]? = data[i]?) →
      (∃ k, ∃ byte : MemByte, data'[k]? = some byte ∧ ¬ byte.PartOf v c.size k) →
      m'.load? c b ofs = some .undefined := by
  have aligned : (c.size : Int) ∣ ofs :=
    (Mem.accessible_iff.mp (Mem.isSome_load?_iff.mp (Option.isSome_of_eq_some loaded))).2
  obtain rfl : c.decode data = v :=
    Option.some.inj ((Mem.load?_of_loadBytes? read aligned).symm.trans loaded)
  obtain ⟨byte, mem, other⟩ := mixed
  have mixed := MemByte.concrete?_eq_none mem other
  have length : data.length = c.size := (Mem.loadBytes?_eq_some_iff.mp read).2.1
  have parts : ∀ i (byte : MemByte), data[i]? = some byte →
      byte.PartOf (c.decode data) c.size i := by
    intro i byte here
    exact length ▸ Chunk.partOf_decode mixed defined here
  have pieces : ∀ (m' : Mem) (data' : List MemByte), m'.loadBytes? b ofs c.size = some data' →
      (∃ i < c.size, data'[i]? = data[i]?) →
      (∃ k, ∃ byte : MemByte, data'[k]? = some byte ∧ ¬ byte.PartOf (c.decode data) c.size k) →
      m'.load? c b ofs = some .undefined := by
    rintro m' data' read' ⟨i, inside, kept⟩ ⟨k, foreign, there, differs⟩
    have length' : data'.length = c.size := (Mem.loadBytes?_eq_some_iff.mp read').2.1
    have here : data[i]? = some data[i] := List.getElem?_eq_getElem (length ▸ inside)
    have belongs := parts i _ here
    rw [← length'] at belongs differs
    rw [Mem.load?_of_loadBytes? read' aligned,
      Chunk.decode_of_pieces (kept.trans here) belongs there differs]
  refine ⟨parts, ?_, ?_, pieces⟩
  · intro notZero
    rw [← length]
    apply MemByte.eq_fragments
    intro i byte here
    exact length ▸ (parts i byte here).eq_fragment notZero
  · intro k inside byte m' stored differs
    have several := Chunk.one_lt_size_of_decode mixed defined
    have there : (data.set k byte)[k]? = some byte := List.getElem?_set_self (length ▸ inside)
    refine pieces m' _ (Mem.loadBytes?_overwritten read inside stored) ?_ ⟨k, byte, there, differs⟩
    -- some other byte of the value is still there
    by_cases first : k = 0
    · exact ⟨1, several, List.getElem?_set_ne (by omega)⟩
    · exact ⟨0, by omega, List.getElem?_set_ne first⟩

/-! A pointer, one byte of which is overwritten by that of another pointer. -/

def onePointer : Mem := ⟨#[.live 0 (MemByte.fragments (.ptr 1 4) 8).toArray]⟩

theorem whole_or_undefined_onePointer :
    onePointer.loadBytes? 1 0 8 = some (MemByte.fragments (.ptr 1 4) 8) ∧
    onePointer.load? .int64 1 0 = some (.ptr 1 4) ∧
    (∃ m, onePointer.storeBytes? 1 3 [.fragment (.ptr 1 0) 8 3] = some m ∧
      m.load? .int64 1 0 = some .undefined) := by
  have read : onePointer.loadBytes? 1 0 8 = some (MemByte.fragments (.ptr 1 4) 8) := by decide
  have found : onePointer.load? .int64 1 0 = some (.ptr 1 4) := by decide
  have mixed : ∃ byte ∈ MemByte.fragments (.ptr 1 4) 8, ∀ n, byte ≠ .byte n :=
    ⟨.fragment (.ptr 1 4) 8 0, by decide, fun n => MemByte.noConfusion⟩
  obtain ⟨-, -, overwritten, -⟩ :=
    whole_or_undefined onePointer .int64 1 0 _ (.ptr 1 4) read mixed found rfl
  refine ⟨read, found, _, rfl, overwritten 3 (by decide) _ _ rfl ?_⟩
  intro part
  exact absurd (part.eq_fragment rfl) (by decide)

/-! Zero, one byte of which is overwritten by that of the negative zero. -/

def mixingZeros : List Mem.Request :=
  [.alloc 0 8, .store .any64 1 0 (.float ⟨0⟩),
    .storeBytes 1 3 [.fragment (.float ⟨0x8000000000000000⟩) 8 3]]

def mixedZeros : List MemByte :=
  (MemByte.fragments (.float ⟨0⟩) 8).set 3 (.fragment (.float ⟨0x8000000000000000⟩) 8 3)

/-- What is read from fragments does not always have the same bits in all of them. -/
theorem not_always_whole :
    ¬ ∀ (requests : List Mem.Request) (ids : List BlockId) (m : Mem),
      Mem.serve requests .empty = (ids, m) →
      ∀ (c : Chunk) (b : BlockId) (ofs : Int) (data : List MemByte) (v : Val),
        m.loadBytes? b ofs c.size = some data → (∃ byte ∈ data, ∀ n, byte ≠ .byte n) →
        m.load? c b ofs = some v → v.isDefined → data = MemByte.fragments v c.size := by
  intro always
  have served : Mem.serve mixingZeros .empty = ([1], ⟨#[.live 0 mixedZeros.toArray]⟩) := rfl
  have mixed : ∃ byte ∈ mixedZeros, ∀ n, byte ≠ .byte n :=
    ⟨.fragment (.float ⟨0⟩) 8 0, by decide, fun n => MemByte.noConfusion⟩
  have found : Mem.load? ⟨#[.live 0 mixedZeros.toArray]⟩ .any64 1 0 = some (.float ⟨0⟩) := by
    decide
  have same := always mixingZeros _ _ served .any64 1 0 mixedZeros _ (by decide) mixed found rfl
  exact absurd same (by decide)

end LateIR
