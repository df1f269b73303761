import LateIR.Proofs.Convention.Layout
import LateIR.Proofs.Frame.Arguments

/-!
The frame of the outermost caller. It has room for the stack arguments of any signature,
each where its type can be stored, and for the header after them, so nothing but the bound
on the outgoing area stands in the way of the arguments (`error_of_placeArgs`) and nothing
at all in the way of the header (`exists_writeEntryHeader`).
-/

namespace LateIR

open Mem (WithinBlock)

/-- Whether the location, if it is a slot, has its place in a frame of the size. -/
def Loc.FitsFrame (size : Int) : Loc → Prop
  | .reg _ => True
  | .slot _ ofs t => 0 ≤ ofs ∧ 4 * ofs + t.size ≤ size ∧ 8 ∣ 4 * ofs

/-- The arguments of a signature have their places before the header. -/
theorem Signature.fitsFrame_argLocs {s : Signature} {l : Loc} (mem : l ∈ s.argLocs) :
    l.FitsFrame (4 * s.argWords) := by
  cases l with
  | reg r => trivial
  | slot kind ofs t =>
      obtain ⟨-, first, last, even⟩ := slot_of_mem_argLocs mem
      have words := t.four_mul_words
      have most := t.words_le
      exact ⟨first, by omega, by omega⟩

theorem Loc.FitsFrame.mono {size size' : Int} {l : Loc} (fits : l.FitsFrame size)
    (le : size ≤ size') : l.FitsFrame size' := by
  cases l with
  | reg r => trivial
  | slot kind ofs t =>
      obtain ⟨first, last, aligned⟩ := fits
      exact ⟨first, Int.le_trans last le, aligned⟩

namespace Frame

variable {mem mem' : Mem} {b : BlockId} {hi ofs : Int}

/-! ### Stores that succeed -/

/-- A value can be stored in a frame at a multiple of eight. -/
theorem exists_storeStack? (live : mem.liveBounds? b = some (0, hi)) (small : hi ≤ Mem.maxBlockSize)
    {t : Typ} (first : 0 ≤ ofs) (last : ofs + t.size ≤ hi) (aligned : 8 ∣ ofs) (v : Val) :
    ∃ mem', mem.storeStack? (.ptr b 0) t (.ofInt ofs) v = some mem' := by
  have whole : (t.size : Int) ∣ 8 := by cases t <;> decide
  rw [Mem.storeStack?_ptr, Mem.toInt_ofInt_of_le_maxBlockSize first (by omega)]
  apply Mem.store?_isSome
  rw [← Chunk.size_ofTyp] at last whole
  exact Mem.accessible_of_liveBounds? live first last (Int.dvd_trans whole aligned)

/-- Arguments are refused for leaving the outgoing area, and for nothing else. -/
theorem error_of_placeArgs {pairs : List (Loc × Val)} {regs : RegFile} {e : Error}
    (live : mem.liveBounds? b = some (0, hi)) (small : hi ≤ Mem.maxBlockSize)
    (fits : ∀ p ∈ pairs, p.1.FitsFrame hi)
    (failed : placeArgs (.ptr b 0) pairs regs mem = .error e) :
    ∃ p ∈ pairs, p.1.checkOutgoing = .error e := by
  induction pairs generalizing regs mem with
  | nil => cases failed
  | cons p rest ih =>
      obtain ⟨l, v⟩ := p
      obtain ⟨here, later⟩ := List.forall_mem_cons.mp fits
      cases l with
      | reg r =>
          obtain ⟨p, mem, refused⟩ := ih live later failed
          exact ⟨p, List.mem_cons_of_mem _ mem, refused⟩
      | slot kind ofs t =>
          obtain ⟨first, last, aligned⟩ := here
          obtain ⟨mid, stored⟩ := exists_storeStack? live small (by omega) last aligned v
          rw [placeArgs, slotByteOffset, stored] at failed
          cases inside : (Loc.slot kind ofs t).checkOutgoing with
          | error e' =>
              rw [inside] at failed
              cases failed
              exact ⟨_, List.mem_cons_self, inside⟩
          | ok u =>
              rw [inside] at failed
              have live' := (Mem.liveBounds?_storeAt? stored b).trans live
              obtain ⟨p, mem, refused⟩ := ih live' later failed
              exact ⟨p, List.mem_cons_of_mem _ mem, refused⟩

theorem exists_writeEntryHeader (live : mem.liveBounds? b = some (0, hi))
    (small : hi ≤ Mem.maxBlockSize) (first : 0 ≤ ofs) (last : ofs + entryHeaderSize ≤ hi)
    (aligned : 8 ∣ ofs) : ∃ mem', writeEntryHeader (.ptr b 0) ofs mem = .ok mem' := by
  unfold entryHeaderSize at last
  have size : (Typ.pointer.size : Int) = 8 := rfl
  obtain ⟨mid, atLink⟩ := exists_storeStack? (t := .pointer) live small first (by omega) aligned .null
  have live' := (Mem.liveBounds?_storeAt? atLink b).trans live
  have next : 8 ∣ ofs + 8 := Int.dvd_add aligned (Int.dvd_refl 8)
  obtain ⟨mem', atRa⟩ := exists_storeStack? (t := .pointer) live' small (by omega) (by omega) next .null
  exact ⟨mem', writeEntryHeader_eq_ok_iff.mpr ⟨mid, atLink, atRa⟩⟩

/-! ### What the stores leave behind -/

theorem withinBlock_storeStack? {t : Typ} {delta : Int64} {v : Val}
    (stored : mem.storeStack? (.ptr b 0) t delta v = some mem') : WithinBlock b mem mem' := by
  rw [Mem.storeStack?_ptr] at stored
  exact .of_store? stored

theorem withinBlock_placeArgs {pairs : List (Loc × Val)} {regs : RegFile}
    {placed : RegFile × Mem} (done : placeArgs (.ptr b 0) pairs regs mem = .ok placed) :
    WithinBlock b mem placed.2 :=
  placeArgs_keeps WithinBlock.refl WithinBlock.trans withinBlock_storeStack? done

/-- What is found of the header once it has been written. -/
theorem load?_writeEntryHeader (first : 0 ≤ ofs) (small : ofs + entryHeaderSize ≤ Mem.maxBlockSize)
    (written : writeEntryHeader (.ptr b 0) ofs mem = .ok mem') :
    WithinBlock b mem mem' ∧ mem'.load? .int64 b ofs = some .null ∧
      mem'.load? .int64 b (ofs + 8) = some .null := by
  unfold entryHeaderSize at small
  obtain ⟨mid, atLink, atRa⟩ := writeEntryHeader_eq_ok_iff.mp written
  have within := (withinBlock_storeStack? atLink).trans (withinBlock_storeStack? atRa)
  rw [Mem.storeStack?_ptr, Mem.toInt_ofInt_of_le_maxBlockSize (by omega) (by omega)] at atLink atRa
  refine ⟨within, ?_, load?_store?_pointer rfl atRa⟩
  rw [Mem.load?_store?_apart atRa fun _ => .inl (Int.le_refl _)]
  exact load?_store?_pointer rfl atLink

end Frame

end LateIR
