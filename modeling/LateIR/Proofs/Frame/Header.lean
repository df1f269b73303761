import LateIR.Proofs.Frame.Transition
import LateIR.Proofs.Memory.Change
import LateIR.Proofs.Memory.Encoding

/-!
The header of a stack frame. It can be written exactly when both of its slots lie
in the frame (`isSome_writeHeader?_iff`), and then it names the caller, as long as
the slots do not overlap (`intact_of_writeHeader?`). Changes elsewhere leave it
intact (`Intact.runAll?`), and a frame is released exactly when it is
(`release?_ptr_eq_some_iff`).
-/

namespace LateIR.Frame

/-- Whether a frame of the given size has room for a header slot at the offset. -/
structure HeaderSlot (size : Int) (ofs : Int64) : Prop where
  aligned : 8 ∣ ofs.toInt
  first : 0 ≤ ofs.toInt
  last : ofs.toInt + 8 ≤ size

namespace Function

/-- Whether both header slots lie in the frame. -/
structure HeaderFits (f : Function) : Prop where
  link : HeaderSlot f.stackSize f.linkOfs
  retAddr : HeaderSlot f.stackSize f.retAddrOfs

/-- Whether the header slots have no byte in common. -/
def HeaderApart (f : Function) : Prop :=
  f.linkOfs.toInt + 8 ≤ f.retAddrOfs.toInt ∨ f.retAddrOfs.toInt + 8 ≤ f.linkOfs.toInt

end Function

/-- Whether block `b` is a frame of the function with a header that names the
caller. -/
structure Intact (f : Function) (stack : CallStack) (b : BlockId) (mem : Mem) : Prop where
  bounds : mem.liveBounds? b = some (0, max f.stackSize 0)
  link : mem.loadStack? (.ptr b 0) .pointer f.linkOfs = some stack.callerSp
  retAddr : mem.loadStack? (.ptr b 0) .pointer f.retAddrOfs = some stack.callerRa

variable {f : Function} {stack : CallStack} {b : BlockId} {mem mem' : Mem}

/-! ### Writing the header -/

theorem accessible_header_iff {size : Int} {ofs : Int64}
    (bounds : mem.liveBounds? b = some (0, max size 0)) :
    mem.accessible .int64 b ofs.toInt ↔ HeaderSlot size ofs := by
  constructor
  · intro accessible
    obtain ⟨covered, aligned⟩ := Mem.accessible_iff_covers.mp accessible
    obtain ⟨lo, hi, live, -, first, last⟩ := Mem.covers_iff.mp covered
    cases bounds.symm.trans live
    have inside : ofs.toInt + 8 ≤ max size 0 := last
    exact ⟨aligned, first, by omega⟩
  · rintro ⟨aligned, first, last⟩
    have inside : ofs.toInt + Chunk.size .int64 ≤ max size 0 :=
      Int.le_trans last (Int.le_max_left ..)
    exact Mem.accessible_of_liveBounds? bounds first inside aligned

theorem writeHeader?_ptr_eq_some_iff :
    writeHeader? f stack (.ptr b 0) mem = some mem' ↔
      ∃ mid, mem.store? .int64 b f.linkOfs.toInt stack.callerSp = some mid ∧
        mid.store? .int64 b f.retAddrOfs.toInt stack.callerRa = some mem' := by
  rw [writeHeader?, Mem.storeStack?_ptr]
  simp only [Mem.storeStack?_ptr]
  exact Option.bind_eq_some_iff

theorem isSome_writeHeader?_iff (bounds : mem.liveBounds? b = some (0, max f.stackSize 0)) :
    (writeHeader? f stack (.ptr b 0) mem).isSome ↔ f.HeaderFits := by
  constructor
  · intro written
    obtain ⟨mem', written⟩ := Option.isSome_iff_exists.mp written
    obtain ⟨mid, atLink, atRa⟩ := writeHeader?_ptr_eq_some_iff.mp written
    obtain ⟨link, linked⟩ := Mem.store?_eq_some_iff.mp atLink
    have bounds' := (Mem.liveBounds?_storeBytes? linked b).trans bounds
    obtain ⟨retAddr, -⟩ := Mem.store?_eq_some_iff.mp atRa
    exact ⟨(accessible_header_iff bounds).mp link, (accessible_header_iff bounds').mp retAddr⟩
  · rintro ⟨link, retAddr⟩
    obtain ⟨mid, atLink⟩ := Mem.store?_isSome stack.callerSp ((accessible_header_iff bounds).mpr link)
    have linked := (Mem.store?_eq_some_iff.mp atLink).2
    have bounds' := (Mem.liveBounds?_storeBytes? linked b).trans bounds
    obtain ⟨mem', atRa⟩ :=
      Mem.store?_isSome stack.callerRa ((accessible_header_iff bounds').mpr retAddr)
    exact Option.isSome_iff_exists.mpr ⟨mem', writeHeader?_ptr_eq_some_iff.mpr ⟨mid, atLink, atRa⟩⟩

theorem liveBounds?_writeHeader? (written : writeHeader? f stack (.ptr b 0) mem = some mem')
    (b' : BlockId) : mem'.liveBounds? b' = mem.liveBounds? b' := by
  obtain ⟨mid, atLink, atRa⟩ := writeHeader?_ptr_eq_some_iff.mp written
  have linked := (Mem.store?_eq_some_iff.mp atLink).2
  have done := (Mem.store?_eq_some_iff.mp atRa).2
  exact (Mem.liveBounds?_storeBytes? done b').trans (Mem.liveBounds?_storeBytes? linked b')

/-- A pointer that was stored is read back. -/
theorem load?_store?_pointer {ofs : Int} {v : Val} (typed : v.hasType .pointer)
    (stored : mem.store? .int64 b ofs v = some mem') : mem'.load? .int64 b ofs = some v := by
  rw [Mem.load?_store?_same stored, Chunk.decode_encode rfl]
  exact congrArg some (Val.loadResult_of_hasType typed)

theorem intact_of_writeHeader? (apart : f.HeaderApart) (sp : stack.callerSp.hasType .pointer)
    (ra : stack.callerRa.hasType .pointer)
    (bounds : mem.liveBounds? b = some (0, max f.stackSize 0))
    (written : writeHeader? f stack (.ptr b 0) mem = some mem') : Intact f stack b mem' := by
  have bounds' := (liveBounds?_writeHeader? written b).trans bounds
  obtain ⟨mid, atLink, atRa⟩ := writeHeader?_ptr_eq_some_iff.mp written
  have kept : mem'.load? .int64 b f.linkOfs.toInt = mid.load? .int64 b f.linkOfs.toInt :=
    Mem.load?_store?_apart atRa fun _ => apart
  refine ⟨bounds', ?_, ?_⟩
  · rw [Mem.loadStack?_ptr]
    exact kept.trans (load?_store?_pointer sp atLink)
  · rw [Mem.loadStack?_ptr]
    exact load?_store?_pointer ra atRa

/-! ### Entering a function -/

section

variable {env : Env} {calls : CallService} {choose : ReturnAddresses} {callee : BlockId}
  {regs : RegFile}

/-- Entering needs a frame with room for the header, and nothing else. -/
theorem isSome_step_calling_iff (body : env.functionAt? callee = some (.internal f)) :
    (step env calls choose (.calling stack callee regs mem)).isSome ↔
      (mem.alloc? 0 f.stackSize).isSome ∧ f.HeaderFits := by
  constructor
  · intro entered
    obtain ⟨⟨events, s⟩, stepped⟩ := Option.isSome_iff_exists.mp entered
    obtain ⟨b, mid, mem', allocated, written, -, -⟩ := (step_calling_eq_some_iff body).mp stepped
    have bounds := Mem.liveBounds?_of_alloc? allocated
    exact ⟨Option.isSome_of_eq_some allocated,
      (isSome_writeHeader?_iff bounds).mp (Option.isSome_of_eq_some written)⟩
  · rintro ⟨allocatable, fits⟩
    obtain ⟨⟨b, mid⟩, allocated⟩ := Option.isSome_iff_exists.mp allocatable
    have bounds := Mem.liveBounds?_of_alloc? allocated
    have writable : (writeHeader? f stack (.ptr b 0) mid).isSome :=
      (isSome_writeHeader?_iff bounds).mpr fits
    obtain ⟨mem', written⟩ := Option.isSome_iff_exists.mp writable
    exact Option.isSome_of_eq_some
      ((step_calling_eq_some_iff body).mpr ⟨b, mid, mem', allocated, written, rfl, rfl⟩)

end

/-! ### Keeping the header -/

/-- A change that writes no byte of the header of the frame in block `b` and
leaves the frame live. -/
structure SparesHeader (f : Function) (b : BlockId) (change : Mem.Change) : Prop where
  link : change.Spares b f.linkOfs.toInt 8
  retAddr : change.Spares b f.retAddrOfs.toInt 8

theorem Intact.runAll? {changes : List Mem.Change} (intact : Intact f stack b mem)
    (spares : ∀ change ∈ changes, SparesHeader f b change)
    (ran : Mem.Change.runAll? changes mem = some mem') : Intact f stack b mem' := by
  obtain ⟨bounds, link, retAddr⟩ := intact
  have sameLink := Mem.Change.sameRange_of_runAll?
    (fun change mem => (spares change mem).link) bounds ran
  have sameRa := Mem.Change.sameRange_of_runAll?
    (fun change mem => (spares change mem).retAddr) bounds ran
  rw [Mem.loadStack?_ptr] at link retAddr
  refine ⟨sameLink.bounds.trans bounds, ?_, ?_⟩
  · rw [Mem.loadStack?_ptr]
    exact (Mem.SameRange.load? sameLink).trans link
  · rw [Mem.loadStack?_ptr]
    exact (Mem.SameRange.load? sameRa).trans retAddr

/-! ### Checking the header -/

/-- A frame is released when it is intact, and killed by it. -/
theorem release?_ptr_eq_some_iff :
    release? f stack (.ptr b 0) mem = some mem' ↔
      Intact f stack b mem ∧ mem.modify Block.free b = mem' := by
  have freed : mem.freeFrame? (.ptr b 0) f.stackSize = mem.free? b 0 f.stackSize := rfl
  rw [release?_eq_some_iff, freed, Mem.free?_eq_some_iff]
  constructor
  · rintro ⟨⟨link, retAddr⟩, bounds, killed⟩
    exact ⟨⟨bounds, link, retAddr⟩, killed⟩
  · rintro ⟨⟨bounds, link, retAddr⟩, killed⟩
    exact ⟨⟨link, retAddr⟩, bounds, killed⟩

end LateIR.Frame
