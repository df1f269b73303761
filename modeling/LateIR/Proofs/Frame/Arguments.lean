import LateIR.Proofs.Convention.Placement
import LateIR.Proofs.Frame.Entry
import LateIR.Proofs.Frame.Header

/-!
How arguments reach a callee in Frame-IR. What the outermost caller stores in its
frame stays readable while it puts the other arguments in place and writes its
header (`frameArg?_of_enter`), and while the callee is entered; the callee's link
leads back to it (`receives_of_frameArg?`). A slot without a fixed type loses words
that are not numbers (`Loc.arriving`).
-/

namespace LateIR

/-- What is read of a value that travels in the location through a frame. -/
def Loc.arriving : Loc → Val → Val
  | .slot _ _ .any32, v | .slot _ _ .any64, v => if v.isNaN then .undefined else v
  | _, v => v

/-- What is read of the arguments of a signature. -/
def Signature.arrivals (s : Signature) (args : List Val) : List Val :=
  s.argLocs.zipWith Loc.arriving args

theorem Loc.Accepts.decode_encode {kind : SlotKind} {ofs : Int} {t : Typ} {v : Val}
    (accepts : (Loc.slot kind ofs t).Accepts v) :
    (Chunk.ofTyp t).decode ((Chunk.ofTyp t).encode v) = (Loc.slot kind ofs t).arriving v := by
  have kept := Val.loadResult_of_hasType accepts.2
  rw [Chunk.decode_encode_eq_readBack, Chunk.readBack, kept]
  cases t <;> simp [Chunk.ofTyp, Chunk.storesWhole, arriving]

namespace Frame

variable {regs regs' : RegFile} {mem mem' : Mem} {b : BlockId} {l l' : Loc} {v : Val}
  {pairs : List (Loc × Val)}

/-! ### Arguments in the caller's frame -/

theorem toInt_slotByteOffset {kind : SlotKind} {ofs : Int} {t : Typ}
    (inside : (Loc.slot kind ofs t).checkOutgoing = .ok ()) :
    (Int64.ofInt (slotByteOffset ofs)).toInt = 4 * ofs := by
  obtain ⟨nonneg, last⟩ := Loc.checkOutgoing_slot_eq_ok_iff.mp inside
  unfold maxOutgoingWords at last
  apply Mem.toInt_ofInt_of_le_maxBlockSize
  · unfold slotByteOffset
    omega
  · unfold slotByteOffset Mem.maxBlockSize
    omega

/-- A store elsewhere leaves an argument as it was. -/
theorem frameArg?_of_store? {c : Chunk} {target : BlockId} {start : Int}
    (inside : l.checkOutgoing = .ok ())
    (apart : ∀ kind ofs t, l = .slot kind ofs t → b = target →
      4 * ofs + t.size ≤ start ∨ start + c.size ≤ 4 * ofs)
    (stored : mem.store? c target start v = some mem') :
    frameArg? regs mem' (.ptr b 0) l = frameArg? regs mem (.ptr b 0) l := by
  cases l with
  | reg r => rfl
  | slot kind ofs t =>
      cases kind with
      | spill | incoming => rfl
      | outgoing =>
          show mem'.loadStack? _ _ _ = mem.loadStack? _ _ _
          rw [Mem.loadStack?_ptr, Mem.loadStack?_ptr, toInt_slotByteOffset inside]
          apply Mem.load?_store?_apart stored
          rw [Chunk.size_ofTyp]
          exact apart .outgoing ofs t rfl

/-- An argument is found where it was put. -/
theorem frameArg?_placesArg (accepts : l.Accepts v)
    (places : PlacesArg (.ptr b 0) v regs mem l regs' mem') :
    frameArg? regs' mem' (.ptr b 0) l = some (l.arriving v) := by
  cases places with
  | @reg r =>
      show some ((regs.set r v).get r) = some v
      rw [RegFile.get_set, if_pos rfl]
  | @slot kind ofs t _ inside stored =>
      obtain ⟨rfl, -⟩ := id accepts
      rw [Mem.storeStack?_ptr] at stored
      show mem'.loadStack? _ _ _ = _
      rw [Mem.loadStack?_ptr, Mem.load?_store?_same stored, accepts.decode_encode]

/-- Putting an argument in place leaves those in other locations as they were. -/
theorem frameArg?_placesArg_apart (accepts : l'.Accepts v) (inside : l.checkOutgoing = .ok ())
    (apart : l'.overlaps l = false) (places : PlacesArg (.ptr b 0) v regs mem l' regs' mem') :
    frameArg? regs' mem' (.ptr b 0) l = frameArg? regs mem (.ptr b 0) l := by
  cases places with
  | @reg r =>
      cases l with
      | reg r' =>
          show some ((regs.set r v).get r') = some (regs.get r')
          rw [RegFile.get_set, if_neg (of_decide_eq_false apart)]
      | slot kind ofs t => cases kind <;> rfl
  | @slot kind' ofs' t' _ inside' stored =>
      cases l with
      | reg r => rfl
      | slot kind ofs t =>
          cases kind with
          | spill | incoming => rfl
          | outgoing =>
              obtain ⟨rfl, -⟩ := accepts
              rw [Mem.storeStack?_ptr, toInt_slotByteOffset inside'] at stored
              apply frameArg?_of_store? inside _ stored
              rintro _ _ _ ⟨⟩ -
              have noMeet : Loc.slotsMeet ofs' t' ofs t = false := by
                simpa [Loc.overlaps] using apart
              have range := of_decide_eq_true (Loc.inRange_of_checkOutgoing inside)
              have range' := of_decide_eq_true (Loc.inRange_of_checkOutgoing inside')
              have order := (Loc.slotsMeet_eq_false_iff range' range).mp noMeet
              have words := t.four_mul_words
              have words' := t'.four_mul_words
              rw [Chunk.size_ofTyp]
              omega

theorem checkOutgoing_of_placeArgs
    (placed : placeArgs (.ptr b 0) pairs regs mem = .ok (regs', mem')) :
    ∀ p ∈ pairs, p.1.checkOutgoing = .ok () := by
  induction pairs generalizing regs mem with
  | nil => exact fun p mem => absurd mem List.not_mem_nil
  | cons p rest ih =>
      obtain ⟨l, v⟩ := p
      obtain ⟨_, _, here, placed⟩ := placeArgs_cons_eq_ok_iff.mp placed
      refine List.forall_mem_cons.mpr ⟨?_, ih placed⟩
      cases here with
      | reg => rfl
      | slot inside stored => exact inside

theorem frameArg?_placeArgs_apart (accepts : ∀ p ∈ pairs, p.1.Accepts p.2)
    (inside : l.checkOutgoing = .ok ()) (apart : ∀ p ∈ pairs, p.1.overlaps l = false)
    (placed : placeArgs (.ptr b 0) pairs regs mem = .ok (regs', mem')) :
    frameArg? regs' mem' (.ptr b 0) l = frameArg? regs mem (.ptr b 0) l := by
  induction pairs generalizing regs mem with
  | nil =>
      cases placed
      rfl
  | cons p rest ih =>
      obtain ⟨l', v⟩ := p
      obtain ⟨fits, accepts⟩ := List.forall_mem_cons.mp accepts
      obtain ⟨here, apart⟩ := List.forall_mem_cons.mp apart
      obtain ⟨_, _, first, placed⟩ := placeArgs_cons_eq_ok_iff.mp placed
      exact (ih accepts apart placed).trans (frameArg?_placesArg_apart fits inside here first)

/-- Every argument is found where it was put. -/
theorem frameArg?_placeArgs (placeable : Placeable pairs)
    (placed : placeArgs (.ptr b 0) pairs regs mem = .ok (regs', mem')) :
    ∀ p ∈ pairs, frameArg? regs' mem' (.ptr b 0) p.1 = some (p.1.arriving p.2) := by
  induction pairs generalizing regs mem with
  | nil => exact fun p mem => absurd mem List.not_mem_nil
  | cons p rest ih =>
      obtain ⟨l, v⟩ := p
      obtain ⟨inside, -⟩ := List.forall_mem_cons.mp (checkOutgoing_of_placeArgs placed)
      obtain ⟨fits, apart, placeable⟩ := placeable.cons
      obtain ⟨_, _, first, placed⟩ := placeArgs_cons_eq_ok_iff.mp placed
      intro q mem
      rcases List.mem_cons.mp mem with rfl | later
      · rw [frameArg?_placeArgs_apart placeable.accepts inside apart placed]
        exact frameArg?_placesArg fits first
      · exact ih placeable placed q later

/-- The header of the outermost caller lies after its stack arguments. -/
theorem frameArg?_writeEntryHeader {s : Signature} (arg : l ∈ s.argLocs)
    (inside : l.checkOutgoing = .ok ())
    (small : slotByteOffset s.argWords + entryHeaderSize ≤ Mem.maxBlockSize)
    (written : writeEntryHeader (.ptr b 0) (slotByteOffset s.argWords) mem = .ok mem') :
    frameArg? regs mem' (.ptr b 0) l = frameArg? regs mem (.ptr b 0) l := by
  obtain ⟨mid, atLink, atRa⟩ := writeEntryHeader_eq_ok_iff.mp written
  have nonneg := s.argWords_nonneg
  unfold slotByteOffset entryHeaderSize at small
  unfold slotByteOffset at atLink atRa
  rw [Mem.storeStack?_ptr, Mem.toInt_ofInt_of_le_maxBlockSize (by omega) (by omega)] at atLink atRa
  have before : ∀ kind ofs t, l = .slot kind ofs t → 4 * ofs + t.size ≤ 4 * s.argWords := by
    rintro kind ofs t rfl
    have last : ofs + 2 ≤ s.argWords := (Signature.between_argLocs arg).2.2
    have words := t.four_mul_words
    have most := t.words_le
    omega
  rw [frameArg?_of_store? inside _ atRa, frameArg?_of_store? inside _ atLink]
  · intro kind ofs t slot _
    exact .inl (before kind ofs t slot)
  · intro kind ofs t slot _
    exact .inl (Int.le_trans (before kind ofs t slot) (by omega))

/-! ### Entering with arguments -/

theorem forall₂_arriving {R : Loc → Val → Prop} {locs : List Loc} {args : List Val}
    (each : List.Forall₂ (fun l v => R l (l.arriving v)) locs args) :
    List.Forall₂ R locs (locs.zipWith Loc.arriving args) := by
  induction each with
  | nil => exact .nil
  | cons here later ih => exact .cons here ih

variable {env : Env} {calls : CallService} {choose : ReturnAddresses} {pointer : Val}
  {args : List Val} {s : State} {callee : BlockId}

/-- Entry calls the designated function with the arguments in registers and in the
frame of the outermost caller. -/
theorem calling_of_enter {fd : FunDef Function} (entered : enter env mem pointer args = .ok s)
    (designates : env.function? pointer = some (callee, fd)) :
    ∃ b regs m, s = .calling ⟨[], ⟨.ptr b 0, .null⟩⟩ callee regs m ∧ b < m.nextBlock ∧
      (∀ l ∈ fd.sig.argLocs, l.checkOutgoing = .ok ()) ∧
      List.Forall₂ (fun l v => frameArg? regs m (.ptr b 0) l = some v) fd.sig.argLocs
        (fd.sig.arrivals args) := by
  obtain ⟨_, _, b, fresh, regs, placed, m, checked, allocated, done, written, rfl⟩ :=
    enter_eq_ok_iff.mp entered
  obtain ⟨-, fd', found, rfl, accepted⟩ := env.checkEntry_eq_ok_iff.mp checked
  cases found.symm.trans designates
  obtain ⟨same, placeable⟩ := placeable_of_checkEntryArgs accepted
  have inside : ∀ l ∈ fd.sig.argLocs, l.checkOutgoing = .ok () :=
    (forall_mem_zip_iff same).mp (checkOutgoing_of_placeArgs done)
  have small : slotByteOffset fd.sig.argWords + entryHeaderSize ≤ Mem.maxBlockSize := by
    have fits := (Mem.alloc?_eq_some_iff.mp allocated).1.1
    omega
  have grows := ((keepsFrames_placeArgs done).trans (keepsFrames_writeEntryHeader written)).grows
  have live : b < m.nextBlock :=
    Nat.lt_of_lt_of_le ((Mem.nextBlock_alloc? allocated).2 ▸ Nat.lt_succ_self b) grows
  refine ⟨b, regs, m, rfl, live, inside, forall₂_arriving (List.forall₂_iff_zip.mpr ⟨same, ?_⟩)⟩
  intro l v mem
  have arg := (List.of_mem_zip mem).1
  rw [frameArg?_writeEntryHeader arg (inside l arg) small written]
  exact frameArg?_placeArgs placeable done (l, v) mem

/-- An external function is called with the arguments as they arrive. -/
theorem atExternal?_of_enter {ef : ExternalFunction} (entered : enter env mem pointer args = .ok s)
    (outside : env.function? pointer = some (callee, .external ef)) :
    atExternal? env s = some (ef, ef.sig.arrivals args) := by
  obtain ⟨b, regs, m, rfl, -, -, found⟩ := calling_of_enter entered outside
  have known := env.externalAt?_eq_some_iff.mpr (env.function?_eq_some_iff.mp outside).2
  have read : frameArgs? regs m (.ptr b 0) ef.sig = some (ef.sig.arrivals args) :=
    mapM_eq_some_iff.mpr found
  exact Option.bind_eq_some_iff.mpr ⟨ef, known, Option.bind_eq_some_iff.mpr ⟨_, read, rfl⟩⟩

/-! ### The callee -/

section

variable (env calls choose) (f : Function) (act : Activation) (regs : RegFile) (mem : Mem)

/-- Whether a running function finds the value as its argument in the location: in
the register, or by an instruction that reads the parameter at the offset of the
slot. -/
def Receives : Loc → Val → Prop
  | .reg r, v => regs.get r = v
  | .slot _ ofs t, v => ∀ pc dst, ∃ regs',
      exec env calls choose f act pc regs mem (.getParam (.ofInt (slotByteOffset ofs)) t dst) =
        some ([], .running act (pc + 1) regs' mem) ∧ regs'.get dst = v

end

/-- With an intact header a function finds what its caller has in its frame. -/
theorem receives_of_frameArg? {f : Function} {act : Activation} (sp : act.sp = .ptr b 0)
    (intact : Intact f act.stack b mem)
    (found : frameArg? regs mem act.stack.callerSp l = some v) :
    Receives env calls choose f act regs mem l v := by
  cases l with
  | reg r => exact Option.some.inj found
  | slot kind ofs t =>
      cases kind with
      | spill | incoming => cases found
      | outgoing =>
          intro pc dst
          have param : param? f act.stack act.sp mem t (.ofInt (slotByteOffset ofs)) = some v := by
            rw [param?, sp, intact.link]
            exact (if_pos rfl).trans found
          refine ⟨_, Option.bind_eq_some_iff.mpr ⟨v, param, rfl⟩, ?_⟩
          rw [RegFile.get_set, if_pos rfl]

/-- Entering a function leaves the arguments that its caller passes as they were. -/
theorem frameArg?_of_entered {f : Function} {stack : CallStack} {sp : BlockId} {mid : Mem}
    (old : b < mem.nextBlock) (arg : l ∈ f.sig.argLocs) (inside : l.checkOutgoing = .ok ())
    (allocated : mem.alloc? 0 f.stackSize = some (sp, mid))
    (written : writeHeader? f stack (.ptr sp 0) mid = some mem') :
    frameArg? (regs.clobber Clobber.functionEntry) mem' (.ptr b 0) l =
      frameArg? regs mem (.ptr b 0) l := by
  have other : b ≠ sp := by
    rw [(Mem.nextBlock_alloc? allocated).1]
    exact Nat.ne_of_lt old
  obtain ⟨linked, atLink, atRa⟩ := writeHeader?_ptr_eq_some_iff.mp written
  rw [frameArg?_of_store? inside (fun _ _ _ _ same => absurd same other) atRa,
    frameArg?_of_store? inside (fun _ _ _ _ same => absurd same other) atLink]
  cases l with
  | reg r => exact congrArg some (Signature.get_clobber_functionEntry arg regs)
  | slot kind ofs t =>
      cases kind with
      | spill | incoming => rfl
      | outgoing =>
          show mid.loadStack? _ _ _ = mem.loadStack? _ _ _
          rw [Mem.loadStack?_ptr, Mem.loadStack?_ptr]
          exact Mem.SameRange.load? (.of_alloc? allocated old)

/-- A function whose header slots do not overlap finds the arguments as they arrive
when it has been entered. -/
theorem arguments_of_enter {f : Function} (apart : f.HeaderApart)
    (entered : enter env mem pointer args = .ok s)
    (inside : env.function? pointer = some (callee, .internal f)) {events : Trace} {t : State}
    (stepped : step env calls choose s = some (events, t)) :
    ∃ act pc regs m, t = .running act pc regs m ∧
      List.Forall₂ (Receives env calls choose f act regs m) f.sig.argLocs (f.sig.arrivals args) := by
  obtain ⟨b, regs, m, rfl, old, room, found⟩ := calling_of_enter entered inside
  have body := (env.function?_eq_some_iff.mp inside).2
  obtain ⟨sp, mid, m', allocated, written, -, rfl⟩ := (step_calling_eq_some_iff body).mp stepped
  have intact := intact_of_writeHeader? apart rfl rfl (Mem.liveBounds?_of_alloc? allocated) written
  obtain ⟨same, each⟩ := List.forall₂_iff_zip.mp found
  refine ⟨_, _, _, _, rfl, List.forall₂_iff_zip.mpr ⟨same, ?_⟩⟩
  intro l v mem
  have arg := (List.of_mem_zip mem).1
  apply receives_of_frameArg? rfl intact
  exact (frameArg?_of_entered old arg (room l arg) allocated written).trans (each mem)

end Frame

end LateIR
