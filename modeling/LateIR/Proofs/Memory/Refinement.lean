import LateIR.Proofs.Memory.BlockStore

/-!
Operations on stored blocks. Each of them keeps the blocks sound, breaks off with no fault, and
answers and does what the operation of the same name does to the memory that the blocks stand for
(`Action.Refines`). The same is then true of any sequence of requests (`serve_refines`).
-/

namespace LateIR.BlockStore

variable {s : BlockStore} {b : BlockId} {blk : StoredBlock}

/-! ### Running an operation -/

namespace Action

variable {α β : Type}

theorem runOn_get_bind (rest : BlockStore → Action α) :
    (get >>= rest).runOn s = (rest s).runOn s := rfl

theorem runOn_ofOption_bind (value : Option α) (rest : α → Action β) :
    (ofOption value >>= rest).runOn s =
      match value with
      | some a => (rest a).runOn s
      | none => .ok (none, s) := by
  cases value <;> rfl

theorem runOn_guard_bind (p : Prop) [Decidable p] (rest : Unit → Action α) :
    (guard p >>= rest).runOn s = if p then (rest ()).runOn s else .ok (none, s) := by
  show ((if p then pure () else failure : Action Unit) >>= rest).runOn s = _
  by_cases holds : p
  · rw [if_pos holds, if_pos holds]
    rfl
  · rw [if_neg holds, if_neg holds]
    rfl

theorem runOn_map (f : α → β) (action : Action α) :
    (f <$> action).runOn s =
      (action.runOn s).map fun (answer, s') => (answer.map f, s') := by
  rw [runOn, OptionT.run_map, StateT.run_map]
  rfl

/-- Whether the operation keeps blocks sound, breaks off with no fault, and does what the command
does to the memory that the blocks stand for. -/
def Refines (action : Action α) (command : Mem.Command α) : Prop :=
  ∀ s : BlockStore, s.Sound → ∃ answer s',
    action.runOn s = .ok (answer, s') ∧ s'.Sound ∧
      command.runOn s.toMem = (answer, s'.toMem)

theorem Refines.map {action : Action α} {command : Mem.Command α}
    (refines : action.Refines command) (f : α → β) : (f <$> action).Refines (f <$> command) := by
  intro s sound
  obtain ⟨answer, s', ran, sound', same⟩ := refines s sound
  refine ⟨answer.map f, s', ?_, sound', ?_⟩
  · rw [runOn_map, ran]
    rfl
  · rw [Mem.Command.runOn_map, same]

end Action

/-! ### The operations -/

theorem runOn_write {blk' : StoredBlock} {ofs : Int64} {data : List MemByte}
    (here : s.block? b = some blk) (written : blk.write ofs data = .ok blk') :
    (write b ofs data).runOn s = .ok (some (), s.put b blk') := by
  rw [write, Action.runOn_get_bind, Action.runOn_ofOption_bind, here]
  dsimp only
  rw [written]
  rfl

/-- An allocation that is not too large, while numbers are left. -/
theorem runOn_alloc_of_fits {lo hi : Int64}
    (fits : (hi.toInt - lo.toInt).toNat ≤ Mem.maxBlockSize)
    (room : s.nextBlock < Mem.blockLimit) :
    ∃ blk, (alloc lo hi).runOn s =
        .ok (some s.nextBlock, s.add blk (s.next + 1)) ∧
      blk.Sound ∧
      blk.toBlock = .live lo.toInt (.replicate (hi.toInt - lo.toInt).toNat .undefined) := by
  have bound : (hi.toInt - lo.toInt).toNat ≤ 16777216 := fits
  -- a size that is small enough is one that a word holds
  obtain ⟨len, counted⟩ : ∃ len : Int64, len.toInt = (max hi lo).toInt - lo.toInt := by
    rw [Word.toInt_max]
    exact ⟨.ofInt _, Int64.toInt_ofInt_of_le (by omega) (by omega)⟩
  have size : Word.toIndex len = (hi.toInt - lo.toInt).toNat := by
    rw [Word.toInt_max] at counted
    rw [Word.toIndex_of_nonneg (by omega)]
    omega
  have small : len ≤ .ofNat Mem.maxBlockSize := by
    rw [Word.toInt_max] at counted
    rw [Int64.le_iff_toInt_le]
    show len.toInt ≤ 16777216
    omega
  have counts : Word.succ? s.next = some (s.next + 1) :=
    (Word.succ?_eq _).trans (if_pos room)
  refine ⟨_, ?_, StoredBlock.sound_fresh counted small, ?_⟩
  · rw [alloc, Action.runOn_ofOption_bind, Word.ofInt?_eq_some_iff.mpr counted]
    dsimp only
    rw [Action.runOn_guard_bind, if_pos small, Action.runOn_get_bind,
      Action.runOn_ofOption_bind, counts]
    rfl
  · rw [StoredBlock.toBlock_of_live rfl, size]

/-- Allocations that fail take no number. -/
theorem runOn_alloc_of_not_fits {lo hi : Int64}
    (full : ¬ ((hi.toInt - lo.toInt).toNat ≤ Mem.maxBlockSize ∧ s.nextBlock < Mem.blockLimit)) :
    (alloc lo hi).runOn s = .ok (none, s) := by
  rw [alloc, Action.runOn_ofOption_bind]
  split
  · rename_i len counted
    rw [Action.runOn_guard_bind]
    split
    · rename_i small
      rw [Action.runOn_get_bind, Action.runOn_ofOption_bind, Word.succ?_eq, if_neg]
      intro room
      rw [Word.ofInt?_eq_some_iff, Word.toInt_max] at counted
      have small : len.toInt ≤ 16777216 := Int64.le_iff_toInt_le.mp small
      refine full ⟨?_, room⟩
      show _ ≤ 16777216
      omega
    · rfl
  · rfl

theorem alloc_refines (lo hi : Int64) : (alloc lo hi).Refines (.alloc lo.toInt hi.toInt) := by
  intro s sound
  rw [Mem.Command.runOn_alloc, Mem.alloc?, sound.nextBlock_toMem]
  split
  · rename_i fits
    obtain ⟨blk, ran, kept, same⟩ := runOn_alloc_of_fits fits.1 fits.2
    have succ := Word.toNat_succ fits.2
    refine ⟨_, _, ran, sound.add kept succ, ?_⟩
    rw [sound.toMem_add kept succ, same]
    rfl
  · rename_i full
    exact ⟨none, s, runOn_alloc_of_not_fits full, sound, rfl⟩

theorem free_refines (b : BlockId) (lo hi : Int64) :
    (free b lo hi).Refines (.free b lo.toInt hi.toInt) := by
  intro s sound
  rw [Mem.Command.runOn_free, Mem.free?, sound.block?_toMem, free, Action.runOn_get_bind,
    Action.runOn_ofOption_bind]
  cases here : s.block? b with
  | none => exact ⟨none, s, rfl, sound, rfl⟩
  | some blk =>
      have kept := sound.blocks b blk here
      dsimp only [Option.map_some]
      rw [Action.runOn_guard_bind, blk.isLive_toBlock, blk.lo_toBlock, kept.hi_toBlock,
        ← Word.toInt_max]
      simp only [Int64.toInt_inj]
      split
      · rename_i whole
        obtain ⟨left, same⟩ := kept.free whole.1
        refine ⟨some (), _, rfl, sound.put here left, ?_⟩
        rw [sound.toMem_put here left same]
        rfl
      · exact ⟨none, s, rfl, sound, rfl⟩

/-- Data that is written to a range that has been let through. -/
theorem write_refines (sound : s.Sound) {ofs size : Int64} {data : List MemByte}
    (here : s.block? b = some blk) (covered : blk.covers ofs size)
    (counted : size.toInt = data.length) :
    ∃ s', (write b ofs data).runOn s = .ok (some (), s') ∧ s'.Sound ∧
      s'.toMem = s.toMem.modify (Block.write ofs.toInt data) b := by
  obtain ⟨blk', written, kept, same⟩ := (sound.blocks b blk here).write_eq covered counted
  exact ⟨_, runOn_write here written, sound.put here kept, sound.toMem_put here kept same⟩

/-- The bytes of a value are as many as its access covers. -/
theorem store_refines (c : Chunk) (b : BlockId) (ofs : Int64) (v : Val) :
    (store c b ofs v).Refines (.store c b ofs.toInt v) := by
  intro s sound
  rw [Mem.Command.runOn_store, Mem.store?, sound.accessible_toMem, BlockStore.store,
    Action.runOn_get_bind, Action.runOn_ofOption_bind]
  cases accessible : s.accessible? c b ofs with
  | none => exact ⟨none, s, rfl, sound, rfl⟩
  | some blk =>
      obtain ⟨here, covered⟩ := block?_of_accessible? accessible
      have counted : (Int64.ofNat c.size).toInt = (c.encode v).length := by
        rw [c.toInt_size, c.length_encode]
      obtain ⟨s', ran, sound', same⟩ := write_refines sound here covered counted
      refine ⟨some (), s', ran, sound', ?_⟩
      have covered' : s.toMem.covers b ofs.toInt (c.encode v).length := by
        rw [← counted, sound.covers_toMem, here]
        exact covered
      rw [same, Option.isSome_some, if_pos rfl, Mem.storeBytes?, if_pos covered']
      rfl

theorem storeBytes_refines (b : BlockId) (ofs : Int64) {data : List MemByte}
    (countable : data.length ≤ Int64.maxValue.toInt) :
    (storeBytes b ofs data).Refines (.storeBytes b ofs.toInt data) := by
  intro s sound
  have countable : (data.length : Int) ≤ 2 ^ 63 - 1 := countable
  have counted : (Int64.ofNat data.length).toInt = data.length :=
    Int64.toInt_ofNat_of_lt (by omega)
  rw [Mem.Command.runOn_storeBytes, Mem.storeBytes?, ← counted, sound.covers_toMem, storeBytes,
    Action.runOn_get_bind, Action.runOn_ofOption_bind]
  cases here : s.block? b with
  | none => exact ⟨none, s, rfl, sound, rfl⟩
  | some blk =>
      dsimp only [Option.any_some]
      rw [Action.runOn_guard_bind]
      split
      · rename_i covered
        obtain ⟨s', ran, sound', same⟩ := write_refines sound here covered counted
        exact ⟨some (), s', ran, sound', by rw [same]; rfl⟩
      · exact ⟨none, s, rfl, sound, rfl⟩

/-! ### Requests -/

/-- The request to the memory that the blocks stand for. -/
def Request.toMem : Request → Mem.Request
  | alloc lo hi => .alloc lo.toInt hi.toInt
  | free b lo hi => .free b lo.toInt hi.toInt
  | store c b ofs v => .store c b ofs.toInt v
  | storeAt c addr v => .storeAt c addr v
  | storeBytes b ofs data _ => .storeBytes b ofs.toInt data

/-- The one case analysis over the requests. -/
theorem Request.refines (request : Request) : request.perform.Refines request.toMem.inPlace := by
  cases request with
  | alloc lo hi => exact (alloc_refines lo hi).map some
  | free b lo hi => exact (free_refines b lo hi).map _
  | store c b ofs v => exact (store_refines c b ofs v).map _
  | storeAt c addr v =>
      cases addr with
      | ptr b ofs => exact (store_refines c b ofs v).map _
      | _ => exact fun s sound => ⟨none, s, rfl, sound, rfl⟩
  | storeBytes b ofs data countable => exact (storeBytes_refines b ofs countable).map _

/-- Requests to sound blocks never break off, keep the blocks sound, and answer and do what they
do to the memory that the blocks stand for. -/
theorem serve_refines (requests : List Request) (s : BlockStore) (sound : s.Sound) :
    ∃ ids s', serve requests s = .ok (ids, s') ∧ s'.Sound ∧
      Mem.serve (requests.map Request.toMem) s.toMem = (ids, s'.toMem) := by
  induction requests generalizing s with
  | nil => exact ⟨[], s, rfl, sound, rfl⟩
  | cons request rest ih =>
      obtain ⟨answer, mid, ran, kept, same⟩ := request.refines s sound
      obtain ⟨ids, s', ran', sound', same'⟩ := ih mid kept
      refine ⟨answer.join.toList ++ ids, s', ?_, sound', ?_⟩
      · exact bind_eq_ok_iff.mpr ⟨_, ran, bind_eq_ok_iff.mpr ⟨_, ran', rfl⟩⟩
      · rw [List.map_cons, Mem.serve, same]
        dsimp only
        rw [same']

end LateIR.BlockStore
