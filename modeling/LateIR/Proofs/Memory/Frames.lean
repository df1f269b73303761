import LateIR.Proofs.Memory.Effect
import Mathlib.Data.List.Forall2
import Mathlib.Data.List.Sort

/-!
The stack frames of a run in memory. Frames are listed with the innermost first,
each as its function and stack pointer. `FramesAt` says which blocks they own:
blocks with falling numbers, each live with the bounds of its function's frame,
and no other block that starts at offset zero since the run began. Entering a
function, leaving it and running on keep this (`FramesAt.push`, `FramesAt.pop`,
`FramesAt.keep`).
-/

namespace LateIR.Mem

/-- The live blocks from number `floor` on that start at offset zero, in order. -/
def framesFrom (m : Mem) (floor : BlockId) : List BlockId :=
  (List.range m.nextBlock).filter fun b => floor ≤ b && (m.liveBounds? b).any (·.1 = 0)

theorem mem_framesFrom {m : Mem} {floor b : BlockId} :
    b ∈ m.framesFrom floor ↔ floor ≤ b ∧ ∃ hi, m.liveBounds? b = some (0, hi) := by
  simp only [framesFrom, List.mem_filter, List.mem_range, Bool.and_eq_true, decide_eq_true_eq]
  constructor
  · rintro ⟨-, young, zero⟩
    cases live : m.liveBounds? b with
    | none => simp [live] at zero
    | some bounds =>
        obtain ⟨lo, hi⟩ := bounds
        have start : lo = 0 := by simpa [live] using zero
        exact ⟨young, hi, by rw [start]⟩
  · rintro ⟨young, hi, live⟩
    exact ⟨lt_nextBlock_of_liveBounds? live, young, by simp [live]⟩

theorem pairwise_framesFrom (m : Mem) (floor : BlockId) :
    (m.framesFrom floor).Pairwise (· < ·) :=
  List.pairwise_lt_range.filter _

/-- The blocks of the frames of a run that began with the memory `before`.
`size?` gives the frame size of each function, and the blocks of `base` were
allocated for the run's entry. -/
structure FramesAt (size? : BlockId → Option Int) (before : Mem) (base : List BlockId)
    (frames : List (BlockId × Val)) (blocks : List BlockId) (m : Mem) : Prop where
  /-- Each stack pointer names the start of a live block with the frame's bounds. -/
  owned : List.Forall₂ (fun b frame => frame.2 = .ptr b 0 ∧
    ∃ size, size? frame.1 = some size ∧ m.liveBounds? b = some (0, max size 0)) blocks frames
  /-- Inner frames have larger numbers. -/
  falling : (blocks ++ base).Pairwise (· > ·)
  young : ∀ b ∈ blocks ++ base, before.nextBlock ≤ b
  base_live : ∀ b ∈ base, ∃ hi, m.liveBounds? b = some (0, hi)
  /-- No other block of the run starts at offset zero. -/
  noOther : ∀ b hi, before.nextBlock ≤ b → m.liveBounds? b = some (0, hi) → b ∈ blocks ++ base
  /-- Older blocks that start at offset zero are still live. -/
  older : ∀ b hi, b < before.nextBlock → before.liveBounds? b = some (0, hi) →
    m.liveBounds? b = some (0, hi)
  grown : before.nextBlock ≤ m.nextBlock

namespace FramesAt

variable {size? : BlockId → Option Int} {before m m' : Mem} {base blocks : List BlockId}
  {frames : List (BlockId × Val)}

/-- A memory has frames for a run that begins with it and nobody running. -/
theorem start (size? : BlockId → Option Int) (m : Mem) : FramesAt size? m [] [] [] m where
  owned := .nil
  falling := .nil
  young := by simp
  base_live _ mem := absurd mem List.not_mem_nil
  noOther b hi young live := absurd (lt_nextBlock_of_liveBounds? live) (Nat.not_lt.mpr young)
  older _ _ _ live := live
  grown := Nat.le_refl _

/-- The same after a block for the entry has been allocated. -/
theorem start_alloc? (size? : BlockId → Option Int) {size : Int} {b : BlockId}
    (allocated : before.alloc? 0 size = some (b, m)) : FramesAt size? before [b] [] [] m := by
  obtain ⟨rfl, next⟩ := nextBlock_alloc? allocated
  have bounds := liveBounds?_alloc? allocated
  refine ⟨.nil, List.pairwise_singleton .., ?_, ?_, ?_, ?_, ?_⟩
  · intro b mem
    exact Nat.le_of_eq (List.mem_singleton.mp mem).symm
  · intro b mem
    exact ⟨max size 0, by rw [bounds, if_pos (List.mem_singleton.mp mem)]⟩
  · intro b hi young live
    have bound : b < before.nextBlock + 1 := next ▸ lt_nextBlock_of_liveBounds? live
    exact List.mem_singleton.mpr (Nat.le_antisymm (Nat.le_of_lt_succ bound) young)
  · intro b hi old live
    rw [bounds, if_neg (Nat.ne_of_lt old), live]
  · exact next ▸ Nat.le_succ _

theorem live (own : FramesAt size? before base frames blocks m) {b : BlockId}
    (mem : b ∈ blocks ++ base) : ∃ hi, m.liveBounds? b = some (0, hi) := by
  rcases List.mem_append.mp mem with inner | outer
  · obtain ⟨i, bound, rfl⟩ := List.mem_iff_getElem.mp inner
    obtain ⟨same, pairs⟩ := List.forall₂_iff_get.mp own.owned
    obtain ⟨-, size, -, live⟩ := pairs i bound (by omega)
    exact ⟨_, live⟩
  · exact own.base_live b outer

theorem lt_nextBlock (own : FramesAt size? before base frames blocks m) {b : BlockId}
    (mem : b ∈ blocks ++ base) : b < m.nextBlock := by
  obtain ⟨hi, live⟩ := own.live mem
  exact lt_nextBlock_of_liveBounds? live

/-- Changes that leave frames alone keep the blocks of all frames. -/
theorem keep (own : FramesAt size? before base frames blocks m) (kept : KeepsFrames m m') :
    FramesAt size? before base frames blocks m' where
  owned := own.owned.imp fun b _ ⟨named, size, sized, live⟩ =>
    ⟨named, size, sized, (kept.same b _).mpr live⟩
  falling := own.falling
  young := own.young
  base_live b mem := (own.base_live b mem).imp fun hi live => (kept.same b hi).mpr live
  noOther b hi young live := own.noOther b hi young ((kept.same b hi).mp live)
  older b hi old live := (kept.same b hi).mpr (own.older b hi old live)
  grown := Nat.le_trans own.grown kept.grows

/-- The bounds of every block but a new one are as before. -/
theorem liveBounds?_push {size hi : Int} {b b' : BlockId}
    (allocated : m.alloc? 0 size = some (b, m')) (live : m.liveBounds? b' = some (0, hi)) :
    m'.liveBounds? b' = some (0, hi) := by
  have new := (nextBlock_alloc? allocated).1
  rw [liveBounds?_alloc? allocated, if_neg, live]
  rintro rfl
  exact absurd (lt_nextBlock_of_liveBounds? live) (new ▸ Nat.lt_irrefl _)

/-- Entering a function adds a frame in front. -/
theorem push (own : FramesAt size? before base frames blocks m) {func b : BlockId} {size : Int}
    (sized : size? func = some size) (allocated : m.alloc? 0 size = some (b, m')) :
    FramesAt size? before base ((func, .ptr b 0) :: frames) (b :: blocks) m' := by
  obtain ⟨new, next⟩ := nextBlock_alloc? allocated
  have bounds := liveBounds?_alloc? allocated
  refine ⟨.cons ⟨rfl, size, sized, ?_⟩ (own.owned.imp ?_), ?_, ?_, ?_, ?_, ?_, ?_⟩
  · rw [bounds, if_pos rfl]
  · rintro b' frame ⟨named, size', sized', live⟩
    exact ⟨named, size', sized', liveBounds?_push allocated live⟩
  · apply List.pairwise_cons.mpr
    refine ⟨?_, own.falling⟩
    intro b' mem
    exact new ▸ own.lt_nextBlock mem
  · intro b' mem
    rcases List.mem_cons.mp mem with rfl | mem
    · exact new ▸ own.grown
    · exact own.young b' mem
  · intro b' mem
    obtain ⟨hi, live⟩ := own.base_live b' mem
    exact ⟨hi, liveBounds?_push allocated live⟩
  · intro b' hi young live
    rw [bounds] at live
    split at live
    · rename_i same
      exact same ▸ List.mem_cons_self
    · exact List.mem_cons_of_mem b (own.noOther b' hi young live)
  · intro b' hi old live
    exact liveBounds?_push allocated (own.older b' hi old live)
  · exact Nat.le_trans own.grown (by rw [next, new]; exact Nat.le_succ _)

/-- The innermost frame can be freed with the size that its function has. -/
theorem freeFrame?_isSome {func : BlockId} {sp : Val} {size : Int}
    (own : FramesAt size? before base ((func, sp) :: frames) blocks m)
    (sized : size? func = some size) : (m.freeFrame? sp size).isSome := by
  cases own.owned with
  | cons head rest =>
      obtain ⟨rfl, size', sized', live⟩ := head
      cases sized.symm.trans sized'
      exact Option.isSome_iff_exists.mpr
        ⟨_, freeFrame?_eq_some_iff.mpr ⟨_, rfl, free?_eq_some_iff.mpr ⟨live, rfl⟩⟩⟩

/-- Leaving a function takes its frame away. -/
theorem pop {func : BlockId} {sp : Val} {size : Int}
    (own : FramesAt size? before base ((func, sp) :: frames) blocks m)
    (freed : m.freeFrame? sp size = some m') :
    ∃ b rest, blocks = b :: rest ∧ FramesAt size? before base frames rest m' := by
  obtain ⟨owned, falling, young, base_live, noOther, older, grown⟩ := own
  cases owned with
  | @cons b _ rest _ head owned =>
      obtain ⟨named, -⟩ := head
      obtain ⟨b', named', freed⟩ := freeFrame?_eq_some_iff.mp freed
      cases named.symm.trans named'
      obtain ⟨first, falling⟩ := List.pairwise_cons.mp falling
      have bounds := liveBounds?_free? freed
      -- Only the innermost block changes, and it is different from all others.
      have others : ∀ b' hi, b' ≠ b → m.liveBounds? b' = some (0, hi) →
          m'.liveBounds? b' = some (0, hi) := by
        intro b' hi other live
        rw [bounds, if_neg other, live]
      have distinct : ∀ b' ∈ rest ++ base, b' ≠ b := by
        intro b' mem
        exact Nat.ne_of_lt (first b' mem)
      refine ⟨b, rest, rfl, ?_, falling, ?_, ?_, ?_, ?_, ?_⟩
      · have inner : ∀ b' ∈ rest, b' ≠ b := by
          intro b' mem
          exact distinct b' (List.mem_append_left _ mem)
        refine ((List.forall₂_and_left rest frames).mpr ⟨inner, owned⟩).imp ?_
        rintro b' frame ⟨other, named, size', sized, live⟩
        exact ⟨named, size', sized, others b' _ other live⟩
      · intro b' mem
        exact young b' (List.mem_cons_of_mem _ mem)
      · intro b' mem
        obtain ⟨hi, live⟩ := base_live b' mem
        exact ⟨hi, others b' hi (distinct b' (List.mem_append_right _ mem)) live⟩
      · intro b' hi old live
        rw [bounds] at live
        split at live
        · cases live
        · rename_i other
          rcases List.mem_cons.mp (noOther b' hi old live) with same | mem
          · exact absurd same other
          · exact mem
      · intro b' hi old live
        have inner : b' ≠ b := by
          rintro rfl
          exact absurd (young b' List.mem_cons_self) (Nat.not_le.mpr old)
        exact others b' hi inner (older b' hi old live)
      · rw [nextBlock_free? freed]
        exact grown

/-- The run's live blocks that start at offset zero are those of the entry and of
the frames, the outermost first. -/
theorem framesFrom_eq (own : FramesAt size? before base frames blocks m) :
    m.framesFrom before.nextBlock = (blocks ++ base).reverse := by
  apply (pairwise_framesFrom m _).eq_of_mem_iff (List.pairwise_reverse.mpr own.falling)
  intro b
  rw [mem_framesFrom, List.mem_reverse]
  constructor
  · rintro ⟨young, hi, live⟩
    exact own.noOther b hi young live
  · intro mem
    exact ⟨own.young b mem, own.live mem⟩

theorem length_framesFrom (own : FramesAt size? before base frames blocks m) :
    (m.framesFrom before.nextBlock).length = frames.length + base.length := by
  rw [own.framesFrom_eq, List.length_reverse, List.length_append, own.owned.length_eq]

/-- Leaving a function takes its block away, and no other. -/
theorem framesFrom_pop {func : BlockId} {sp : Val} {size : Int}
    (own : FramesAt size? before base ((func, sp) :: frames) blocks m)
    (freed : m.freeFrame? sp size = some m') :
    m'.framesFrom before.nextBlock = (m.framesFrom before.nextBlock).dropLast := by
  obtain ⟨b, rest, rfl, own'⟩ := own.pop freed
  rw [own'.framesFrom_eq, own.framesFrom_eq, List.cons_append, List.reverse_cons,
    List.dropLast_concat]

end FramesAt

end LateIR.Mem
