import LateIR.Proofs.Memory.Heap
import LateIR.Proofs.Memory.InPlace
import LateIR.Proofs.Memory.History

/-!
Histories of a memory with a heap. Requests are calls of the host and operations on memory; the
log of a history has what each of them answered, and says which heap blocks are held, that is,
returned and not freed since. As long as nothing is written below offset zero and all other
blocks start at or above it, the held blocks are the heap blocks of the memory (`Tracks`).
-/

namespace LateIR.Heap

/-! ### Requests and their log -/

/-- A call of the host, or an operation on memory. -/
inductive Request where
  | call (ef : ExternalFunction) (args : List Val)
  | memory (request : Mem.Request)

/-- A request together with its answer, which is none if it was refused. -/
inductive Entry where
  | call (ef : ExternalFunction) (args : List Val) (result : Option Val)
  | memory (request : Mem.Request) (answer : Option (Option BlockId))

/-- Carries out a request. A call that is refused leaves the memory as it is. -/
def Request.runOn (host : Host) (m : Mem) : Request → Entry × Mem
  | .call ef args =>
      match host.calls ef args m with
      | some out => (.call ef args (some out.result), out.mem)
      | none => (.call ef args none, m)
  | .memory request =>
      let (answer, m) := request.inPlace.runOn m
      (.memory request answer, m)

/-- Carries out the requests one after the other, and goes on after those that are refused. -/
def serve (host : Host) : List Request → Mem → List Entry × Mem
  | [], m => ([], m)
  | request :: rest, m =>
      let (entry, m) := request.runOn host m
      let (log, m) := serve host rest m
      (entry :: log, m)

/-- Whether a request stays above the headers: it writes from offset zero on, and what it
allocates starts there or later. -/
def Request.sparesHeaders : Request → Bool
  | .call (.memcpy ..) [.ptr _ ofs, _] => 0 ≤ ofs.toInt
  | .memory (.alloc lo _) => 0 ≤ lo
  | .memory (.store _ _ ofs _) => 0 ≤ ofs
  | .memory (.storeAt _ (.ptr _ ofs) _) => 0 ≤ ofs.toInt
  | .memory (.storeBytes _ ofs _) => 0 ≤ ofs
  | _ => true

/-! ### What a log says about blocks -/

/-- What an entry of the log means to a block. -/
inductive Role where
  /-- The block is one of the heap, and its pointer was returned. -/
  | returned (b : BlockId)
  | freed (b : BlockId)
  /-- The block was allocated without a header, as frames and globals are. -/
  | placed (b : BlockId)
  | other
  deriving DecidableEq

/-- The block that a role is about. -/
def Role.block? : Role → Option BlockId
  | .returned b | .freed b | .placed b => some b
  | .other => none

def Entry.role : Entry → Role
  | .call .malloc _ (some (.ptr b _)) => .returned b
  | .call .free [.ptr b _] (some _) => .freed b
  | .memory _ (some (some b)) => .placed b
  | .memory (.free b _ _) (some none) => .freed b
  | _ => .other

theorem Entry.role_of_refused (ef : ExternalFunction) (args : List Val) :
    (call ef args none).role = .other := by
  unfold role
  split <;> simp_all

/-- Whether the block was returned and has not been freed since. -/
def Held (log : List Entry) (b : BlockId) : Prop :=
  ∃ before entry later, log = before ++ entry :: later ∧ entry.role = .returned b ∧
    ∀ e ∈ later, e.role ≠ .freed b

theorem not_held_nil (b : BlockId) : ¬ Held [] b := by
  rintro ⟨before, entry, later, split, -⟩
  exact List.append_ne_nil_of_right_ne_nil before (List.cons_ne_nil entry later) split.symm

/-- The last entry may return the block; otherwise it was held and is not freed now. -/
theorem held_append_iff {log : List Entry} {entry : Entry} {b : BlockId} :
    Held (log ++ [entry]) b ↔
      entry.role = .returned b ∨ Held log b ∧ entry.role ≠ .freed b := by
  constructor
  · rintro ⟨before, first, later, split, returned, unfreed⟩
    rcases List.eq_nil_or_concat later with rfl | ⟨between, last, rfl⟩
    · obtain ⟨-, same⟩ := List.append_inj' split rfl
      cases same
      exact .inl returned
    · rw [List.concat_eq_append] at split unfreed
      rw [← List.cons_append, ← List.append_assoc] at split
      obtain ⟨same, same'⟩ := List.append_inj' split rfl
      cases same'
      refine .inr ⟨⟨before, first, between, same, returned, ?_⟩, ?_⟩
      · intro e mem
        exact unfreed e (List.mem_append_left _ mem)
      · exact unfreed entry (List.mem_append_right _ (List.mem_singleton_self entry))
  · rintro (returned | ⟨⟨before, first, later, rfl, returned, unfreed⟩, kept⟩)
    · exact ⟨log, entry, [], rfl, returned, fun _ mem => absurd mem List.not_mem_nil⟩
    · refine ⟨before, first, later ++ [entry], by simp, returned, ?_⟩
      intro e mem
      rcases List.mem_append.mp mem with mem | mem
      · exact unfreed e mem
      · exact List.mem_singleton.mp mem ▸ kept

theorem held_cons_iff {first : Entry} {log : List Entry} {b : BlockId} :
    Held (first :: log) b ↔
      first.role = .returned b ∧ (∀ e ∈ log, e.role ≠ .freed b) ∨ Held log b := by
  constructor
  · rintro ⟨before, entry, later, split, returned, unfreed⟩
    rcases List.cons_eq_append_iff.mp split with ⟨rfl, same⟩ | ⟨before, rfl, rest⟩
    · cases same
      exact .inl ⟨returned, unfreed⟩
    · exact .inr ⟨before, entry, later, rest, returned, unfreed⟩
  · rintro (⟨returned, unfreed⟩ | ⟨before, entry, later, rfl, returned, unfreed⟩)
    · exact ⟨[], first, log, rfl, returned, unfreed⟩
    · exact ⟨first :: before, entry, later, rfl, returned, unfreed⟩

instance Held.decidable (b : BlockId) : ∀ log, Decidable (Held log b)
  | [] => isFalse (not_held_nil b)
  | _ :: log =>
      have := Held.decidable b log
      decidable_of_iff _ held_cons_iff.symm

/-! ### What a request does -/

/-- How a request that stays above the headers changes memory. -/
inductive Effect : Role → Mem → Mem → Prop where
  | unchanged {m : Mem} : Effect .other m m
  | malloc {m m' : Mem} {b : BlockId} {n : Int64} (granted : Grants b n m m') :
      Effect (.returned b) m m'
  | free {m m' : Mem} {b : BlockId} {lo hi : Int} (freed : m.free? b lo hi = some m') :
      Effect (.freed b) m m'
  | alloc {m m' : Mem} {b : BlockId} {lo hi : Int} (nonneg : 0 ≤ lo)
      (allocated : m.alloc? lo hi = some (b, m')) : Effect (.placed b) m m'
  | store {m m' : Mem} {b : BlockId} {ofs : Int} {data : List MemByte} (nonneg : 0 ≤ ofs)
      (stored : m.storeBytes? b ofs data = some m') : Effect .other m m'

theorem Effect.of_calls {host : Host} {ef : ExternalFunction} {args : List Val} {m : Mem}
    {out : CallOutcome} (spares : (Request.call ef args).sparesHeaders)
    (called : host.calls ef args m = some out) :
    Effect (Entry.call ef args (some out.result)).role m out.mem := by
  cases Host.performs_of_calls called with
  | malloc done =>
      obtain ⟨b, n, -, rfl, granted⟩ := grants_malloc? done
      exact .malloc granted
  | free done =>
      rcases free?_eq_some done with ⟨rfl, rfl⟩ | ⟨b, n, rfl, -, -, freed⟩
      · exact .unchanged
      · exact .free freed
  | memcpy done =>
      obtain ⟨target, t, source, s, data, rfl, -, stored⟩ := memcpy?_eq_some done
      exact .store (of_decide_eq_true spares) stored
  | _ => exact .unchanged

theorem Effect.of_store? {c : Chunk} {m m' : Mem} {b : BlockId} {ofs : Int} {v : Val}
    (nonneg : 0 ≤ ofs) (stored : m.store? c b ofs v = some m') : Effect .other m m' :=
  .store nonneg (Mem.store?_eq_some_iff.mp stored).2

/-- An operation without an answer has its effect if it succeeds. -/
theorem Effect.of_command (host : Host) {request : Mem.Request} {command : Mem.Command Unit}
    {m : Mem} {result : Option Mem}
    (inPlace : request.inPlace = (fun _ => none) <$> command)
    (runs : command.runOn m = Mem.Command.orUnchanged m (result.map ((), ·)))
    (success : ∀ m', result = some m' →
      Effect (Entry.memory request (some none)).role m m') :
    let (entry, m') := (Request.memory request).runOn host m
    Effect entry.role m m' := by
  rw [Request.runOn, inPlace, Mem.Command.runOn_map, runs]
  cases result with
  | none => cases request <;> exact .unchanged
  | some m' => exact success m' rfl

theorem Request.effect (host : Host) (request : Request) (spares : request.sparesHeaders)
    (m : Mem) :
    let (entry, m') := request.runOn host m
    Effect entry.role m m' := by
  cases request with
  | call ef args =>
      rw [runOn]
      cases called : host.calls ef args m with
      | none =>
          show Effect (Entry.call ef args none).role m m
          rw [Entry.role_of_refused]
          exact .unchanged
      | some out => exact .of_calls spares called
  | memory request =>
      cases request with
      | alloc lo hi =>
          rw [runOn, Mem.Request.inPlace, Mem.Command.runOn_map, Mem.Command.runOn_alloc]
          cases allocated : m.alloc? lo hi with
          | none => exact .unchanged
          | some result => exact .alloc (of_decide_eq_true spares) allocated
      | free b lo hi => exact .of_command host rfl (Mem.Command.runOn_free b lo hi) fun _ => .free
      | store c b ofs v =>
          exact .of_command host rfl (Mem.Command.runOn_store c b ofs v) fun _ =>
            .of_store? (of_decide_eq_true spares)
      | storeAt c addr v =>
          cases addr with
          | ptr b ofs =>
              exact .of_command host rfl (Mem.Command.runOn_store c b ofs.toInt v) fun _ =>
                .of_store? (of_decide_eq_true spares)
          | _ => exact .unchanged
      | storeBytes b ofs data =>
          exact .of_command host rfl (Mem.Command.runOn_storeBytes b ofs data) fun _ =>
            .store (of_decide_eq_true spares)

/-! ### Held blocks and heap blocks -/

section

variable {role : Role} {m m' : Mem} {b : BlockId}

/-- A heap block stays one until it is freed. -/
theorem Effect.isHeapBlock {n : Int64} (effect : Effect role m m') (heap : IsHeapBlock m b n)
    (kept : role ≠ .freed b) : IsHeapBlock m' b n := by
  have old := Mem.lt_nextBlock_of_liveBounds? heap.live
  apply heap.of_sameRange
  cases effect with
  | unchanged => exact .refl m
  | @malloc _ _ new _ granted =>
      exact .of_block? (granted.others b (granted.number ▸ Nat.ne_of_lt old))
  | free freed =>
      apply Mem.SameRange.of_block?
      apply (releases_free? freed).others
      rintro rfl
      exact kept rfl
  | alloc nonneg allocated => exact .of_alloc? allocated old
  | store nonneg stored =>
      apply Mem.Change.sameRange_of_storeBytes? _ stored
      intro i first last written
      have below : i < 0 := last
      omega

/-- Where a live block comes from: it was returned just now, has no header, or was there before
and has not been freed. -/
theorem Effect.origin (effect : Effect role m m') {lo hi : Int}
    (live : m'.liveBounds? b = some (lo, hi)) :
    role = .returned b ∨ 0 ≤ lo ∨ m.liveBounds? b = some (lo, hi) ∧ role ≠ .freed b := by
  cases effect with
  | unchanged => exact .inr (.inr ⟨live, Role.noConfusion⟩)
  | @malloc _ _ new _ granted =>
      by_cases same : b = new
      · exact .inl (congrArg Role.returned same.symm)
      · rw [Mem.liveBounds?, granted.others b same] at live
        exact .inr (.inr ⟨live, Role.noConfusion⟩)
  | @free _ _ target _ _ freed =>
      rw [Mem.liveBounds?_free? freed] at live
      obtain ⟨other, live⟩ := Option.ite_none_left_eq_some.mp live
      exact .inr (.inr ⟨live, fun same => other (Role.freed.inj same).symm⟩)
  | @alloc _ _ new lo' _ nonneg allocated =>
      rw [Mem.liveBounds?_alloc? allocated] at live
      split at live
      · cases live
        exact .inr (.inl nonneg)
      · exact .inr (.inr ⟨live, Role.noConfusion⟩)
  | store nonneg stored =>
      rw [Mem.liveBounds?_storeBytes? stored] at live
      exact .inr (.inr ⟨live, Role.noConfusion⟩)

theorem Effect.grows (effect : Effect role m m') : m.nextBlock ≤ m'.nextBlock := by
  cases effect with
  | unchanged => exact Nat.le_refl _
  | malloc granted => exact granted.number ▸ granted.next ▸ Nat.le_succ _
  | free freed => exact Nat.le_of_eq (Mem.nextBlock_free? freed).symm
  | alloc nonneg allocated =>
      obtain ⟨rfl, next⟩ := Mem.nextBlock_alloc? allocated
      exact next ▸ Nat.le_succ _
  | store nonneg stored => exact Nat.le_of_eq (Mem.nextBlock_storeBytes? stored).symm

theorem Effect.lt_nextBlock (effect : Effect role m m') (about : role.block? = some b) :
    b < m'.nextBlock := by
  cases effect with
  | unchanged => cases about
  | malloc granted =>
      cases about
      exact granted.next ▸ Nat.lt_succ_self _
  | free freed =>
      cases about
      rw [Mem.nextBlock_free? freed]
      exact Mem.lt_nextBlock_of_liveBounds? (Mem.free?_eq_some_iff.mp freed).1
  | alloc nonneg allocated =>
      cases about
      exact (Mem.nextBlock_alloc? allocated).2 ▸ Nat.lt_succ_self _
  | store nonneg stored => cases about

/-- Pointers are returned, and blocks placed, with numbers that were not in use. -/
theorem Effect.eq_nextBlock (effect : Effect role m m')
    (added : role = .returned b ∨ role = .placed b) : b = m.nextBlock := by
  cases effect with
  | malloc granted =>
      rcases added with added | added
      · exact Role.returned.inj added ▸ granted.number
      · cases added
  | alloc nonneg allocated =>
      rcases added with added | added
      · cases added
      · exact Role.placed.inj added ▸ (Mem.nextBlock_alloc? allocated).1
  | _ => rcases added with added | added <;> cases added

end

/-- What the log of a history says about the memory after it. -/
structure Tracks (log : List Entry) (m : Mem) : Prop where
  heap : ∀ b, Held log b → ∃ n, IsHeapBlock m b n
  /-- Blocks that are not held have no header. -/
  plain : ∀ b lo hi, m.liveBounds? b = some (lo, hi) → ¬ Held log b → 0 ≤ lo
  known : ∀ e ∈ log, ∀ b, e.role.block? = some b → b < m.nextBlock
  settled : ∀ e ∈ log, ∀ b, e.role = .freed b ∨ e.role = .placed b → ¬ Held log b

namespace Tracks

variable {log : List Entry} {m m' : Mem}

theorem start : Tracks [] .empty := by
  refine ⟨fun b held => absurd held (not_held_nil b), ?_, ?_, ?_⟩
  · intro b lo hi live
    cases b <;> cases live
  · exact fun _ mem => absurd mem List.not_mem_nil
  · exact fun _ mem => absurd mem List.not_mem_nil

theorem lt_nextBlock (tracks : Tracks log m) {b : BlockId} (held : Held log b) :
    b < m.nextBlock := by
  obtain ⟨n, heap⟩ := tracks.heap b held
  exact Mem.lt_nextBlock_of_liveBounds? heap.live

/-- One more request. -/
theorem append (tracks : Tracks log m) {entry : Entry} (effect : Effect entry.role m m') :
    Tracks (log ++ [entry]) m' := by
  refine ⟨?_, ?_, ?_, ?_⟩
  · intro b held
    rcases held_append_iff.mp held with returned | ⟨held, kept⟩
    · rw [returned] at effect
      cases effect with
      | malloc granted => exact ⟨_, granted.heap⟩
    · obtain ⟨n, heap⟩ := tracks.heap b held
      exact ⟨n, effect.isHeapBlock heap kept⟩
  · intro b lo hi live free
    rw [held_append_iff, not_or] at free
    rcases effect.origin live with returned | nonneg | ⟨live, kept⟩
    · exact absurd returned free.1
    · exact nonneg
    · exact tracks.plain b lo hi live fun held => free.2 ⟨held, kept⟩
  · intro e mem b about
    rcases List.mem_append.mp mem with mem | mem
    · exact Nat.lt_of_lt_of_le (tracks.known e mem b about) effect.grows
    · cases List.mem_singleton.mp mem
      exact effect.lt_nextBlock about
  · intro e mem b settled held
    rcases held_append_iff.mp held with returned | ⟨held, kept⟩
    -- what is returned has a new number, which no entry has mentioned before
    · rcases List.mem_append.mp mem with mem | mem
      · have about : e.role.block? = some b := by
          rcases settled with role | role <;> rw [role, Role.block?]
        have old := tracks.known e mem b about
        exact absurd (effect.eq_nextBlock (.inl returned)) (Nat.ne_of_lt old)
      · cases List.mem_singleton.mp mem
        rw [returned] at settled
        rcases settled with role | role <;> cases role
    · rcases List.mem_append.mp mem with mem | mem
      · exact tracks.settled e mem b settled held
      · cases List.mem_singleton.mp mem
        rcases settled with freed | placed
        · exact kept freed
        · have old := tracks.lt_nextBlock held
          exact absurd (effect.eq_nextBlock (.inr placed)) (Nat.ne_of_lt old)

theorem serve (host : Host) {requests : List Request}
    (spares : ∀ request ∈ requests, request.sparesHeaders) (tracks : Tracks log m) :
    Tracks (log ++ (Heap.serve host requests m).1) (Heap.serve host requests m).2 := by
  induction requests generalizing log m with
  | nil =>
      rw [Heap.serve, List.append_nil]
      exact tracks
  | cons request rest ih =>
      obtain ⟨first, later⟩ := List.forall_mem_cons.mp spares
      have whole := ih later (tracks.append (request.effect host first m))
      rwa [List.append_assoc] at whole

/-- The heap blocks of the memory are those that are held. -/
theorem held_iff (tracks : Tracks log m) (b : BlockId) :
    Held log b ↔ ∃ n, IsHeapBlock m b n := by
  refine ⟨tracks.heap b, ?_⟩
  rintro ⟨n, heap⟩
  apply Classical.byContradiction
  intro free
  exact absurd (tracks.plain b _ _ heap.live free) (by decide)

end Tracks

end LateIR.Heap
