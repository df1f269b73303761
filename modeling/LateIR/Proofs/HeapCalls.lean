import LateIR.Proofs.Memory.HeapHistory

/-!
The heap as a program sees it. After any history that stays above the headers, an allocation
succeeds exactly if its size is allowed and there are numbers for blocks, and a release exactly
if its pointer is the one that an allocation returned and the block has not been freed since
(`heap_calls`). A block cannot be freed twice, and neither frames nor globals can be freed.
-/

namespace LateIR.Heap

/-- What an allocation leaves behind. -/
structure Allocated (b : BlockId) (n : Int64) (m : Mem) (out : CallOutcome) : Prop where
  silent : out.trace = []
  result : out.result = .ptr b 0
  fresh : m.block? b = none
  usable : out.mem.covers b 0 n.toInt
  others : ∀ b', b' ≠ b → out.mem.block? b' = m.block? b'

/-- What a release leaves behind. -/
structure Released (b : BlockId) (m : Mem) (out : CallOutcome) : Prop where
  silent : out.trace = []
  result : out.result = .undefined
  dead : out.mem.isLive b = false
  releases : Releases b m out.mem

variable {host : Host} {m : Mem} {b : BlockId}

/-- Sizes are read as signed, so a negative one is refused, and the largest leaves room for the
header in a block. -/
theorem isSome_calls_malloc_iff {n : Int64} :
    (host.calls .malloc [.long n] m).isSome ↔
      0 ≤ n.toInt ∧ n.toInt ≤ Mem.maxBlockSize - header ∧ m.nextBlock < Mem.blockLimit := by
  rw [Host.calls, Option.isSome_map, isSome_malloc?_iff]

theorem allocated_of_calls {n : Int64} {out : CallOutcome}
    (called : host.calls .malloc [.long n] m = some out) : ∃ b, Allocated b n m out := by
  obtain ⟨⟨v, m'⟩, done, rfl⟩ := Option.map_eq_some_iff.mp called
  obtain ⟨b, n', same, rfl, granted⟩ := grants_malloc? done
  cases same
  exact ⟨b, rfl, rfl, granted.fresh, granted.heap.covers, granted.others⟩

theorem released_of_calls {ofs : Int64} {out : CallOutcome}
    (called : host.calls .free [.ptr b ofs] m = some out) : Released b m out := by
  obtain ⟨m', done, rfl⟩ := Option.map_eq_some_iff.mp called
  obtain ⟨-, n, -, freed⟩ := free?_ptr_eq_some_iff.mp done
  have releases := releases_free? freed
  exact ⟨rfl, rfl, releases.isLive, releases⟩

/-- Pointers are taken back exactly if they are held. -/
theorem Tracks.isSome_calls_free_iff {log : List Entry} (tracks : Tracks log m) {ofs : Int64} :
    (host.calls .free [.ptr b ofs] m).isSome ↔ ofs = 0 ∧ Held log b := by
  rw [Host.calls, Option.isSome_map, isSome_free?_ptr_iff, tracks.held_iff]

/-- The null pointer may be freed, to no effect; no other value but a pointer may. -/
theorem calls_free_eq_none {args : List Val} (notNull : args ≠ [.null])
    (notPtr : ∀ b ofs, args ≠ [.ptr b ofs]) : host.calls .free args m = none := by
  rw [Host.calls, free?_eq_none notNull notPtr, Option.map_none]

/-- What the heap calls do after any history that stays above the headers: when they succeed
and what they leave behind, and that nothing else is taken back, in particular no block that
has been freed already or that was not allocated on the heap. -/
theorem heap_calls (host : Host) (requests : List Request)
    (spares : ∀ request ∈ requests, request.sparesHeaders) (log : List Entry) (m : Mem)
    (served : serve host requests .empty = (log, m)) :
    (∀ n, (host.calls .malloc [.long n] m).isSome ↔
      0 ≤ n.toInt ∧ n.toInt ≤ Mem.maxBlockSize - header ∧ m.nextBlock < Mem.blockLimit) ∧
    (∀ n out, host.calls .malloc [.long n] m = some out → ∃ b, Allocated b n m out) ∧
    (∀ b ofs, (host.calls .free [.ptr b ofs] m).isSome ↔ ofs = 0 ∧ Held log b) ∧
    (∀ b ofs out, host.calls .free [.ptr b ofs] m = some out → Released b m out) ∧
    host.calls .free [.null] m = some ⟨[], .undefined, m⟩ ∧
    (∀ args, args ≠ [.null] → (∀ b ofs, args ≠ [.ptr b ofs]) →
      host.calls .free args m = none) ∧
    ∀ entry ∈ log, ∀ b, entry.role = .freed b ∨ entry.role = .placed b →
      ∀ ofs, host.calls .free [.ptr b ofs] m = none := by
  have tracks := Tracks.start.serve host spares
  rw [served, List.nil_append] at tracks
  refine ⟨fun n => isSome_calls_malloc_iff, fun n out => allocated_of_calls,
    fun b ofs => tracks.isSome_calls_free_iff, fun b ofs out => released_of_calls, rfl,
    fun args => calls_free_eq_none, ?_⟩
  intro entry mem b settled ofs
  apply Option.not_isSome_iff_eq_none.mp
  intro done
  exact tracks.settled entry mem b settled (tracks.isSome_calls_free_iff.mp done).2

/-! A history with two heap blocks and a frame between them. The header of the first block is
copied to the start of the frame, and the second block is freed. -/

def busy : List Request :=
  [.call .malloc [.long 16], .memory (.alloc 0 8), .memory (.store .int64 1 0 (.ptr 2 0)),
    .call (.memcpy 8 8) [.ptr 2 0, .ptr 1 (-8)], .call .free [.ptr 1 8], .call .malloc [.long (-1)],
    .call .malloc [.long 4], .call .free [.ptr 3 0], .call .free [.ptr 3 0]]

def noHost : Host := fun _ => none

/-- What the history asked for and got. -/
def busyLog : List Entry := (serve noHost busy .empty).1

def afterBusy : Mem := (serve noHost busy .empty).2

theorem serve_busy : serve noHost busy .empty = (busyLog, afterBusy) := by
  rw [busyLog, afterBusy]

theorem role_busyLog : busyLog.map Entry.role =
    [.returned 1, .placed 2, .other, .other, .other, .other, .returned 3, .freed 3, .other] := by
  decide +kernel

theorem heap_calls_busy :
    serve noHost busy .empty = (busyLog, afterBusy) ∧
      (∀ request ∈ busy, request.sparesHeaders) ∧
      Held busyLog 1 ∧ (noHost.calls .free [.ptr 1 0] afterBusy).isSome ∧
      noHost.calls .free [.ptr 1 8] afterBusy = none ∧
      (∀ ofs, noHost.calls .free [.ptr 2 ofs] afterBusy = none) ∧
      (∀ ofs, noHost.calls .free [.ptr 3 ofs] afterBusy = none) ∧
      noHost.calls .free [.long 8] afterBusy = none ∧
      (noHost.calls .malloc [.long 16777208] afterBusy).isSome ∧
      noHost.calls .malloc [.long 16777209] afterBusy = none := by
  have spares : ∀ request ∈ busy, request.sparesHeaders := by decide
  have held : Held busyLog 1 := by decide +kernel
  have next : afterBusy.nextBlock = 4 := by decide
  obtain ⟨granted, -, taken, -, -, other, settled⟩ :=
    heap_calls noHost busy spares busyLog afterBusy serve_busy
  have refused : ∀ b role, role ∈ busyLog.map Entry.role → role = .freed b ∨ role = .placed b →
      ∀ ofs, noHost.calls .free [.ptr b ofs] afterBusy = none := by
    intro b role mem settles
    obtain ⟨entry, here, rfl⟩ := List.mem_map.mp mem
    exact settled entry here b settles
  rw [role_busyLog] at refused
  refine ⟨serve_busy, spares, held, (taken 1 0).mpr ⟨rfl, held⟩, ?_, ?_, ?_, ?_, ?_, ?_⟩
  · apply Option.not_isSome_iff_eq_none.mp
    rw [taken]
    exact fun both => absurd both.1 (by decide)
  · exact refused 2 (.placed 2) (by decide) (.inr rfl)
  · exact refused 3 (.freed 3) (by decide) (.inl rfl)
  · apply other _ (by decide)
    intro b ofs same
    cases same
  · rw [granted, next]
    decide
  · apply Option.not_isSome_iff_eq_none.mp
    rw [granted, next]
    decide

end LateIR.Heap
