import LateIR.External.Host
import LateIR.Proofs.Memory.Bounds

/-!
What running code does to memory between two changes of the call stack, and why
it leaves stack frames alone. Frames and globals start at offset zero and heap
blocks below it, at their header, so the built-ins of the host can neither free
a frame nor add a block that looks like one (`Host.keepsFrames_calls`).
-/

namespace LateIR

namespace Mem

/-- How an instruction that stays in its function changes memory: not at all, by
a store, or by a call of the service. -/
inductive Effect (calls : CallService) : Mem → Mem → Prop where
  | none {m : Mem} : Effect calls m m
  | store {m m' : Mem} {c : Chunk} {addr v : Val} (stored : m.storeAt? c addr v = some m') :
      Effect calls m m'
  | call {m : Mem} {ef : ExternalFunction} {args : List Val} {out : CallOutcome}
      (called : calls ef args m = some out) : Effect calls m out.mem

/-- Whether the live blocks that start at offset zero are the same before and
after, and no block number is given back. -/
structure KeepsFrames (m m' : Mem) : Prop where
  grows : m.nextBlock ≤ m'.nextBlock
  same : ∀ b hi, m'.liveBounds? b = some (0, hi) ↔ m.liveBounds? b = some (0, hi)

namespace KeepsFrames

theorem refl (m : Mem) : KeepsFrames m m := ⟨Nat.le_refl _, fun _ _ => Iff.rfl⟩

theorem trans {m m' m'' : Mem} (first : KeepsFrames m m') (second : KeepsFrames m' m'') :
    KeepsFrames m m'' :=
  ⟨Nat.le_trans first.grows second.grows,
    fun b hi => (second.same b hi).trans (first.same b hi)⟩

theorem of_storeBytes? {m m' : Mem} {b : BlockId} {ofs : Int} {data : List MemByte}
    (stored : m.storeBytes? b ofs data = some m') : KeepsFrames m m' := by
  refine ⟨Nat.le_of_eq (nextBlock_storeBytes? stored).symm, ?_⟩
  intro b' hi
  rw [liveBounds?_storeBytes? stored]

theorem of_storeAt? {m m' : Mem} {c : Chunk} {addr v : Val}
    (stored : m.storeAt? c addr v = some m') : KeepsFrames m m' := by
  refine ⟨Nat.le_of_eq (nextBlock_storeAt? stored).symm, ?_⟩
  intro b hi
  rw [liveBounds?_storeAt? stored]

/-- A block that starts elsewhere may be added. -/
theorem of_alloc? {m m' : Mem} {lo hi : Int} {b : BlockId}
    (allocated : m.alloc? lo hi = some (b, m')) (elsewhere : lo ≠ 0) : KeepsFrames m m' := by
  obtain ⟨rfl, next⟩ := nextBlock_alloc? allocated
  refine ⟨next ▸ Nat.le_succ _, ?_⟩
  intro b' hi'
  rw [liveBounds?_alloc? allocated]
  split
  · rename_i new
    have absent : m.liveBounds? b' ≠ some (0, hi') := by
      intro live
      exact absurd (lt_nextBlock_of_liveBounds? live) (new ▸ Nat.lt_irrefl _)
    simp [elsewhere, absent]
  · rfl

/-- A block that starts elsewhere may be freed. -/
theorem of_free? {m m' : Mem} {lo hi : Int} {b : BlockId}
    (freed : m.free? b lo hi = some m') (elsewhere : lo ≠ 0) : KeepsFrames m m' := by
  refine ⟨Nat.le_of_eq (nextBlock_free? freed).symm, ?_⟩
  intro b' hi'
  rw [liveBounds?_free? freed]
  split
  · rename_i same
    have bounds := (free?_eq_some_iff.mp freed).1
    simp [same, bounds, elsewhere]
  · rfl

end KeepsFrames

end Mem

namespace Heap

open Mem (KeepsFrames)

theorem malloc?_eq_some {m m' : Mem} {args : List Val} {v : Val}
    (done : malloc? m args = some (v, m')) :
    ∃ n b mid, args = [.long n] ∧ 0 ≤ n.toInt ∧ m.alloc? (-header) n.toInt = some (b, mid) ∧
      mid.store? .int64 b (-header) (.long n) = some m' ∧ v = .ptr b 0 := by
  unfold malloc? at done
  split at done
  · rename_i n
    by_cases negative : n.toInt < 0
    · simp [negative] at done
    · simp only [negative, if_false, Option.bind_eq_bind, Option.bind_eq_some_iff, Prod.exists,
        Option.some.injEq, Prod.mk.injEq] at done
      obtain ⟨b, mid, allocated, m'', stored, rfl, rfl⟩ := done
      exact ⟨n, b, mid, rfl, by omega, allocated, stored, rfl⟩
  · cases done

theorem free?_eq_some {m m' : Mem} {args : List Val} (done : free? m args = some m') :
    args = [.null] ∧ m' = m ∨
      ∃ b size, args = [.ptr b 0] ∧ m.load? .int64 b (-header) = some (.long size) ∧
        0 ≤ size.toInt ∧ m.free? b (-header) size.toInt = some m' := by
  unfold free? at done
  split at done
  · rename_i n
    obtain ⟨rfl, same⟩ := Option.ite_none_right_eq_some.mp done
    cases same
    exact .inl ⟨rfl, rfl⟩
  · rename_i b ofs
    by_cases inside : ofs = 0
    · subst inside
      obtain ⟨v, loaded, done⟩ := Option.bind_eq_some_iff.mp done
      split at done
      · rename_i size
        obtain ⟨sized, freed⟩ := Option.ite_none_right_eq_some.mp done
        exact .inr ⟨b, size, rfl, loaded, sized, freed⟩
      · cases done
    · simp [inside] at done
  · cases done

theorem memcpy?_eq_some {m m' : Mem} {size align : Int} {args : List Val}
    (done : memcpy? size align m args = some m') :
    ∃ target t source s data, args = [.ptr target t, .ptr source s] ∧
      m.loadBytes? source s.toInt size = some data ∧
      m.storeBytes? target t.toInt data = some m' := by
  unfold memcpy? at done
  split at done
  · obtain ⟨-, done⟩ := Option.ite_none_right_eq_some.mp done
    obtain ⟨data, loaded, stored⟩ := Option.bind_eq_some_iff.mp done
    exact ⟨_, _, _, _, data, rfl, loaded, stored⟩
  · cases done

theorem keepsFrames_malloc? {m m' : Mem} {args : List Val} {v : Val}
    (done : malloc? m args = some (v, m')) : KeepsFrames m m' := by
  obtain ⟨n, b, mid, -, -, allocated, stored, -⟩ := malloc?_eq_some done
  have sized := Mem.store?_eq_some_iff.mp stored
  exact (KeepsFrames.of_alloc? allocated (by decide)).trans (.of_storeBytes? sized.2)

theorem keepsFrames_free? {m m' : Mem} {args : List Val} (done : free? m args = some m') :
    KeepsFrames m m' := by
  rcases free?_eq_some done with ⟨-, rfl⟩ | ⟨b, size, -, -, -, freed⟩
  · exact .refl _
  · exact .of_free? freed (by decide)

theorem keepsFrames_memcpy? {m m' : Mem} {size align : Int} {args : List Val}
    (done : memcpy? size align m args = some m') : KeepsFrames m m' := by
  obtain ⟨target, t, source, s, data, -, -, stored⟩ := memcpy?_eq_some done
  exact .of_storeBytes? stored

end Heap

open Mem (KeepsFrames)

namespace Host

/-- What the host does in a call that it accepts. -/
inductive Performs (host : Host) (args : List Val) (m : Mem) :
    ExternalFunction → CallOutcome → Prop where
  | external {name : String} {sig : Signature} {v : Val}
      (invoked : host.invoke? name sig args = some v) :
      Performs host args m (.external name sig) ⟨[.syscall name args v], v, m⟩
  | builtin {name : String} {sig : Signature} {v : Val}
      (invoked : host.invoke? name sig args = some v) :
      Performs host args m (.builtin name sig) ⟨[], v, m⟩
  | malloc {v : Val} {m' : Mem} (done : Heap.malloc? m args = some (v, m')) :
      Performs host args m .malloc ⟨[], v, m'⟩
  | free {m' : Mem} (done : Heap.free? m args = some m') :
      Performs host args m .free ⟨[], .undefined, m'⟩
  | memcpy {size align : Int} {m' : Mem} (done : Heap.memcpy? size align m args = some m') :
      Performs host args m (.memcpy size align) ⟨[], .undefined, m'⟩
  | annot {text : String} {types : List Typ} (count : args.length = types.length) :
      Performs host args m (.annot text types) ⟨[.annot text args], .undefined, m⟩
  | debug : Performs host args m .debug ⟨[], .undefined, m⟩

variable {host : Host} {ef : ExternalFunction} {args : List Val} {m : Mem} {out : CallOutcome}

theorem performs_of_calls (called : host.calls ef args m = some out) :
    host.Performs args m ef out := by
  cases ef with
  | external name sig =>
      obtain ⟨v, invoked, rfl⟩ := Option.map_eq_some_iff.mp called
      exact .external invoked
  | builtin name sig =>
      obtain ⟨v, invoked, rfl⟩ := Option.map_eq_some_iff.mp called
      exact .builtin invoked
  | malloc =>
      obtain ⟨⟨v, m'⟩, done, rfl⟩ := Option.map_eq_some_iff.mp called
      exact .malloc done
  | free =>
      obtain ⟨m', done, rfl⟩ := Option.map_eq_some_iff.mp called
      exact .free done
  | memcpy size align =>
      obtain ⟨m', done, rfl⟩ := Option.map_eq_some_iff.mp called
      exact .memcpy done
  | annot text types =>
      obtain ⟨count, done⟩ := Option.ite_none_right_eq_some.mp called
      cases done
      exact .annot count
  | debug =>
      cases called
      exact .debug

/-- No call of the host frees a frame or a global, or adds a block that starts
where they do. -/
theorem keepsFrames_calls (called : host.calls ef args m = some out) : KeepsFrames m out.mem := by
  cases performs_of_calls called with
  | malloc done => exact Heap.keepsFrames_malloc? done
  | free done => exact Heap.keepsFrames_free? done
  | memcpy done => exact Heap.keepsFrames_memcpy? done
  | _ => exact .refl m

end Host

theorem Mem.Effect.keepsFrames {host : Host} {m m' : Mem} (effect : m.Effect host.calls m') :
    KeepsFrames m m' := by
  cases effect with
  | none => exact .refl m
  | store stored => exact .of_storeAt? stored
  | call called => exact Host.keepsFrames_calls called

end LateIR
