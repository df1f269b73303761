import LateIR.Proofs.Definedness.Memory
import LateIR.Proofs.Memory.Effect

/-!
Calls of the host with more defined arguments in a more defined memory. Host
functions and annotations are given the values themselves and may tell undefined
ones apart; the other calls do as much as before, or more
(`Host.calls_mono`).
-/

namespace LateIR

/-- Whether a call does no more than work on memory, if that. -/
def ExternalFunction.onlyMemory : ExternalFunction → Bool
  | malloc | free | memcpy .. | debug => true
  | external .. | builtin .. | annot .. => false

section

variable {m m' n : Mem} {args args' : List Val}

theorem Heap.malloc?_mono (below : m.Below m') (le : List.Forall₂ (· ≤ ·) args args') {v : Val}
    (done : Heap.malloc? m args = some (v, n)) :
    ∃ n', Heap.malloc? m' args' = some (v, n') ∧ n.Below n' := by
  obtain ⟨size, b, mid, rfl, nonneg, allocated, stored, rfl⟩ := malloc?_eq_some done
  rcases eq_or_mem_of_forall₂ Val.undefined le with rfl | mem
  · obtain ⟨mid', allocated', between⟩ := below.alloc? allocated
    obtain ⟨n', stored', after⟩ := between.store? (Val.le_refl _) stored
    refine ⟨n', ?_, after⟩
    simp [malloc?, Int.not_lt.mpr nonneg, allocated', stored']
  · simp at mem

theorem Heap.free?_mono (below : m.Below m') (le : List.Forall₂ (· ≤ ·) args args')
    (done : Heap.free? m args = some n) : ∃ n', Heap.free? m' args' = some n' ∧ n.Below n' := by
  rcases free?_eq_some done with ⟨rfl, rfl⟩ | ⟨b, size, rfl, loaded, nonneg, freed⟩
  · rcases eq_or_mem_of_forall₂ Val.undefined le with rfl | mem
    · exact ⟨m', rfl, below⟩
    · simp [Val.null] at mem
  · rcases eq_or_mem_of_forall₂ Val.undefined le with rfl | mem
    · obtain ⟨w, loaded', le⟩ := below.load? loaded
      cases le.resolve_left (by simp)
      obtain ⟨n', freed', after⟩ := below.free? freed
      refine ⟨n', ?_, after⟩
      simp [free?, loaded', nonneg, freed']
    · simp at mem

theorem Heap.memcpy?_mono (below : m.Below m') (le : List.Forall₂ (· ≤ ·) args args')
    {size align : Int} (done : Heap.memcpy? size align m args = some n) :
    ∃ n', Heap.memcpy? size align m' args' = some n' ∧ n.Below n' := by
  obtain ⟨target, t, source, s, data, rfl, loaded, stored⟩ := memcpy?_eq_some done
  rcases eq_or_mem_of_forall₂ Val.undefined le with rfl | mem
  · obtain ⟨admitted, -⟩ := Option.ite_none_right_eq_some.mp done
    obtain ⟨data', loaded', more⟩ := below.loadBytes? loaded
    obtain ⟨n', stored', after⟩ := below.storeBytes? more stored
    have copied := Option.bind_eq_some_iff.mpr ⟨data', loaded', stored'⟩
    exact ⟨n', Option.ite_none_right_eq_some.mpr ⟨admitted, copied⟩, after⟩
  · simp at mem

/-- A call that only works on memory leaves the same events, and a result and a
memory that are at least as defined. -/
theorem Host.calls_mono {host : Host} {ef : ExternalFunction} (only : ef.onlyMemory)
    (below : m.Below m') (le : List.Forall₂ (· ≤ ·) args args') {out : CallOutcome}
    (called : host.calls ef args m = some out) :
    ∃ result mem, host.calls ef args' m' = some ⟨out.trace, result, mem⟩ ∧
      out.result ≤ result ∧ out.mem.Below mem := by
  cases ef with
  | external | builtin | annot => cases only
  | malloc =>
      obtain ⟨⟨v, n⟩, done, rfl⟩ := Option.map_eq_some_iff.mp called
      obtain ⟨n', done', after⟩ := Heap.malloc?_mono below le done
      exact ⟨v, n', Option.map_eq_some_iff.mpr ⟨_, done', rfl⟩, Val.le_refl v, after⟩
  | free =>
      obtain ⟨n, done, rfl⟩ := Option.map_eq_some_iff.mp called
      obtain ⟨n', done', after⟩ := Heap.free?_mono below le done
      exact ⟨_, n', Option.map_eq_some_iff.mpr ⟨_, done', rfl⟩, Val.le_refl _, after⟩
  | memcpy size align =>
      obtain ⟨n, done, rfl⟩ := Option.map_eq_some_iff.mp called
      obtain ⟨n', done', after⟩ := Heap.memcpy?_mono below le done
      exact ⟨_, n', Option.map_eq_some_iff.mpr ⟨_, done', rfl⟩, Val.le_refl _, after⟩
  | debug =>
      cases called
      exact ⟨_, m', rfl, Val.le_refl _, below⟩

end

end LateIR
