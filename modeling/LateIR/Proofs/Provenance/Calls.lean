import LateIR.Proofs.Memory.Effect
import LateIR.Proofs.Provenance.Memory

/-!
Pointers through calls of the host. When host functions give back only pointers
that they are given, a call leaves no pointer to a block that has not been
allocated (`Host.pointsInto_calls`).
-/

namespace LateIR

/-- Whether every pointer that a host function returns is to a block that one of
its arguments points to. -/
def Host.ForgesNone (host : Host) : Prop :=
  ∀ name f args b ofs, host name = some f → f args = some (.ptr b ofs) →
    ∃ ofs', .ptr b ofs' ∈ args

variable {m m' : Mem} {args : List Val}

namespace Heap

theorem pointsInto_malloc? {v : Val} (bytes : m.PointsInto m.Allocated)
    (done : malloc? m args = some (v, m')) :
    v.PointsInto m'.Allocated ∧ m'.PointsInto m'.Allocated := by
  have grown := (keepsFrames_malloc? done).grows
  obtain ⟨n, b, mid, -, -, allocated, stored, rfl⟩ := malloc?_eq_some done
  have new : b < m'.nextBlock := by
    rw [Mem.nextBlock_storeBytes? (Mem.store?_eq_some_iff.mp stored).2,
      (Mem.nextBlock_alloc? allocated).2]
    exact Nat.lt_succ_self b
  have bytes' := (bytes.alloc? allocated).store? (v := .long n) trivial stored
  exact ⟨new, bytes'.imp (Mem.Allocated.mono grown)⟩

theorem pointsInto_free? {blocks : BlockId → Prop} (bytes : m.PointsInto blocks)
    (done : free? m args = some m') : m'.PointsInto blocks := by
  rcases free?_eq_some done with ⟨-, rfl⟩ | ⟨b, size, -, -, -, freed⟩
  · exact bytes
  · exact bytes.free? freed

/-- A copy may take parts of pointers with it, which are bytes like others. -/
theorem pointsInto_memcpy? {blocks : BlockId → Prop} {size align : Int}
    (bytes : m.PointsInto blocks) (done : memcpy? size align m args = some m') :
    m'.PointsInto blocks := by
  obtain ⟨target, t, source, s, data, -, loaded, stored⟩ := memcpy?_eq_some done
  exact bytes.storeBytes? (bytes.loadBytes? loaded) stored

end Heap

namespace Host

variable {host : Host}

theorem pointsInto_invoke? {blocks : BlockId → Prop} {name : String} {sig : Signature} {v : Val}
    (honest : host.ForgesNone) (given : ∀ a ∈ args, a.PointsInto blocks)
    (invoked : host.invoke? name sig args = some v) : v.PointsInto blocks := by
  obtain ⟨-, invoked⟩ := Option.ite_none_right_eq_some.mp invoked
  obtain ⟨f, found, invoked⟩ := Option.bind_eq_some_iff.mp invoked
  obtain ⟨result, returned, invoked⟩ := Option.bind_eq_some_iff.mp invoked
  split at invoked
  · obtain ⟨-, same⟩ := Option.ite_none_right_eq_some.mp invoked
    cases same
    cases v with
    | ptr b ofs =>
        obtain ⟨ofs', mem⟩ := honest name f args b ofs found returned
        have points : blocks b := given (.ptr b ofs') mem
        exact points
    | _ => trivial
  · cases invoked
    trivial

/-- A call that is given pointers to allocated blocks leaves none to others. -/
theorem pointsInto_calls {ef : ExternalFunction} {out : CallOutcome} (honest : host.ForgesNone)
    (given : ∀ a ∈ args, a.PointsInto m.Allocated) (bytes : m.PointsInto m.Allocated)
    (called : host.calls ef args m = some out) :
    out.result.PointsInto out.mem.Allocated ∧ out.mem.PointsInto out.mem.Allocated := by
  have more := Mem.Allocated.mono (keepsFrames_calls called).grows
  cases performs_of_calls called with
  | external invoked => exact ⟨pointsInto_invoke? honest given invoked, bytes⟩
  | builtin invoked => exact ⟨pointsInto_invoke? honest given invoked, bytes⟩
  | malloc done => exact Heap.pointsInto_malloc? bytes done
  | free done => exact ⟨trivial, (Heap.pointsInto_free? bytes done).imp more⟩
  | memcpy done => exact ⟨trivial, (Heap.pointsInto_memcpy? bytes done).imp more⟩
  | annot count => exact ⟨trivial, bytes⟩
  | debug => exact ⟨trivial, bytes⟩

end Host

end LateIR
