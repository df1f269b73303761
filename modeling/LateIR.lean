import LateIR.Cfg.WellFormed
import LateIR.External.Host
import LateIR.Frame.WellFormed
import LateIR.Proofs.Arguments
import LateIR.Proofs.CallReturn
import LateIR.Proofs.Definedness
import LateIR.Proofs.Endings
import LateIR.Proofs.FrameHeader
import LateIR.Proofs.Interception
import LateIR.Proofs.Lifecycle
import LateIR.Proofs.Provenance
import LateIR.Proofs.ReadBack
import LateIR.Proofs.Renaming
import LateIR.Proofs.Separation
import LateIR.Proofs.Spilling
import LateIR.Proofs.StackDiscipline
import LateIR.Proofs.Storage
import LateIR.Proofs.TailCall
import LateIR.Proofs.WellFormed
import LateIR.Run
import LateIR.Proofs.Location.Extensional
import LateIR.Proofs.Overwriting
import LateIR.Proofs.Location.Canonical
import LateIR.Proofs.Canonical
import LateIR.Proofs.CallBoundary
import LateIR.Proofs.Memory.Heap
import LateIR.Proofs.Memory.HeapHistory
import LateIR.Proofs.HeapCalls
import LateIR.Proofs.Memory.Bytes
import LateIR.Proofs.Memory.Fragments
import LateIR.Proofs.Copying
import LateIR.Proofs.Normalization
import LateIR.Proofs.WholeValues
import LateIR.Proofs.Dangling
import LateIR.Proofs.Convention.Layout
import LateIR.Proofs.ArgumentLayout
import LateIR.Proofs.Frame.EntryFrame
import LateIR.Proofs.Entry
import LateIR.Proofs.Program.Initialisers
import LateIR.Proofs.Startup
import LateIR.Proofs.Strictness
import LateIR.Proofs.Program.Rewriting
import LateIR.Proofs.BranchInversion
import LateIR.Proofs.Memory.Parts
import LateIR.Proofs.Words
import LateIR.Proofs.AddressArithmetic
import LateIR.Proofs.Division
