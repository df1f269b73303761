import LateIR.Error
import LateIR.Json

/-!
Options of a run, and their form in JSON.
-/

namespace LateIR

structure RunOptions where
  /-- Steps after which the run is given up. -/
  maxSteps : Nat
  /-- Whether every transition is checked. -/
  checkInvariants : Bool
  /-- Whether the events of the run are kept. -/
  collectTrace : Bool
  deriving DecidableEq

namespace RunOptions

/-- What holds for options that are not given. -/
def default : RunOptions := ⟨1000000, false, true⟩

/-! ### Reading -/

/-- A step limit is an integer of 64 bits without a sign. -/
def steps? : Json.Value → Option Nat
  | .scalar (.integer false n) => if n < UInt64.size then some n else none
  | _ => none

def flag? : Json.Value → Option Bool
  | .scalar (.bool b) => some b
  | _ => none

/-- The value of a field that may be missing but not repeated. -/
def field? {α : Type} (fields : List (Option String × Json.Value)) (name : String)
    (read : Json.Value → Option α) (absent : α) : Option α :=
  match fields.filter fun (n, _) => n = some name with
  | [] => some absent
  | [(_, v)] => read v
  | _ => none

/-- The value of an item, which may be missing. -/
def item? {α : Type} (items : List Json.Value) (index : Nat) (read : Json.Value → Option α)
    (absent : α) : Option α :=
  match items[index]? with
  | none => some absent
  | some v => read v

/-- Options are an object, whose other fields do not matter, or an array of the
options in order, which may end early. -/
def ofJson? : Json.Value → Option RunOptions
  | .object fields =>
      if fields.all fun (name, _) => name.isSome then do
        let maxSteps ← field? fields "max_steps" steps? default.maxSteps
        let checkInvariants ← field? fields "check_invariants" flag? default.checkInvariants
        let collectTrace ← field? fields "collect_trace" flag? default.collectTrace
        some ⟨maxSteps, checkInvariants, collectTrace⟩
      else none
  | .array items =>
      if items.length ≤ 3 then do
        let maxSteps ← item? items 0 steps? default.maxSteps
        let checkInvariants ← item? items 1 flag? default.checkInvariants
        let collectTrace ← item? items 2 flag? default.collectTrace
        some ⟨maxSteps, checkInvariants, collectTrace⟩
      else none
  | .scalar _ => none

def parse (s : String) : Except Error RunOptions :=
  match (Json.parse? s).bind ofJson? with
  | some options => .ok options
  | none => .error .invalidOptions

/-! ### Writing -/

def fieldText (name value : String) : String := "  \"" ++ name ++ "\": " ++ value

/-- One field a line, indented by two spaces. -/
def text (options : RunOptions) : String :=
  "\x7b\n" ++ ",\n".intercalate
    [fieldText "max_steps" (toString options.maxSteps),
      fieldText "check_invariants" (toString options.checkInvariants),
      fieldText "collect_trace" (toString options.collectTrace)] ++ "\n\x7d"

end RunOptions

end LateIR
