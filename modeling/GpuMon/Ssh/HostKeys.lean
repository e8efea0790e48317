import GpuMon.Library.PyText
import GpuMon.Library.Runs

/-!
# Trust on first use (`ssh_transport.py`)

A connection looks without a lock whether a host key is recorded for the server. If so it loads
the file and accepts the keys in it; if not, its policy runs under the lock when the host has
presented a key: it verifies the file that is there by then, or publishes one that may not replace
another. Operators forget the key, or replace it by one whose fingerprint they know.

* `step_cases`: what a step can do, said once.
* `host_keys_trusted`: in every interleaving a connection accepts only a pin that it has loaded,
  or, where none was recorded, a key that becomes the pin or is the pin already; a pin gives way
  only to a replacement with the expected fingerprint or to a forgotten key; and first uses with
  different keys do not both succeed without one of these between their policies.
* `two_first_uses`: with a forgotten key between them they do.

`lookup` stands for what the SSH library finds in a file for a host, and `fingerprint` for its
fingerprint of a key.
-/

namespace GpuMon.HostKeys

open PyText

/-! ## Keys and files -/

/-- A public key; neither its name nor its text has blanks. -/
structure PKey where
  name : Text
  base64 : Text
  plain : ∀ c ∈ name ++ base64, isSpace c = false
  deriving DecidableEq

theorem plain_of_all {text : Text} (h : (text.all fun c => !isSpace c) = true) :
    ∀ c ∈ text, isSpace c = false := by
  simpa using h

/-- The line that is written for a key. -/
def payload (pattern : Text) (key : PKey) : Text :=
  pattern ++ ' ' :: (key.name ++ ' ' :: (key.base64 ++ ['\n']))

/-- The check of `_TofuPolicy.__init__`. -/
def validHost (host : Text) : Bool :=
  host ≠ [] && !host.any fun c => isSpace c || c.toNat < 33 || c.toNat = 127

/-- `f"[{host}]:{port}" if port != 22 else host`. -/
def hostPattern (host : Text) (port : Nat) : Text :=
  if port ≠ 22 then '[' :: (host ++ "]:".toList ++ natText port) else host

/-- `HostKeys(path).lookup(pattern)`: the keys recorded for a host in a file with this content. -/
abbrev Lookup := Text → Text → List PKey

/-- What the code relies on: nothing is found in an empty file, and in a file of one line no other
key than that of the line. -/
structure ReadsLines (lookup : Lookup) : Prop where
  blank : ∀ pattern, lookup [] pattern = []
  line : ∀ host port key pattern, validHost host = true →
    ∀ found ∈ lookup (payload (hostPattern host port) key) pattern, found = key

/-- `_verify_recorded_key`: whether it returns. -/
def verifyRecordedKey (lookup : Lookup) (content pattern : Text) (key : PKey) : Bool :=
  ((lookup content pattern).find? fun k => k.name = key.name) = some key

/-- `_has_recorded_key`. -/
def hasRecordedKey (file : Option Text) : Bool := file.any fun content => content ≠ []

/-- The arguments of `connect_host` that matter to the host key, and the key that the host
presents. -/
structure Connection where
  host : Text
  port : Nat := 22
  connectAddress : Text := []
  key : PKey

def Connection.pattern (conn : Connection) : Text := hostPattern conn.host conn.port

/-- The keys of the host after a file was loaded: those of its name, or else those of the address
that an older version recorded. -/
def knownKeys (lookup : Lookup) (conn : Connection) (content : Text) : List PKey :=
  if lookup content conn.pattern = [] ∧ conn.connectAddress ≠ [] ∧ conn.connectAddress ≠ conn.host
  then lookup content (hostPattern conn.connectAddress conn.port)
  else lookup content conn.pattern

/-- What the library accepts when a file was loaded. A host without keys goes to `RejectPolicy`. -/
def acceptsLoaded (lookup : Lookup) (conn : Connection) (content : Text) : Bool :=
  ((knownKeys lookup conn content).find? fun k => k.name = conn.key.name) = some conn.key

/-- The characters of base64. -/
def isBase64Char (c : Char) : Bool := c.toNat < 128 && (c.isAlphanum || c = '+' || c = '/')

/-- `_validate_expected_fingerprint`; 43 characters of base64 always make 32 bytes. -/
def validateExpectedFingerprint (value : Text) : Option Text :=
  let fingerprint := (strip value).rdropWhile (· = '=')
  if startsWith fingerprint "SHA256:" && (fingerprint.drop 7).length = 43 &&
      (fingerprint.drop 7).all isBase64Char then some fingerprint
  else none

/-! ## Steps -/

/-- Why a connection accepts the key: the content it has loaded; or what the file was when it
looked, before its policy and after it, and how often the key had been reset by then. -/
inductive Acceptance
  | pinned (loaded : Text)
  | firstUse (atStart before after : Option Text) (resets : Nat)
  deriving DecidableEq

/-- How far a connection has come. The phases without a pin keep what the file was at the start. -/
inductive Phase
  | idle
  | recorded
  | loaded (content : Text)
  | unrecorded (atStart : Option Text)
  | locked (atStart : Option Text)
  | prepared (atStart : Option Text)
  | accepted (acceptance : Acceptance)
  | connected (acceptance : Acceptance)
  | failed
  deriving DecidableEq

/-- The file of the server key, the holder of the lock, the connections, and how often the key was
forgotten or replaced. -/
structure State where
  file : Option Text
  lock : Option Nat := none
  phase : Nat → Phase := fun _ => .idle
  resets : Nat := 0

inductive Action
  | check (i : Nat)
  | load (i : Nat)
  | handshake (i : Nat)
  | enter (i : Nat)
  | inspect (i : Nat)
  | publish (i : Nat)
  | authenticate (i : Nat)
  | abort (i : Nat)
  | forget
  | replace (host : Text) (port : Nat) (key : PKey) (expectedFingerprint : Text)

/-- A connection moves on; one that leaves the critical section releases the lock. -/
def State.move (s : State) (i : Nat) (p : Phase) (lock : Option Nat) : State :=
  { s with phase := Function.update s.phase i p, lock }

/-- The policy has come to `verdict`, and the lock is released. -/
def State.settle (s : State) (i : Nat) (verdict : Bool) (acceptance : Acceptance) : State :=
  s.move i (if verdict then .accepted acceptance else .failed) none

section Step

variable (lookup : Lookup) (fingerprint : PKey → Text) (conns : Nat → Connection)

/-- One step of a connection, of `forget_hostkey` or of
`replace_hostkey_with_expected_fingerprint`; the last two hold the lock. -/
def step (s : State) : Action → Option State
  | .check i =>
    if s.phase i = .idle then
      if hasRecordedKey s.file then some (s.move i .recorded s.lock)
      else if validHost (conns i).host then some (s.move i (.unrecorded s.file) s.lock)
      else some (s.move i .failed s.lock)
    else none
  | .load i =>
    match s.phase i, s.file with
    | .recorded, some content => some (s.move i (.loaded content) s.lock)
    | .recorded, none => some (s.move i .failed s.lock)
    | _, _ => none
  | .handshake i =>
    match s.phase i with
    | .loaded content =>
      if acceptsLoaded lookup (conns i) content then
        some (s.move i (.accepted (.pinned content)) s.lock)
      else some (s.move i .failed s.lock)
    | _ => none
  | .enter i =>
    match s.phase i, s.lock with
    | .unrecorded atStart, none => some (s.move i (.locked atStart) (some i))
    | _, _ => none
  | .inspect i =>
    match s.phase i, s.file with
    | .locked atStart, some content =>
      some (s.settle i (verifyRecordedKey lookup content (conns i).pattern (conns i).key)
        (.firstUse atStart s.file s.file s.resets))
    | .locked atStart, none =>
      if verifyRecordedKey lookup (payload (conns i).pattern (conns i).key) (conns i).pattern
          (conns i).key then some (s.move i (.prepared atStart) s.lock)
      else some (s.move i .failed none)
    | _, _ => none
  | .publish i =>
    match s.phase i, s.file with
    | .prepared atStart, none =>
      let file := some (payload (conns i).pattern (conns i).key)
      some { s.settle i true (.firstUse atStart none file s.resets) with file }
    | .prepared atStart, some content =>
      some (s.settle i (verifyRecordedKey lookup content (conns i).pattern (conns i).key)
        (.firstUse atStart s.file s.file s.resets))
    | _, _ => none
  | .authenticate i =>
    match s.phase i with
    | .accepted acceptance => some (s.move i (.connected acceptance) s.lock)
    | _ => none
  | .abort i =>
    match s.phase i with
    | .connected _ => none
    | _ => some (s.move i .failed (if s.lock = some i then none else s.lock))
  | .forget =>
    match s.lock, s.file with
    | none, some _ => some { s with file := none, resets := s.resets + 1 }
    | none, none => some s
    | some _, _ => none
  | .replace host port key expectedFingerprint =>
    if s.lock = none ∧ validHost host = true ∧
        validateExpectedFingerprint expectedFingerprint =
          some ((fingerprint key).rdropWhile (· = '=')) ∧
        verifyRecordedKey lookup (payload (hostPattern host port) key) (hostPattern host port) key =
          true then
      some { s with file := some (payload (hostPattern host port) key), resets := s.resets + 1 }
    else none

end Step

/-- Any file, and no connection yet. -/
def Start (s : State) : Prop := s.lock = none ∧ s.phase = fun _ => .idle

/-! ## What one step can do -/

/-- The moves of a connection that leave the file alone. -/
inductive Moves (lookup : Lookup) (s : State) (conn : Connection) : Phase → Phase → Prop
  | recorded : Moves lookup s conn .idle .recorded
  | unrecorded : hasRecordedKey s.file = false → validHost conn.host = true →
      Moves lookup s conn .idle (.unrecorded s.file)
  | loaded {content : Text} : s.file = some content → Moves lookup s conn .recorded (.loaded content)
  | pinned {content : Text} : acceptsLoaded lookup conn content = true →
      Moves lookup s conn (.loaded content) (.accepted (.pinned content))
  | locked {atStart : Option Text} : Moves lookup s conn (.unrecorded atStart) (.locked atStart)
  | prepared {atStart : Option Text} : Moves lookup s conn (.locked atStart) (.prepared atStart)
  | verified {p : Phase} {atStart : Option Text} {content : Text} :
      p = .locked atStart ∨ p = .prepared atStart → s.file = some content →
      verifyRecordedKey lookup content conn.pattern conn.key = true →
      Moves lookup s conn p (.accepted (.firstUse atStart s.file s.file s.resets))
  | connected {acceptance : Acceptance} :
      Moves lookup s conn (.accepted acceptance) (.connected acceptance)
  | failed {p : Phase} : Moves lookup s conn p .failed

/-- The effect of a step: a move, a key published where there was no file, or a reset. -/
inductive Effect (lookup : Lookup) (fingerprint : PKey → Text) (conns : Nat → Connection)
    (s : State) : Action → State → Prop
  | same {a : Action} : Effect lookup fingerprint conns s a s
  | moved {a : Action} {i : Nat} {p : Phase} (lock : Option Nat) :
      Moves lookup s (conns i) (s.phase i) p →
      Effect lookup fingerprint conns s a (s.move i p lock)
  | published {a : Action} {i : Nat} {atStart : Option Text} :
      s.phase i = .prepared atStart → s.file = none →
      Effect lookup fingerprint conns s a
        { s.move i (.accepted (.firstUse atStart none
            (some (payload (conns i).pattern (conns i).key)) s.resets)) none with
          file := some (payload (conns i).pattern (conns i).key) }
  | forgotten : Effect lookup fingerprint conns s .forget
      { s with file := none, resets := s.resets + 1 }
  | replaced {host : Text} {port : Nat} {key : PKey} {expectedFingerprint : Text} :
      validHost host = true →
      validateExpectedFingerprint expectedFingerprint =
        some ((fingerprint key).rdropWhile (· = '=')) →
      Effect lookup fingerprint conns s (.replace host port key expectedFingerprint)
        { s with file := some (payload (hostPattern host port) key), resets := s.resets + 1 }

section Effects

variable {lookup : Lookup} {fingerprint : PKey → Text} {conns : Nat → Connection} {s s' : State}

theorem effect_settle {a : Action} {i : Nat} {atStart : Option Text} {content : Text}
    (hPhase : s.phase i = .locked atStart ∨ s.phase i = .prepared atStart)
    (hFile : s.file = some content) :
    Effect lookup fingerprint conns s a
      (s.settle i (verifyRecordedKey lookup content (conns i).pattern (conns i).key)
        (.firstUse atStart s.file s.file s.resets)) := by
  unfold State.settle
  cases hVerified : verifyRecordedKey lookup content (conns i).pattern (conns i).key with
  | true => exact .moved _ (.verified hPhase hFile hVerified)
  | false => exact .moved _ .failed

theorem step_effect {a : Action} (h : step lookup fingerprint conns s a = some s') :
    Effect lookup fingerprint conns s a s' := by
  cases a with
  | check i =>
    dsimp only [step] at h
    split at h
    · rename_i hIdle
      split at h
      · cases h
        exact .moved _ (hIdle ▸ .recorded)
      · rename_i hRecorded
        split at h <;> cases h
        · rename_i hHost
          exact .moved _ (hIdle ▸ .unrecorded (Bool.eq_false_iff.mpr hRecorded) hHost)
        · exact .moved _ .failed
    · cases h
  | load i =>
    dsimp only [step] at h
    split at h <;> cases h
    · rename_i hPhase hFile
      exact .moved _ (hPhase ▸ .loaded hFile)
    · exact .moved _ .failed
  | handshake i =>
    dsimp only [step] at h
    split at h
    · rename_i content hPhase
      split at h <;> cases h
      · rename_i hAccepts
        exact .moved _ (hPhase ▸ .pinned hAccepts)
      · exact .moved _ .failed
    · cases h
  | enter i =>
    dsimp only [step] at h
    split at h <;> cases h
    rename_i hPhase hLock
    exact .moved _ (hPhase ▸ .locked)
  | inspect i =>
    dsimp only [step] at h
    split at h
    · rename_i atStart content hPhase hFile
      cases h
      exact effect_settle (.inl hPhase) hFile
    · rename_i atStart hPhase hFile
      split at h <;> cases h
      · exact .moved _ (hPhase ▸ .prepared)
      · exact .moved _ .failed
    · cases h
  | publish i =>
    dsimp only [step] at h
    split at h
    · rename_i atStart hPhase hFile
      cases h
      exact .published hPhase hFile
    · rename_i atStart content hPhase hFile
      cases h
      exact effect_settle (.inr hPhase) hFile
    · cases h
  | authenticate i =>
    dsimp only [step] at h
    split at h <;> cases h
    rename_i acceptance hPhase
    exact .moved _ (hPhase ▸ .connected)
  | abort i =>
    dsimp only [step] at h
    split at h <;> cases h
    exact .moved _ .failed
  | forget =>
    dsimp only [step] at h
    split at h <;> cases h
    · exact .forgotten
    · exact .same
  | replace host port key expectedFingerprint =>
    dsimp only [step] at h
    split at h <;> cases h
    rename_i hGuards
    exact .replaced hGuards.2.1 hGuards.2.2.1

end Effects

/-! ## What a connection may rest on -/

/-- No other key is found in a file with this content. -/
def OnlyKey (lookup : Lookup) (content : Text) (key : PKey) : Prop :=
  ∀ pattern, ∀ found ∈ lookup content pattern, found = key

/-- The key became the pin where there was no file, or is the pin that was there. -/
def BecamePin (lookup : Lookup) (conn : Connection) (before after : Option Text) : Prop :=
  before = none ∧ after = some (payload conn.pattern conn.key) ∨
    ∃ content, before = some content ∧ after = some content ∧
      conn.key ∈ lookup content conn.pattern

/-- The key is in the pin that was loaded; or no pin was recorded at the start, and the key became
the pin or is the pin that was there. -/
def Trusted (lookup : Lookup) (conn : Connection) : Acceptance → Prop
  | .pinned content => conn.key ∈ knownKeys lookup conn content
  | .firstUse atStart before after _ =>
    hasRecordedKey atStart = false ∧ BecamePin lookup conn before after

/-- What holds of an accepted connection while the file is `file` and the key was reset `resets`
times: it is trusted, and until the next reset a first use finds its own key in the file. -/
def AcceptedOk (lookup : Lookup) (file : Option Text) (resets : Nat) (conn : Connection)
    (acceptance : Acceptance) : Prop :=
  Trusted lookup conn acceptance ∧
    match acceptance with
    | .pinned _ => True
    | .firstUse _ _ _ n =>
      n ≤ resets ∧ (n = resets → ∃ content, file = some content ∧ OnlyKey lookup content conn.key)

/-- A connection whose policy is still to decide: nothing was recorded, and what is in the file by
now is one key. -/
def PendingOk (lookup : Lookup) (file : Option Text) (conn : Connection)
    (atStart : Option Text) : Prop :=
  validHost conn.host = true ∧ hasRecordedKey atStart = false ∧
    ∀ content, file = some content → ∃ key, OnlyKey lookup content key

def PhaseOk (lookup : Lookup) (file : Option Text) (resets : Nat) (conn : Connection) :
    Phase → Prop
  | .unrecorded atStart => PendingOk lookup file conn atStart
  | .locked atStart => PendingOk lookup file conn atStart
  | .prepared atStart => PendingOk lookup file conn atStart
  | .accepted acceptance => AcceptedOk lookup file resets conn acceptance
  | .connected acceptance => AcceptedOk lookup file resets conn acceptance
  | _ => True

/-- How often the key had been reset when the policy of a first use accepted it. -/
def firstUseOf : Phase → Option Nat
  | .accepted (.firstUse _ _ _ n) => some n
  | .connected (.firstUse _ _ _ n) => some n
  | _ => none

/-- The invariant: the phases rest on what they may, and first uses without a reset between their
policies have one key. -/
structure Inv (lookup : Lookup) (conns : Nat → Connection) (s : State) : Prop where
  phases : ∀ i, PhaseOk lookup s.file s.resets (conns i) (s.phase i)
  agree : ∀ i j n, firstUseOf (s.phase i) = some n → firstUseOf (s.phase j) = some n →
    (conns i).key = (conns j).key

section Invariant

variable {lookup : Lookup} {fingerprint : PKey → Text} {conns : Nat → Connection} {s s' : State}

theorem mem_of_verify {content pattern : Text} {key : PKey}
    (h : verifyRecordedKey lookup content pattern key = true) : key ∈ lookup content pattern :=
  List.mem_of_find?_eq_some (of_decide_eq_true h)

theorem mem_of_acceptsLoaded {conn : Connection} {content : Text}
    (h : acceptsLoaded lookup conn content = true) : conn.key ∈ knownKeys lookup conn content :=
  List.mem_of_find?_eq_some (of_decide_eq_true h)

theorem onlyKey_of_unrecorded (hLookup : ReadsLines lookup) {file : Option Text} {content : Text}
    (hNone : hasRecordedKey file = false) (hFile : file = some content) (key : PKey) :
    OnlyKey lookup content key := by
  have hBlank : content = [] := by
    rw [hFile] at hNone
    simpa [hasRecordedKey] using hNone
  intro pattern found hFound
  rw [hBlank, hLookup.blank] at hFound
  cases hFound

theorem onlyKey_payload (hLookup : ReadsLines lookup) {host : Text} (hHost : validHost host = true)
    (port : Nat) (key : PKey) : OnlyKey lookup (payload (hostPattern host port) key) key :=
  fun pattern => hLookup.line host port key pattern hHost

/-- A first use of now finds its own key in the file. -/
theorem onlyKey_of_firstUse (hInv : Inv lookup conns s) {j : Nat}
    (hFirst : firstUseOf (s.phase j) = some s.resets) :
    ∃ content, s.file = some content ∧ OnlyKey lookup content (conns j).key := by
  have hPhase := hInv.phases j
  cases hp : s.phase j with
  | accepted acceptance =>
    rw [hp] at hFirst hPhase
    cases acceptance with
    | pinned content => cases hFirst
    | firstUse atStart before after n => exact hPhase.2.2 (Option.some.inj hFirst)
  | connected acceptance =>
    rw [hp] at hFirst hPhase
    cases acceptance with
    | pinned content => cases hFirst
    | firstUse atStart before after n => exact hPhase.2.2 (Option.some.inj hFirst)
  | _ =>
    rw [hp] at hFirst
    cases hFirst

theorem phaseOk_moves (hLookup : ReadsLines lookup) {conn : Connection} {p q : Phase}
    (hMoves : Moves lookup s conn p q) (hPhase : PhaseOk lookup s.file s.resets conn p) :
    PhaseOk lookup s.file s.resets conn q := by
  cases hMoves with
  | recorded => trivial
  | unrecorded hNone hHost =>
    exact ⟨hHost, hNone, fun content hFile =>
      ⟨conn.key, onlyKey_of_unrecorded hLookup hNone hFile conn.key⟩⟩
  | loaded hFile => trivial
  | pinned hAccepts => exact ⟨mem_of_acceptsLoaded hAccepts, trivial⟩
  | locked => exact hPhase
  | prepared => exact hPhase
  | @verified _ atStart content hp hFile hVerified =>
    have hPending : PendingOk lookup s.file conn atStart := by
      rcases hp with rfl | rfl
      · exact hPhase
      · exact hPhase
    obtain ⟨-, hNone, hSingle⟩ := hPending
    have hMem := mem_of_verify hVerified
    obtain ⟨key, hOnly⟩ := hSingle _ hFile
    refine ⟨⟨hNone, .inr ⟨content, hFile, hFile, hMem⟩⟩, le_refl _, fun _ => ⟨content, hFile, ?_⟩⟩
    rw [hOnly _ _ hMem]
    exact hOnly
  | connected => exact hPhase
  | failed => trivial

/-- A move to a first use is one that was, or finds its key in the file. -/
theorem firstUse_of_moves {conn : Connection} {p q : Phase} {n : Nat}
    (hMoves : Moves lookup s conn p q) (hFirst : firstUseOf q = some n) :
    firstUseOf p = some n ∨
      n = s.resets ∧ ∃ content, s.file = some content ∧ conn.key ∈ lookup content conn.pattern := by
  cases hMoves with
  | verified _ hFile hVerified =>
    exact .inr ⟨(Option.some.inj hFirst).symm, _, hFile, mem_of_verify hVerified⟩
  | @connected acceptance => cases acceptance <;> exact .inl hFirst
  | _ => cases hFirst

theorem inv_moved (hLookup : ReadsLines lookup) (hInv : Inv lookup conns s) {i : Nat} {p : Phase}
    {lock : Option Nat} (hMoves : Moves lookup s (conns i) (s.phase i) p) :
    Inv lookup conns (s.move i p lock) := by
  have hKey : ∀ j n, j ≠ i → firstUseOf p = some n → firstUseOf (s.phase j) = some n →
      (conns i).key = (conns j).key := by
    intro j n hj hi hFirst
    rcases firstUse_of_moves hMoves hi with hOld | ⟨rfl, content, hFile, hMem⟩
    · exact hInv.agree i j n hOld hFirst
    · obtain ⟨content', hFile', hOnly⟩ := onlyKey_of_firstUse hInv hFirst
      rw [hFile] at hFile'
      cases hFile'
      exact hOnly _ _ hMem
  constructor
  · intro j
    by_cases hj : j = i
    · subst hj
      change PhaseOk lookup s.file s.resets (conns j) (Function.update s.phase j p j)
      rw [Function.update_self]
      exact phaseOk_moves hLookup hMoves (hInv.phases j)
    · change PhaseOk lookup s.file s.resets (conns j) (Function.update s.phase i p j)
      rw [Function.update_of_ne hj]
      exact hInv.phases j
  · intro j k n hj hk
    change firstUseOf (Function.update s.phase i p j) = some n at hj
    change firstUseOf (Function.update s.phase i p k) = some n at hk
    by_cases hji : j = i
    · by_cases hki : k = i
      · rw [hji, hki]
      · rw [hji, Function.update_self] at hj
        rw [Function.update_of_ne hki] at hk
        rw [hji]
        exact hKey k n hki hj hk
    · rw [Function.update_of_ne hji] at hj
      by_cases hki : k = i
      · rw [hki, Function.update_self] at hk
        rw [hki]
        exact (hKey j n hji hk hj).symm
      · rw [Function.update_of_ne hki] at hk
        exact hInv.agree j k n hj hk

/-- A new file keeps what a phase rests on, if it holds one key and the phase is not a first use
since the last reset. -/
theorem phaseOk_newFile {file file' : Option Text} {resets resets' : Nat} {conn : Connection}
    {p : Phase} (hPhase : PhaseOk lookup file resets conn p)
    (hFile : ∀ content, file' = some content → ∃ key, OnlyKey lookup content key)
    (hLe : resets ≤ resets') (hFirst : firstUseOf p ≠ some resets') :
    PhaseOk lookup file' resets' conn p := by
  have hAccepted : ∀ acceptance, AcceptedOk lookup file resets conn acceptance →
      firstUseOf (.accepted acceptance) ≠ some resets' →
      AcceptedOk lookup file' resets' conn acceptance := by
    intro acceptance hOk hNew
    cases acceptance with
    | pinned content => exact hOk
    | firstUse atStart before after n =>
      exact ⟨hOk.1, hOk.2.1.trans hLe, fun hSame => absurd (congrArg some hSame) hNew⟩
  cases p with
  | unrecorded atStart => exact ⟨hPhase.1, hPhase.2.1, hFile⟩
  | locked atStart => exact ⟨hPhase.1, hPhase.2.1, hFile⟩
  | prepared atStart => exact ⟨hPhase.1, hPhase.2.1, hFile⟩
  | accepted acceptance => exact hAccepted acceptance hPhase hFirst
  | connected acceptance =>
    refine hAccepted acceptance hPhase ?_
    cases acceptance <;> exact hFirst
  | _ => trivial

theorem firstUseOf_le (hInv : Inv lookup conns s) {i n : Nat}
    (hFirst : firstUseOf (s.phase i) = some n) : n ≤ s.resets := by
  have hPhase := hInv.phases i
  cases hp : s.phase i with
  | accepted acceptance =>
    rw [hp] at hFirst hPhase
    cases acceptance with
    | pinned content => cases hFirst
    | firstUse atStart before after m => exact Option.some.inj hFirst ▸ hPhase.2.1
  | connected acceptance =>
    rw [hp] at hFirst hPhase
    cases acceptance with
    | pinned content => cases hFirst
    | firstUse atStart before after m => exact Option.some.inj hFirst ▸ hPhase.2.1
  | _ =>
    rw [hp] at hFirst
    cases hFirst

/-- A forgotten or replaced key. -/
theorem inv_reset (hInv : Inv lookup conns s) {file' : Option Text}
    (hFile : ∀ content, file' = some content → ∃ key, OnlyKey lookup content key) :
    Inv lookup conns { s with file := file', resets := s.resets + 1 } := by
  refine ⟨fun i => phaseOk_newFile (hInv.phases i) hFile (Nat.le_succ _) ?_, hInv.agree⟩
  intro hFirst
  exact Nat.not_succ_le_self _ (firstUseOf_le hInv hFirst)

theorem inv_published (hLookup : ReadsLines lookup) (hInv : Inv lookup conns s) {i : Nat}
    {atStart : Option Text} (hPhase : s.phase i = .prepared atStart) (hNone : s.file = none) :
    Inv lookup conns
      { s.move i (.accepted (.firstUse atStart none
          (some (payload (conns i).pattern (conns i).key)) s.resets)) none with
        file := some (payload (conns i).pattern (conns i).key) } := by
  have hPending : PendingOk lookup s.file (conns i) atStart := by
    have hOk := hInv.phases i
    rw [hPhase] at hOk
    exact hOk
  have hOnly : OnlyKey lookup (payload (conns i).pattern (conns i).key) (conns i).key :=
    onlyKey_payload hLookup hPending.1 _ _
  -- without a file there is no first use since the last reset
  have hOld : ∀ j, firstUseOf (s.phase j) ≠ some s.resets := by
    intro j hFirst
    obtain ⟨content, hFile, -⟩ := onlyKey_of_firstUse hInv hFirst
    rw [hNone] at hFile
    cases hFile
  constructor
  · intro j
    by_cases hj : j = i
    · subst hj
      change PhaseOk lookup _ _ (conns j) (Function.update s.phase j _ j)
      rw [Function.update_self]
      exact ⟨⟨hPending.2.1, .inl ⟨rfl, rfl⟩⟩, le_refl _, fun _ => ⟨_, rfl, hOnly⟩⟩
    · change PhaseOk lookup _ _ (conns j) (Function.update s.phase i _ j)
      rw [Function.update_of_ne hj]
      refine phaseOk_newFile (hInv.phases j) ?_ (le_refl _) (hOld j)
      rintro content ⟨⟩
      exact ⟨_, hOnly⟩
  · intro j k n hj hk
    change firstUseOf (Function.update s.phase i _ j) = some n at hj
    change firstUseOf (Function.update s.phase i _ k) = some n at hk
    by_cases hji : j = i
    · by_cases hki : k = i
      · rw [hji, hki]
      · rw [hji, Function.update_self] at hj
        rw [Function.update_of_ne hki, ← Option.some.inj hj] at hk
        exact absurd hk (hOld k)
    · rw [Function.update_of_ne hji] at hj
      by_cases hki : k = i
      · rw [hki, Function.update_self] at hk
        rw [← Option.some.inj hk] at hj
        exact absurd hj (hOld j)
      · rw [Function.update_of_ne hki] at hk
        exact hInv.agree j k n hj hk

theorem inv_step (hLookup : ReadsLines lookup) (hInv : Inv lookup conns s) {a : Action}
    (h : step lookup fingerprint conns s a = some s') : Inv lookup conns s' := by
  cases step_effect h with
  | same => exact hInv
  | moved lock hMoves => exact inv_moved hLookup hInv hMoves
  | published hPhase hNone => exact inv_published hLookup hInv hPhase hNone
  | forgotten =>
    refine inv_reset hInv ?_
    rintro content ⟨⟩
  | replaced hHost hFingerprint =>
    refine inv_reset hInv ?_
    rintro content ⟨⟩
    exact ⟨_, onlyKey_payload hLookup hHost _ _⟩

theorem inv_of_reach (hLookup : ReadsLines lookup)
    (hReach : Runs.Reach (step lookup fingerprint conns) Start Runs.Always s) :
    Inv lookup conns s := by
  refine hReach.invariant ?_ fun s a s' hInv _ hStep => inv_step hLookup hInv hStep
  rintro s ⟨-, hIdle⟩
  constructor
  · intro i
    rw [hIdle]
    trivial
  · intro i j n hi
    rw [hIdle] at hi
    cases hi

end Invariant

/-! ## The interleavings -/

/-- A pin gives way only to a replacement whose fingerprint is the expected one, or to nothing
when it is forgotten. -/
def PinKept (fingerprint : PKey → Text) (s : State) (a : Action) (s' : State) : Prop :=
  ∀ content, s.file = some content → s'.file = some content ∨
    a = .forget ∧ s'.file = none ∨
    ∃ host port key expectedFingerprint, a = .replace host port key expectedFingerprint ∧
      validateExpectedFingerprint expectedFingerprint =
        some ((fingerprint key).rdropWhile (· = '=')) ∧
      s'.file = some (payload (hostPattern host port) key)

theorem pinKept_step {lookup : Lookup} {fingerprint : PKey → Text} {conns : Nat → Connection}
    {s s' : State} {a : Action} (h : step lookup fingerprint conns s a = some s') :
    PinKept fingerprint s a s' := by
  intro content hFile
  cases step_effect h with
  | same => exact .inl hFile
  | moved lock hMoves => exact .inl hFile
  | published hPhase hNone =>
    rw [hNone] at hFile
    cases hFile
  | forgotten => exact .inr (.inl ⟨rfl, rfl⟩)
  | replaced hHost hFingerprint => exact .inr (.inr ⟨_, _, _, _, rfl, hFingerprint, rfl⟩)

/-- In every interleaving: a connection succeeds only with a key that is in the pin it loaded, or,
where no pin was recorded when it started, that its policy made the pin or found in it; a pin gives
way only to a replacement with the expected fingerprint or when it is forgotten; and two first uses
that both succeed, without a reset between their policies, have one key. -/
theorem host_keys_trusted {lookup : Lookup} (fingerprint : PKey → Text) (conns : Nat → Connection)
    (hLookup : ReadsLines lookup) {s : State}
    (hReach : Runs.Reach (step lookup fingerprint conns) Start Runs.Always s) :
    (∀ i acceptance, s.phase i = .connected acceptance → Trusted lookup (conns i) acceptance) ∧
      (∀ a s', step lookup fingerprint conns s a = some s' → PinKept fingerprint s a s') ∧
      ∀ i j atStart before after atStart' before' after' resets,
        s.phase i = .connected (.firstUse atStart before after resets) →
        s.phase j = .connected (.firstUse atStart' before' after' resets) →
        (conns i).key = (conns j).key := by
  have hInv := inv_of_reach hLookup hReach
  refine ⟨?_, fun a s' => pinKept_step, ?_⟩
  · intro i acceptance hConnected
    have hPhase := hInv.phases i
    rw [hConnected] at hPhase
    exact hPhase.1
  · intro i j atStart before after atStart' before' after' resets hi hj
    exact hInv.agree i j resets (by rw [hi]; rfl) (by rw [hj]; rfl)

/-! ## Two connections -/

/-- What is found in a file when only `keys` are known. -/
def lookupAmong (keys : List PKey) : Lookup := fun content pattern =>
  keys.filter fun key => content = payload pattern key

/-- The line determines the key. -/
theorem payload_inj {pattern pattern' : Text} {key key' : PKey}
    (h : payload pattern key = payload pattern' key') : key = key' := by
  have hReverse : ∀ (p : Text) (k : PKey), (payload p k).reverse =
      '\n' :: (k.base64.reverse ++ ' ' :: (k.name.reverse ++ ' ' :: p.reverse)) := by
    intro p k
    simp [payload]
  have hPlain : ∀ k : PKey, ' ' ∉ k.base64.reverse ∧ ' ' ∉ k.name.reverse := by
    intro k
    constructor
    · intro hBlank
      exact absurd (k.plain ' ' (List.mem_append_right _ (List.mem_reverse.mp hBlank))) (by decide)
    · intro hBlank
      exact absurd (k.plain ' ' (List.mem_append_left _ (List.mem_reverse.mp hBlank))) (by decide)
  have hSame := congrArg List.reverse h
  rw [hReverse, hReverse] at hSame
  obtain ⟨hText, hRest⟩ := append_mark_inj (hPlain key).1 (hPlain key').1 (List.cons.inj hSame).2
  obtain ⟨hName, -⟩ := append_mark_inj (hPlain key).2 (hPlain key').2 hRest
  cases key
  cases key'
  cases List.reverse_injective hText
  cases List.reverse_injective hName
  rfl

theorem readsLines_lookupAmong (keys : List PKey) : ReadsLines (lookupAmong keys) where
  blank pattern := by
    refine List.filter_eq_nil_iff.mpr fun key _ hSame => ?_
    have hNil : payload pattern key = [] := (of_decide_eq_true hSame).symm
    simp [payload] at hNil
  line host port key pattern _ found hFound :=
    (payload_inj (of_decide_eq_true (List.mem_filter.mp hFound).2)).symm

def firstKey : PKey := ⟨"ssh-ed25519", "AAAAC3Nz", plain_of_all (by decide)⟩

def otherKey : PKey := ⟨"ssh-ed25519", "AAAAC3Nu", plain_of_all (by decide)⟩

/-- Two connections to one host, which presents different keys to them. -/
def twoConnections : Nat → Connection := fun i =>
  { host := "gpu-7", key := if i = 0 then firstKey else otherKey }

abbrev twoKeyStep : State → Action → Option State :=
  step (lookupAmong [firstKey, otherKey]) (fun _ => []) twoConnections

/-- Both look before either key is recorded; the first key becomes the pin. -/
def racingRun : List Action :=
  [.check 0, .check 1, .enter 0, .inspect 0, .publish 0, .authenticate 0]

/-- Without a reset the other connection fails. -/
theorem host_keys_trusted_race : ∃ s, Runs.Reach twoKeyStep Start Runs.Always s ∧
    s.phase 0 = .connected (.firstUse none none (some (payload "gpu-7" firstKey)) 0) ∧
    s.phase 1 = .failed ∧
    BecamePin (lookupAmong [firstKey, otherKey]) (twoConnections 0) none
      (some (payload "gpu-7" firstKey)) := by
  have hRun : ∃ s, Runs.Reach twoKeyStep Start Runs.Always s ∧
      (s.phase 0 = .connected (.firstUse none none (some (payload "gpu-7" firstKey)) 0) ∧
        s.phase 1 = .failed) :=
    Runs.Reach.exists_of_exec (racingRun ++ [.enter 1, .inspect 1])
      (⟨rfl, rfl⟩ : Start ⟨none, none, fun _ => .idle, 0⟩) (by decide +kernel)
  obtain ⟨s, hReach, hFirst, hSecond⟩ := hRun
  refine ⟨s, hReach, hFirst, hSecond, ?_⟩
  exact ((host_keys_trusted (fun _ => []) twoConnections (readsLines_lookupAmong _) hReach).1 0 _
    hFirst).2

/-- With a forgotten key between their policies both first uses succeed. -/
theorem two_first_uses : ∃ s, Runs.Reach twoKeyStep Start Runs.Always s ∧
    (s.phase 0 = .connected (.firstUse none none (some (payload "gpu-7" firstKey)) 0) ∧
      s.phase 1 = .connected (.firstUse none none (some (payload "gpu-7" otherKey)) 1)) ∧
    (twoConnections 0).key ≠ (twoConnections 1).key := by
  have hRun : ∃ s, Runs.Reach twoKeyStep Start Runs.Always s ∧
      (s.phase 0 = .connected (.firstUse none none (some (payload "gpu-7" firstKey)) 0) ∧
        s.phase 1 = .connected (.firstUse none none (some (payload "gpu-7" otherKey)) 1)) :=
    Runs.Reach.exists_of_exec
      (racingRun ++ [.forget, .enter 1, .inspect 1, .publish 1, .authenticate 1])
      (⟨rfl, rfl⟩ : Start ⟨none, none, fun _ => .idle, 0⟩) (by decide +kernel)
  obtain ⟨s, hReach, hBoth⟩ := hRun
  exact ⟨s, hReach, hBoth, by decide⟩

end GpuMon.HostKeys
