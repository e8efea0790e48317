import GpuMon.Account.RateLimit
import GpuMon.Processes.Identity
import GpuMon.Servers.Deletion

/-!
# Actions on remote processes (`metrics.process_action`)

An administrator confirms the password and has a process of a server killed or reniced. Requests
run side by side, their commits may fail, the row of the server is read again after each commit, and
`remote_command` may fail before it has sent anything: at a secret or at the connection.

* `step_effect`: what a step can do, said once.
* `trail_of_request`: whatever the others do, what a request leaves behind is the beginning of its
  trail: the intent, the command on the host if it was sent, and its result. So no command is sent
  before its intent is committed, and none by a request whose password was not confirmed.
* `answer_of_request`: a request is answered with success only if its command was sent, with 502
  only after its intent, and with another error only if it has sent no command.

The caller has passed `require_admin`. What the command does on the host is `Host.passes`.
-/

namespace GpuMon.Processes

open PyText Runs RateLimit Servers

/-! ## The request -/

inductive ActionKind
  | kill
  | renice
  deriving DecidableEq

def ActionKind.text : ActionKind → Text
  | .kill => "kill"
  | .renice => "renice"

inductive Signal
  | term
  | kill
  | hup
  | int
  deriving DecidableEq

def Signal.text : Signal → Text
  | .term => "TERM"
  | .kill => "KILL"
  | .hup => "HUP"
  | .int => "INT"

/-- `ProcessAction`, as the schema admits it. -/
structure ProcessAction where
  action : ActionKind
  pid : Nat
  startTicks : Nat
  signal : Signal := .term
  nice : Int := 0
  reauthPassword : Text
  pid_pos : 1 ≤ pid
  startTicks_pos : 0 < startTicks
  nice_range : -20 ≤ nice ∧ nice ≤ 19
  password_size : 1 ≤ reauthPassword.length ∧ reauthPassword.length ≤ 128

def ProcessAction.actionCommand (body : ProcessAction) : Text :=
  match body.action with
  | .kill => "kill -" ++ body.signal.text ++ " " ++ natText body.pid
  | .renice => "renice " ++ intText body.nice ++ " -p " ++ natText body.pid

/-- The command for the host's shell; `Host.passes` is its test. -/
def ProcessAction.command (body : ProcessAction) : Text :=
  "PATH=/usr/sbin:/usr/bin:/sbin:/bin; export PATH; " ++
  "stat=$(cat /proc/" ++ natText body.pid ++ "/stat 2>/dev/null) || exit 75; " ++
  "rest=$\x7bstat##*) \x7d; set -- $rest; current=$\x7b20\x7d; " ++
  "[ \"$current\" = \"" ++ natText body.startTicks ++ "\" ] || " ++
  "\x7b echo 'process identity changed'; exit 75; \x7d; " ++ body.actionCommand

/-- A request of an administrator, with the address it comes from. -/
structure Request where
  username : Text
  passwordHash : Text
  ip : Text
  serverId : Int
  body : ProcessAction

namespace Request

/-- The bucket of the step-up limiter. -/
def bucket (r : Request) : Text := r.username ++ ":" ++ "process-action"

def reauthFailed (r : Request) : AuditLog where
  username := r.username
  action := "process.reauth_failed"
  detail := "server_id=" ++ intText r.serverId ++ " pid=" ++ natText r.body.pid ++ " ip=" ++ r.ip

def requested (r : Request) (server : Server) : AuditLog where
  username := r.username
  action := "process." ++ r.body.action.text ++ ".requested"
  detail := "server=" ++ server.name ++ " pid=" ++ natText r.body.pid ++ " start_ticks=" ++
    natText r.body.startTicks ++ " ip=" ++ r.ip

def result (r : Request) (server : Server) (ok : Bool) : AuditLog where
  username := r.username
  action := "process." ++ r.body.action.text ++ ".result"
  detail := "server=" ++ server.name ++ " action=" ++ r.body.action.text ++ " pid=" ++
    natText r.body.pid ++ " -> " ++ (if ok then "ok" else "failed")

end Request

/-! ## Requests side by side -/

/-- What is left behind: a committed audit row, or a command on a server. -/
inductive Mark
  | audit (row : AuditLog)
  | command (server : Server) (text : Text)
  deriving DecidableEq

abbrev Answer := Except HttpError Text

/-- What `remote_command` has come to: it failed before anything was sent, or the command was sent.
`message` is the end of its output, or the error. -/
structure Outcome where
  sent : Bool
  ok : Bool
  message : Text
  sent_of_ok : ok = true → sent = true

inductive Phase
  | idle
  | verifying
  | failing
  | confirmed
  | loaded (server : Server)
  | intended (server : Server)
  | ran (server : Server) (outcome : Outcome)
  | answered (answer : Answer)

/-- The step-up limiter, the requests, and what they have left behind, by request. -/
structure State where
  limiter : LoginRateLimiter := {}
  phase : Nat → Phase := fun _ => .idle
  marks : List (Nat × Mark) := []

inductive Action
  | start (i : Nat) (now : ℚ)
  | verify (i : Nat) (now : ℚ)
  | auditFailure (i : Nat) (commits : Bool)
  | load (i : Nat) (server : Option Server)
  | intend (i : Nat) (commits : Bool)
  | run (i : Nat) (server : Option Server) (outcome : Outcome)
  | auditResult (i : Nat) (commits : Bool)

/-- `REMOTE_PROCESS_CONTROL_ENABLED`, the password check, and the requests. -/
structure Setup where
  enabled : Bool
  verifyPassword : (password hash : Text) → Bool
  casefold : Text → Text
  request : Nat → Request

namespace State

def move (s : State) (i : Nat) (p : Phase) : State :=
  { s with phase := Function.update s.phase i p }

def leave (s : State) (i : Nat) (m : Mark) : State := { s with marks := s.marks ++ [(i, m)] }

/-- What request `i` has left behind. -/
def trail (s : State) (i : Nat) : List Mark := (s.marks.filter fun m => m.1 = i).map Prod.snd

end State

def auditUnavailable : HttpError := ⟨503, "security audit unavailable"⟩

/-- Nothing catches what the session raises for a row that is gone. -/
def rowGone : HttpError := ⟨500, "Internal Server Error"⟩

section Step

variable (c : Setup)

/-- The password of request `i` is the administrator's. -/
def Setup.confirms (i : Nat) : Bool :=
  c.verifyPassword (c.request i).body.reauthPassword (c.request i).passwordHash

def Outcome.answer (o : Outcome) : Answer :=
  if o.ok then .ok o.message else .error ⟨502, o.message⟩

/-- The command on the server, if it was sent. -/
def sentMarks (i : Nat) (server : Server) (o : Outcome) : List Mark :=
  if o.sent then [.command server (c.request i).body.command] else []

/-- `process_action`, in the pieces between which other requests may come. -/
def step (s : State) : Action → Option State
  | .start i now =>
    match s.phase i with
    | .idle =>
      if c.enabled = false then
        some (s.move i (.answered (.error ⟨403, "remote process control is disabled"⟩)))
      else if (check c.casefold s.limiter now (c.request i).ip (c.request i).bucket).1 then
        some (s.move i .verifying)
      else some (s.move i
        (.answered (.error ⟨429, "Too many verification failures; retry later"⟩)))
    | _ => none
  | .verify i now =>
    match s.phase i with
    | .verifying =>
      if c.confirms i then
        some { s.move i .confirmed with
          limiter := recordSuccess c.casefold s.limiter (c.request i).ip (c.request i).bucket }
      else some { s.move i .failing with
          limiter := recordFailure c.casefold s.limiter now (c.request i).ip (c.request i).bucket }
    | _ => none
  | .auditFailure i commits =>
    match s.phase i with
    | .failing =>
      if commits then
        some ((s.move i (.answered (.error ⟨403, "administrator re-authentication failed"⟩))).leave
          i (.audit (c.request i).reauthFailed))
      else some (s.move i (.answered (.error auditUnavailable)))
    | _ => none
  | .load i server =>
    match s.phase i with
    | .confirmed =>
      match server with
      | none => some (s.move i (.answered (.error ⟨404, "Server not found"⟩)))
      | some server => some (s.move i (.loaded server))
    | _ => none
  | .intend i commits =>
    match s.phase i with
    | .loaded server =>
      if commits then
        some ((s.move i (.intended server)).leave i (.audit ((c.request i).requested server)))
      else some (s.move i (.answered (.error auditUnavailable)))
    | _ => none
  | .run i server outcome =>
    match s.phase i with
    | .intended _ =>
      -- the commit has expired the row, so `server.host` reads it again
      match server with
      | none => some (s.move i (.answered (.error rowGone)))
      | some server =>
        let t := s.move i (.ran server outcome)
        some (if outcome.sent then t.leave i (.command server (c.request i).body.command) else t)
    | _ => none
  | .auditResult i commits =>
    match s.phase i with
    | .ran server outcome =>
      let t := s.move i (.answered outcome.answer)
      some (if commits then t.leave i (.audit ((c.request i).result server outcome.ok)) else t)
    | _ => none

end Step

/-! ## What one step can do -/

/-- The ways a request goes on: from where, to where, and what it leaves behind. -/
inductive Moves (c : Setup) (i : Nat) : Phase → Phase → List Mark → Prop
  | refused {e : HttpError} : e.status ≠ 502 → Moves c i .idle (.answered (.error e)) []
  | admitted : c.enabled = true → Moves c i .idle .verifying []
  | confirmed : c.confirms i = true → Moves c i .verifying .confirmed []
  | failed : Moves c i .verifying .failing []
  | failureAudited {e : HttpError} : e.status ≠ 502 →
      Moves c i .failing (.answered (.error e)) [.audit (c.request i).reauthFailed]
  | failureLost {e : HttpError} : e.status ≠ 502 → Moves c i .failing (.answered (.error e)) []
  | notFound {e : HttpError} : e.status ≠ 502 → Moves c i .confirmed (.answered (.error e)) []
  | loaded {server : Server} : Moves c i .confirmed (.loaded server) []
  | intended {server : Server} : Moves c i (.loaded server) (.intended server)
      [.audit ((c.request i).requested server)]
  | unavailable {server : Server} {e : HttpError} : e.status ≠ 502 →
      Moves c i (.loaded server) (.answered (.error e)) []
  | gone {server : Server} : Moves c i (.intended server) (.answered (.error rowGone)) []
  | ran {server current : Server} {outcome : Outcome} : Moves c i (.intended server)
      (.ran current outcome) (sentMarks c i current outcome)
  | recorded {server : Server} {outcome : Outcome} : Moves c i (.ran server outcome)
      (.answered outcome.answer) [.audit ((c.request i).result server outcome.ok)]
  | unrecorded {server : Server} {outcome : Outcome} : Moves c i (.ran server outcome)
      (.answered outcome.answer) []

/-- Request `i` goes on and leaves `ms` behind; the others stay as they are. -/
structure Effect (c : Setup) (s s' : State) (i : Nat) (ms : List Mark) : Prop where
  moves : Moves c i (s.phase i) (s'.phase i) ms
  trail : s'.trail i = s.trail i ++ ms
  others : ∀ j, j ≠ i → s'.phase j = s.phase j ∧ s'.trail j = s.trail j

variable {c : Setup} {s s' : State} {a : Action}

theorem trail_append {i j : Nat} {m : Mark} (h : s'.marks = s.marks ++ [(i, m)]) :
    s'.trail j = s.trail j ++ if i = j then [m] else [] := by
  rw [State.trail, State.trail, h, List.filter_append, List.map_append]
  by_cases hHere : i = j <;> simp [hHere]

theorem Effect.silent {i : Nat} {p : Phase} (hPhase : s'.phase = Function.update s.phase i p)
    (hMarks : s'.marks = s.marks) (hMoves : Moves c i (s.phase i) p []) : Effect c s s' i [] := by
  have hTrail : ∀ j, s'.trail j = s.trail j := fun j => by rw [State.trail, State.trail, hMarks]
  refine ⟨?_, by rw [hTrail, List.append_nil], fun j hj => ⟨?_, hTrail j⟩⟩
  · rw [hPhase, Function.update_self]
    exact hMoves
  · rw [hPhase, Function.update_of_ne hj]

theorem Effect.marked {i : Nat} {p : Phase} {m : Mark}
    (hPhase : s'.phase = Function.update s.phase i p) (hMarks : s'.marks = s.marks ++ [(i, m)])
    (hMoves : Moves c i (s.phase i) p [m]) : Effect c s s' i [m] := by
  refine ⟨?_, by rw [trail_append hMarks, if_pos rfl], fun j hj => ⟨?_, ?_⟩⟩
  · rw [hPhase, Function.update_self]
    exact hMoves
  · rw [hPhase, Function.update_of_ne hj]
  · rw [trail_append hMarks, if_neg fun hSame => hj hSame.symm, List.append_nil]

theorem step_effect (h : step c s a = some s') : ∃ i ms, Effect c s s' i ms := by
  cases a with
  | start i now =>
    dsimp only [step] at h
    split at h
    · rename_i hPhase
      split at h
      · cases h
        exact ⟨_, _, .silent rfl rfl (hPhase ▸ .refused (by decide))⟩
      · rename_i hEnabled
        split at h <;> cases h
        · exact ⟨_, _, .silent rfl rfl (hPhase ▸ .admitted (by simpa using hEnabled))⟩
        · exact ⟨_, _, .silent rfl rfl (hPhase ▸ .refused (by decide))⟩
    · cases h
  | verify i now =>
    dsimp only [step] at h
    split at h
    · rename_i hPhase
      split at h <;> cases h
      · exact ⟨_, _, .silent rfl rfl (hPhase ▸ .confirmed ‹_›)⟩
      · exact ⟨_, _, .silent rfl rfl (hPhase ▸ .failed)⟩
    · cases h
  | auditFailure i commits =>
    dsimp only [step] at h
    split at h
    · rename_i hPhase
      split at h <;> cases h
      · exact ⟨_, _, .marked rfl rfl (hPhase ▸ .failureAudited (by decide))⟩
      · exact ⟨_, _, .silent rfl rfl (hPhase ▸ .failureLost (by decide))⟩
    · cases h
  | load i server =>
    dsimp only [step] at h
    split at h
    · rename_i hPhase
      split at h <;> cases h
      · exact ⟨_, _, .silent rfl rfl (hPhase ▸ .notFound (by decide))⟩
      · exact ⟨_, _, .silent rfl rfl (hPhase ▸ .loaded)⟩
    · cases h
  | intend i commits =>
    dsimp only [step] at h
    split at h
    · rename_i hPhase
      split at h <;> cases h
      · exact ⟨_, _, .marked rfl rfl (hPhase ▸ .intended)⟩
      · exact ⟨_, _, .silent rfl rfl (hPhase ▸ .unavailable (by decide))⟩
    · cases h
  | run i server outcome =>
    dsimp only [step] at h
    split at h
    · rename_i before hPhase
      split at h <;> cases h
      · exact ⟨_, _, .silent rfl rfl (hPhase ▸ .gone)⟩
      · rename_i current
        refine ⟨i, sentMarks c i current outcome, ?_⟩
        have hMoves : Moves c i (s.phase i) (.ran current outcome)
            (sentMarks c i current outcome) := hPhase ▸ .ran
        unfold sentMarks at hMoves ⊢
        split
        · rename_i hSent
          rw [if_pos hSent] at hMoves
          exact .marked rfl rfl hMoves
        · rename_i hUnsent
          rw [if_neg hUnsent] at hMoves
          exact .silent rfl rfl hMoves
    · cases h
  | auditResult i commits =>
    dsimp only [step] at h
    split at h
    · rename_i hPhase
      cases h
      split
      · exact ⟨_, _, .marked rfl rfl (hPhase ▸ .recorded)⟩
      · exact ⟨_, _, .silent rfl rfl (hPhase ▸ .unrecorded)⟩
    · cases h

/-! ## The trail of a request -/

/-- The intent of a request, and the command if it was sent, with the row as it was read again. -/
def begun (c : Setup) (i : Nat) (server current : Server) (o : Outcome) : List Mark :=
  .audit ((c.request i).requested server) :: sentMarks c i current o

/-- Everything a request may leave behind once its password is confirmed. -/
def script (c : Setup) (i : Nat) (server current : Server) (o : Outcome) : List Mark :=
  begun c i server current o ++ [.audit ((c.request i).result current o.ok)]

/-- The request has passed the switch and the password check. -/
def Admitted (c : Setup) (i : Nat) : Prop := c.enabled = true ∧ c.confirms i = true

/-- How an answered request has ended: without a command, or with one. -/
inductive Ended (c : Setup) (i : Nat) : Answer → List Mark → Prop
  | early {e : HttpError} : e.status ≠ 502 → Ended c i (.error e) []
  | rejected {e : HttpError} : e.status ≠ 502 →
      Ended c i (.error e) [.audit (c.request i).reauthFailed]
  | gone {server : Server} : Admitted c i →
      Ended c i (.error rowGone) [.audit ((c.request i).requested server)]
  | ran {server current : Server} {outcome : Outcome} {trail : List Mark} : Admitted c i →
      begun c i server current outcome <+: trail → trail <+: script c i server current outcome →
      Ended c i outcome.answer trail

/-- What a request has left behind, by where it stands. -/
def Trail (c : Setup) (i : Nat) : Phase → List Mark → Prop
  | .idle, trail => trail = []
  | .verifying, trail => trail = [] ∧ c.enabled = true
  | .failing, trail => trail = []
  | .confirmed, trail => trail = [] ∧ Admitted c i
  | .loaded _, trail => trail = [] ∧ Admitted c i
  | .intended server, trail => trail = [.audit ((c.request i).requested server)] ∧ Admitted c i
  | .ran current outcome, trail =>
    (∃ server, trail = begun c i server current outcome) ∧ Admitted c i
  | .answered answer, trail => Ended c i answer trail

theorem Trail.moves {i : Nat} {p p' : Phase} {trail ms : List Mark} (h : Trail c i p trail)
    (hMoves : Moves c i p p' ms) : Trail c i p' (trail ++ ms) := by
  cases hMoves with
  | refused hStatus =>
    obtain rfl := h
    exact .early hStatus
  | admitted hEnabled =>
    obtain rfl := h
    exact ⟨rfl, hEnabled⟩
  | confirmed hConfirms =>
    obtain ⟨rfl, hEnabled⟩ := h
    exact ⟨rfl, hEnabled, hConfirms⟩
  | failed => exact (List.append_nil trail).trans h.1
  | failureAudited hStatus =>
    obtain rfl := h
    exact .rejected hStatus
  | failureLost hStatus =>
    obtain rfl := h
    exact .early hStatus
  | notFound hStatus =>
    obtain ⟨rfl, -⟩ := h
    exact .early hStatus
  | loaded => exact ⟨(List.append_nil trail).trans h.1, h.2⟩
  | intended =>
    obtain ⟨rfl, hAdmitted⟩ := h
    exact ⟨rfl, hAdmitted⟩
  | unavailable hStatus =>
    obtain ⟨rfl, -⟩ := h
    exact .early hStatus
  | gone =>
    obtain ⟨rfl, hAdmitted⟩ := h
    exact .gone hAdmitted
  | @ran server =>
    obtain ⟨rfl, hAdmitted⟩ := h
    exact ⟨⟨server, rfl⟩, hAdmitted⟩
  | recorded =>
    obtain ⟨⟨server, rfl⟩, hAdmitted⟩ := h
    exact .ran hAdmitted (List.prefix_append _ _) (List.prefix_refl _)
  | unrecorded =>
    obtain ⟨⟨server, rfl⟩, hAdmitted⟩ := h
    rw [List.append_nil]
    exact .ran hAdmitted (List.prefix_refl _) (List.prefix_append _ _)

/-- The connection was refused. -/
def unsent : Outcome where
  sent := false
  ok := false
  message := []
  sent_of_ok := nofun

/-- The trail is empty, or the audit of a wrong password, or a beginning of the script. -/
theorem Trail.begins {i : Nat} {p : Phase} {trail : List Mark} (h : Trail c i p trail) :
    trail <+: [.audit (c.request i).reauthFailed] ∨
      Admitted c i ∧ ∃ server current outcome, trail <+: script c i server current outcome := by
  cases p with
  | idle => exact .inl (h ▸ List.nil_prefix)
  | verifying => exact .inl (h.1 ▸ List.nil_prefix)
  | failing => exact .inl (h ▸ List.nil_prefix)
  | confirmed => exact .inl (h.1 ▸ List.nil_prefix)
  | loaded server => exact .inl (h.1 ▸ List.nil_prefix)
  | intended server =>
    refine .inr ⟨h.2, server, server, unsent, ?_⟩
    rw [h.1]
    exact List.prefix_append _ _
  | ran current outcome =>
    obtain ⟨⟨server, hTrail⟩, hAdmitted⟩ := h
    exact .inr ⟨hAdmitted, server, current, outcome, hTrail ▸ List.prefix_append _ _⟩
  | answered answer =>
    cases h with
    | early hStatus => exact .inl List.nil_prefix
    | rejected hStatus => exact .inl (List.prefix_refl _)
    | @gone server hAdmitted =>
      exact .inr ⟨hAdmitted, server, server, unsent, List.prefix_append _ _⟩
    | @ran server current outcome trail hAdmitted hBegun hTrail =>
      exact .inr ⟨hAdmitted, server, current, outcome, hTrail⟩

def Init (s : State) : Prop := (∀ i, s.phase i = .idle) ∧ s.marks = []

theorem trail_of_reach (h : Reach (step c) Init Always s) (i : Nat) :
    Trail c i (s.phase i) (s.trail i) := by
  refine h.invariant (I := fun s => ∀ i, Trail c i (s.phase i) (s.trail i)) ?_ ?_ i
  · rintro s ⟨hIdle, hNone⟩ i
    rw [hIdle, State.trail, hNone]
    rfl
  · intro s a s' hTrails _ hStep i
    obtain ⟨j, ms, hEffect⟩ := step_effect hStep
    by_cases hHere : i = j
    · subst hHere
      rw [hEffect.trail]
      exact (hTrails i).moves hEffect.moves
    · obtain ⟨hPhase, hTrail⟩ := hEffect.others i hHere
      rw [hPhase, hTrail]
      exact hTrails i

/-- In every run each request leaves behind nothing but the audit of a wrong password, or the
beginning of its script: the intent, then the command if it was sent, then the result; the latter
only if remote control is on and the password was right. -/
theorem trail_of_request (h : Reach (step c) Init Always s) (i : Nat) :
    s.trail i <+: [.audit (c.request i).reauthFailed] ∨
      Admitted c i ∧ ∃ server current outcome, s.trail i <+: script c i server current outcome :=
  (trail_of_reach h i).begins

/-- Its intent is committed. -/
def HasIntent (c : Setup) (i : Nat) (trail : List Mark) : Prop :=
  ∃ server, [.audit ((c.request i).requested server)] <+: trail

/-- Its intent is committed, and then its command was sent. -/
def Sent (c : Setup) (i : Nat) (trail : List Mark) : Prop :=
  ∃ server current, [.audit ((c.request i).requested server),
    .command current (c.request i).body.command] <+: trail

theorem requested_ne_reauthFailed (r : Request) (server : Server) :
    r.requested server ≠ r.reauthFailed := by
  intro hSame
  have hAction : (r.requested server).action = r.reauthFailed.action :=
    congrArg AuditLog.action hSame
  simp only [Request.requested, Request.reauthFailed] at hAction
  cases hKind : r.body.action <;> rw [hKind] at hAction <;> exact absurd hAction (by decide)

theorem not_hasIntent_rejected (i : Nat) :
    ¬ HasIntent c i [.audit (c.request i).reauthFailed] := by
  rintro ⟨server, hIntent⟩
  have hSame := List.IsPrefix.eq_of_length hIntent rfl
  simp only [List.cons.injEq, Mark.audit.injEq, and_true] at hSame
  exact requested_ne_reauthFailed _ _ hSame

/-- What is known of an error answer: what its status says of the trail. -/
structure ErrorTells (c : Setup) (i : Nat) (e : HttpError) (trail : List Mark) : Prop where
  intent : e.status = 502 → HasIntent c i trail
  status : HasIntent c i trail → e.status = 502 ∨ e = rowGone
  unsent : e.status ≠ 502 → ∀ server text, .command server text ∉ trail

theorem Ended.success {i : Nat} {message : Text} {trail : List Mark}
    (h : Ended c i (.ok message) trail) : Sent c i trail := by
  generalize hAnswer : (.ok message : Answer) = answer at h
  cases h with
  | early hStatus => cases hAnswer
  | rejected hStatus => cases hAnswer
  | gone hAdmitted => cases hAnswer
  | @ran server current outcome trail hAdmitted hBegun hTrail =>
    have hOk : outcome.ok = true := by
      by_contra hFailed
      rw [Outcome.answer, if_neg hFailed] at hAnswer
      cases hAnswer
    rw [begun, sentMarks, if_pos (outcome.sent_of_ok hOk)] at hBegun
    exact ⟨server, current, hBegun⟩

theorem Ended.error {i : Nat} {e : HttpError} {trail : List Mark}
    (h : Ended c i (.error e) trail) : ErrorTells c i e trail := by
  generalize hAnswer : (.error e : Answer) = answer at h
  cases h with
  | early hStatus =>
    cases hAnswer
    refine ⟨fun h502 => absurd h502 hStatus, ?_, fun _ _ _ => List.not_mem_nil⟩
    rintro ⟨server, hIntent⟩
    exact absurd hIntent.length_le (by simp)
  | rejected hStatus =>
    cases hAnswer
    exact ⟨fun h502 => absurd h502 hStatus,
      fun hIntent => absurd hIntent (not_hasIntent_rejected i), fun _ _ _ => by simp⟩
  | gone hAdmitted =>
    cases hAnswer
    exact ⟨fun h502 => absurd h502 (by decide), fun _ => .inr rfl, fun _ _ _ => by simp⟩
  | @ran server current outcome trail hAdmitted hBegun hTrail =>
    have hIntent : HasIntent c i trail := ⟨server, (List.prefix_append [_] _).trans hBegun⟩
    have hStatus : e.status = 502 := by
      unfold Outcome.answer at hAnswer
      split at hAnswer <;> cases hAnswer
      rfl
    exact ⟨fun _ => hIntent, fun _ => .inl hStatus, fun hOther => absurd hStatus hOther⟩

/-- In every run a request that is answered with success has sent its command, after its intent;
an error answer has the status 502 only after the intent, and once that is committed it has
another only for a server that is gone; with another one no command was sent. -/
theorem answer_of_request (h : Reach (step c) Init Always s) {i : Nat} {answer : Answer}
    (hAnswer : s.phase i = .answered answer) :
    (∀ message, answer = .ok message → Sent c i (s.trail i)) ∧
      ∀ e, answer = .error e → ErrorTells c i e (s.trail i) := by
  have hEnded : Ended c i answer (s.trail i) := by
    have hTrail := trail_of_reach h i
    rw [hAnswer] at hTrail
    exact hTrail
  constructor
  · intro message hSuccess
    exact Ended.success (hSuccess ▸ hEnded)
  · intro e hError
    exact Ended.error (hError ▸ hEnded)

section Example

/-- A request to end process 7, with this password. -/
def endSeven (password : Text) (h : 1 ≤ password.length ∧ password.length ≤ 128) : Request where
  username := "root"
  passwordHash := "secret"
  ip := "192.0.2.1"
  serverId := 3
  body :=
    { action := .kill
      pid := 7
      startTicks := 2
      reauthPassword := password
      pid_pos := by decide
      startTicks_pos := by decide
      nice_range := by decide
      password_size := h }

/-- Request 0 has a wrong password, the others the right one. -/
def twoAdmins : Setup where
  enabled := true
  verifyPassword := fun password hash => password = hash
  casefold := asciiFold
  request := fun i =>
    if i = 0 then endSeven "guess" (by decide) else endSeven "secret" (by decide)

def nodeThree : Server := { id := 3, name := "gpu-3" }

def sideBySide : List Action :=
  [.start 0 1, .start 1 1, .verify 0 2, .verify 1 2, .load 1 (some nodeThree), .intend 1 true,
    .auditFailure 0 true, .run 1 (some nodeThree) ⟨true, true, "done", fun _ => rfl⟩,
    .auditResult 1 false]

/-- The answer is a success. -/
def Phase.isDone : Phase → Bool
  | .answered (.ok _) => true
  | _ => false

theorem Phase.exists_of_isDone {phase : Phase} (h : phase.isDone = true) :
    ∃ message, phase = .answered (.ok message) := by
  cases phase with
  | answered answer =>
    cases answer with
    | ok message => exact ⟨message, rfl⟩
    | error e => cases h
  | _ => cases h

theorem init_nobody : Init {} := ⟨fun _ => rfl, rfl⟩

theorem answered_sideBySide : ∃ s, Reach (step twoAdmins) Init Always s ∧
    (s.trail 0).length = 1 ∧ (s.trail 1).length = 2 ∧ ∃ answer, s.phase 1 = .answered answer ∧
      ∃ message, answer = .ok message := by
  have hRun : ∃ s, Reach (step twoAdmins) Init Always s ∧
      ((s.trail 0).length = 1 ∧ (s.trail 1).length = 2 ∧ (s.phase 1).isDone = true) :=
    Reach.exists_of_exec sideBySide init_nobody (by decide +kernel)
  obtain ⟨s, hReach, hFirst, hSecond, hDone⟩ := hRun
  obtain ⟨message, hPhase⟩ := Phase.exists_of_isDone hDone
  exact ⟨s, hReach, hFirst, hSecond, _, hPhase, message, rfl⟩

theorem trail_of_request_sideBySide : ∃ s, Reach (step twoAdmins) Init Always s ∧
    (s.trail 1).length = 2 ∧ (s.trail 1 <+: [.audit (twoAdmins.request 1).reauthFailed] ∨
      Admitted twoAdmins 1 ∧
        ∃ server current outcome, s.trail 1 <+: script twoAdmins 1 server current outcome) := by
  obtain ⟨s, hReach, -, hSecond, -⟩ := answered_sideBySide
  exact ⟨s, hReach, hSecond, trail_of_request hReach 1⟩

theorem answer_of_request_sideBySide : ∃ s, Reach (step twoAdmins) Init Always s ∧
    Sent twoAdmins 1 (s.trail 1) := by
  obtain ⟨s, hReach, -, -, answer, hPhase, message, rfl⟩ := answered_sideBySide
  exact ⟨s, hReach, (answer_of_request hReach hPhase).1 message rfl⟩

end Example

end GpuMon.Processes
