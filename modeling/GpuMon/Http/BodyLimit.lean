import GpuMon.Library.Dict
import GpuMon.Library.PyText

/-!
# The limit on request bodies (`main.RequestBodyLimitMiddleware`)

The middleware reads a request to its end before the application sees any of it, and then plays
the messages back. The messages that `receive` delivers are a list here; where it ends, the
middleware still waits.

* `receiveBody_app_iff`: when the loop comes to an end, and with which messages.
* `replay_eq`: the application receives the buffered messages and then the rest.
* `body_limited`: whether the application is invoked, and what the client gets otherwise.
-/

namespace GpuMon.BodyLimit

open PyText

abbrev Bytes := List UInt8

inductive MessageType
  | httpRequest
  | httpDisconnect
  | foreign (name : Text)
  deriving DecidableEq

/-- A message of `receive`; a key that it does not have is `none`. -/
structure Message where
  type : MessageType
  body : Option Bytes := none
  moreBody : Option Bool := none
  deriving DecidableEq

structure Scope where
  type : Text
  headers : Option (List (Bytes × Bytes)) := none

/-- What becomes of one call of the middleware. -/
inductive Outcome
  | app (buffered rest : List Message)
  | reply (statusCode : Nat) (detail : Text)
  | silent
  | waiting
  deriving DecidableEq

/-! ## The declared length -/

def asciiBytes (t : Text) : Bytes := t.map fun c => c.toNat.toUInt8

/-- `int(b)` on bytes: what `int` makes of ASCII text, where the information separators are no
blanks. -/
def intOfBytes? (b : Bytes) : Option Int :=
  if b.all (fun c => c < 0x80 && !(0x1c ≤ c && c ≤ 0x1f)) then
    int? (b.map fun c => Char.ofNat c.toNat)
  else none

/-- `dict(scope.get("headers") or []).get(b"content-length")`. -/
def contentLength (scope : Scope) : Option Bytes :=
  (Dict.ofList (scope.headers.getD [])).get? (asciiBytes "content-length")

def tooLarge : Outcome := .reply 413 "request body too large"

def invalidLength : Outcome := .reply 400 "invalid content-length"

/-- The answer to a declared length that is refused. -/
def checkDeclared (limit : Int) (scope : Scope) : Option Outcome :=
  match contentLength scope with
  | none => none
  | some value =>
    match intOfBytes? value with
    | none => some invalidLength
    | some declared =>
      if declared < 0 then some invalidLength
      else if limit < declared then some tooLarge
      else none

/-! ## The loop -/

def Message.length (m : Message) : Nat := (m.body.getD []).length

/-- The body goes on after this message. -/
def Message.goesOn (m : Message) : Bool := m.moreBody.getD false

def receiveBody (limit : Int) (total : Nat) (buffered : List Message) : List Message → Outcome
  | [] => .waiting
  | m :: messages =>
    match m.type with
    | .httpDisconnect => .silent
    | .foreign _ => receiveBody limit total buffered messages
    | .httpRequest =>
      if limit < total + m.length then tooLarge
      else if m.goesOn then
        receiveBody limit (total + m.length) (buffered ++ [m]) messages
      else .app (buffered ++ [m]) messages

/-- One request; for other scopes the application gets `receive` itself. -/
def call (limit : Int) (scope : Scope) (messages : List Message) : Outcome :=
  if scope.type ≠ "http" then .app [] messages
  else (checkDeclared limit scope).getD (receiveBody limit 0 [] messages)

/-! ## Playing back -/

/-- What the closure `replay_receive` holds; `rest` is what `receive` will deliver. -/
structure Replay where
  buffered : List Message
  index : Nat := 0
  rest : List Message

/-- `replay_receive`; `none` while `receive` has nothing to deliver. -/
def Replay.receive (r : Replay) : Option (Message × Replay) :=
  match r.buffered[r.index]? with
  | some m => some (m, { r with index := r.index + 1 })
  | none =>
    match r.rest with
    | m :: rest => some (m, { r with rest })
    | [] => none

/-- What the first `n` calls of the application return. -/
def Replay.received : Nat → Replay → List Message
  | 0, _ => []
  | n + 1, r =>
    match r.receive with
    | some (m, r') => m :: received n r'
    | none => []

theorem received_eq (n : Nat) (r : Replay) :
    r.received n = (r.buffered.drop r.index ++ r.rest).take n := by
  induction n generalizing r with
  | zero => rfl
  | succ n ih =>
    rw [Replay.received, Replay.receive]
    cases hNext : r.buffered[r.index]? with
    | some m =>
      have hDrop : r.buffered.drop r.index = m :: r.buffered.drop (r.index + 1) := by
        obtain ⟨hIndex, rfl⟩ := List.getElem?_eq_some_iff.mp hNext
        exact List.drop_eq_getElem_cons hIndex
      dsimp only
      rw [ih, hDrop]
      rfl
    | none =>
      have hDrop : r.buffered.drop r.index = [] :=
        List.drop_eq_nil_of_le (List.getElem?_eq_none_iff.mp hNext)
      cases hRest : r.rest with
      | nil => simp [hDrop]
      | cons m rest =>
        dsimp only
        rw [ih, hDrop]
        simp

/-- The application receives the messages of the request, and then what comes after it. -/
theorem replay_eq (buffered rest : List Message) (n : Nat) :
    Replay.received n { buffered, rest } = (buffered ++ rest).take n :=
  received_eq n _

/-! ## The end of a request -/

/-- Neither a disconnect nor the last message of the request. -/
def Message.isOpen (m : Message) : Bool :=
  match m.type with
  | .httpDisconnect => false
  | .foreign _ => true
  | .httpRequest => m.goesOn

def requests (messages : List Message) : List Message :=
  messages.filter fun m => m.type = .httpRequest

def bodyLength (messages : List Message) : Nat := ((requests messages).map Message.length).sum

/-- The request has arrived with its final message. -/
def Complete (arrived : List Message) : Prop :=
  ∃ init last, arrived = init ++ [last] ∧ (∀ m ∈ init, m.isOpen) ∧
    last.type = .httpRequest ∧ last.goesOn = false

variable {limit : Int} {total : Nat} {buffered arrived rest : List Message}

theorem bodyLength_cons (m : Message) (messages : List Message) : bodyLength (m :: messages) =
    (if m.type = .httpRequest then m.length else 0) + bodyLength messages := by
  unfold bodyLength requests
  by_cases h : m.type = .httpRequest
  · simp [h]
  · simp [h]

theorem complete_cons {m : Message} : Complete (m :: arrived) ↔
    m.type = .httpRequest ∧ m.goesOn = false ∧ arrived = [] ∨ m.isOpen ∧ Complete arrived := by
  constructor
  · rintro ⟨init, last, hSplit, hOpen, hLast⟩
    cases init with
    | nil =>
      obtain ⟨rfl, rfl⟩ := List.cons.inj hSplit
      exact .inl ⟨hLast.1, hLast.2, rfl⟩
    | cons q init =>
      obtain ⟨rfl, rfl⟩ := List.cons.inj hSplit
      refine .inr ⟨hOpen m List.mem_cons_self, init, last, rfl, fun r hr => ?_, hLast⟩
      exact hOpen r (List.mem_cons_of_mem m hr)
  · rintro (⟨hType, hLast, rfl⟩ | ⟨hOpen, init, last, rfl, hInit, hLast⟩)
    · exact ⟨[], m, rfl, nofun, hType, hLast⟩
    · exact ⟨m :: init, last, rfl, List.forall_mem_cons.mpr ⟨hOpen, hInit⟩, hLast⟩

theorem not_complete_nil : ¬Complete [] := by
  rintro ⟨init, last, hSplit, -⟩
  simp at hSplit

/-- The ways to read a complete request off the messages, by the first message. -/
theorem exists_complete_cons {m : Message} {messages : List Message} {P : List Message → Prop} :
    (∃ arrived, m :: messages = arrived ++ rest ∧ Complete arrived ∧ P arrived) ↔
      (m.type = .httpRequest ∧ m.goesOn = false ∧ messages = rest ∧ P [m]) ∨
        m.isOpen ∧ ∃ arrived, messages = arrived ++ rest ∧ Complete arrived ∧ P (m :: arrived) := by
  constructor
  · rintro ⟨arrived, hSplit, hComplete, hP⟩
    cases arrived with
    | nil => exact absurd hComplete not_complete_nil
    | cons q arrived =>
      obtain ⟨rfl, rfl⟩ := List.cons.inj hSplit
      rcases complete_cons.mp hComplete with ⟨hType, hLast, rfl⟩ | ⟨hOpen, hRest⟩
      · exact .inl ⟨hType, hLast, rfl, hP⟩
      · exact .inr ⟨hOpen, arrived, rfl, hRest, hP⟩
  · rintro (⟨hType, hLast, rfl, hP⟩ | ⟨hOpen, arrived, rfl, hComplete, hP⟩)
    · exact ⟨[m], rfl, complete_cons.mpr (.inl ⟨hType, hLast, rfl⟩), hP⟩
    · exact ⟨m :: arrived, rfl, complete_cons.mpr (.inr ⟨hOpen, hComplete⟩), hP⟩

/-- The loop ends with the final message of a request that is not too long. -/
theorem receiveBody_app_iff {messages b : List Message} :
    receiveBody limit total buffered messages = .app b rest ↔
      ∃ arrived, messages = arrived ++ rest ∧ Complete arrived ∧
        total + bodyLength arrived ≤ limit ∧ b = buffered ++ requests arrived := by
  induction messages generalizing total buffered with
  | nil =>
    refine iff_of_false nofun ?_
    rintro ⟨arrived, hSplit, hComplete, -⟩
    rw [(List.append_eq_nil_iff.mp hSplit.symm).1] at hComplete
    exact not_complete_nil hComplete
  | cons m messages ih =>
    rw [exists_complete_cons, receiveBody]
    cases hType : m.type with
    | httpDisconnect => simp [Message.isOpen, hType]
    | foreign name =>
      have hSkip : ∀ arrived, bodyLength (m :: arrived) = bodyLength arrived := fun arrived => by
        simp [bodyLength_cons, hType]
      have hNone : ∀ arrived, requests (m :: arrived) = requests arrived := fun arrived => by
        simp [requests, hType]
      simp only [ih, hSkip, hNone, Message.isOpen, hType]
      simp
    | httpRequest =>
      have hLength : ∀ arrived, bodyLength (m :: arrived) = m.length + bodyLength arrived :=
        fun arrived => by simp [bodyLength_cons, hType]
      have hKept : ∀ arrived, requests (m :: arrived) = m :: requests arrived := fun arrived => by
        simp [requests, hType]
      simp only [hLength, hKept, Message.isOpen, hType, Nat.cast_add]
      by_cases hLong : limit < total + m.length
      · rw [if_pos hLong]
        refine iff_of_false nofun ?_
        rintro (⟨-, -, -, hShort, -⟩ | ⟨-, arrived, -, -, hShort, -⟩)
        · omega
        · omega
      · rw [if_neg hLong]
        cases hMore : m.goesOn with
        | true =>
          simp only [if_true, ih, Nat.cast_add, List.append_assoc, List.singleton_append, add_assoc]
          simp
        | false =>
          have hNil : bodyLength [] = 0 := rfl
          simp only [Bool.false_eq_true, if_false, Outcome.app.injEq, hNil]
          constructor
          · rintro ⟨rfl, rfl⟩
            exact .inl ⟨trivial, trivial, rfl, by omega, rfl⟩
          · rintro (⟨-, -, rfl, -, rfl⟩ | ⟨hFalse, -⟩)
            · exact ⟨rfl, rfl⟩
            · exact absurd hFalse nofun

/-- What a loop without a complete request says about the messages. -/
def Refused (limit : Int) (messages : List Message) : Outcome → Prop
  | .app _ _ => False
  | .reply statusCode _ =>
    statusCode = 413 ∧ ∃ arrived, arrived <+: messages ∧ limit < bodyLength arrived
  | .silent => ∃ arrived d rest, messages = arrived ++ d :: rest ∧ d.type = .httpDisconnect ∧
      ∀ m ∈ arrived, m.isOpen
  | .waiting => ∀ m ∈ messages, m.isOpen

/-- The share of a message in the length of the body. -/
def Message.share (m : Message) : Nat := if m.type = .httpRequest then m.length else 0

theorem Refused.cons {m : Message} {messages : List Message} {o : Outcome} (hOpen : m.isOpen)
    (h : Refused (limit - m.share) messages o) : Refused limit (m :: messages) o := by
  cases o with
  | app b rest => exact h
  | reply statusCode detail =>
    obtain ⟨hStatus, arrived, hArrived, hLong⟩ := h
    refine ⟨hStatus, m :: arrived, List.cons_prefix_cons.mpr ⟨rfl, hArrived⟩, ?_⟩
    rw [bodyLength_cons]
    unfold Message.share at hLong
    omega
  | silent =>
    obtain ⟨arrived, d, rest, rfl, hType, hBefore⟩ := h
    exact ⟨m :: arrived, d, rest, rfl, hType, List.forall_mem_cons.mpr ⟨hOpen, hBefore⟩⟩
  | waiting => exact List.forall_mem_cons.mpr ⟨hOpen, h⟩

theorem receiveBody_refused {messages : List Message}
    (h : ∀ b rest, receiveBody limit total buffered messages ≠ .app b rest) :
    Refused (limit - total) messages (receiveBody limit total buffered messages) := by
  induction messages generalizing total buffered with
  | nil => exact nofun
  | cons m messages ih =>
    rw [receiveBody] at h ⊢
    cases hType : m.type with
    | httpDisconnect => exact ⟨[], m, messages, rfl, hType, nofun⟩
    | foreign name =>
      simp only [hType] at h ⊢
      have hShare : limit - total - (m.share : Int) = limit - total := by
        simp [Message.share, hType]
      refine Refused.cons (by simp [Message.isOpen, hType]) ?_
      rw [hShare]
      exact ih h
    | httpRequest =>
      simp only [hType] at h ⊢
      have hShare : m.share = m.length := by simp [Message.share, hType]
      by_cases hLong : limit < total + m.length
      · rw [if_pos hLong]
        refine ⟨rfl, [m], by simp, ?_⟩
        rw [bodyLength_cons, if_pos hType]
        omega
      · rw [if_neg hLong] at h ⊢
        cases hMore : m.goesOn with
        | true =>
          simp only [hMore, if_true] at h ⊢
          refine Refused.cons (by simp [Message.isOpen, hType, hMore]) ?_
          have hRest := ih h
          rw [hShare]
          rwa [Nat.cast_add, ← sub_sub] at hRest
        | false =>
          simp only [hMore, Bool.false_eq_true, if_false] at h
          exact absurd rfl (h _ _)

/-- What a refused header says about the declared length. -/
theorem checkDeclared_some {scope : Scope} {o : Outcome} (h : checkDeclared limit scope = some o) :
    ∃ value, contentLength scope = some value ∧
      ((∀ n, intOfBytes? value = some n → n < 0) ∧ o = invalidLength ∨
        ∃ n, intOfBytes? value = some n ∧ limit < n ∧ o = tooLarge) := by
  unfold checkDeclared at h
  split at h
  · cases h
  · rename_i value hValue
    refine ⟨value, hValue, ?_⟩
    split at h
    · rename_i hNone
      exact .inl ⟨by simp [hNone], (Option.some.inj h).symm⟩
    · rename_i n hSome
      split at h
      · rename_i hNegative
        exact .inl ⟨by simp [hSome, hNegative], (Option.some.inj h).symm⟩
      · split at h
        · rename_i hLarge
          exact .inr ⟨n, hSome, hLarge, (Option.some.inj h).symm⟩
        · cases h

/-- The application is invoked for a complete request within the limit, and gets its messages. -/
theorem body_limited (limit : Int) (scope : Scope) (messages : List Message)
    (hHttp : scope.type = "http") :
    (∀ b rest, call limit scope messages = .app b rest ↔
      checkDeclared limit scope = none ∧ ∃ arrived, messages = arrived ++ rest ∧
        Complete arrived ∧ bodyLength arrived ≤ limit ∧ b = requests arrived) ∧
    match call limit scope messages with
    | .app buffered rest =>
      ∀ n, Replay.received n { buffered, rest } = (buffered ++ rest).take n
    | .reply statusCode _ =>
      statusCode = 413 ∧
          ((∃ value n, contentLength scope = some value ∧ intOfBytes? value = some n ∧ limit < n) ∨
            ∃ arrived, arrived <+: messages ∧ limit < bodyLength arrived) ∨
        statusCode = 400 ∧
          ∃ value, contentLength scope = some value ∧ ∀ n, intOfBytes? value = some n → n < 0
    | .silent => ∃ arrived d rest, messages = arrived ++ d :: rest ∧ d.type = .httpDisconnect ∧
        ∀ m ∈ arrived, m.isOpen
    | .waiting => ∀ m ∈ messages, m.isOpen := by
  have hCall : call limit scope messages =
      (checkDeclared limit scope).getD (receiveBody limit 0 [] messages) := by
    rw [call, if_neg (not_not.mpr hHttp)]
  rw [hCall]
  cases hDeclared : checkDeclared limit scope with
  | some o =>
    obtain ⟨value, hValue, hRefused⟩ := checkDeclared_some hDeclared
    rw [Option.getD_some]
    rcases hRefused with ⟨hInvalid, rfl⟩ | ⟨n, hLength, hLarge, rfl⟩
    · exact ⟨fun b rest => iff_of_false nofun (fun h => nomatch h.1),
        .inr ⟨rfl, value, hValue, hInvalid⟩⟩
    · exact ⟨fun b rest => iff_of_false nofun (fun h => nomatch h.1),
        .inl ⟨rfl, .inl ⟨value, n, hValue, hLength, hLarge⟩⟩⟩
  | none =>
    rw [Option.getD_none]
    refine ⟨fun b rest => ?_, ?_⟩
    · rw [receiveBody_app_iff]
      simp
    · by_cases hApp : ∃ b rest, receiveBody limit 0 [] messages = .app b rest
      · obtain ⟨b, rest, hApp⟩ := hApp
        rw [hApp]
        exact replay_eq b rest
      · have hRefused : Refused (limit - (0 : ℕ)) messages (receiveBody limit 0 [] messages) :=
          receiveBody_refused fun b rest h => hApp ⟨b, rest, h⟩
        rw [Nat.cast_zero, sub_zero] at hRefused
        cases hOutcome : receiveBody limit 0 [] messages with
        | app b rest => exact absurd ⟨b, rest, hOutcome⟩ hApp
        | reply statusCode detail =>
          rw [hOutcome] at hRefused
          exact .inl ⟨hRefused.1, .inr hRefused.2⟩
        | silent =>
          rw [hOutcome] at hRefused
          exact hRefused
        | waiting =>
          rw [hOutcome] at hRefused
          exact hRefused

/-- A body in two chunks with a foreign message between them. -/
theorem body_limited_chunks : ∃ arrived : List Message,
    [⟨.httpRequest, some [1, 2], some true⟩, ⟨.foreign "x", none, none⟩,
      ⟨.httpRequest, some [3], none⟩, ⟨.httpDisconnect, none, none⟩] =
        arrived ++ [⟨.httpDisconnect, none, none⟩] ∧
      Complete arrived ∧ bodyLength arrived ≤ (3 : Int) ∧
      [⟨.httpRequest, some [1, 2], some true⟩, ⟨.httpRequest, some [3], none⟩] =
        requests arrived :=
  (((body_limited 3 { type := "http", headers := some [(asciiBytes "content-length", [0x33])] } _
    rfl).1 _ _).mp (by decide +kernel)).2

end GpuMon.BodyLimit
