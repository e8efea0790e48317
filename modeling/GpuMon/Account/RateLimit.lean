import GpuMon.Library.Dict
import GpuMon.Library.Lockout
import GpuMon.Library.PyNum
import GpuMon.Library.PyText
import GpuMon.Library.Runs

/-!
# The rate limit of logins (`rate_limit.LoginRateLimiter`, `auth._authenticate`)

A login asks the limiter first, and its failure is recorded when the password has been checked;
other logins run in between. Failures are counted for the address and for the pair of address and
name. The tables are bounded, the entry that was touched longest ago goes first.

* `view_step`: seen from one pair, every step of the logins is a step of one lockout counter.
* `recorded_failures_le`: in every window of ten minutes a pair has at most four more failures
  than it has logins under way at a time.

A pair is what the source takes it for: an address and a name without its case. Each event is one
critical section of the limiter, with the time that it reads.
-/

namespace GpuMon.RateLimit

open PyNum Lockout

/-! ## The limiter -/

def maxFailuresPair : Nat := 5

def maxFailuresIp : Nat := 20

def windowSeconds : ℚ := 600

def lockSeconds : ℚ := 600

def maxBuckets : Nat := 4096

def pairPolicy : Policy ℚ := ⟨maxFailuresPair, windowSeconds, lockSeconds, by decide, le_refl _⟩

def ipPolicy : Policy ℚ := ⟨maxFailuresIp, windowSeconds, lockSeconds, by decide, le_refl _⟩

/-- `_Counter()`. -/
def newCounter : Counter ℚ := ⟨[], 0⟩

abbrev Buckets := Dict Text (Counter ℚ)

structure LoginRateLimiter where
  byIp : Buckets := Dict.empty
  byPair : Buckets := Dict.empty
  deriving DecidableEq

def ipKey (ip : Text) : Text := "ip:" ++ ip

section Limiter

variable (casefold : Text → Text)

def pairKey (ip username : Text) : Text := "pair:" ++ ip ++ ['\x00'] ++ casefold username

/-- The lock that a bucket is under. -/
def lockOf (table : Buckets) (key : Text) (now : ℚ) : Option ℚ :=
  ((table.get? key).map Counter.lockedUntil).filter fun t => now < t

/-- `check`: whether the login may go on, and else the seconds to wait. -/
def check (l : LoginRateLimiter) (now : ℚ) (ip username : Text) : Bool × Int :=
  match (lockOf l.byIp (ipKey ip) now).or (lockOf l.byPair (pairKey casefold ip username) now) with
  | some t => (false, truncate (t - now))
  | none => (true, 0)

/-- `table.setdefault(key, _Counter())` and `table.move_to_end(key)`. -/
def touch (table : Buckets) (key : Text) : Buckets :=
  (table.erase key).set key ((table.get? key).getD newCounter)

/-- The body of the loop over the two tables. -/
def recordOn (policy : Policy ℚ) (table : Buckets) (key : Text) (now : ℚ) : Buckets :=
  let table := touch table key
  let c := (table.get? key).getD newCounter
  (table.set key (c.fail policy now)).keepNewest maxBuckets

def dropStale (table : Buckets) (now : ℚ) : Buckets := table.filter fun p => !p.2.stale now

def recordFailure (l : LoginRateLimiter) (now : ℚ) (ip username : Text) : LoginRateLimiter where
  byIp := dropStale (recordOn ipPolicy l.byIp (ipKey ip) now) now
  byPair := dropStale (recordOn pairPolicy l.byPair (pairKey casefold ip username) now) now

def recordSuccess (l : LoginRateLimiter) (ip username : Text) : LoginRateLimiter :=
  { l with byPair := l.byPair.erase (pairKey casefold ip username) }

end Limiter

/-! ## Logins -/

structure Attempt where
  ip : Text
  username : Text
  deriving DecidableEq

def Attempt.key (casefold : Text → Text) (a : Attempt) : Text := pairKey casefold a.ip a.username

/-- The limiter, the logins between their check and their end, and the failures so far. -/
structure Logins where
  limiter : LoginRateLimiter
  clock : ℚ
  inFlight : List Attempt
  recorded : List (ℚ × Attempt)
  deriving DecidableEq

/-- The critical sections of `_authenticate`, and a login that ends in another error. -/
inductive Event
  | check (now : ℚ) (a : Attempt)
  | failure (now : ℚ) (a : Attempt)
  | success (a : Attempt)
  | error (a : Attempt)
  deriving DecidableEq

section System

variable (casefold : Text → Text)

def afterCheck (s : Logins) (now : ℚ) (a : Attempt) : Logins :=
  { s with
    clock := now
    inFlight := if (check casefold s.limiter now a.ip a.username).1 then a :: s.inFlight
      else s.inFlight }

def afterFailure (s : Logins) (now : ℚ) (a : Attempt) : Logins where
  limiter := recordFailure casefold s.limiter now a.ip a.username
  clock := now
  inFlight := s.inFlight.erase a
  recorded := s.recorded ++ [(now, a)]

def afterSuccess (s : Logins) (a : Attempt) : Logins :=
  { s with
    limiter := recordSuccess casefold s.limiter a.ip a.username
    inFlight := s.inFlight.erase a }

def afterError (s : Logins) (a : Attempt) : Logins := { s with inFlight := s.inFlight.erase a }

def step (s : Logins) : Event → Option Logins
  | .check now a => if s.clock ≤ now then some (afterCheck casefold s now a) else none
  | .failure now a =>
    if s.clock ≤ now ∧ a ∈ s.inFlight then some (afterFailure casefold s now a) else none
  | .success a => if a ∈ s.inFlight then some (afterSuccess casefold s a) else none
  | .error a => if a ∈ s.inFlight then some (afterError s a) else none

/-- A fresh limiter; the clock counts from the epoch. -/
def Start (s : Logins) : Prop :=
  s.limiter = {} ∧ 0 ≤ s.clock ∧ s.inFlight = [] ∧ s.recorded = []

/-- The logins of a pair that are under way. -/
def underWay (key : Text) (s : Logins) : List Attempt :=
  s.inFlight.filter fun a => a.key casefold = key

/-- The times at which failures of a pair were recorded. -/
def failuresOf (key : Text) (s : Logins) : List ℚ :=
  (s.recorded.filter fun r => r.2.key casefold = key).map Prod.fst

/-- The buckets of the other pairs. -/
def otherBuckets (table : Buckets) (key : Text) : Nat := (table.erase key).entries.length

/-- At most `k` logins of the pair are under way, none of them succeeds, and there are fewer other
buckets than the table may hold, also when a failure has just added one. -/
structure Meets (key : Text) (k : Nat) (s : Logins) (e : Event) : Prop where
  pending : (underWay casefold key s).length ≤ k
  noSuccess : ∀ a, e = .success a → a.key casefold ≠ key
  others : ∀ now a, e = .failure now a →
    otherBuckets (touch s.limiter.byPair (a.key casefold)) key < maxBuckets

instance (key : Text) (k : Nat) (s : Logins) : ∀ e : Event, Decidable (Meets casefold key k s e)
  | .failure _ a =>
    decidable_of_iff ((underWay casefold key s).length ≤ k ∧
      otherBuckets (touch s.limiter.byPair (a.key casefold)) key < maxBuckets)
      ⟨fun h => ⟨h.1, nofun, fun _ _ hEvent => by cases hEvent; exact h.2⟩,
        fun h => ⟨h.pending, h.others _ a rfl⟩⟩
  | .success a =>
    decidable_of_iff ((underWay casefold key s).length ≤ k ∧ a.key casefold ≠ key)
      ⟨fun h => ⟨h.1, fun _ hEvent => by cases hEvent; exact h.2, nofun⟩,
        fun h => ⟨h.pending, h.noSuccess a rfl⟩⟩
  | .check _ _ | .error _ =>
    decidable_of_iff ((underWay casefold key s).length ≤ k)
      ⟨fun h => ⟨h, nofun, nofun⟩, fun h => h.pending⟩

end System

/-! ## One bucket -/

section Buckets

variable {table : Buckets} {key key' : Text}

theorem get?_touch (table : Buckets) (key key' : Text) : (touch table key).get? key' =
    if key' = key then some ((table.get? key).getD newCounter) else table.get? key' := by
  rw [touch, Dict.get?_set, Dict.get?_erase]
  split_ifs <;> rfl

theorem length_le_otherBuckets (table : Buckets) (key : Text) :
    table.entries.length ≤ otherBuckets table key + 1 := by
  have hOwn : table.entries.countP (fun p => p.1 = key) ≤ 1 := by
    have hCount := List.nodup_iff_count_le_one.mp table.keysNodup key
    rw [List.count_eq_countP, List.countP_map] at hCount
    simpa only [Function.comp_def, beq_eq_decide] using hCount
  have hOther : otherBuckets table key = table.entries.countP fun p => !decide (p.1 = key) := by
    rw [List.countP_eq_length_filter]
    simp [otherBuckets, Dict.erase, Dict.filterKeys]
  have hSplit := List.length_eq_countP_add_countP (fun p => decide (p.1 = key)) (l := table.entries)
  have hNot : table.entries.countP (fun p => !decide (p.1 = key)) =
      table.entries.countP (fun p => ¬ decide (p.1 = key) = true) :=
    List.countP_congr fun p _ => by simp
  omega

/-- With room for the other buckets, a failure changes its own bucket and no other. -/
theorem get?_recordOn {policy : Policy ℚ} {now : ℚ}
    (h : otherBuckets (touch table key) key' < maxBuckets) (k : Text) :
    (recordOn policy table key now).get? k =
      if k = key then some (((table.get? key).getD newCounter).fail policy now)
      else table.get? k := by
  have hKey : key ∈ (touch table key).keys := by
    rw [Dict.mem_keys_iff, get?_touch, if_pos rfl]
    rfl
  have hRoom : ∀ c, ((touch table key).set key c).entries.length ≤ maxBuckets := fun c => by
    have hLength := Dict.length_setEntries_of_mem c hKey
    have hOther := length_le_otherBuckets (touch table key) key'
    change (Dict.setEntries key c (touch table key).entries).length ≤ maxBuckets
    omega
  rw [recordOn, Dict.keepNewest_eq_self (hRoom _), Dict.get?_set]
  simp only [get?_touch, if_true, Option.getD_some]
  split_ifs <;> rfl

theorem lockSeconds_pos : 0 < pairPolicy.lock := by
  unfold pairPolicy lockSeconds
  norm_num

/-- A failure of another pair leaves a bucket alone, or drops it when it is stale. -/
theorem get?_dropStale (table : Buckets) (key : Text) (now : ℚ) :
    ((dropStale table now).get? key).getD newCounter = (table.get? key).getD newCounter ∨
      ((table.get? key).getD newCounter).stale now ∧
        ((dropStale table now).get? key).getD newCounter = newCounter := by
  rw [dropStale, Dict.get?_filter]
  cases table.get? key with
  | none => exact .inl rfl
  | some c =>
    cases hStale : c.stale now with
    | true => exact .inr ⟨hStale, by rw [Option.filter_some, hStale]; rfl⟩
    | false => exact .inl (by rw [Option.filter_some, hStale]; rfl)

end Buckets

/-! ## One pair -/

section Pair

variable {casefold : Text → Text} {key : Text} {k : Nat} {s s' : Logins} {a : Attempt} {now : ℚ}

/-- The logins as one pair sees them. -/
def view (casefold : Text → Text) (key : Text) (s : Logins) : State ℚ where
  counter := (s.limiter.byPair.get? key).getD newCounter
  pending := (underWay casefold key s).length
  clock := s.clock
  log := failuresOf casefold key s

/-- The end of a login counts for its own pair. -/
theorem length_filter_erase {l : List Attempt} (p : Attempt → Bool) (h : a ∈ l) :
    (l.filter p).length = ((l.erase a).filter p).length + if p a then 1 else 0 := by
  rw [((List.perm_cons_erase h).filter p).length_eq, List.filter_cons]
  split <;> rfl

theorem lockedUntil_le_of_check {l : LoginRateLimiter} {ip username : Text} (hNow : 0 ≤ now)
    (h : (check casefold l now ip username).1 = true) :
    ((l.byPair.get? (pairKey casefold ip username)).getD newCounter).lockedUntil ≤ now := by
  have hPair : lockOf l.byPair (pairKey casefold ip username) now = none := by
    unfold check at h
    split at h
    · cases h
    · rename_i hNone
      exact (Option.or_eq_none_iff.mp hNone).2
  rw [lockOf, Option.filter_eq_none_iff] at hPair
  cases hGet : l.byPair.get? (pairKey casefold ip username) with
  | none => exact hNow
  | some c =>
    have hOpen := hPair c.lockedUntil (by rw [hGet]; rfl)
    simpa using hOpen

theorem view_afterCheck (hNow : 0 ≤ now) (hClock : s.clock ≤ now) :
    Step pairPolicy (view casefold key s) (view casefold key (afterCheck casefold s now a)) := by
  by_cases hAllowed : (check casefold s.limiter now a.ip a.username).1 = true
  · by_cases hKey : a.key casefold = key
    · have hView : view casefold key (afterCheck casefold s now a) =
          { view casefold key s with
            clock := now, pending := (view casefold key s).pending + 1 } := by
        simp [view, underWay, failuresOf, afterCheck, hAllowed, hKey]
      rw [hView]
      refine .allow hClock ?_
      rw [← hKey]
      exact lockedUntil_le_of_check hNow hAllowed
    · have hView : view casefold key (afterCheck casefold s now a) =
          { view casefold key s with clock := now } := by
        simp [view, underWay, failuresOf, afterCheck, hAllowed, hKey]
      rw [hView]
      exact .wait hClock
  · have hView : view casefold key (afterCheck casefold s now a) =
        { view casefold key s with clock := now } := by
      simp [view, underWay, failuresOf, afterCheck, hAllowed]
    rw [hView]
    exact .wait hClock

/-- What ends a login of the pair takes it from those under way. -/
theorem pending_erase (hMem : a ∈ s.inFlight) (hKey : a.key casefold = key) :
    (underWay casefold key s).length =
      ((s.inFlight.erase a).filter fun a => a.key casefold = key).length + 1 := by
  rw [underWay, length_filter_erase _ hMem, if_pos (decide_eq_true hKey)]

theorem pending_erase_of_ne (hMem : a ∈ s.inFlight) (hKey : a.key casefold ≠ key) :
    ((s.inFlight.erase a).filter fun a => a.key casefold = key).length =
      (underWay casefold key s).length := by
  rw [underWay, length_filter_erase _ hMem, if_neg (by simpa using hKey), add_zero]

/-- The failures of a pair, with one more of its own or of another. -/
theorem failuresOf_afterFailure : failuresOf casefold key (afterFailure casefold s now a) =
    failuresOf casefold key s ++ if a.key casefold = key then [now] else [] := by
  simp only [failuresOf, afterFailure, List.filter_append, List.map_append]
  split_ifs with hKey <;> simp [hKey]

theorem view_ownFailure (hClock : s.clock ≤ now) (hMem : a ∈ s.inFlight)
    (hRoom : otherBuckets (touch s.limiter.byPair (a.key casefold)) (a.key casefold) < maxBuckets) :
    Step pairPolicy (view casefold (a.key casefold) s)
      (view casefold (a.key casefold) (afterFailure casefold s now a)) := by
  have hGet : (recordOn pairPolicy s.limiter.byPair (a.key casefold) now).get? (a.key casefold) =
      some (((s.limiter.byPair.get? (a.key casefold)).getD newCounter).fail pairPolicy now) :=
    (get?_recordOn hRoom _).trans (if_pos rfl)
  have hCounter : ((dropStale (recordOn pairPolicy s.limiter.byPair (a.key casefold) now) now).get?
      (a.key casefold)).getD newCounter =
        ((s.limiter.byPair.get? (a.key casefold)).getD newCounter).fail pairPolicy now := by
    rw [dropStale, Dict.get?_filter, hGet, Option.filter_some,
      Counter.not_stale_fail lockSeconds_pos]
    rfl
  have hView : view casefold (a.key casefold) (afterFailure casefold s now a) =
      ⟨(view casefold (a.key casefold) s).counter.fail pairPolicy now,
        ((s.inFlight.erase a).filter fun b => b.key casefold = a.key casefold).length, now,
        (view casefold (a.key casefold) s).log ++ [now]⟩ := by
    unfold view
    rw [failuresOf_afterFailure, if_pos rfl, ← hCounter]
    rfl
  rw [hView]
  exact .fail hClock (pending_erase hMem rfl)

theorem view_otherFailure (hClock : s.clock ≤ now) (hMem : a ∈ s.inFlight)
    (hKey : a.key casefold ≠ key)
    (hRoom : otherBuckets (touch s.limiter.byPair (a.key casefold)) key < maxBuckets) :
    Step pairPolicy (view casefold key s) (view casefold key (afterFailure casefold s now a)) := by
  have hGet : (recordOn pairPolicy s.limiter.byPair (a.key casefold) now).get? key =
      s.limiter.byPair.get? key := (get?_recordOn hRoom _).trans (if_neg (Ne.symm hKey))
  have hView : ∀ c, ((afterFailure casefold s now a).limiter.byPair.get? key).getD newCounter = c →
      view casefold key (afterFailure casefold s now a) =
        { view casefold key s with clock := now, counter := c } := by
    rintro c rfl
    unfold view
    rw [failuresOf_afterFailure, if_neg hKey, List.append_nil, ← pending_erase_of_ne hMem hKey]
    rfl
  rcases get?_dropStale (recordOn pairPolicy s.limiter.byPair (a.key casefold) now) key now with
    hKept | ⟨hStale, hDropped⟩
  · rw [hGet] at hKept
    rw [hView _ hKept]
    exact .wait hClock
  · rw [hGet] at hStale
    rw [hView _ hDropped]
    exact .forget hClock hStale

theorem view_afterSuccess (hMem : a ∈ s.inFlight) (hKey : a.key casefold ≠ key) :
    Step pairPolicy (view casefold key s) (view casefold key (afterSuccess casefold s a)) := by
  have hView : view casefold key (afterSuccess casefold s a) =
      { view casefold key s with clock := s.clock } := by
    have hGet : (recordSuccess casefold s.limiter a.ip a.username).byPair.get? key =
        s.limiter.byPair.get? key := by
      rw [recordSuccess, Dict.get?_erase]
      exact if_neg (Ne.symm hKey)
    simp [view, underWay, failuresOf, afterSuccess, hGet, pending_erase_of_ne hMem hKey]
  rw [hView]
  exact .wait (le_refl _)

theorem view_afterError (hMem : a ∈ s.inFlight) :
    Step pairPolicy (view casefold key s) (view casefold key (afterError s a)) := by
  by_cases hKey : a.key casefold = key
  · exact .abandon (pending_erase hMem hKey)
  · have hView : view casefold key (afterError s a) =
        { view casefold key s with clock := s.clock } := by
      simp [view, underWay, failuresOf, afterError, pending_erase_of_ne hMem hKey]
    rw [hView]
    exact .wait (le_refl _)

/-- Seen from one pair, a step of the logins is a step of one lockout counter. -/
theorem view_step (hStart : 0 ≤ s.clock) {e : Event} (hMeets : Meets casefold key k s e)
    (h : step casefold s e = some s') :
    Step pairPolicy (view casefold key s) (view casefold key s') := by
  cases e with
  | check now a =>
    obtain ⟨hClock, hs⟩ := Option.ite_none_right_eq_some.mp h
    cases hs
    exact view_afterCheck (hStart.trans hClock) hClock
  | failure now a =>
    obtain ⟨⟨hClock, hMem⟩, hs⟩ := Option.ite_none_right_eq_some.mp h
    cases hs
    have hRoom := hMeets.others now a rfl
    by_cases hKey : a.key casefold = key
    · subst hKey
      exact view_ownFailure hClock hMem hRoom
    · exact view_otherFailure hClock hMem hKey hRoom
  | success a =>
    obtain ⟨hMem, hs⟩ := Option.ite_none_right_eq_some.mp h
    cases hs
    exact view_afterSuccess hMem (hMeets.noSuccess a rfl)
  | error a =>
    obtain ⟨hMem, hs⟩ := Option.ite_none_right_eq_some.mp h
    cases hs
    exact view_afterError hMem

/-- Seen from one pair, a run of the logins is a run of one lockout counter. -/
theorem view_run (h : Runs.Reach (step casefold) Start (Meets casefold key k) s) :
    0 ≤ s.clock ∧ ∃ c, Run pairPolicy k ⟨⟨[], 0⟩, 0, c, []⟩ (view casefold key s) := by
  refine h.invariant (I := fun s => 0 ≤ s.clock ∧
    ∃ c, Run pairPolicy k ⟨⟨[], 0⟩, 0, c, []⟩ (view casefold key s)) ?_ ?_
  · rintro s ⟨hLimiter, hClock, hFlight, hRecorded⟩
    refine ⟨hClock, s.clock, ?_⟩
    have hView : view casefold key s = ⟨⟨[], 0⟩, 0, s.clock, []⟩ := by
      unfold view underWay failuresOf
      rw [hLimiter, hFlight, hRecorded]
      rfl
    rw [hView]
    exact .refl
  · rintro s e s' ⟨hClock, c, hRun⟩ hMeets hStep
    have hView := view_step hClock hMeets hStep
    exact ⟨hClock.trans hView.clock_le, c, hRun.tail ⟨hMeets.pending, hView⟩⟩

end Pair

/-- In every run where no login of a pair succeeds, with at most `k` of them under way and room in
the table, every window of ten minutes has at most `k + 4` recorded failures of the pair. -/
theorem recorded_failures_le (casefold : Text → Text) (ip username : Text) (k : Nat) {s : Logins}
    (hReach : Runs.Reach (step casefold) Start
      (Meets casefold (pairKey casefold ip username) k) s) (start : ℚ) :
    ((failuresOf casefold (pairKey casefold ip username) s).filter fun t =>
      start ≤ t && t < start + windowSeconds).length ≤ k + 4 := by
  obtain ⟨-, c, hRun⟩ := view_run hReach
  exact Nat.lt_succ_iff.mp (hRun.window_le start)

/-- One wrong password after the other, written with different letters, and a last check. -/
def guesses : List Event :=
  let small : Attempt := ⟨"10.0.0.1", "root"⟩
  let big : Attempt := ⟨"10.0.0.1", "Root"⟩
  [.check 0 small, .failure 1 small, .check 2 big, .failure 3 big, .check 4 small, .failure 5 small,
    .check 6 big, .failure 7 big, .check 8 small, .failure 9 small, .check 10 big]

def asciiFold (t : Text) : Text := t.map Char.toLower

/-- Five failures are recorded, and the sixth login is not let in. -/
theorem guesses_stopped : ∃ s, Runs.Reach (step asciiFold) Start
      (Meets asciiFold (pairKey asciiFold "10.0.0.1" "root") 1) s ∧
    s.inFlight = [] ∧ (failuresOf asciiFold (pairKey asciiFold "10.0.0.1" "root") s).length = 5 ∧
    ((failuresOf asciiFold (pairKey asciiFold "10.0.0.1" "root") s).filter fun t =>
      0 ≤ t && t < 0 + windowSeconds).length ≤ 1 + 4 := by
  have hRun : ∃ s, Runs.Reach (step asciiFold) Start
      (Meets asciiFold (pairKey asciiFold "10.0.0.1" "root") 1) s ∧
        (s.inFlight = [] ∧
          (failuresOf asciiFold (pairKey asciiFold "10.0.0.1" "root") s).length = 5) :=
    Runs.Reach.exists_of_exec (s := ⟨{}, 0, [], []⟩) guesses ⟨rfl, le_refl _, rfl, rfl⟩
      (by decide +kernel)
  obtain ⟨s, hReach, hFlight, hFive⟩ := hRun
  exact ⟨s, hReach, hFlight, hFive, recorded_failures_le asciiFold _ _ 1 hReach 0⟩

end GpuMon.RateLimit
