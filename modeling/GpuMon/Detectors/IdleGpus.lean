import GpuMon.Detectors.IpmiSections
import GpuMon.Library.PyNum

/-!
# Cards held idle (`_detect_gpu_idle`)

The detector looks for cards of the newest sample whose memory is in use and that do nothing, and
then at the samples of the last minutes: in each of them the card has to be there and idle. Whether
its memory was in use in them too is not asked.

* `opens_idleTurn_iff`: when the turn of a card opens an event.
* `opens_only_if_held_iff`: it does so only for a card that held its memory all the time exactly
  when the memory was in use in every sample of the window, or the event is not opened for another
  reason.

Numbers are exact, and the settings are the ones the thresholds endpoint admits.
-/

namespace GpuMon.Detectors

open PyNum PyText

/-! ## The detector -/

/-- `gpu_idle_vram_pct` and `gpu_idle_minutes`. -/
structure IdleSettings where
  vramPct : ℚ := 30
  idleMinutes : ℚ := 30
  vramBounds : 1 ≤ vramPct ∧ vramPct ≤ 95 := by decide
  minutesBounds : 5 ≤ idleMinutes ∧ idleMinutes ≤ 1440 := by decide

namespace IdleSettings

/-- `_get_setting(db, "gpu_idle_vram_pct", 30.0) / 100.0`. -/
def share (s : IdleSettings) : ℚ := s.vramPct / 100

/-- `int(_get_setting(db, "gpu_idle_minutes", 30))`. -/
def wholeMinutes (s : IdleSettings) : Int := truncate s.idleMinutes

/-- `min_samples`. -/
def minSamples (s : IdleSettings) : Int := max 2 (s.wholeMinutes / 10)

end IdleSettings

/-- `str` of an optional integer. -/
def indexText : Option Int → Text
  | none => "None"
  | some n => intText n

/-- `g.get("uuid") or f"idx{g.get('index')}"`. -/
def idleKey (g : Gpu ℚ) : Text :=
  match g.uuid with
  | some (c :: uuid) => c :: uuid
  | _ => "idx".toList ++ indexText g.index

/-- The memory of a card is in use. -/
def holdsMemory (share : ℚ) (g : Gpu ℚ) : Bool :=
  0 < g.memTotalMb.getD 0 && share ≤ g.memUsedMb.getD 0 / g.memTotalMb.getD 0

/-- A card does next to nothing. -/
def doesNothing (g : Gpu ℚ) : Bool := g.utilization.getD 0 ≤ 5

/-- The card of a sample that has the uuid of `g`, which may be none. -/
def sameGpu (g : Gpu ℚ) (r : ServerMetric) : Option (Gpu ℚ) := r.gpus.find? fun x => x.uuid = g.uuid

/-- The card is there and does nothing: what the loop over the history asks of a sample. -/
def idleIn (g : Gpu ℚ) (r : ServerMetric) : Bool := (sameGpu g r).any doesNothing

/-- `f"PID {p['pid']}({p.get('user','?')})"`. -/
def processText (p : GpuProcess) : Text :=
  "PID ".toList ++ natText p.pid ++ "(".toList ++ p.user.getD "?" ++ ")".toList

/-- The first three processes. -/
def processTexts (g : Gpu ℚ) : Text :=
  let procs := g.processes.filter fun p => p.pid ≠ 0
  let texts := join ", " ((procs.take 3).map processText)
  if texts = [] then "无进程" else texts

section Pass

variable (env : Environment) (floatText : ℚ → Text) (settings : IdleSettings) (server : Server)
  (metrics : Table ServerMetric) (m : ServerMetric)

def idleMessage (g : Gpu ℚ) : Text :=
  "GPU ".toList ++ indexText g.index ++ " 显存占用 ".toList ++
    floatText (roundTo 1 (g.memUsedMb.getD 0 / 1024)) ++ "GB 但利用率≈0 持续".toList ++
    intText settings.wholeMinutes ++ "分钟（".toList ++ processTexts g ++
    "）——疑似空占/僵尸进程".toList

/-- The rows of the window query. -/
def idleWindow : List ServerMetric :=
  (metrics.rows.filter fun r => r.serverId = server.id &&
    m.collectedAt - minutes settings.wholeMinutes ≤ r.collectedAt && r.status = .ok).insertionSort
      fun a b => a.collectedAt ≤ b.collectedAt

/-- A card of the newest sample that is not passed on to the history: its event is closed. -/
def recoverBusy (events : Table AlertEvent) (g : Gpu ℚ) : Table AlertEvent :=
  if holdsMemory settings.share g && doesNothing g then events
  else recover env events "GPU_IDLE_VRAM_HELD" server.id (idleKey g)

def idleCandidates : List (Gpu ℚ) :=
  m.gpus.filter fun g => holdsMemory settings.share g && doesNothing g

/-- The body of the loop over the candidates. -/
def idleTurn (events : Table AlertEvent) (g : Gpu ℚ) : Table AlertEvent :=
  let rows := idleWindow settings server metrics m
  if rows.all (idleIn g) && settings.minSamples ≤ rows.length then
    fire env events "GPU_IDLE_VRAM_HELD" server.id
      (if m.hostname = [] then server.name else m.hostname) (idleMessage floatText settings g)
      (roundTo 1 (g.memUsedMb.getD 0 / g.memTotalMb.getD 0 * 100))
      (truncate (settings.share * 100)) (idleKey g)
  else recover env events "GPU_IDLE_VRAM_HELD" server.id (idleKey g)

/-- `_detect_gpu_idle`. -/
def detectGpuIdle (events : Table AlertEvent) : Table AlertEvent :=
  (idleCandidates settings m).foldl (idleTurn env floatText settings server metrics m)
    (m.gpus.foldl (recoverBusy env settings server) events)

/-- The events when the turn of a candidate comes. -/
def beforeTurn (events : Table AlertEvent) (front : List (Gpu ℚ)) : Table AlertEvent :=
  front.foldl (idleTurn env floatText settings server metrics m)
    (m.gpus.foldl (recoverBusy env settings server) events)

/-- The documented condition: in every ok sample of the last minutes the card is there, does
nothing and holds its memory. -/
def HeldThroughout (g : Gpu ℚ) : Prop :=
  ∀ r ∈ metrics.rows, r.serverId = server.id → r.status = .ok →
    (m.collectedAt : ℚ) - settings.idleMinutes * 60 * 1000000 ≤ r.collectedAt →
    ∃ x, sameGpu g r = some x ∧ doesNothing x = true ∧ holdsMemory settings.share x = true

end Pass

/-! ## When an event is opened -/

section Turn

variable {env : Environment} {floatText : ℚ → Text} {settings : IdleSettings} {server : Server}
  {metrics : Table ServerMetric} {m r : ServerMetric} {g : Gpu ℚ} {events : Table AlertEvent}

theorem mem_idleWindow : r ∈ idleWindow settings server metrics m ↔ r ∈ metrics.rows ∧
    r.serverId = server.id ∧ m.collectedAt - minutes settings.wholeMinutes ≤ r.collectedAt ∧
      r.status = .ok := by
  simp [idleWindow, and_assoc]

/-- The turn of a candidate opens an event if none is open and the history has enough samples, in
all of which the card is there and does nothing. -/
theorem opens_idleTurn_iff : OpensEvent events
      (idleTurn env floatText settings server metrics m events g) "GPU_IDLE_VRAM_HELD" server.id ↔
    openEvent events "GPU_IDLE_VRAM_HELD" server.id (idleKey g) = none ∧
      (∀ r ∈ idleWindow settings server metrics m, idleIn g r = true) ∧
        settings.minSamples ≤ (idleWindow settings server metrics m).length := by
  unfold idleTurn
  dsimp only
  split
  · rename_i hHeld
    rw [opens_fire_iff]
    obtain ⟨hAll, hEnough⟩ := Bool.and_eq_true_iff.mp hHeld
    exact (and_iff_left ⟨List.all_eq_true.mp hAll, of_decide_eq_true hEnough⟩).symm
  · rename_i hHeld
    refine iff_of_false (not_opens_of_subset openRows_recover_subset) ?_
    rintro ⟨-, hAll, hEnough⟩
    exact hHeld (Bool.and_eq_true_iff.mpr ⟨List.all_eq_true.mpr hAll, decide_eq_true hEnough⟩)

/-- The window of the query is not longer than the setting; a fraction of a minute is cut off. -/
theorem cutWindow_le (settings : IdleSettings) (m : ServerMetric) :
    (m.collectedAt : ℚ) - settings.idleMinutes * 60 * 1000000 ≤
      (m.collectedAt - minutes settings.wholeMinutes : Int) := by
  have hPos : 0 ≤ settings.idleMinutes := by
    have := settings.minutesBounds.1
    linarith
  have hFloor : (settings.wholeMinutes : ℚ) ≤ settings.idleMinutes := by
    rw [IdleSettings.wholeMinutes, truncate, if_pos hPos]
    exact Int.floor_le _
  unfold minutes seconds
  push_cast
  linarith

end Turn

/-- The memory of a card was in use in every sample of the window, and in the fraction of a minute
that the query cuts off the card was held. -/
structure MemoryHeld (settings : IdleSettings) (server : Server) (metrics : Table ServerMetric)
    (m : ServerMetric) (g : Gpu ℚ) : Prop where
  window : ∀ r ∈ idleWindow settings server metrics m, ∀ x, sameGpu g r = some x →
    holdsMemory settings.share x = true
  fraction : ∀ r ∈ metrics.rows, r.serverId = server.id → r.status = .ok →
    (m.collectedAt : ℚ) - settings.idleMinutes * 60 * 1000000 ≤ r.collectedAt →
    r.collectedAt < m.collectedAt - minutes settings.wholeMinutes →
    ∃ x, sameGpu g r = some x ∧ doesNothing x = true ∧ holdsMemory settings.share x = true

section Held

variable {settings : IdleSettings} {server : Server} {metrics : Table ServerMetric}
  {m : ServerMetric} {g : Gpu ℚ}

theorem heldThroughout_iff
    (hIdle : ∀ r ∈ idleWindow settings server metrics m, idleIn g r = true) :
    HeldThroughout settings server metrics m g ↔ MemoryHeld settings server metrics m g := by
  constructor
  · intro h
    refine ⟨fun r hr x hx => ?_, fun r hMem hServer hOk hSince _ => h r hMem hServer hOk hSince⟩
    obtain ⟨hMem, hServer, hSince, hOk⟩ := mem_idleWindow.mp hr
    obtain ⟨y, hy, -, hHolds⟩ := h r hMem hServer hOk
      ((cutWindow_le settings m).trans (by exact_mod_cast hSince))
    rw [hx] at hy
    exact Option.some.inj hy ▸ hHolds
  · intro h r hMem hServer hOk hSince
    by_cases hWindow : m.collectedAt - minutes settings.wholeMinutes ≤ r.collectedAt
    · have hr := mem_idleWindow.mpr ⟨hMem, hServer, hWindow, hOk⟩
      have hIdle := hIdle r hr
      unfold idleIn at hIdle
      cases hx : sameGpu g r with
      | none =>
        rw [hx] at hIdle
        cases hIdle
      | some x =>
        rw [hx] at hIdle
        exact ⟨x, rfl, hIdle, h.window r hr x hx⟩
    · exact h.fraction r hMem hServer hOk hSince (not_le.mp hWindow)

/-- Of whole minutes nothing is cut off. -/
theorem memoryHeld_of_whole (hWhole : settings.idleMinutes = settings.wholeMinutes)
    (h : ∀ r ∈ idleWindow settings server metrics m,
      (sameGpu g r).all (holdsMemory settings.share) = true) :
    MemoryHeld settings server metrics m g := by
  refine ⟨fun r hr x hx => ?_, fun r _ _ _ hSince hBefore => ?_⟩
  · have hAll := h r hr
    rw [hx] at hAll
    exact hAll
  · have hBefore : (r.collectedAt : ℚ) < (m.collectedAt - minutes settings.wholeMinutes : Int) := by
      exact_mod_cast hBefore
    rw [hWhole] at hSince
    unfold minutes seconds at hBefore
    push_cast at hBefore
    linarith

end Held

/-- The turn of a candidate in a pass opens an event only for a card that was held throughout
exactly when its memory was, unless no event is opened anyway. -/
theorem opens_only_if_held_iff (env : Environment) (floatText : ℚ → Text)
    (settings : IdleSettings) (server : Server) (metrics : Table ServerMetric) (m : ServerMetric)
    (events : Table AlertEvent) {front back : List (Gpu ℚ)} {g : Gpu ℚ}
    (hTurn : idleCandidates settings m = front ++ g :: back) :
    let before := beforeTurn env floatText settings server metrics m events front
    let after := idleTurn env floatText settings server metrics m before g
    detectGpuIdle env floatText settings server metrics m events =
        back.foldl (idleTurn env floatText settings server metrics m) after ∧
      ((OpensEvent before after "GPU_IDLE_VRAM_HELD" server.id →
          HeldThroughout settings server metrics m g) ↔
        (openEvent before "GPU_IDLE_VRAM_HELD" server.id (idleKey g)).isSome ∨
        (∃ r ∈ idleWindow settings server metrics m, idleIn g r = false) ∨
        (idleWindow settings server metrics m).length < settings.minSamples ∨
        MemoryHeld settings server metrics m g) := by
  intro before after
  refine ⟨?_, ?_⟩
  · rw [detectGpuIdle, hTurn, List.foldl_append, List.foldl_cons]
    rfl
  · rw [opens_idleTurn_iff]
    by_cases hIdle : ∀ r ∈ idleWindow settings server metrics m, idleIn g r = true
    · have hNone : ¬ ∃ r ∈ idleWindow settings server metrics m, idleIn g r = false := by
        rintro ⟨r, hr, hBusy⟩
        rw [hIdle r hr] at hBusy
        cases hBusy
      rw [heldThroughout_iff hIdle, or_iff_right hNone, ← not_le, ← Option.ne_none_iff_isSome]
      have hAll : (∀ r ∈ idleWindow settings server metrics m, idleIn g r = true) = True :=
        eq_true hIdle
      rw [hAll, true_and]
      tauto
    · have hSome : ∃ r ∈ idleWindow settings server metrics m, idleIn g r = false := by
        push Not at hIdle
        simpa using hIdle
      exact iff_of_true (fun h => absurd h.2.1 hIdle) (.inr (.inl hSome))

/-- A card at a time: idle, with some of its 1000 MB in use. -/
def idleSample (id : Nat) (minute : Int) (used : ℚ) : ServerMetric :=
  { id, serverId := 1, collectedAt := minutes minute
    gpus := [{ index := some 0, uuid := some "GPU-a", memUsedMb := some used
               memTotalMb := some 1000, utilization := some 0 }] }

/-- Samples of half an hour; the memory is in use from the first one on, or in the last only. -/
def idleHistory (used : ℚ) : Table ServerMetric :=
  ⟨[idleSample 1 0 used, idleSample 2 10 used, idleSample 3 20 used, idleSample 4 30 800], by
    change [1, 2, 3, 4].Nodup
    decide⟩

/-- The card of these samples. -/
def idleCard (used : ℚ) : Gpu ℚ :=
  { index := some 0, uuid := some "GPU-a", memUsedMb := some used, memTotalMb := some 1000
    utilization := some 0 }

theorem heldCard_opens : HeldThroughout {} { id := 1 } (idleHistory 800) (idleSample 4 30 800)
    (idleCard 800) := by
  have hTurn : idleCandidates {} (idleSample 4 30 800) = [] ++ idleCard 800 :: [] := by
    decide +kernel
  have hSound := (opens_only_if_held_iff ⟨0, fun _ => true⟩ (fun _ => []) {} { id := 1 }
    (idleHistory 800) (idleSample 4 30 800) Table.empty hTurn).2
  refine hSound.mpr (.inr (.inr (.inr (memoryHeld_of_whole ?_ ?_)))) (opens_idleTurn_iff.mpr ?_)
  · decide +kernel
  · decide +kernel
  · decide +kernel

/-- A card whose memory was taken a moment ago is reported as held for half an hour. -/
theorem recentMemory_opens :
    idleCandidates {} (idleSample 4 30 800) = [] ++ idleCard 800 :: [] ∧
    ¬ (OpensEvent (beforeTurn ⟨0, fun _ => true⟩ (fun _ => []) {} { id := 1 } (idleHistory 0)
          (idleSample 4 30 800) Table.empty [])
        (idleTurn ⟨0, fun _ => true⟩ (fun _ => []) {} { id := 1 } (idleHistory 0)
          (idleSample 4 30 800) (beforeTurn ⟨0, fun _ => true⟩ (fun _ => []) {} { id := 1 }
            (idleHistory 0) (idleSample 4 30 800) Table.empty []) (idleCard 800))
        "GPU_IDLE_VRAM_HELD" 1 →
      HeldThroughout {} { id := 1 } (idleHistory 0) (idleSample 4 30 800) (idleCard 800)) := by
  refine ⟨by decide +kernel, fun hSound => ?_⟩
  have hOpens := hSound (opens_idleTurn_iff.mpr (by decide +kernel))
  obtain ⟨x, hx, -, hHolds⟩ := hOpens (idleSample 1 0 0) List.mem_cons_self rfl rfl (by
    norm_num [idleSample, minutes, seconds])
  have hFirst : sameGpu (idleCard 800) (idleSample 1 0 0) = some (idleCard 0) := by decide +kernel
  rw [hFirst] at hx
  rw [← Option.some.inj hx] at hHolds
  exact absurd hHolds (by decide +kernel)

end GpuMon.Detectors
