import GpuMon.Collector.Counters
import GpuMon.Library.FloatOrder

/-!
# Rates between two snapshots (`ssh_collector._disk_rates`, `_net_rates`)

The script prints `/proc/diskstats` and `/proc/net/dev` twice, and the collector divides the
differences of the counters by the time between, in binary64.

* `disk_rates_bounded`: every difference of a disk is cut off at zero.
* `rates_nonnegative_iff`: the rates of the interfaces are not, so a counter that went back in an
  interface that is reported gives a negative rate.
* `noReset_iff_of_whole`: of whole counters and a short window none may go back at all.
-/

namespace GpuMon.Collector

open PyText PyFloat PyNum

/-! ## Disks -/

structure DiskRate.Bounded (d : DiskRate) : Prop where
  readBps : le 0 d.readBps = true
  writeBps : le 0 d.writeBps = true
  readIops : le 0 d.readIops = true
  writeIops : le 0 d.writeIops = true
  busyPercent : le 0 d.busyPercent = true
  busyPercent_le : le d.busyPercent (finite 100) = true

theorem diskRate_bounded {window : ℚ} (hWindow : 0 < window) {name : Text} {a b : DiskCounters}
    {d : DiskRate} (h : diskRate window name a b = some d) : d.Bounded := by
  simp only [diskRate] at h
  split at h
  · cases h
  · cases h
    have hCut : ∀ x, le 0 (roundDigits 1 (maxOf 0 x)) = true :=
      fun x => le_zero_roundDigits (le_zero_maxOf x)
    have hMs : lt (mul (finite window) (finite 1000)) 0 = false :=
      not_lt_zero_nearest (by positivity)
    have hShare : lt (mul (div (maxOf 0 (sub b.ioMs a.ioMs)) (mul (finite window) (finite 1000)))
        (finite 100)) 0 = false :=
      not_lt_zero_mul (not_lt_zero_div (not_lt_zero_of_le (le_zero_maxOf _)) hMs) (by decide)
    obtain ⟨hLow, hHigh⟩ := minOf_mem (q := 100) (by norm_num) hShare
    refine ⟨hCut _, hCut _, hCut _, hCut _, le_zero_roundDigits hLow, ?_⟩
    exact roundDigits_le (n := 100) (by norm_num) hLow hHigh

/-- Whatever the counters do, the rates of the disks are in their bounds. -/
theorem disk_rates_bounded (d1 d2 : Dict Text DiskCounters) {window : ℚ} (hWindow : 0 < window) :
    ∀ d ∈ diskRates d1 d2 window, d.Bounded := by
  intro d hd
  obtain ⟨name, -, hRate⟩ := List.mem_filterMap.mp hd
  obtain ⟨a, -, hRate⟩ := Option.bind_eq_some_iff.mp hRate
  obtain ⟨b, -, hRate⟩ := Option.bind_eq_some_iff.mp hRate
  exact diskRate_bounded hWindow hRate

/-! ## Interfaces -/

structure NetRate.Nonneg (r : NetRate) : Prop where
  rxBps : le 0 r.rxBps = true
  txBps : le 0 r.txBps = true
  rxErrRate : le 0 r.rxErrRate = true
  rxDropRate : le 0 r.rxDropRate = true
  txErrRate : le 0 r.txErrRate = true
  txDropRate : le 0 r.txDropRate = true

/-- The middle of the two numbers of the format around 1/20, which the rounding of a rate to one
digit hides. -/
def hiddenRate : ℚ := 14411518807585587 / 2 ^ 58

/-- No counter of the interface went back by more than rounding hides. -/
structure NoReset (window : ℚ) (a b : NetCounters) : Prop where
  rxBytes : lt (finite (-(hiddenRate * window))) (sub b.rxBytes a.rxBytes) = true
  txBytes : lt (finite (-(hiddenRate * window))) (sub b.txBytes a.txBytes) = true
  rxErr : le (finite (-(1 / 2000))) (sub b.rxErr a.rxErr) = true
  rxDrop : le (finite (-(1 / 2000))) (sub b.rxDrop a.rxDrop) = true
  txErr : le (finite (-(1 / 2000))) (sub b.txErr a.txErr) = true
  txDrop : le (finite (-(1 / 2000))) (sub b.txDrop a.txDrop) = true

/-- The numbers of the format on either side of -1/20. -/
theorem le_roundBinary_iff_hidden {x : ℚ} : -(1 / 20) ≤ roundBinary x ↔ -hiddenRate < x := by
  have hLower : (7205759403792793 : ℚ) * 2 ^ (-57 : Int) < 1 / 20 := by norm_num
  have hUpper : (1 : ℚ) / 20 < (7205759403792793 + 1) * 2 ^ (-57 : Int) := by norm_num
  have hMiddle : hiddenRate = (7205759403792793 + 1 / 2) * 2 ^ (-57 : Int) := by
    rw [hiddenRate]
    norm_num
  constructor
  · intro h
    by_contra hFar
    have hNext := le_roundBinary_of_middle_le (n := 7205759403792793) (k := -57) (x := -x)
      (by norm_num) (by norm_num) (by norm_num) (by norm_num) (by push_cast; linarith)
    rw [roundBinary_neg] at hNext
    push_cast at hNext
    have hBeyond := hUpper.trans_le hNext
    linarith
  · intro h
    have hNear := roundBinary_le_of_lt_middle (n := 7205759403792793) (k := -57) (x := -x)
      (by norm_num) (by norm_num) (by norm_num) (by push_cast; linarith)
    rw [roundBinary_neg] at hNear
    push_cast at hNear
    have hWithin := hNear.trans_lt hLower
    linarith

/-- A rate is not negative exactly when its difference is above the hidden one. -/
theorem le_zero_rate_iff {window : ℚ} (hWindow : 0 < window) (x : PyFloat) :
    le 0 (roundDigits 1 (divBy window x)) = true ↔
      lt (finite (-(hiddenRate * window))) x = true := by
  have hHidden : 0 < hiddenRate * window := by
    unfold hiddenRate
    positivity
  cases x with
  | nan => exact iff_of_false Bool.false_ne_true Bool.false_ne_true
  | infinite negative =>
    have hSame : divBy window (infinite negative) = infinite negative := by
      rw [divBy, decide_eq_false (not_lt.mpr hWindow.le), Bool.bne_false]
    rw [hSame]
    change le 0 (infinite negative) = true ↔ _
    rw [le_zero_infinite]
    cases negative
    · exact iff_of_true rfl rfl
    · exact iff_of_false (by decide) Bool.false_ne_true
  | finite x =>
    have hLt : lt (finite (-(hiddenRate * window))) (finite x) = true ↔
        -hiddenRate < x / window := by
      rw [lt_div_iff₀ hWindow, neg_mul]
      exact decide_eq_true_iff
    rw [hLt, divBy, nearest]
    have hOne : (1 : ℚ) < overflow := by
      have hUnit : (1 : ℚ) ≤ halfUnit := one_le_pow₀ one_le_two
      rw [overflow_eq]
      linarith
    have hSmall : hiddenRate < 1 := by
      rw [hiddenRate]
      norm_num
    split_ifs with hHigh hLow
    · refine iff_of_true rfl ?_
      have hPos : 0 < hiddenRate := pos_of_mul_pos_left hHidden hWindow.le
      linarith
    · exact iff_of_false Bool.false_ne_true (by linarith)
    · rw [le_zero_roundDigits_iff (by norm_num), ← le_roundBinary_iff_hidden]
      constructor <;> intro h <;> linarith

theorem le_zero_difference_iff (x : PyFloat) :
    le 0 (roundDigits 3 x) = true ↔ le (finite (-(1 / 2000))) x = true := by
  cases x with
  | nan => exact Iff.rfl
  | infinite negative => cases negative <;> decide
  | finite x =>
    rw [le_zero_roundDigits_iff (by norm_num), le_finite_finite]
    constructor <;> intro h <;> linarith

theorem netRate_nonneg_iff {window : ℚ} (hWindow : 0 < window) (iface : Text) (a b : NetCounters)
    (link : Link) : (netRate window iface a b link).Nonneg ↔ NoReset window a b := by
  constructor
  · rintro ⟨hRx, hTx, hRxErr, hRxDrop, hTxErr, hTxDrop⟩
    exact ⟨(le_zero_rate_iff hWindow _).mp hRx, (le_zero_rate_iff hWindow _).mp hTx,
      (le_zero_difference_iff _).mp hRxErr, (le_zero_difference_iff _).mp hRxDrop,
      (le_zero_difference_iff _).mp hTxErr, (le_zero_difference_iff _).mp hTxDrop⟩
  · rintro ⟨hRx, hTx, hRxErr, hRxDrop, hTxErr, hTxDrop⟩
    exact ⟨(le_zero_rate_iff hWindow _).mpr hRx, (le_zero_rate_iff hWindow _).mpr hTx,
      (le_zero_difference_iff _).mpr hRxErr, (le_zero_difference_iff _).mpr hRxDrop,
      (le_zero_difference_iff _).mpr hTxErr, (le_zero_difference_iff _).mpr hTxDrop⟩

variable {n1 n2 : Dict Text NetCounters} {window : ℚ} {link : Dict Text Link}

/-- The entries are those of the interfaces of both snapshots that are not idle. -/
theorem mem_netRates {r : NetRate} : r ∈ netRates n1 n2 window link ↔
    ∃ iface a b, n1.get? iface = some a ∧ n2.get? iface = some b ∧ isIdle window a b = false ∧
      r = netRate window iface a b ((link.get? iface).getD {}) := by
  simp only [netRates, List.mem_filterMap, List.mem_insertionSort, Dict.mem_keys_iff,
    Option.bind_eq_bind, Option.bind_eq_some_iff]
  constructor
  · rintro ⟨iface, -, a, ha, b, hb, hRate⟩
    split at hRate
    · cases hRate
    · rename_i hBusy
      cases hRate
      exact ⟨iface, a, b, ha, hb, Bool.eq_false_of_not_eq_true hBusy, rfl⟩
  · rintro ⟨iface, a, b, ha, hb, hBusy, rfl⟩
    exact ⟨iface, by simp [hb], a, ha, b, hb, by rw [if_neg (by simp [hBusy])]⟩

/-- Rates and sums are in their bounds exactly without a reset in an interface that is reported. -/
theorem rates_nonnegative_iff (d1 d2 : Dict Text DiskCounters) (n1 n2 : Dict Text NetCounters)
    (link : Dict Text Link) {window : ℚ} (hWindow : 0 < window) :
    ((∀ d ∈ diskRates d1 d2 window, d.Bounded) ∧
      (∀ r ∈ netRates n1 n2 window link, r.Nonneg) ∧
      le 0 (netRxBytes (netRates n1 n2 window link)) = true ∧
      le 0 (netTxBytes (netRates n1 n2 window link)) = true) ↔
    ∀ iface a b, n1.get? iface = some a → n2.get? iface = some b → isIdle window a b = false →
      NoReset window a b := by
  constructor
  · rintro ⟨-, hNet, -⟩ iface a b ha hb hBusy
    exact (netRate_nonneg_iff hWindow iface a b _).mp
      (hNet _ (mem_netRates.mpr ⟨iface, a, b, ha, hb, hBusy, rfl⟩))
  · intro hNoReset
    have hNet : ∀ r ∈ netRates n1 n2 window link, r.Nonneg := by
      intro r hr
      obtain ⟨iface, a, b, ha, hb, hBusy, rfl⟩ := mem_netRates.mp hr
      exact (netRate_nonneg_iff hWindow iface a b _).mpr (hNoReset iface a b ha hb hBusy)
    have hTerms : ∀ r ∈ netRates n1 n2 window link, IsTerm r.rxBps ∧ IsTerm r.txBps := by
      intro r hr
      obtain ⟨hRx, hTx, -⟩ := hNet r hr
      obtain ⟨iface, a, b, -, -, -, rfl⟩ := mem_netRates.mp hr
      exact ⟨isTerm_roundDigits hRx, isTerm_roundDigits hTx⟩
    refine ⟨disk_rates_bounded d1 d2 hWindow, hNet, ?_, ?_⟩
    · exact le_zero_sum (List.forall_mem_map.mpr fun r hr => (hTerms r hr).1)
    · exact le_zero_sum (List.forall_mem_map.mpr fun r hr => (hTerms r hr).2)

/-! ## Whole counters -/

/-- The counters of an interface are whole numbers. -/
structure NetCounters.Whole (c : NetCounters) : Prop where
  rxBytes : ∃ n : Int, c.rxBytes = finite n
  txBytes : ∃ n : Int, c.txBytes = finite n
  rxErr : ∃ n : Int, c.rxErr = finite n
  rxDrop : ∃ n : Int, c.rxDrop = finite n
  txErr : ∃ n : Int, c.txErr = finite n
  txDrop : ∃ n : Int, c.txDrop = finite n

/-- No counter went back. -/
structure NotBack (a b : NetCounters) : Prop where
  rxBytes : le a.rxBytes b.rxBytes = true
  txBytes : le a.txBytes b.txBytes = true
  rxErr : le a.rxErr b.rxErr = true
  rxDrop : le a.rxDrop b.rxDrop = true
  txErr : le a.txErr b.txErr = true
  txDrop : le a.txDrop b.txDrop = true

/-- The difference of whole numbers is not hidden: it is zero, or one at least. -/
theorem difference_iff_of_whole {x y : PyFloat} (hx : ∃ n : Int, x = finite n)
    (hy : ∃ n : Int, y = finite n) {limit : ℚ} (hPos : 0 < limit) (hOne : limit < 1) :
    (lt (finite (-limit)) (sub y x) = true ↔ le x y = true) ∧
      (le (finite (-limit)) (sub y x) = true ↔ le x y = true) := by
  obtain ⟨m, rfl⟩ := hx
  obtain ⟨n, rfl⟩ := hy
  have hSub : sub (finite n) (finite m) = nearest ((n : ℚ) + -m) := rfl
  rw [hSub, le_finite_finite]
  rcases le_or_gt m n with hmn | hnm
  · have hCast : (m : ℚ) ≤ n := by exact_mod_cast hmn
    rcases isTerm_nearest (x := (n : ℚ) + -m) (by linarith) with hInfinite | ⟨r, hFinite, hr, -⟩
    · rw [hInfinite]
      exact ⟨iff_of_true rfl hCast, iff_of_true rfl hCast⟩
    · rw [hFinite, le_finite_finite]
      exact ⟨iff_of_true (decide_eq_true (by linarith)) hCast, iff_of_true (by linarith) hCast⟩
  · have hCast : ((n + 1 : Int) : ℚ) ≤ m := by exact_mod_cast hnm
    push_cast at hCast
    have hBack : ¬ (m : ℚ) ≤ n := by linarith
    have hOverflow := overflow_pos
    unfold nearest
    split_ifs with hHigh hLow
    · exact absurd hHigh (by linarith)
    · exact ⟨iff_of_false Bool.false_ne_true hBack, iff_of_false Bool.false_ne_true hBack⟩
    · have hUnit : InFormat (-1) := by
        have hInteger := inFormat_intCast (n := -1) (by norm_num)
        rwa [Int.cast_neg, Int.cast_one] at hInteger
      have hRound := roundBinary_le (x := (n : ℚ) + -m) hUnit (by linarith)
      rw [le_finite_finite]
      refine ⟨iff_of_false ?_ hBack, iff_of_false (by linarith) hBack⟩
      exact fun hLt => absurd (of_decide_eq_true hLt) (by linarith)

/-- Of whole counters and a window of at most 20 seconds none may go back at all. -/
theorem noReset_iff_of_whole {a b : NetCounters} (hWindow : 0 < window) (hShort : window ≤ 20)
    (ha : a.Whole) (hb : b.Whole) : NoReset window a b ↔ NotBack a b := by
  have hRate : 0 < hiddenRate * window ∧ hiddenRate * window < 1 := by
    constructor
    · unfold hiddenRate
      positivity
    · have hLess : hiddenRate * 20 < 1 := by
        rw [hiddenRate]
        norm_num
      refine lt_of_le_of_lt (mul_le_mul_of_nonneg_left hShort ?_) hLess
      unfold hiddenRate
      positivity
  have hBytes : ∀ x y : PyFloat, (∃ n : Int, x = finite n) → (∃ n : Int, y = finite n) →
      (lt (finite (-(hiddenRate * window))) (sub y x) = true ↔ le x y = true) :=
    fun x y hx hy => (difference_iff_of_whole hx hy hRate.1 hRate.2).1
  have hCount : ∀ x y : PyFloat, (∃ n : Int, x = finite n) → (∃ n : Int, y = finite n) →
      (le (finite (-(1 / 2000))) (sub y x) = true ↔ le x y = true) :=
    fun x y hx hy => (difference_iff_of_whole hx hy (by norm_num) (by norm_num)).2
  constructor
  · rintro ⟨hRx, hTx, hRxErr, hRxDrop, hTxErr, hTxDrop⟩
    exact ⟨(hBytes _ _ ha.rxBytes hb.rxBytes).mp hRx, (hBytes _ _ ha.txBytes hb.txBytes).mp hTx,
      (hCount _ _ ha.rxErr hb.rxErr).mp hRxErr, (hCount _ _ ha.rxDrop hb.rxDrop).mp hRxDrop,
      (hCount _ _ ha.txErr hb.txErr).mp hTxErr, (hCount _ _ ha.txDrop hb.txDrop).mp hTxDrop⟩
  · rintro ⟨hRx, hTx, hRxErr, hRxDrop, hTxErr, hTxDrop⟩
    exact ⟨(hBytes _ _ ha.rxBytes hb.rxBytes).mpr hRx, (hBytes _ _ ha.txBytes hb.txBytes).mpr hTx,
      (hCount _ _ ha.rxErr hb.rxErr).mpr hRxErr, (hCount _ _ ha.rxDrop hb.rxDrop).mpr hRxDrop,
      (hCount _ _ ha.txErr hb.txErr).mpr hTxErr, (hCount _ _ ha.txDrop hb.txDrop).mpr hTxDrop⟩

/-! ## A reset -/

/-- An interface with the given bytes and no errors. -/
def quietCounters (rxBytes txBytes : ℚ) : NetCounters :=
  ⟨finite rxBytes, 0, 0, finite txBytes, 0, 0⟩

/-- The counters began again at zero, and the interface received and sent since. -/
def beforeReset : Dict Text NetCounters := .ofList [("eth0", quietCounters 9000 7000)]

def afterReset : Dict Text NetCounters := .ofList [("eth0", quietCounters 200 7600)]

theorem rates_nonnegative_iff_reset :
    ¬∀ iface a b, beforeReset.get? iface = some a → afterReset.get? iface = some b →
      isIdle 1 a b = false → NoReset 1 a b := by
  intro hNoReset
  have hSum : le 0 (netRxBytes (netRates beforeReset afterReset 1 .empty)) = false := by
    decide +kernel
  have hBounds := (rates_nonnegative_iff .empty .empty _ _ .empty one_pos).mpr hNoReset
  exact Bool.false_ne_true (hSum.symm.trans hBounds.2.2.1)

/-- The sent bytes let the interface through, and the received ones give a negative rate. -/
theorem reset_rate_negative :
    (netRates beforeReset afterReset 1 .empty).map (fun r => (r.rxBps, r.txBps)) =
        [(finite (-8800), finite 600)] ∧
      netRxBytes (netRates beforeReset afterReset 1 .empty) = finite (-8800) := by
  decide +kernel

/-- A counter that went back by one, in a window of twenty seconds. -/
example : (netRates (.ofList [("eth0", quietCounters 10 0)])
    (.ofList [("eth0", quietCounters 9 10000)]) 20 .empty).map (fun r => lt r.rxBps 0) = [true] := by
  decide +kernel

end GpuMon.Collector
