import GpuMon.Alerts.Notices
import GpuMon.Detectors.IpmiSections
import GpuMon.Kernel.Store

/-!
# Events made of records (`_detect_kernel_events`, `_store_ipmi`)

A pass of the detectors reads the kernel events that were stored in the last ten minutes, an
out-of-band cycle the last three critical entries of a system event log. Both read a record many
times, and only an event that is open keeps them from opening another one.

* `ids_raiseAll`: what a series of alerts opens, and nothing else, is new in the table.
* `record_opens_once`: in a run in which each record that is read again has its event open, each
  record has opened one event at most.
* `resolved_event_reopened`: an event that an operator has resolved is opened again.
-/

namespace GpuMon.Detectors

open PyText Kernel

/-! ## Records and their alerts -/

/-- A stored kernel event, or an entry of the event log of a BMC. -/
inductive Source
  | kernel (serverId : Nat) (dedupHash : Text)
  | sel (serverId : Nat) (entry : SelRow)
  deriving DecidableEq

/-- The arguments of `_fire` for a record. -/
structure RecordAlert where
  source : Source
  detector : Text
  message : Text
  value : ℚ := 0
  key : Text

def raiseAlert (env : Environment) (serverId : Nat) (serverName : Text) (events : Table AlertEvent)
    (a : RecordAlert) : Table AlertEvent :=
  fire env events a.detector serverId serverName a.message a.value 0 a.key

/-- `f"GPU {ev.gpu_uuid or '?'} Xid {ev.xid}: {ev.message[:120]}"`. -/
def xidMessage (r : KernelEventRow) : Text :=
  "GPU ".toList ++ (if r.gpuUuid = [] then "?".toList else r.gpuUuid) ++ " Xid ".toList ++
    natText r.xid ++ ": ".toList ++ r.message.take 120

/-- The alert of a kernel event; the other kinds have none. -/
def kernelAlert (r : KernelEventRow) : Option RecordAlert :=
  let source := Source.kernel r.serverId r.dedupHash
  let key := r.dedupHash.take 16
  match r.eventType with
  | .gpuXid =>
    some { source, detector := "GPU_XID", message := xidMessage r, value := r.xid, key }
  | .oomKill => some { source, detector := "OOM_KILL", message := r.message.take 160, key }
  | .mceHardwareError =>
    some { source, detector := "MCE_HARDWARE_ERROR", message := r.message.take 160, key }
  | .pcieAer => some { source, detector := "PCIE_AER", message := r.message.take 160, key }
  | _ => none

/-- The query of `_detect_kernel_events`. -/
def recentRows (kernel : KernelEvents) (serverId : Nat) (since : Int) : List KernelEventRow :=
  kernel.rows.filter fun r => r.serverId = serverId && since ≤ r.collectedAt

/-- The alerts of the kernel events of a pass. -/
def kernelAlerts (kernel : KernelEvents) (serverId : Nat) (since : Int) : List RecordAlert :=
  (recentRows kernel serverId since).filterMap kernelAlert

/-- `_detect_kernel_events`. -/
def detectKernelEvents (env : Environment) (server : Server) (kernel : KernelEvents) (since : Int)
    (events : Table AlertEvent) : Table AlertEvent :=
  (kernelAlerts kernel server.id since).foldl (raiseAlert env server.id server.name) events

/-- The window of `run_detectors`. -/
def kernelWindow : Int := minutes 10

/-- `e in s["sel_critical"]`. -/
def SelRow.critical (e : SelRow) : Bool := mentions criticalWords (e.event.getD [])

/-- The entries of the event log that a cycle raises. -/
def tailEntries (report : IpmiReport) : List SelRow :=
  let critical := report.sel.filter SelRow.critical
  critical.drop (critical.length - 3)

def selAlert (serverId : Nat) (e : SelRow) : RecordAlert where
  source := .sel serverId e
  detector := "SEL_CRITICAL"
  message := (e.event.getD []).take 200
  key := selKey e.toSelEntry

/-- The alerts of the event log in a cycle; there are none when the BMC was not reached or the
row is not stored. -/
def selAlerts (serverId : Nat) (report : IpmiReport) : List RecordAlert :=
  if report.ok && (storedSummary report.result).isSome then
    (tailEntries report).map (selAlert serverId)
  else []

/-! ## A series of alerts -/

/-- The records that a series of alerts opens events for, with the ids of the events. -/
def newOpenings (env : Environment) (serverId : Nat) (serverName : Text) :
    Table AlertEvent → List RecordAlert → List (Source × Nat)
  | _, [] => []
  | events, a :: rest =>
    let later := newOpenings env serverId serverName (raiseAlert env serverId serverName events a) rest
    if (openEvent events a.detector serverId a.key).isSome then later
    else (a.source, events.nextKey) :: later

section Series

variable {env : Environment} {serverId : Nat} {serverName : Text} {events : Table AlertEvent}

/-- What a series of alerts opens, and nothing else, is new in the table. -/
theorem ids_raiseAll (alerts : List RecordAlert) :
    (alerts.foldl (raiseAlert env serverId serverName) events).rows.map AlertEvent.id =
      events.rows.map AlertEvent.id ++
        (newOpenings env serverId serverName events alerts).map Prod.snd := by
  induction alerts generalizing events with
  | nil => exact (List.append_nil _).symm
  | cons a rest ih =>
    rw [List.foldl_cons, ih, newOpenings]
    cases hFound : openEvent events a.detector serverId a.key with
    | some ev =>
      have hSame : raiseAlert env serverId serverName events a = events := by
        unfold raiseAlert fire
        rw [hFound]
      rw [hSame]
      rfl
    | none =>
      have hNew : (raiseAlert env serverId serverName events a).rows.map AlertEvent.id =
          events.rows.map AlertEvent.id ++ [events.nextKey] := by
        unfold raiseAlert fire
        rw [hFound]
        exact List.map_append
      rw [hNew, List.append_assoc]
      rfl

/-- An alert leaves what was found open. -/
theorem openEvent_raise_of_isSome {detector key : Text} {a : RecordAlert}
    (h : (openEvent events detector serverId key).isSome = true) :
    (openEvent (raiseAlert env serverId serverName events a) detector serverId key).isSome =
      true := by
  rw [openEvent_isSome_iff] at h ⊢
  unfold raiseAlert
  by_cases hDetector : detector = a.detector
  · subst hDetector
    rw [openTexts_fire]
    unfold fireText
    split
    · exact h
    · rw [List.any_append, h]
      rfl
  · rw [openTexts_fire_of_ne (.inl hDetector)]
    exact h

/-- After an alert an event with its key is open. -/
theorem openEvent_raise_self (a : RecordAlert) :
    (openEvent (raiseAlert env serverId serverName events a) a.detector serverId a.key).isSome =
      true := by
  rw [openEvent_isSome_iff]
  unfold raiseAlert
  rw [openTexts_fire]
  unfold fireText
  split
  · assumption
  · rw [List.any_append]
    simp [matchesKey_self]

/-- What is opened was not found open before the series. -/
theorem exists_of_mem_newOpenings {o : Source × Nat} {alerts : List RecordAlert}
    (h : o ∈ newOpenings env serverId serverName events alerts) :
    ∃ a ∈ alerts, a.source = o.1 ∧
      (openEvent events a.detector serverId a.key).isSome = false := by
  induction alerts generalizing events with
  | nil => cases h
  | cons a rest ih =>
    have hRest : o ∈ newOpenings env serverId serverName (raiseAlert env serverId serverName events a)
        rest → ∃ b ∈ a :: rest, b.source = o.1 ∧
          (openEvent events b.detector serverId b.key).isSome = false := by
      intro hMem
      obtain ⟨b, hb, hSource, hNone⟩ := ih hMem
      refine ⟨b, List.mem_cons_of_mem a hb, hSource, ?_⟩
      rw [Bool.eq_false_iff] at hNone ⊢
      exact fun hSome => hNone (openEvent_raise_of_isSome hSome)
    unfold newOpenings at h
    split at h
    · exact hRest h
    · rename_i hNone
      rcases List.mem_cons.mp h with rfl | hMem
      · exact ⟨a, List.mem_cons_self, rfl, Bool.eq_false_iff.mpr hNone⟩
      · exact hRest hMem

/-- A series opens one event for a record at most. -/
theorem nodup_newOpenings {alerts : List RecordAlert}
    (hSame : ∀ a ∈ alerts, ∀ b ∈ alerts, a.source = b.source →
      a.detector = b.detector ∧ a.key = b.key) :
    ((newOpenings env serverId serverName events alerts).map Prod.fst).Nodup := by
  induction alerts generalizing events with
  | nil => exact List.nodup_nil
  | cons a rest ih =>
    have hRest : ((newOpenings env serverId serverName
        (raiseAlert env serverId serverName events a) rest).map Prod.fst).Nodup :=
      ih fun b hb c hc => hSame b (List.mem_cons_of_mem a hb) c (List.mem_cons_of_mem a hc)
    unfold newOpenings
    split
    · exact hRest
    · refine List.nodup_cons.mpr ⟨?_, hRest⟩
      intro hMem
      obtain ⟨o, ho, hSource⟩ := List.mem_map.mp hMem
      obtain ⟨b, hb, hSource', hNone⟩ := exists_of_mem_newOpenings ho
      -- a later alert of the record finds the event just opened
      obtain ⟨hDetector, hKey⟩ := hSame b (List.mem_cons_of_mem a hb) a List.mem_cons_self
        (hSource'.trans hSource)
      rw [hDetector, hKey, openEvent_raise_self] at hNone
      cases hNone

end Series

/-! ## An out-of-band cycle -/

/-- The events of a cycle in front of those of the event log. -/
def suppliedEvents (events : Table AlertEvent) (c : IpmiCycle) : Table AlertEvent :=
  (psuBad (c.result.sensors.getD [])).foldl (firePsu c.env c.serverId c.serverName)
    (chassisEvents c.env c.serverId c.serverName (powerOn c.result.chassis)
      (reachableEvents events c))

section Cycle

variable {env : Environment} {serverId : Nat} {serverName : Text} {events : Table AlertEvent}
  {report : IpmiReport}

theorem openEvent_suppliedEvents (events : Table AlertEvent) (c : IpmiCycle) (key : Text) :
    openEvent (suppliedEvents events c) "SEL_CRITICAL" c.serverId key =
      openEvent events "SEL_CRITICAL" c.serverId key := by
  have hPsu : ∀ events psu, openRows (firePsu c.env c.serverId c.serverName events psu)
      "SEL_CRITICAL" c.serverId = openRows events "SEL_CRITICAL" c.serverId :=
    fun events psu => openRows_fire_of_ne (.inl (by decide))
  have hChassis : openRows (chassisEvents c.env c.serverId c.serverName (powerOn c.result.chassis)
      (reachableEvents events c)) "SEL_CRITICAL" c.serverId =
      openRows (reachableEvents events c) "SEL_CRITICAL" c.serverId := by
    unfold chassisEvents
    split
    · exact openRows_recover_of_ne (.inl (by decide))
    · exact openRows_fire_of_ne (.inl (by decide))
  refine openEvent_congr ?_
  unfold suppliedEvents
  rw [openRows_foldl_of_ne hPsu, hChassis]
  exact openRows_recover_of_ne (.inl (by decide))

/-- The entries that `summarize` takes for critical. -/
theorem critical_result : (report.result.sel.filter fun e => mentions criticalWords (e.event.getD []))
    = (report.sel.filter SelRow.critical).map SelRow.toSelEntry := by
  unfold IpmiReport.result
  rw [List.filter_map]
  rfl

/-- A cycle that raises the entries of the event log ends with them. -/
theorem afterCycle_eq (hOk : report.ok = true)
    (hStored : (storedSummary report.result).isSome = true) :
    afterCycle events ⟨env, serverId, serverName, report.result⟩ =
      ((tailEntries report).map (selAlert serverId)).foldl (raiseAlert env serverId serverName)
        (suppliedEvents events ⟨env, serverId, serverName, report.result⟩) := by
  obtain ⟨s, hSome⟩ := Option.isSome_iff_exists.mp hStored
  obtain ⟨watts, -, rfl⟩ := Option.map_eq_some_iff.mp (summarize_of_stored hSome)
  have hReportOk : report.result.ok = true := hOk
  unfold afterCycle storeIpmi
  rw [hSome, Option.map_some, Option.getD_some, hReportOk]
  simp only [Bool.not_true, Bool.false_eq_true, if_false]
  rw [critical_result, List.length_map, ← List.map_drop, List.foldl_map, List.foldl_map]
  rfl

end Cycle

/-! ## Runs -/

/-- The stored kernel events, the alert events, and the event that each record has opened. -/
structure RecordState where
  kernel : KernelEvents
  events : Table AlertEvent
  openings : List (Source × Nat) := []

inductive RecordAction
  | poll (now : Int) (serverId : Nat) (bootId : Text) (kernelEvents : List KernelEvent)
  | pass (env : Environment) (server : Server)
  | ipmi (env : Environment) (serverId : Nat) (serverName : Text) (report : IpmiReport)
  | notice (action : Notifier.NoticeAction)

/-- The alerts of the records that a pass reads. -/
def passAlerts (s : RecordState) (env : Environment) (server : Server) : List RecordAlert :=
  kernelAlerts s.kernel server.id (env.now - kernelWindow)

def recordNext (digest : Text → Text) (hooks : Notifier.Webhooks) (s : RecordState) :
    RecordAction → RecordState
  | .poll now serverId bootId kernelEvents =>
    { s with kernel := storeKernelEvents digest now serverId bootId kernelEvents s.kernel }
  | .pass env server =>
    { s with
      events := detectKernelEvents env server s.kernel (env.now - kernelWindow) s.events
      openings := s.openings ++
        newOpenings env server.id server.name s.events (passAlerts s env server) }
  | .ipmi env serverId serverName report =>
    let c : IpmiCycle := ⟨env, serverId, serverName, report.result⟩
    { s with
      events := afterCycle s.events c
      openings := s.openings ++
        newOpenings env serverId serverName (suppliedEvents s.events c) (selAlerts serverId report) }
  | .notice action => { s with events := Notifier.eventsAfter hooks s.events action }

def recordStep (digest : Text → Text) (hooks : Notifier.Webhooks) (s : RecordState)
    (a : RecordAction) : Option RecordState :=
  some (recordNext digest hooks s a)

/-- A run begins before anything is opened. -/
def RecordStart (s : RecordState) : Prop := s.openings = []

/-- Each of the records that has opened an event has one open that is found by its key. -/
def StillOpen (s : RecordState) (serverId : Nat) (alerts : List RecordAlert) : Prop :=
  ∀ a ∈ alerts, a.source ∈ s.openings.map Prod.fst →
    (openEvent s.events a.detector serverId a.key).isSome = true

/-- A record is read again only while its event is open. -/
def RereadsOpen (s : RecordState) : RecordAction → Prop
  | .pass env server => StillOpen s server.id (passAlerts s env server)
  | .ipmi _ serverId _ report => StillOpen s serverId (selAlerts serverId report)
  | _ => True

instance (s : RecordState) (serverId : Nat) (alerts : List RecordAlert) :
    Decidable (StillOpen s serverId alerts) := by
  unfold StillOpen
  exact List.decidableBAll _ _

instance (s : RecordState) (a : RecordAction) : Decidable (RereadsOpen s a) := by
  cases a <;> unfold RereadsOpen <;> infer_instance

/-- Two alerts of a pass about one record are the same: the table has one row of a digest. -/
theorem alert_eq_of_source {kernel : KernelEvents} {serverId : Nat} {since : Int}
    {a b : RecordAlert} (ha : a ∈ kernelAlerts kernel serverId since)
    (hb : b ∈ kernelAlerts kernel serverId since) (hSource : a.source = b.source) : a = b := by
  have hRow : ∀ r : KernelEventRow, ∀ x ∈ kernelAlert r,
      x.source = .kernel r.serverId r.dedupHash := by
    intro r x hx
    unfold kernelAlert at hx
    dsimp only at hx
    split at hx <;> cases hx <;> rfl
  obtain ⟨r, hr, hAlert⟩ := List.mem_filterMap.mp ha
  obtain ⟨r', hr', hAlert'⟩ := List.mem_filterMap.mp hb
  rw [hRow r a hAlert, hRow r' b hAlert'] at hSource
  obtain ⟨hServer, hHash⟩ := Source.kernel.inj hSource
  have hSame : r = r' := List.inj_on_of_nodup_map kernel.unique (List.mem_filter.mp hr).1
    (List.mem_filter.mp hr').1 (Prod.ext hServer hHash)
  rw [hSame, hAlert'] at hAlert
  exact (Option.some.inj hAlert).symm

theorem selAlert_of_mem {serverId : Nat} {report : IpmiReport} {a : RecordAlert}
    (h : a ∈ selAlerts serverId report) : ∃ e, a = selAlert serverId e := by
  unfold selAlerts at h
  split at h
  · obtain ⟨e, -, rfl⟩ := List.mem_map.mp h
    exact ⟨e, rfl⟩
  · cases h

/-- One event at most was opened for each record. -/
def OpenedOnce (s : RecordState) : Prop := (s.openings.map Prod.fst).Nodup

/-- A series that reads records again only while their events are open keeps the records apart. -/
theorem nodup_append_newOpenings {s : RecordState} {env : Environment} {serverId : Nat}
    {serverName : Text} {events : Table AlertEvent} {alerts : List RecordAlert}
    (hOnce : OpenedOnce s)
    (hSame : ∀ a ∈ alerts, ∀ b ∈ alerts, a.source = b.source →
      a.detector = b.detector ∧ a.key = b.key)
    (hOpen : StillOpen s serverId alerts)
    (hFrame : ∀ a ∈ alerts, openEvent events a.detector serverId a.key =
      openEvent s.events a.detector serverId a.key) :
    ((s.openings ++ newOpenings env serverId serverName events alerts).map Prod.fst).Nodup := by
  rw [List.map_append, List.nodup_append]
  refine ⟨hOnce, nodup_newOpenings hSame, ?_⟩
  rintro source hOld _ hNew rfl
  obtain ⟨o, ho, rfl⟩ := List.mem_map.mp hNew
  obtain ⟨a, ha, hSource, hNone⟩ := exists_of_mem_newOpenings ho
  rw [hFrame a ha, hOpen a ha (hSource ▸ hOld)] at hNone
  cases hNone

theorem openedOnce_step {digest : Text → Text} {hooks : Notifier.Webhooks} {s : RecordState}
    {a : RecordAction} (hOnce : OpenedOnce s) (hOpen : RereadsOpen s a) :
    OpenedOnce (recordNext digest hooks s a) := by
  cases a with
  | poll now serverId bootId kernelEvents => exact hOnce
  | notice action => exact hOnce
  | pass env server =>
    refine nodup_append_newOpenings hOnce ?_ hOpen fun a _ => rfl
    intro a ha b hb hSource
    rw [alert_eq_of_source ha hb hSource]
    exact ⟨rfl, rfl⟩
  | ipmi env serverId serverName report =>
    refine nodup_append_newOpenings hOnce ?_ hOpen ?_
    · intro a ha b hb hSource
      obtain ⟨e, rfl⟩ := selAlert_of_mem ha
      obtain ⟨e', rfl⟩ := selAlert_of_mem hb
      obtain ⟨-, rfl⟩ := Source.sel.inj hSource
      exact ⟨rfl, rfl⟩
    · intro a ha
      obtain ⟨e, rfl⟩ := selAlert_of_mem ha
      exact openEvent_suppliedEvents s.events ⟨env, serverId, serverName, report.result⟩ _

/-! ## What the openings are -/

def eventIds (events : Table AlertEvent) : List Nat := events.rows.map AlertEvent.id

theorem nodup_eventIds (events : Table AlertEvent) : (eventIds events).Nodup := events.keysNodup

section Ids

variable {env : Environment} {events : Table AlertEvent} {detector serverName message key : Text}
  {serverId : Nat} {value threshold : ℚ}

theorem eventIds_map {f : AlertEvent → AlertEvent}
    {hKey : ∀ ev, Keyed.key (f ev) = Keyed.key ev} :
    eventIds (events.map f hKey) = eventIds events := by
  change (events.rows.map f).map AlertEvent.id = events.rows.map AlertEvent.id
  rw [List.map_map]
  exact List.map_congr_left fun ev _ => hKey ev

theorem eventIds_fire : eventIds events ⊆
    eventIds (fire env events detector serverId serverName message value threshold key) := by
  intro id hid
  obtain ⟨ev, hev, rfl⟩ := List.mem_map.mp hid
  exact List.mem_map_of_mem (mem_fire_of_mem hev)

theorem eventIds_recover : eventIds (recover env events detector serverId key) = eventIds events := by
  unfold recover
  split
  · rfl
  · exact eventIds_map

theorem eventIds_effect {hooks : Notifier.Webhooks} {ledger : Notifier.Ledger}
    {after : Table AlertEvent} {posts : List Notifier.Post} {closed : List AlertEvent}
    (h : Notifier.Effect hooks ledger after posts closed) :
    eventIds ledger.events ⊆ eventIds after := by
  cases h with
  | opened hKey send =>
    intro id hid
    obtain ⟨ev, hev, rfl⟩ := List.mem_map.mp hid
    exact List.mem_map_of_mem (Table.mem_insert.mpr (.inl hev))
  | settled hKey _ _ _ _ =>
    rw [eventIds_map]
    exact List.Subset.refl _

theorem eventIds_notice (hooks : Notifier.Webhooks) (action : Notifier.NoticeAction) :
    eventIds events ⊆ eventIds (Notifier.eventsAfter hooks events action) := by
  have hEffect : Notifier.Effect hooks ⟨events, [], []⟩ (Notifier.eventsAfter hooks events action)
      (Notifier.newPosts hooks ⟨events, [], []⟩ action)
      (Notifier.closedBy ⟨events, [], []⟩ action) := Notifier.noticeStep_effect action
  exact eventIds_effect hEffect

theorem eventIds_suppliedEvents (c : IpmiCycle) :
    eventIds events ⊆ eventIds (suppliedEvents events c) := by
  have hPsus : ∀ (psus : List Text) (start : Table AlertEvent),
      eventIds start ⊆ eventIds (psus.foldl (firePsu c.env c.serverId c.serverName) start) := by
    intro psus
    induction psus with
    | nil => exact fun _ => List.Subset.refl _
    | cons psu psus ih => exact fun start => List.Subset.trans eventIds_fire (ih _)
  refine List.Subset.trans ?_ (hPsus _ _)
  unfold chassisEvents
  split
  · rw [eventIds_recover, reachableEvents, eventIds_recover]
    exact List.Subset.refl _
  · refine List.Subset.trans ?_ eventIds_fire
    rw [reachableEvents, eventIds_recover]
    exact List.Subset.refl _

/-- A cycle that raises no entry of the event log. -/
theorem eventIds_afterCycle {report : IpmiReport}
    (hUnread : ¬ (report.ok = true ∧ (storedSummary report.result).isSome = true)) :
    eventIds events ⊆ eventIds (afterCycle events ⟨env, serverId, serverName, report.result⟩) := by
  unfold afterCycle storeIpmi
  cases hStored : storedSummary report.result with
  | none => exact List.Subset.refl _
  | some s =>
    have hOk : report.result.ok = false :=
      Bool.eq_false_iff.mpr fun hOk => hUnread ⟨hOk, by rw [hStored]; rfl⟩
    rw [Option.map_some, Option.getD_some, hOk]
    exact eventIds_fire

end Ids

/-- The openings stand for different events of the table. -/
structure OpeningsStored (s : RecordState) : Prop where
  stored : s.openings.map Prod.snd ⊆ eventIds s.events
  apart : (s.openings.map Prod.snd).Nodup

/-- A step that adds a series of alerts to events that still have their ids. -/
theorem openingsStored_raiseAll {s : RecordState} {env : Environment} {serverId : Nat}
    {serverName : Text} {events : Table AlertEvent} {alerts : List RecordAlert}
    (hStored : OpeningsStored s) (hKept : eventIds s.events ⊆ eventIds events) :
    OpeningsStored
      { s with
        events := alerts.foldl (raiseAlert env serverId serverName) events
        openings := s.openings ++ newOpenings env serverId serverName events alerts } := by
  have hIds : eventIds (alerts.foldl (raiseAlert env serverId serverName) events) =
      eventIds events ++ (newOpenings env serverId serverName events alerts).map Prod.snd :=
    ids_raiseAll alerts
  have hNodup := nodup_eventIds (alerts.foldl (raiseAlert env serverId serverName) events)
  rw [hIds, List.nodup_append] at hNodup
  obtain ⟨-, hNew, hApart⟩ := hNodup
  have hOld : ∀ id ∈ s.openings.map Prod.snd, id ∈ eventIds events :=
    fun id hid => hKept (hStored.stored hid)
  constructor
  · rw [hIds, List.map_append]
    intro id hid
    rcases List.mem_append.mp hid with h | h
    · exact List.mem_append_left _ (hOld id h)
    · exact List.mem_append_right _ h
  · rw [List.map_append, List.nodup_append]
    exact ⟨hStored.apart, hNew, fun id hid => hApart id (hOld id hid)⟩

/-- In every run the openings stand for different events. -/
theorem openingsStored_of_reach (digest : Text → Text) (hooks : Notifier.Webhooks)
    {s : RecordState} (hReach : Runs.Reach (recordStep digest hooks) RecordStart Runs.Always s) :
    OpeningsStored s := by
  refine hReach.invariant ?_ ?_
  · intro s hStart
    constructor
    · rw [hStart]
      exact List.nil_subset _
    · rw [hStart]
      exact List.nodup_nil
  · intro s a s' hStored _ hStep
    cases hStep
    cases a with
    | poll now serverId bootId kernelEvents => exact ⟨hStored.stored, hStored.apart⟩
    | notice action =>
      exact ⟨List.Subset.trans hStored.stored (eventIds_notice hooks action), hStored.apart⟩
    | pass env server => exact openingsStored_raiseAll hStored (List.Subset.refl _)
    | ipmi env serverId serverName report =>
      by_cases hRaised : report.ok = true ∧ (storedSummary report.result).isSome = true
      · have hAlerts : selAlerts serverId report = (tailEntries report).map (selAlert serverId) :=
          if_pos (by rw [hRaised.1, hRaised.2]; rfl)
        unfold recordNext
        dsimp only
        rw [afterCycle_eq hRaised.1 hRaised.2, hAlerts]
        exact openingsStored_raiseAll hStored (eventIds_suppliedEvents _)
      · have hAlerts : selAlerts serverId report = [] :=
          if_neg (by rwa [Bool.and_eq_true])
        have hIds : eventIds s.events ⊆
            eventIds (afterCycle s.events ⟨env, serverId, serverName, report.result⟩) :=
          eventIds_afterCycle hRaised
        unfold recordNext
        dsimp only
        rw [hAlerts, newOpenings, List.append_nil]
        exact ⟨List.Subset.trans hStored.stored hIds, hStored.apart⟩

/-- In a run in which records are read again only while their events are open, each record has
opened one event at most. -/
theorem record_opens_once (digest : Text → Text) (hooks : Notifier.Webhooks) {s : RecordState}
    (hReach : Runs.Reach (recordStep digest hooks) RecordStart RereadsOpen s) : OpenedOnce s := by
  refine hReach.invariant ?_ ?_
  · intro s hStart
    unfold OpenedOnce
    rw [hStart]
    exact List.nodup_nil
  · intro s a s' hOnce hOpen hStep
    cases hStep
    exact openedOnce_step hOnce hOpen

/-! ## A resolved event -/

/-- The kernel log names a process that was killed. -/
def killedProcess : KernelEvent where
  eventType := .oomKill
  severity := .critical
  message := "Out of memory: Killed process 7 (python)"
  rawMessage := "Out of memory: Killed process 7 (python)"

/-- The digest of the example. -/
def killDigest : Text → Text := fun _ => "5f16f4c7f149ac4f9510d9cf8cf384038ad348b3"

/-- A poll that stores the killing, and a pass that finds it. -/
def killedRun : List RecordAction :=
  [.poll 0 7 "boot" [killedProcess], .pass ⟨minutes 1, fun _ => true⟩ { id := 7 }]

def noWebhooks : Notifier.Webhooks where
  channels := []

/-- The pass opens one event for the killing, which the next pass finds open. -/
theorem record_opens_once_killed : ∃ s,
    Runs.Reach (recordStep killDigest noWebhooks) RecordStart RereadsOpen s ∧
      s.openings.length = 1 ∧ OpenedOnce s := by
  have hRun : ∃ s, Runs.Reach (recordStep killDigest noWebhooks) RecordStart RereadsOpen s ∧
      s.openings.length = 1 :=
    Runs.Reach.exists_of_exec (killedRun ++ [.pass ⟨minutes 2, fun _ => true⟩ { id := 7 }])
      (rfl : RecordStart ⟨.empty, .empty, []⟩) (by decide +kernel)
  obtain ⟨s, hReach, hOne⟩ := hRun
  exact ⟨s, hReach, hOne, record_opens_once killDigest noWebhooks hReach⟩

/-- An operator resolves the event of the killing, and the next pass opens another one. -/
theorem resolved_event_reopened : ∃ s,
    Runs.Reach (recordStep killDigest noWebhooks) RecordStart Runs.Always s ∧ ¬ OpenedOnce s := by
  have hRun : ∃ s, Runs.Reach (recordStep killDigest noWebhooks) RecordStart Runs.Always s ∧
      ¬ (s.openings.map Prod.fst).Nodup :=
    Runs.Reach.exists_of_exec
      (killedRun ++ [.notice (.resolve 1 (minutes 2)), .pass ⟨minutes 3, fun _ => true⟩ { id := 7 }])
      (rfl : RecordStart ⟨.empty, .empty, []⟩) (by decide +kernel)
  exact hRun

end GpuMon.Detectors
