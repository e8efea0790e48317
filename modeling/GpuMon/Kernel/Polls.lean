import GpuMon.Kernel.Store

/-!
# Polls of the kernel log (`remote_scripts.py`, `scheduler.py`)

The logs of the servers grow; a poll fetches the last 400 lines of one of them and stores their
events. A window that cannot be parsed ends the poll. The state remembers the windows whose store
step committed.

* `stored_of_parsed`: after the store step every parsed event has a row with its boot id, kind,
  Xid and first 200 characters, unless two keys share a digest.
* `kept_in_incident`: where a window ends one killing, the line about memory that is kept belongs
  to it.
* `polled_windows_represented`: in a run whose windows each have at most a hundred events and one
  killing, every window stays represented.
-/

namespace GpuMon.Kernel

open PyText

/-- A line of a kernel log; the kernel escapes other line breaks. -/
structure LogLine where
  text : Text
  isLine : IsLine text

/-- The uuid of a boot. -/
structure BootId where
  text : Text
  noBar : '|' ∉ text

structure Host where
  boot : BootId
  log : List LogLine := []

/-- A poll whose store step committed. -/
structure Poll where
  serverId : Nat
  bootId : Text
  window : List LogLine

structure PollState where
  hosts : Nat → Host
  table : KernelEvents
  polled : List Poll := []

inductive PollAction
  | grow (serverId : Nat) (lines : List LogLine)
  | reboot (serverId : Nat) (boot : BootId)
  | poll (serverId : Nat) (now : Int)
  | failedStore (serverId : Nat)

/-- `journalctl -k -n 400`, `dmesg | tail -n 400`. -/
def Host.window (h : Host) : List LogLine := h.log.drop (h.log.length - 400)

def logText (window : List LogLine) : Text := join ['\n'] (window.map LogLine.text)

def PollState.setHost (s : PollState) (serverId : Nat) (h : Host) : PollState :=
  { s with hosts := Function.update s.hosts serverId h }

def pollStep (digest : Text → Text) (alnum : Char → Bool) (s : PollState) :
    PollAction → Option PollState
  | .grow serverId lines =>
    let h := s.hosts serverId
    some (s.setHost serverId { h with log := h.log ++ lines })
  | .reboot serverId boot => some (s.setHost serverId { boot })
  | .poll serverId now =>
    let h := s.hosts serverId
    match parseKernelLog alnum (logText h.window) with
    | none => some s
    | some events =>
      some { s with
        table := storeKernelEvents digest now serverId h.boot.text events s.table
        polled := s.polled ++ [⟨serverId, h.boot.text, h.window⟩] }
  | .failedStore _ => some s

/-- Nothing is stored yet. -/
def PollStart (s : PollState) : Prop := s.table = .empty ∧ s.polled = []

/-! ## What a window holds -/

def windowEvents (alnum : Char → Bool) (window : List LogLine) : List KernelEvent :=
  (window.map LogLine.text).filterMap (kernelEvent alnum)

/-- The lines about memory. -/
def oomLines (alnum : Char → Bool) (window : List LogLine) : List Text :=
  (window.map LogLine.text).filter fun line => (kernelEvent alnum line).any KernelEvent.isOom

/-- The line ends an incident. -/
def endsIncident (line : Text) : Bool := contains "Killed process" line

/-- The incidents: groups of lines that each end with the line that names the victim. Lines
without an end form no incident yet. -/
def incidentsFrom : List Text → List Text → List (List Text)
  | _, [] => []
  | acc, line :: rest =>
    if endsIncident line then (acc ++ [line]) :: incidentsFrom [] rest
    else incidentsFrom (acc ++ [line]) rest

def incidents (alnum : Char → Bool) (window : List LogLine) : List (List Text) :=
  incidentsFrom [] (oomLines alnum window)

/-- A row of the event: the boot id, the kind, the Xid and the first 200 characters agree. -/
def Stored (t : KernelEvents) (serverId : Nat) (bootId : Text) (ev : KernelEvent) : Prop :=
  ∃ r ∈ t.rows, r.serverId = serverId ∧ r.bootId = bootId ∧ r.eventType = ev.eventType ∧
    r.xid = ev.xid ∧ r.rawMessage.take 200 = ev.rawMessage.take 200

/-- Each event of another kind is stored, and a line of each incident. -/
def Represented (alnum : Char → Bool) (t : KernelEvents) (p : Poll) : Prop :=
  (∀ ev ∈ windowEvents alnum p.window, ev.isOom = false → Stored t p.serverId p.bootId ev) ∧
    ∀ incident ∈ incidents alnum p.window, ∃ line ∈ incident,
      ∃ ev ∈ kernelEvent alnum line, Stored t p.serverId p.bootId ev

/-- At most a hundred events are left of the window, it ends at most one incident, and no two
keys of the window and the table share a digest. -/
def Fits (digest : Text → Text) (alnum : Char → Bool) (t : KernelEvents) (bootId : Text)
    (window : List LogLine) : Prop :=
  collapsedLength (windowEvents alnum window) ≤ 100 ∧ (incidents alnum window).length ≤ 1 ∧
    ∀ k ∈ (windowEvents alnum window).map (KernelEvent.key bootId) ++ t.rows.map rowKey,
      ∀ k' ∈ (windowEvents alnum window).map (KernelEvent.key bootId) ++ t.rows.map rowKey,
        digest k = digest k' → k = k'

/-- The window of a poll fits. -/
def PollFits (digest : Text → Text) (alnum : Char → Bool) (s : PollState) : PollAction → Prop
  | .poll serverId _ =>
    Fits digest alnum s.table (s.hosts serverId).boot.text (s.hosts serverId).window
  | _ => True

instance (t : KernelEvents) (serverId : Nat) (bootId : Text) (ev : KernelEvent) :
    Decidable (Stored t serverId bootId ev) := by
  unfold Stored
  infer_instance

instance (alnum : Char → Bool) (t : KernelEvents) (p : Poll) :
    Decidable (Represented alnum t p) := by
  unfold Represented
  infer_instance

instance (digest : Text → Text) (alnum : Char → Bool) (s : PollState) (a : PollAction) :
    Decidable (PollFits digest alnum s a) := by
  cases a <;> unfold PollFits <;> unfold Fits <;> infer_instance

section Polls

variable {digest : Text → Text} {alnum : Char → Bool} {t t' : KernelEvents} {s : PollState}

/-- The parser sees the lines of the window. -/
theorem logEvents_logText (window : List LogLine) :
    logEvents alnum (logText window) = windowEvents alnum window := by
  have hLines : ∀ l ∈ window.map LogLine.text, IsLine l := by
    intro l hl
    obtain ⟨line, -, rfl⟩ := List.mem_map.mp hl
    exact line.isLine
  exact filterMap_splitlines_join (kernelEvent alnum) rfl hLines

theorem Represented.mono {p : Poll} (h : Represented alnum t p)
    (hRows : ∀ r ∈ t.rows, r ∈ t'.rows) : Represented alnum t' p := by
  have hStored : ∀ ev, Stored t p.serverId p.bootId ev → Stored t' p.serverId p.bootId ev :=
    fun ev ⟨r, hr, hSame⟩ => ⟨r, hRows r hr, hSame⟩
  refine ⟨fun ev hev hOther => hStored ev (h.1 ev hev hOther), ?_⟩
  intro incident hIncident
  obtain ⟨line, hLine, ev, hev, hRow⟩ := h.2 incident hIncident
  exact ⟨line, hLine, ev, hev, hStored ev hRow⟩

/-! ## Stored events -/

/-- Every row has the digest of its own key. -/
def HashesAgree (digest : Text → Text) (t : KernelEvents) : Prop :=
  ∀ r ∈ t.rows, r.dedupHash = digest (rowKey r) ∧ '|' ∉ r.bootId

theorem hashesAgree_store {now : Int} {serverId : Nat} {boot : BootId} {events : List KernelEvent}
    (h : HashesAgree digest t) :
    HashesAgree digest (storeKernelEvents digest now serverId boot.text events t) := by
  intro r hr
  rcases mem_storeKernelEvents hr with hOld | ⟨ev, -, rfl⟩
  · exact h r hOld
  · exact ⟨rfl, boot.noBar⟩

/-- After the store step every parsed event has its row. -/
theorem stored_of_parsed {now : Int} {serverId : Nat} {boot : BootId} {window : List LogLine}
    {ev : KernelEvent} (hFits : Fits digest alnum t boot.text window)
    (hHashes : HashesAgree digest t) (h : ev ∈ keptEvents alnum (logText window)) :
    Stored (storeKernelEvents digest now serverId boot.text
      (keptEvents alnum (logText window)) t) serverId boot.text ev := by
  obtain ⟨-, -, hCollision⟩ := hFits
  have hKey : ∀ ev ∈ keptEvents alnum (logText window), ev.key boot.text ∈
      (windowEvents alnum window).map (KernelEvent.key boot.text) ++ t.rows.map rowKey := by
    intro ev hev
    refine List.mem_append_left _ (List.mem_map_of_mem ?_)
    rw [← logEvents_logText]
    exact mem_of_mem_keptEvents hev
  rcases stored_of_mem (t := t) h with ⟨r, hr, hServer, hHash⟩ | ⟨ev', hev', hHash, hRow⟩
  · obtain ⟨hDigest, hBar⟩ := hHashes r hr
    have hSame : rowKey r = ev.key boot.text :=
      hCollision _ (List.mem_append_right _ (List.mem_map_of_mem hr)) _ (hKey ev h)
        (hDigest.symm.trans hHash)
    obtain ⟨hBoot, hType, hXid, hRaw⟩ := dedupKey_inj hBar boot.noBar hSame
    exact ⟨r, mem_store_of_mem hr, hServer, hBoot, hType, hXid, hRaw⟩
  · have hSame : ev'.key boot.text = ev.key boot.text :=
      hCollision _ (hKey ev' hev') _ (hKey ev h) hHash
    obtain ⟨-, hType, hXid, hRaw⟩ := dedupKey_inj boot.noBar boot.noBar hSame
    exact ⟨_, hRow, rfl, rfl, hType, hXid, hRaw⟩

/-! ## Incidents -/

theorem incidentsFrom_eq_nil {acc lines : List Text} (h : incidentsFrom acc lines = []) :
    ∀ line ∈ lines, endsIncident line = false := by
  induction lines generalizing acc with
  | nil =>
    intro line hLine
    cases hLine
  | cons line rest ih =>
    unfold incidentsFrom at h
    split at h
    · cases h
    · rename_i hEnd
      intro l hl
      rcases List.mem_cons.mp hl with rfl | hl
      · simpa using hEnd
      · exact ih h l hl

/-- A single incident goes up to the only line that ends one. -/
theorem incidentsFrom_eq_singleton {acc lines incident : List Text}
    (h : incidentsFrom acc lines = [incident]) : ∃ front last rest,
      lines = front ++ last :: rest ∧ incident = acc ++ front ++ [last] ∧
        ∀ line ∈ front ++ rest, endsIncident line = false := by
  induction lines generalizing acc with
  | nil => cases h
  | cons line rest ih =>
    unfold incidentsFrom at h
    split at h
    · obtain ⟨rfl, hRest⟩ := List.cons.inj h
      exact ⟨[], line, rest, rfl, by simp, incidentsFrom_eq_nil hRest⟩
    · rename_i hEnd
      obtain ⟨front, last, rest', rfl, rfl, hOthers⟩ := ih h
      refine ⟨line :: front, last, rest', rfl, by simp, ?_⟩
      intro l hl
      rcases List.mem_cons.mp hl with rfl | hl
      · simpa using hEnd
      · exact hOthers l hl

theorem endsIncident_of_namesVictim {line : Text} {ev : KernelEvent}
    (h : kernelEvent alnum line = some ev) (hVictim : ev.namesVictim = true) :
    endsIncident line = true := by
  obtain ⟨kind, -, hEvent⟩ := kernelEvent_eq_some h
  rw [KernelEvent.namesVictim, (eventOf_eq_some hEvent).2, contains_iff] at hVictim
  rw [endsIncident, contains_iff]
  exact hVictim.trans ((List.take_prefix 200 _).trans (prefix_rstrip line)).isInfix

theorem filter_isOom_windowEvents (window : List LogLine) :
    (windowEvents alnum window).filter KernelEvent.isOom =
      (oomLines alnum window).filterMap (kernelEvent alnum) := by
  unfold windowEvents oomLines
  induction window.map LogLine.text with
  | nil => rfl
  | cons line rest ih =>
    cases hLine : kernelEvent alnum line with
    | none =>
      rw [List.filterMap_cons_none hLine, List.filter_cons_of_neg (by simp [hLine]), ih]
    | some ev =>
      rw [List.filterMap_cons_some hLine]
      cases hOom : ev.isOom with
      | true =>
        rw [List.filter_cons_of_pos hOom, List.filter_cons_of_pos (by simp [hLine, hOom]),
          List.filterMap_cons_some hLine, ih]
      | false =>
        rw [List.filter_cons_of_neg (by simp [hOom]),
          List.filter_cons_of_neg (by simp [hLine, hOom]), ih]

/-- Where a window ends one incident, the kept line about memory belongs to it. -/
theorem kept_in_incident {window : List LogLine} {incident : List Text}
    (h : incidents alnum window = [incident]) : ∃ line ∈ incident,
      ∃ ev, kernelEvent alnum line = some ev ∧ keptOom (windowEvents alnum window) = some ev := by
  obtain ⟨front, last, rest, hLines, hIncident, hOthers⟩ := incidentsFrom_eq_singleton h
  have hOom : (windowEvents alnum window).filter KernelEvent.isOom =
      (oomLines alnum window).filterMap (kernelEvent alnum) := filter_isOom_windowEvents window
  rw [keptOom, hOom]
  cases hFind : ((oomLines alnum window).filterMap (kernelEvent alnum)).find?
      KernelEvent.namesVictim with
  | some ev =>
    obtain ⟨line, hLine, hev⟩ := List.mem_filterMap.mp (List.mem_of_find?_eq_some hFind)
    have hEnd := endsIncident_of_namesVictim hev (List.find?_some hFind)
    refine ⟨line, ?_, ev, hev, rfl⟩
    rw [hLines] at hLine
    have hLast : line = last := by
      by_contra hNe
      have hElse : line ∈ front ++ rest := by
        rcases List.mem_append.mp hLine with hFront | hRest
        · exact List.mem_append_left _ hFront
        · exact List.mem_append_right _ ((List.mem_cons.mp hRest).resolve_left hNe)
      rw [hOthers line hElse] at hEnd
      cases hEnd
    rw [hIncident, hLast]
    simp
  | none =>
    obtain ⟨first, tail, hFirst⟩ : ∃ first tail, front ++ last :: rest = first :: tail ∧
        first ∈ incident := by
      cases front with
      | nil => exact ⟨last, rest, rfl, by simp [hIncident]⟩
      | cons first front => exact ⟨first, _, rfl, by simp [hIncident]⟩
    have hMem : first ∈ oomLines alnum window := by
      rw [hLines, hFirst.1]
      exact List.mem_cons_self
    obtain ⟨ev, hev, -⟩ := (Option.any_eq_true _ _).mp (List.mem_filter.mp hMem).2
    refine ⟨first, hFirst.2, ev, hev, ?_⟩
    rw [hLines, hFirst.1, List.filterMap_cons_some hev]
    rfl

/-- What one poll does. -/
theorem represented_poll {now : Int} {serverId : Nat} {boot : BootId} {window : List LogLine}
    (hFits : Fits digest alnum t boot.text window) (hHashes : HashesAgree digest t) :
    Represented alnum (storeKernelEvents digest now serverId boot.text
      (keptEvents alnum (logText window)) t) ⟨serverId, boot.text, window⟩ := by
  have hShort : collapsedLength (logEvents alnum (logText window)) ≤ 100 := by
    rw [logEvents_logText]
    exact hFits.1
  constructor
  · intro ev hev hOther
    rw [← logEvents_logText] at hev
    exact stored_of_parsed hFits hHashes (mem_keptEvents hShort hev hOther)
  · intro incident hIncident
    have hSingle : incidents alnum window = [incident] := by
      have hFew := hFits.2.1
      change incident ∈ incidents alnum window at hIncident
      match hList : incidents alnum window, hFew with
      | [], _ => rw [hList] at hIncident; cases hIncident
      | [g], _ => rw [hList] at hIncident; rw [List.mem_singleton.mp hIncident]
    obtain ⟨line, hLine, ev, hev, hKept⟩ := kept_in_incident hSingle
    rw [← logEvents_logText] at hKept
    exact ⟨line, hLine, ev, hev,
      stored_of_parsed hFits hHashes (keptOom_mem_keptEvents hShort hKept)⟩

/-- In a run whose windows fit every window stays represented. -/
theorem polled_windows_represented
    (hReach : Runs.Reach (pollStep digest alnum) PollStart (PollFits digest alnum) s) :
    ∀ p ∈ s.polled, Represented alnum s.table p := by
  refine (Runs.Reach.invariant (I := fun s => HashesAgree digest s.table ∧
    ∀ p ∈ s.polled, Represented alnum s.table p) ?_ ?_ hReach).2
  · rintro s ⟨hTable, hPolled⟩
    rw [hTable, hPolled]
    refine ⟨fun r hr => ?_, fun p hp => ?_⟩
    · cases hr
    · cases hp
  · rintro s a s' ⟨hHashes, hPolled⟩ hFits hStep
    cases a with
    | grow serverId lines =>
      cases hStep
      exact ⟨hHashes, hPolled⟩
    | reboot serverId boot =>
      cases hStep
      exact ⟨hHashes, hPolled⟩
    | poll serverId now =>
      unfold pollStep at hStep
      dsimp only at hStep
      split at hStep
      · cases hStep
        exact ⟨hHashes, hPolled⟩
      · rename_i events hParse
        cases hStep
        rw [parseKernelLog_eq_some hParse]
        refine ⟨hashesAgree_store hHashes, ?_⟩
        intro p hp
        rcases List.mem_append.mp hp with hOld | hNew
        · exact (hPolled p hOld).mono fun r hr => mem_store_of_mem hr
        · rw [List.mem_singleton.mp hNew]
          exact represented_poll hFits hHashes
    | failedStore serverId =>
      cases hStep
      exact ⟨hHashes, hPolled⟩

end Polls

/-! ## A host that runs out of memory twice -/

def nodeBoot : BootId := ⟨"0b6f6d4e-7a9c-4f0e-8a53-1c9d3b2f7e10", by decide⟩

def firstKill : List LogLine :=
  [⟨"python invoked oom-killer: gfp_mask=0x140cca", by decide⟩,
    ⟨"Out of memory: Killed process 4242 (python)", by decide⟩]

def secondKill : List LogLine :=
  [⟨"trainer invoked oom-killer: gfp_mask=0x140cca", by decide⟩,
    ⟨"Out of memory: Killed process 5353 (trainer)", by decide⟩]

/-- The digests of the four lines; other texts are left alone. -/
def killDigest (t : Text) : Text :=
  let digests : List (Text × Text) := [
    ("python invoked oom-killer: gfp_mask=0x140cca",
      "70416fd1faa5829e27ecbcbcb473d8fb7103c38f"),
    ("Out of memory: Killed process 4242 (python)",
      "a03ce6740f2606531c1c2f159afee0d0e1eead14"),
    ("trainer invoked oom-killer: gfp_mask=0x140cca",
      "986c3cac3c62a8b5ef2ffcc1f802284f8787312c"),
    ("Out of memory: Killed process 5353 (trainer)",
      "5c03bb4e7104a204b31642812120f3767e97bfa9")]
  ((digests.find? fun p => t = nodeBoot.text ++ "|OOM_KILL|0|".toList ++ p.1).map
    Prod.snd).getD t

def freshHosts : PollState := { hosts := fun _ => { boot := nodeBoot }, table := .empty }

theorem polled_windows_represented_firstKill : ∃ s,
    Runs.Reach (pollStep killDigest Char.isAlphanum) PollStart
      (PollFits killDigest Char.isAlphanum) s ∧ s.polled.length = 1 ∧
      ∀ p ∈ s.polled, Represented Char.isAlphanum s.table p := by
  obtain ⟨s, hReach, hPolled⟩ : ∃ s, Runs.Reach (pollStep killDigest Char.isAlphanum) PollStart
      (PollFits killDigest Char.isAlphanum) s ∧ s.polled.length = 1 :=
    Runs.Reach.exists_of_exec [.grow 7 firstKill, .poll 7 1772359230000000]
      (s := freshHosts) ⟨rfl, rfl⟩ (by decide +kernel)
  exact ⟨s, hReach, hPolled, polled_windows_represented hReach⟩

/-- The second killing is not stored while the first one is in the window. -/
theorem second_kill_dropped : ∃ s,
    Runs.Reach (pollStep killDigest Char.isAlphanum) PollStart Runs.Always s ∧
      ¬∀ p ∈ s.polled, Represented Char.isAlphanum s.table p :=
  Runs.Reach.exists_of_exec [.grow 7 firstKill, .poll 7 1772359230000000, .grow 7 secondKill,
    .poll 7 1772359290000000] (s := freshHosts) ⟨rfl, rfl⟩ (by decide +kernel)

end GpuMon.Kernel
