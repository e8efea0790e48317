import GpuMon.Kernel.Log
import GpuMon.Library.Runs

/-!
# Stored kernel events (`scheduler.py`)

The events of a poll are inserted unless an event of the server with the same digest is stored
already. The digest is taken of the boot id, the kind, the Xid and the first 200 characters of
the line.

* `dedupKey_inj`: the text that is digested determines these four.
* `stored_of_mem`: after the store step every event has a row with its digest.
* `mem_storeKernelEvents`: a row of the table after a step is an old one, or that of an event of the log.

`digest` stands for the first forty hexadecimal digits of SHA-256.
-/

namespace GpuMon.Kernel

open PyText

/-! ## The table -/

/-- The table of kernel events, with its unique constraint. -/
structure KernelEvents where
  rows : List KernelEventRow
  unique : (rows.map fun r => (r.serverId, r.dedupHash)).Nodup

def KernelEvents.empty : KernelEvents := ⟨[], List.nodup_nil⟩

/-- The text that is digested. -/
def dedupKey (bootId : Text) (eventType : EventType) (xid : Nat) (raw : Text) : Text :=
  bootId ++ '|' :: (eventType.text ++ '|' :: (natText xid ++ '|' :: raw.take 200))

def KernelEvent.key (bootId : Text) (ev : KernelEvent) : Text :=
  dedupKey bootId ev.eventType ev.xid ev.rawMessage

def rowKey (r : KernelEventRow) : Text := dedupKey r.bootId r.eventType r.xid r.rawMessage

def newRow (now : Int) (serverId : Nat) (bootId hash : Text) (ev : KernelEvent) :
    KernelEventRow where
  serverId
  collectedAt := now
  bootId
  eventType := ev.eventType
  severity := ev.severity
  gpuUuid := ev.gpuUuid
  xid := ev.xid
  message := ev.message
  rawMessage := ev.rawMessage
  dedupHash := hash

/-- The rows inserted for the pending events. -/
def newRows (now : Int) (serverId : Nat) (bootId : Text) :
    List Text → List (Text × KernelEvent) → List KernelEventRow
  | _, [] => []
  | known, (hash, ev) :: rest =>
    if hash ∈ known then newRows now serverId bootId known rest
    else newRow now serverId bootId hash ev :: newRows now serverId bootId (hash :: known) rest

section NewRows

variable {now : Int} {serverId : Nat} {bootId : Text} {known : List Text}
  {pending : List (Text × KernelEvent)}

theorem mem_newRows {r : KernelEventRow} (h : r ∈ newRows now serverId bootId known pending) :
    ∃ p ∈ pending, p.1 ∉ known ∧ r = newRow now serverId bootId p.1 p.2 := by
  induction pending generalizing known with
  | nil => cases h
  | cons p rest ih =>
    unfold newRows at h
    split at h
    · obtain ⟨q, hq, hNew, rfl⟩ := ih h
      exact ⟨q, List.mem_cons_of_mem p hq, hNew, rfl⟩
    · rename_i hNew
      rcases List.mem_cons.mp h with rfl | h
      · exact ⟨p, List.mem_cons_self, hNew, rfl⟩
      · obtain ⟨q, hq, hFresh, rfl⟩ := ih h
        exact ⟨q, List.mem_cons_of_mem p hq, fun hIn => hFresh (List.mem_cons_of_mem _ hIn), rfl⟩

theorem nodup_newRows (known : List Text) (pending : List (Text × KernelEvent)) :
    ((newRows now serverId bootId known pending).map KernelEventRow.dedupHash).Nodup := by
  induction pending generalizing known with
  | nil => exact List.nodup_nil
  | cons p rest ih =>
    unfold newRows
    split
    · exact ih known
    · refine List.nodup_cons.mpr ⟨?_, ih _⟩
      intro hIn
      obtain ⟨r, hr, hHash⟩ := List.mem_map.mp hIn
      obtain ⟨q, -, hFresh, rfl⟩ := mem_newRows hr
      exact hFresh (List.mem_cons.mpr (.inl hHash))

/-- Every pending event is known or inserted. -/
theorem covered_newRows {p : Text × KernelEvent} (h : p ∈ pending) :
    p.1 ∈ known ∨ ∃ q ∈ pending, q.1 = p.1 ∧
      newRow now serverId bootId q.1 q.2 ∈ newRows now serverId bootId known pending := by
  induction pending generalizing known with
  | nil => cases h
  | cons q rest ih =>
    unfold newRows
    split
    · rename_i hKnown
      rcases List.mem_cons.mp h with rfl | h
      · exact .inl hKnown
      · rcases ih h with hIn | ⟨q', hq', hHash, hRow⟩
        · exact .inl hIn
        · exact .inr ⟨q', List.mem_cons_of_mem q hq', hHash, hRow⟩
    · rcases List.mem_cons.mp h with rfl | h
      · exact .inr ⟨p, List.mem_cons_self, rfl, List.mem_cons_self⟩
      · rcases ih h with hIn | ⟨q', hq', hHash, hRow⟩
        · rcases List.mem_cons.mp hIn with hSame | hIn
          · exact .inr ⟨q, List.mem_cons_self, hSame.symm, List.mem_cons_self⟩
          · exact .inl hIn
        · exact .inr ⟨q', List.mem_cons_of_mem q hq', hHash, List.mem_cons_of_mem _ hRow⟩

end NewRows

/-- The hashes of the server's stored events among the pending ones. -/
def knownHashes (t : KernelEvents) (serverId : Nat) (pending : List (Text × KernelEvent)) :
    List Text :=
  (t.rows.filter fun r => r.serverId = serverId && r.dedupHash ∈ pending.map Prod.fst).map
    KernelEventRow.dedupHash

/-- `_store_kernel_events`, when its transaction commits. -/
def storeKernelEvents (digest : Text → Text) (now : Int) (serverId : Nat) (bootId : Text)
    (events : List KernelEvent) (t : KernelEvents) : KernelEvents :=
  let pending := events.map fun ev => (digest (ev.key bootId), ev)
  { rows := t.rows ++ newRows now serverId bootId (knownHashes t serverId pending) pending
    unique := by
      rw [List.map_append, List.nodup_append]
      refine ⟨t.unique, ?_, ?_⟩
      · refine List.Nodup.of_map Prod.snd ?_
        rw [List.map_map]
        exact nodup_newRows _ _
      · intro k hOld k' hNew
        obtain ⟨r, hr, rfl⟩ := List.mem_map.mp hOld
        obtain ⟨r', hr', rfl⟩ := List.mem_map.mp hNew
        obtain ⟨p, hp, hFresh, rfl⟩ := mem_newRows hr'
        intro hSame
        obtain ⟨hServer, hHash⟩ := Prod.mk.inj hSame
        have hServer : r.serverId = serverId := hServer
        have hHash : r.dedupHash = p.1 := hHash
        apply hFresh
        refine List.mem_map.mpr ⟨r, List.mem_filter.mpr ⟨hr, ?_⟩, hHash⟩
        simp only [hServer, hHash, decide_true, Bool.true_and, decide_eq_true_eq]
        exact List.mem_map_of_mem hp }

section Store

variable {digest : Text → Text} {now : Int} {serverId : Nat} {bootId : Text}
  {events : List KernelEvent} {t : KernelEvents}

theorem mem_store_of_mem {r : KernelEventRow} (h : r ∈ t.rows) :
    r ∈ (storeKernelEvents digest now serverId bootId events t).rows := List.mem_append_left _ h

theorem mem_storeKernelEvents {r : KernelEventRow}
    (h : r ∈ (storeKernelEvents digest now serverId bootId events t).rows) :
    r ∈ t.rows ∨ ∃ ev ∈ events, r = newRow now serverId bootId (digest (ev.key bootId)) ev := by
  rcases List.mem_append.mp h with h | h
  · exact .inl h
  · obtain ⟨p, hp, -, rfl⟩ := mem_newRows h
    obtain ⟨ev, hev, rfl⟩ := List.mem_map.mp hp
    exact .inr ⟨ev, hev, rfl⟩

/-- After the store step every event has a row with its digest: an old one, or the row of an
event of the poll. -/
theorem stored_of_mem {ev : KernelEvent} (h : ev ∈ events) :
    (∃ r ∈ t.rows, r.serverId = serverId ∧ r.dedupHash = digest (ev.key bootId)) ∨
      ∃ ev' ∈ events, digest (ev'.key bootId) = digest (ev.key bootId) ∧
        newRow now serverId bootId (digest (ev'.key bootId)) ev' ∈
          (storeKernelEvents digest now serverId bootId events t).rows := by
  let pending := events.map fun ev => (digest (ev.key bootId), ev)
  have hPending : (digest (ev.key bootId), ev) ∈ pending := List.mem_map_of_mem h
  have hCovered : digest (ev.key bootId) ∈ knownHashes t serverId pending ∨ ∃ q ∈ pending,
      q.1 = digest (ev.key bootId) ∧ newRow now serverId bootId q.1 q.2 ∈
        newRows now serverId bootId (knownHashes t serverId pending) pending :=
    covered_newRows hPending
  rcases hCovered with hKnown | ⟨p, hp, hHash, hRow⟩
  · obtain ⟨r, hr, hHash⟩ := List.mem_map.mp hKnown
    obtain ⟨hr, hServer⟩ := List.mem_filter.mp hr
    simp only [Bool.and_eq_true, decide_eq_true_eq] at hServer
    exact .inl ⟨r, hr, hServer.1, hHash⟩
  · obtain ⟨ev', hev', rfl⟩ := List.mem_map.mp hp
    exact .inr ⟨ev', hev', hHash, List.mem_append_right _ hRow⟩

end Store

/-! ## The key -/

theorem EventType.text_inj {a b : EventType} (h : a.text = b.text) : a = b := by
  cases a <;> cases b <;> first | rfl | exact absurd h (by decide)

theorem bar_not_mem_text (a : EventType) : '|' ∉ a.text := by
  cases a <;> decide

theorem bar_not_mem_natText (n : Nat) : '|' ∉ natText n :=
  fun h => absurd (isDigit_of_mem_natText h) (by decide)

/-- The digested text determines what it is made of. -/
theorem dedupKey_inj {bootId bootId' raw raw' : Text} {a a' : EventType} {xid xid' : Nat}
    (hBoot : '|' ∉ bootId) (hBoot' : '|' ∉ bootId')
    (h : dedupKey bootId a xid raw = dedupKey bootId' a' xid' raw') :
    bootId = bootId' ∧ a = a' ∧ xid = xid' ∧ raw.take 200 = raw'.take 200 := by
  obtain ⟨rfl, hRest⟩ := append_mark_inj hBoot hBoot' h
  obtain ⟨hType, hRest⟩ := append_mark_inj (bar_not_mem_text a) (bar_not_mem_text a') hRest
  obtain ⟨hXid, hRaw⟩ := append_mark_inj (bar_not_mem_natText xid) (bar_not_mem_natText xid') hRest
  have hNumber := congrArg parseNat hXid
  rw [parseNat_natText, parseNat_natText] at hNumber
  exact ⟨rfl, EventType.text_inj hType, hNumber, hRaw⟩

end GpuMon.Kernel
