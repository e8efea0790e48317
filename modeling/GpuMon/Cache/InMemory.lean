import GpuMon.Library.Dict
import GpuMon.Library.PyText
import GpuMon.Library.Runs
import GpuMon.Library.TtlMap

/-!
# The in-memory cache backend (`cache.InMemoryBackend`)

A dictionary from keys to values with an expiry. A read drops an expired entry; a write sweeps
the expired entries now and then, and gives up the oldest ones when more than 1024 are left.
Every operation holds the lock of the backend and reads the monotonic clock once, so a run is a
sequence of operations under a clock that does not go back.

* `covers_set`: what a write keeps of the ideal map of everything written.
* `backend_refines_ttl_map`: in every run a read gives nothing or what the ideal map has, and
  it gives what the ideal map has unless a write has evicted the entry.

A value `none` is Python's `None`, which a reader cannot tell from no value.
-/

namespace GpuMon.Cache

open PyText Runs

variable {β : Type}

def maxMemoryCacheEntries : Nat := 1024

/-- `_data` and `_next_sweep`; an entry is the pair `(expires, value)`. -/
structure InMemoryBackend (β : Type) where
  data : Dict Text (ℚ × Option β) := .empty
  nextSweep : ℚ := 0

inductive Op (β : Type)
  | get (key : Text)
  | set (key : Text) (value : Option β) (ttl : ℚ)
  | clear
  | invalidatePrefix (head : Text)

/-- `ttl >= 0`. -/
def Op.ttlOk : Op β → Prop
  | .set _ _ ttl => 0 ≤ ttl
  | _ => True

instance : DecidablePred (Op.ttlOk : Op β → Prop) := fun op => by
  cases op <;> unfold Op.ttlOk <;> infer_instance

namespace InMemoryBackend

/-- `get`. -/
def get (c : InMemoryBackend β) (now : ℚ) (key : Text) : Option β × InMemoryBackend β :=
  match c.data.get? key with
  | none => (none, c)
  | some (expires, value) =>
    if expires < now then (none, { c with data := c.data.erase key }) else (value, c)

/-- What a sweep leaves of the entries. -/
def sweep (now : ℚ) (data : Dict Text (ℚ × Option β)) : Dict Text (ℚ × Option β) :=
  data.filter fun p => !decide (p.2.1 < now)

/-- `set`. -/
def set (c : InMemoryBackend β) (now : ℚ) (key : Text) (value : Option β) (ttl : ℚ) :
    InMemoryBackend β :=
  let data := c.data.set key (now + ttl, value)
  if c.nextSweep ≤ now ∨ maxMemoryCacheEntries < data.entries.length then
    { data := (sweep now data).keepNewest maxMemoryCacheEntries, nextSweep := now + 60 }
  else { c with data }

/-- `clear`. -/
def clear (_ : InMemoryBackend β) : InMemoryBackend β := {}

/-- `invalidate_prefix`. -/
def invalidatePrefix (c : InMemoryBackend β) (head : Text) : InMemoryBackend β :=
  { c with data := c.data.filterKeys fun k => !startsWith k head }

/-- What an operation at `now` makes of the backend. -/
def run (c : InMemoryBackend β) (now : ℚ) : Op β → InMemoryBackend β
  | .get key => (c.get now key).2
  | .set key value ttl => c.set now key value ttl
  | .clear => c.clear
  | .invalidatePrefix head => c.invalidatePrefix head

/-- The entries as a map. -/
def entry (c : InMemoryBackend β) : TtlMap Text ℚ (Option β) := c.data.get?

/-- The keys whose entries can be read. -/
def liveKeys (now : ℚ) (data : Dict Text (ℚ × Option β)) : List Text := (sweep now data).keys

/-- The keys whose entries a write gives up although they could be read. -/
def evictedBy (c : InMemoryBackend β) (now : ℚ) (key : Text) (value : Option β) (ttl : ℚ) :
    List Text :=
  (liveKeys now c.data).filter fun k => k ≠ key && !(c.set now key value ttl).data.contains k

end InMemoryBackend

/-- What a reader gets from the ideal map: nothing and `None` look alike. -/
def read (m : TtlMap Text ℚ (Option β)) (now : ℚ) (key : Text) : Option β :=
  (m.lookup now key).join

/-! ## The operations against the ideal map -/

section Operations

variable {c : InMemoryBackend β} {m : TtlMap Text ℚ (Option β)} {lost : Text → Prop} {now : ℚ}

open InMemoryBackend

/-- A read sees its entry through the clock. -/
theorem get_eq_read (now : ℚ) (key : Text) : (c.get now key).1 = read c.entry now key := by
  unfold InMemoryBackend.get read TtlMap.lookup entry
  cases hEntry : c.data.get? key with
  | none => rfl
  | some e =>
    by_cases hExpired : e.1 < now
    · simp [Option.filter_some, hExpired, not_le.mpr hExpired]
    · simp [Option.filter_some, hExpired, not_lt.mp hExpired]

theorem mem_liveKeys {data : Dict Text (ℚ × Option β)} {k : Text} :
    k ∈ liveKeys now data ↔ ∃ e, data.get? k = some e ∧ now ≤ e.1 := by
  rw [liveKeys, Dict.mem_keys_iff, sweep, Dict.get?_filter, Option.isSome_iff_exists]
  simp [Option.filter_eq_some_iff]

/-- A read may drop an entry that has expired, and nothing else. -/
theorem get_sub {key k : Text} {e : ℚ × Option β}
    (h : (c.get now key).2.data.get? k = some e) : c.data.get? k = some e := by
  unfold InMemoryBackend.get at h
  split at h
  · exact h
  · split at h
    · rw [Dict.get?_erase] at h
      split at h
      · cases h
      · exact h
    · exact h

/-- What a read finds is stored. -/
theorem entry_of_get {key : Text} {v : β} (h : (c.get now key).1 = some v) :
    ∃ expires, c.entry key = some (expires, some v) := by
  unfold InMemoryBackend.get at h
  split at h
  · cases h
  · rename_i expires value hEntry
    split at h
    · cases h
    · exact ⟨expires, hEntry.trans (by rw [show value = some v from h])⟩

theorem get_keeps {key k : Text} {e : ℚ × Option β} (h : c.data.get? k = some e)
    (hLive : now ≤ e.1) : (c.get now key).2.data.get? k = some e := by
  unfold InMemoryBackend.get
  split
  · exact h
  · rename_i expires value hEntry
    split
    · rename_i hExpired
      rw [Dict.get?_erase, if_neg]
      · exact h
      · rintro rfl
        rw [hEntry] at h
        cases h
        exact not_lt.mpr hLive hExpired
    · exact h

theorem covers_get (h : TtlMap.Covers c.entry m lost now) (key : Text) :
    TtlMap.Covers (c.get now key).2.entry m lost now :=
  h.drop (fun _ _ hk => get_sub hk) (fun _ _ hk hLive _ => get_keeps hk hLive) fun _ hk => hk

/-- The entries after a write are entries of the dictionary with the new one put in. -/
theorem set_sub {key : Text} {value : Option β} {ttl : ℚ} {k : Text} {e : ℚ × Option β}
    (h : (c.set now key value ttl).data.get? k = some e) :
    (c.data.set key (now + ttl, value)).get? k = some e := by
  unfold InMemoryBackend.set at h
  dsimp only at h
  split at h
  · have hSwept := Dict.get?_of_keepNewest h
    rw [sweep, Dict.get?_filter, Option.filter_eq_some_iff] at hSwept
    exact hSwept.1
  · exact h

/-- What may be missing of the entries after a write. -/
theorem covers_set (h : TtlMap.Covers c.entry m lost now) (key : Text) (value : Option β)
    {ttl : ℚ} (hKey : key ∈ (c.set now key value ttl).data.keys) :
    TtlMap.Covers (c.set now key value ttl).entry (m.set key (now + ttl) value)
      (fun k => k ∈ c.evictedBy now key value ttl ∨ (lost k ∧ k ≠ key)) now := by
  have hPut : ∀ k, (c.data.set key (now + ttl, value)).get? k =
      (TtlMap.set c.entry key (now + ttl) value) k := by
    intro k
    rw [Dict.get?_set, TtlMap.set, Function.update_apply]
    rfl
  refine (h.set key (now + ttl) value).drop (fun k e hk => ?_) (fun k e hk hLive hKept => ?_)
    fun k hk => .inr hk
  · rw [← hPut]
    exact set_sub hk
  · rw [← hPut, Dict.get?_set] at hk
    cases hAfter : (c.set now key value ttl).data.get? k with
    | some e' =>
      have hSub := set_sub hAfter
      rw [Dict.get?_set, hk] at hSub
      rw [entry, hAfter, ← Option.some.inj hSub]
    | none =>
      -- the entry is gone: it was evicted, or it is the one just written
      have hGone : (c.set now key value ttl).data.contains k = false := by
        rw [Bool.eq_false_iff, ne_eq, Dict.contains_iff, hAfter]
        exact Bool.false_ne_true
      by_cases hSame : k = key
      · subst hSame
        rw [Dict.mem_keys_iff, hAfter] at hKey
        cases hKey
      · rw [if_neg hSame] at hk
        refine absurd (.inl ?_) hKept
        refine List.mem_filter.mpr ⟨mem_liveKeys.mpr ⟨e, hk, hLive⟩, ?_⟩
        simp [hSame, hGone]

theorem covers_clear (h : TtlMap.Covers c.entry m lost now) :
    TtlMap.Covers c.clear.entry (m.forget fun _ => true) lost now := by
  have hForget := h.forget fun _ => true
  exact hForget

theorem covers_invalidatePrefix (h : TtlMap.Covers c.entry m lost now) (head : Text) :
    TtlMap.Covers (c.invalidatePrefix head).entry (m.forget fun k => startsWith k head) lost
      now := by
  have hEntry : (c.invalidatePrefix head).entry =
      TtlMap.forget c.entry fun k => startsWith k head := by
    funext k
    rw [entry, invalidatePrefix, Dict.get?_filterKeys, TtlMap.forget]
    cases startsWith k head <;> rfl
  rw [hEntry]
  exact h.forget _

theorem length_set (key : Text) (value : Option β) (ttl : ℚ) :
    (c.set now key value ttl).data.entries.length ≤ maxMemoryCacheEntries := by
  unfold InMemoryBackend.set
  dsimp only
  split
  · exact Dict.length_keepNewest _ _
  · rename_i hSmall
    exact not_lt.mp fun hLarge => hSmall (.inr hLarge)

/-- The key just written is there. -/
theorem mem_keys_set (h : c.data.entries.length ≤ maxMemoryCacheEntries) (key : Text)
    (value : Option β) {ttl : ℚ} (hTtl : 0 ≤ ttl) :
    key ∈ (c.set now key value ttl).data.keys := by
  have hLive : ¬now + ttl < now := not_lt.mpr (le_add_of_nonneg_right hTtl)
  have hSwept : key ∈ (sweep now (c.data.set key (now + ttl, value))).keys := by
    rw [Dict.mem_keys_iff, sweep, Dict.get?_filter, Dict.get?_set, if_pos rfl]
    simp [hLive]
  unfold InMemoryBackend.set
  dsimp only
  split
  · by_cases hOld : key ∈ c.data.keys
    · -- the key keeps its place, and there is room for all
      have hLength : (sweep now (c.data.set key (now + ttl, value))).entries.length ≤
          maxMemoryCacheEntries :=
        (List.length_filter_le _ _).trans ((Dict.length_setEntries_of_mem _ hOld).le.trans h)
      rw [Dict.keepNewest_eq_self hLength]
      exact hSwept
    · -- a new key comes last, and the last entry is not given up
      have hLast : (sweep now (c.data.set key (now + ttl, value))).entries.getLast? =
          some (key, now + ttl, value) := by
        change ((Dict.setEntries key (now + ttl, value) c.data.entries).filter _).getLast? = _
        rw [Dict.setEntries_of_notMem _ hOld, List.filter_append, List.filter_cons_of_pos]
        · simp
        · simpa using not_lt.mp hLive
      rw [← Dict.getLast?_keepNewest _ (show 0 < maxMemoryCacheEntries by decide)] at hLast
      exact List.mem_map.mpr ⟨_, List.mem_of_getLast? hLast, rfl⟩
  · rw [Dict.mem_keys_iff, Dict.get?_set, if_pos rfl]
    rfl

/-- An entry that could be read is given up only when too many of them would be left. -/
theorem crowded_of_evicted {key old : Text} {value : Option β} {ttl : ℚ}
    (hLive : old ∈ liveKeys now c.data) (hOther : old ≠ key)
    (hGone : old ∉ (c.set now key value ttl).data.keys) :
    maxMemoryCacheEntries < (liveKeys now (c.data.set key (now + ttl, value))).length := by
  obtain ⟨e, hEntry, hTime⟩ := mem_liveKeys.mp hLive
  have hPut : (c.data.set key (now + ttl, value)).get? old = some e := by
    rw [Dict.get?_set, if_neg hOther, hEntry]
  unfold InMemoryBackend.set at hGone
  dsimp only at hGone
  split at hGone
  · rw [liveKeys, Dict.keys, List.length_map]
    by_contra hFew
    rw [Dict.keepNewest_eq_self (not_lt.mp hFew)] at hGone
    exact hGone (mem_liveKeys.mpr ⟨e, hPut, hTime⟩)
  · rw [Dict.mem_keys_iff, hPut] at hGone
    exact absurd rfl hGone

end Operations

/-! ## Runs -/

/-- The backend, the ideal map of what was written, and the keys whose entry in the ideal map a
write has evicted from the backend. -/
structure State (β : Type) where
  clock : ℚ
  backend : InMemoryBackend β
  ideal : TtlMap Text ℚ (Option β)
  evicted : List Text

/-- What an operation means for the ideal map. -/
def ideally (m : TtlMap Text ℚ (Option β)) (now : ℚ) : Op β → TtlMap Text ℚ (Option β)
  | .get _ => m
  | .set key value ttl => m.set key (now + ttl) value
  | .clear => m.forget fun _ => true
  | .invalidatePrefix head => m.forget fun k => startsWith k head

/-- The evicted keys after an operation: a write puts its own key back. -/
def evictedAfter (c : InMemoryBackend β) (now : ℚ) (evicted : List Text) : Op β → List Text
  | .set key value ttl => c.evictedBy now key value ttl ++ evicted.filter (· ≠ key)
  | _ => evicted

/-- An operation at a time of the clock. -/
def step (s : State β) (a : ℚ × Op β) : Option (State β) :=
  if s.clock ≤ a.1 ∧ a.2.ttlOk then
    some {
      clock := a.1
      backend := s.backend.run a.1 a.2
      ideal := ideally s.ideal a.1 a.2
      evicted := evictedAfter s.backend a.1 s.evicted a.2 }
  else none

/-- A fresh backend, at any time. -/
def Fresh (s : State β) : Prop := s.backend = {} ∧ s.ideal = TtlMap.empty ∧ s.evicted = []

structure BackendInv (s : State β) : Prop where
  covers : TtlMap.Covers s.backend.entry s.ideal (· ∈ s.evicted) s.clock
  small : s.backend.data.entries.length ≤ maxMemoryCacheEntries

section Run

variable {s s' : State β}

theorem length_get {c : InMemoryBackend β} {now : ℚ} {key : Text} :
    (c.get now key).2.data.entries.length ≤ c.data.entries.length := by
  unfold InMemoryBackend.get
  split
  · exact le_rfl
  · split
    · exact List.length_filter_le _ _
    · exact le_rfl

theorem inv_step {a : ℚ × Op β} (hInv : BackendInv s) (hStep : step s a = some s') :
    BackendInv s' := by
  obtain ⟨now, op⟩ := a
  obtain ⟨⟨hClock, hTtl⟩, hNext⟩ := Option.ite_none_right_eq_some.mp hStep
  obtain rfl := Option.some.inj hNext
  have hCovers := hInv.covers.later hClock
  cases op with
  | get key => exact ⟨covers_get hCovers key, length_get.trans hInv.small⟩
  | set key value ttl =>
    have hSet := covers_set hCovers key value (mem_keys_set hInv.small key value hTtl)
    refine ⟨hSet.drop (fun _ _ h => h) (fun _ _ h _ _ => h) fun k hk => ?_,
      length_set key value ttl⟩
    simpa [evictedAfter] using hk
  | clear => exact ⟨covers_clear hCovers, Nat.zero_le _⟩
  | invalidatePrefix head =>
    exact ⟨covers_invalidatePrefix hCovers head,
      (List.length_filter_le _ _).trans hInv.small⟩

theorem inv_of_reach (h : Reach step Fresh Always s) : BackendInv s := by
  refine h.invariant (fun s hFresh => ?_) fun s a s' hInv _ hStep => inv_step hInv hStep
  obtain ⟨hBackend, hIdeal, -⟩ := hFresh
  constructor
  · rw [hBackend, hIdeal]
    exact ⟨fun _ _ hk => (by cases hk), fun _ _ hk => (by cases hk)⟩
  · rw [hBackend]
    exact Nat.zero_le _

/-- **The cache is an ideal expiring map with gaps.** -/
theorem backend_refines_ttl_map (h : Reach step Fresh Always s) {now : ℚ}
    (hNow : s.clock ≤ now) :
    (∀ key, (s.backend.get now key).1 = none ∨
        (s.backend.get now key).1 = read s.ideal now key) ∧
      (∀ key, key ∉ s.evicted → (s.backend.get now key).1 = read s.ideal now key) ∧
      ∀ key value ttl, 0 ≤ ttl →
        (s.backend.set now key value ttl).data.entries.length ≤ maxMemoryCacheEntries ∧
        key ∈ (s.backend.set now key value ttl).data.keys ∧
        ∀ old ∈ s.backend.evictedBy now key value ttl, maxMemoryCacheEntries <
          (InMemoryBackend.liveKeys now (s.backend.data.set key (now + ttl, value))).length := by
  have hInv := inv_of_reach h
  have hCovers := hInv.covers.later hNow
  refine ⟨fun key => ?_, fun key hKept => ?_, fun key value ttl hTtl => ⟨?_, ?_, ?_⟩⟩
  · rw [get_eq_read, read, read]
    rcases hCovers.lookup_none_or key with hNone | hSame
    · left
      rw [hNone]
      rfl
    · right
      rw [hSame]
  · rw [get_eq_read, read, hCovers.lookup_eq hKept, read]
  · exact length_set key value ttl
  · exact mem_keys_set hInv.small key value hTtl
  · intro old hOld
    obtain ⟨hLive, hGone⟩ := List.mem_filter.mp hOld
    rw [Bool.and_eq_true, decide_eq_true_eq, Bool.not_eq_true', ← Bool.not_eq_true,
      Dict.contains_iff, ← Dict.mem_keys_iff] at hGone
    exact crowded_of_evicted hLive hGone.1 hGone.2

end Run

def emptyCache : State Nat := ⟨0, {}, .empty, []⟩

/-- A key is written again, another one expires, and a read sweeps nothing that counts. -/
def rewritten : List (ℚ × Op Nat) :=
  [(1, .set "status:public" (some 1) 30), (2, .set "metrics:latest" (some 9) 5),
    (10, .get "metrics:latest"), (20, .set "status:public" (some 2) 30),
    (20, .invalidatePrefix "cluster:")]

theorem backend_refines_ttl_map_rewritten : ∃ s : State Nat, Reach step Fresh Always s ∧
    (s.backend.get 50 "status:public").1 = some 2 ∧
      read s.ideal 50 "status:public" = some 2 := by
  have hRun : ∃ s : State Nat, Reach step Fresh Always s ∧
      (s.backend.get 50 "status:public").1 = some 2 ∧ s.clock ≤ 50 ∧
        ("status:public".toList : Text) ∉ s.evicted :=
    Reach.exists_of_exec rewritten (show Fresh emptyCache from ⟨rfl, rfl, rfl⟩)
      (by decide +kernel)
  obtain ⟨s, hReach, hGet, hNow, hKept⟩ := hRun
  exact ⟨s, hReach, hGet, ((backend_refines_ttl_map hReach hNow).2.1 _ hKept).symm.trans hGet⟩

end GpuMon.Cache
