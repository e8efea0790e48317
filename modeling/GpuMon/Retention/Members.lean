import GpuMon.Library.BatchLoop
import GpuMon.Library.Regex
import GpuMon.Retention.Restore

/-!
# The members of an archive (`scripts/restore_archive.py`)

Before anything is read, `_safe_members` goes through the headers of the archive. The two members
carry the time of the archive in their names.

* `scanMember_eq_ok_iff`: what one header must be for the loop to go on.
* `safeMembers_eq_ok_iff`: the archives that are let through.
* `rejected_ofMembers`: their members are within the limits of the restore.
-/

namespace GpuMon.Retention

open PyText Regex

/-! ## The loop -/

/-- A header of the archive; `type` is its type byte, and a size may be negative in a header that
was tampered with. -/
structure TarInfo where
  name : Text
  type : Char := '0'
  size : Int
  deriving DecidableEq

/-- `member.isfile()`: a plain, old, contiguous or sparse file. -/
def TarInfo.isFile (m : TarInfo) : Bool := m.type ∈ ['0', '\x00', '7', 'S']

def stampRegex : Regex :=
  all [times 4 isDecimal, lit "-", times 2 isDecimal, lit "-", times 2 isDecimal, lit "_",
    times 6 isDecimal]

/-- `_METRICS_NAME`. -/
def metricsName : Regex := between "server_metrics_" stampRegex ".jsonl"

/-- `_SERVERS_NAME`. -/
def serversName : Regex := between "servers_" stampRegex ".jsonl"

/-- `r.fullmatch(name).group(1)`, for a name that matches. -/
def stampOf? (r : Regex) (name : Text) : Option Text :=
  (fullmatch? r name).bind fun m => m.group? 1

/-- `members`, and the entries of `stamps`. -/
structure Scan where
  members : List TarInfo := []
  metrics : Option Text := none
  servers : Option Text := none

def scanMember (s : Scan) (m : TarInfo) : Except Text Scan :=
  if 2 ≤ s.members.length then .error "archive contains too many members"
  else if !m.isFile ∨ '/' ∈ m.name ∨ '\\' ∈ m.name then
    .error ("unsafe archive member: ".toList ++ m.name)
  else
    match stampOf? metricsName m.name, stampOf? serversName m.name with
    | some stamp, _ =>
      if s.metrics.isSome ∨ maxMetricsBytes < m.size then
        .error ("invalid metrics member: ".toList ++ m.name)
      else .ok { s with members := s.members ++ [m], metrics := some stamp }
    | none, some stamp =>
      if s.servers.isSome ∨ maxServersBytes < m.size then
        .error ("invalid servers member: ".toList ++ m.name)
      else .ok { s with members := s.members ++ [m], servers := some stamp }
    | none, none => .error ("unexpected archive member: ".toList ++ m.name)

/-- What is checked after the loop. -/
def checkStamps (s : Scan) : Except Text (List TarInfo) :=
  match s.metrics with
  | none => .error "archive has no metrics member"
  | some metrics =>
    if s.servers.any fun servers => servers ≠ metrics then
      .error "archive member timestamps do not match"
    else .ok s.members

/-- `_safe_members`. -/
def safeMembers (tf : List TarInfo) : Except Text (List TarInfo) := do
  checkStamps (← tf.foldlM scanMember {})

/-! ## The names -/

/-- So many decimal digits. -/
def IsDigits (n : Nat) (t : Text) : Prop := t.length = n ∧ ∀ x ∈ t, isDecimal x = true

/-- `2024-05-01_083000`. -/
def IsStamp (stamp : Text) : Prop :=
  ∃ year month day time, IsDigits 4 year ∧ IsDigits 2 month ∧ IsDigits 2 day ∧ IsDigits 6 time ∧
    stamp = year ++ ['-'] ++ month ++ ['-'] ++ day ++ ['_'] ++ time

theorem takes_stampRegex : Takes stampRegex IsStamp := by
  have hParts := (takes_times 4 isDecimal).seq ((takes_lit "-").seq ((takes_times 2 isDecimal).seq
    ((takes_lit "-").seq ((takes_times 2 isDecimal).seq ((takes_lit "_").seq
      (takes_times 6 isDecimal))))))
  intro c e
  refine (hParts c e).trans (exists_congr fun t => and_congr_left fun _ => ?_)
  constructor
  · rintro ⟨year, _, rfl, hYear, _, _, rfl, rfl, month, _, rfl, hMonth, _, _, rfl, rfl, day, _, rfl,
      hDay, _, time, rfl, rfl, hTime⟩
    exact ⟨year, month, day, time, hYear, hMonth, hDay, hTime, by simp⟩
  · rintro ⟨year, month, day, time, hYear, hMonth, hDay, hTime, rfl⟩
    exact ⟨year, _, by simp only [List.append_assoc], hYear, ['-'], _, rfl, rfl, month, _, rfl,
      hMonth, ['-'], _, rfl, rfl, day, _, rfl, hDay, ['_'], time, rfl, rfl, hTime⟩

/-- A regular file with a name of its kind, a stamp and a size within the limit. -/
structure IsMember (head : Text) (limit : Nat) (stamp : Text) (m : TarInfo) : Prop where
  regular : m.isFile = true
  noSlash : '/' ∉ m.name
  noBackslash : '\\' ∉ m.name
  name : m.name = head ++ stamp ++ ".jsonl".toList
  stamp : IsStamp stamp
  size : m.size ≤ limit

def IsMetrics : Text → TarInfo → Prop := IsMember "server_metrics_" maxMetricsBytes

def IsServers : Text → TarInfo → Prop := IsMember "servers_" maxServersBytes

theorem stampOf?_metricsName {name stamp : Text} : stampOf? metricsName name = some stamp ↔
    name = "server_metrics_".toList ++ stamp ++ ".jsonl".toList ∧ IsStamp stamp :=
  fullmatch?_between takes_stampRegex

theorem stampOf?_serversName {name stamp : Text} : stampOf? serversName name = some stamp ↔
    name = "servers_".toList ++ stamp ++ ".jsonl".toList ∧ IsStamp stamp :=
  fullmatch?_between takes_stampRegex

/-- A name of one kind is none of the other. -/
theorem stampOf?_serversName_eq_none {name stamp : Text}
    (h : stampOf? metricsName name = some stamp) : stampOf? serversName name = none := by
  rw [Option.eq_none_iff_forall_ne_some]
  intro other hOther
  rw [stampOf?_metricsName] at h
  rw [stampOf?_serversName, h.1] at hOther
  simp at hOther

/-! ## What is let through -/

/-- A member is taken when it is the first of its kind and within the limit. -/
theorem accepted_iff {slot : Option Text} {limit : Nat} {size : Int} {e : Text} {s t : Scan} :
    (if slot.isSome ∨ limit < size then .error e else .ok s : Except Text Scan) = .ok t ↔
      slot = none ∧ size ≤ limit ∧ t = s := by
  split
  · rename_i hRefused
    refine iff_of_false (by simp) fun ⟨hNew, hSize, _⟩ => ?_
    rw [hNew] at hRefused
    simp [hSize.not_gt] at hRefused
  · rename_i hRefused
    rw [not_or, not_lt, Option.not_isSome_iff_eq_none] at hRefused
    simp [hRefused.1, hRefused.2, eq_comm]

/-- A member whose name the pattern of its kind takes. -/
theorem isMember_iff {head stamp : Text} {limit : Nat} {pattern : Regex} {m : TarInfo}
    (hPattern : ∀ {name stamp : Text}, stampOf? pattern name = some stamp ↔
      name = head ++ stamp ++ ".jsonl".toList ∧ IsStamp stamp)
    (hFile : m.isFile = true) (hSlash : '/' ∉ m.name) (hBackslash : '\\' ∉ m.name) :
    IsMember head limit stamp m ↔ stampOf? pattern m.name = some stamp ∧ m.size ≤ limit := by
  rw [hPattern]
  constructor
  · exact fun h => ⟨⟨h.name, h.stamp⟩, h.size⟩
  · exact fun h => ⟨hFile, hSlash, hBackslash, h.1.1, h.1.2, h.2⟩

theorem scanMember_eq_ok_iff {s t : Scan} {m : TarInfo} :
    scanMember s m = .ok t ↔ s.members.length < 2 ∧
      ((∃ stamp, IsMetrics stamp m ∧ s.metrics = none ∧
          t = { s with members := s.members ++ [m], metrics := some stamp }) ∨
        ∃ stamp, IsServers stamp m ∧ s.servers = none ∧
          t = { s with members := s.members ++ [m], servers := some stamp }) := by
  rw [scanMember]
  split
  · rename_i hFull
    exact iff_of_false (by simp) fun h => absurd h.1 (not_lt.mpr hFull)
  · rename_i hRoom
    rw [and_iff_right (not_le.mp hRoom)]
    split
    · rename_i hUnsafe
      refine iff_of_false (by simp) ?_
      have hRefused : ∀ head limit stamp, ¬IsMember head limit stamp m := fun head limit stamp h => by
        simp [h.regular, h.noSlash, h.noBackslash] at hUnsafe
      rintro (⟨stamp, h, -⟩ | ⟨stamp, h, -⟩)
      · exact hRefused _ _ stamp h
      · exact hRefused _ _ stamp h
    · rename_i hSafe
      simp only [not_or, Bool.not_eq_true', Bool.not_eq_false] at hSafe
      obtain ⟨hFile, hSlash, hBackslash⟩ := hSafe
      have hMetrics : ∀ stamp, IsMetrics stamp m ↔
          stampOf? metricsName m.name = some stamp ∧ m.size ≤ maxMetricsBytes := fun stamp =>
        isMember_iff stampOf?_metricsName hFile hSlash hBackslash
      have hServers : ∀ stamp, IsServers stamp m ↔
          stampOf? serversName m.name = some stamp ∧ m.size ≤ maxServersBytes := fun stamp =>
        isMember_iff stampOf?_serversName hFile hSlash hBackslash
      simp only [hMetrics, hServers]
      cases hFirst : stampOf? metricsName m.name with
      | some stamp =>
        rw [stampOf?_serversName_eq_none hFirst]
        refine accepted_iff.trans ?_
        simp only [Option.some.injEq, reduceCtorEq, false_and, exists_false, or_false, and_assoc,
          exists_eq_left', and_left_comm]
      | none =>
        cases hSecond : stampOf? serversName m.name with
        | some stamp =>
          refine accepted_iff.trans ?_
          simp only [Option.some.injEq, reduceCtorEq, false_and, exists_false, false_or, and_assoc,
            exists_eq_left', and_left_comm]
        | none => simp

theorem scanMember_metrics {s : Scan} {stamp : Text} {m : TarInfo} (h : IsMetrics stamp m)
    (hRoom : s.members.length < 2) (hNew : s.metrics = none) :
    scanMember s m = .ok { s with members := s.members ++ [m], metrics := some stamp } :=
  scanMember_eq_ok_iff.mpr ⟨hRoom, .inl ⟨stamp, h, hNew, rfl⟩⟩

theorem scanMember_servers {s : Scan} {stamp : Text} {m : TarInfo} (h : IsServers stamp m)
    (hRoom : s.members.length < 2) (hNew : s.servers = none) :
    scanMember s m = .ok { s with members := s.members ++ [m], servers := some stamp } :=
  scanMember_eq_ok_iff.mpr ⟨hRoom, .inr ⟨stamp, h, hNew, rfl⟩⟩

/-- What the loop has found so far: a member of each kind at most, in some order. -/
def Scanned (s : Scan) : Prop :=
  ∃ metrics servers : Option TarInfo, s.members.Perm (metrics.toList ++ servers.toList) ∧
    Option.Rel IsMetrics s.metrics metrics ∧ Option.Rel IsServers s.servers servers

theorem scanned_step {s t : Scan} {m : TarInfo} (h : Scanned s) (hStep : scanMember s m = .ok t) :
    Scanned t := by
  obtain ⟨metrics, servers, hPerm, hMetrics, hServers⟩ := h
  obtain ⟨-, ⟨stamp, hKind, hNew, rfl⟩ | ⟨stamp, hKind, hNew, rfl⟩⟩ := scanMember_eq_ok_iff.mp hStep
  · rw [hNew] at hMetrics
    cases hMetrics
    refine ⟨some m, servers, ?_, .some hKind, hServers⟩
    exact (List.perm_append_comm.trans (hPerm.cons m))
  · rw [hNew] at hServers
    cases hServers
    refine ⟨metrics, some m, ?_, hMetrics, .some hKind⟩
    rw [Option.toList_none, List.append_nil] at hPerm
    exact hPerm.append_right [m]

theorem scanned_run {tf : List TarInfo} {s t : Scan} (h : Scanned s)
    (hRun : tf.foldlM scanMember s = .ok t) : Scanned t ∧ t.members = s.members ++ tf := by
  induction tf generalizing s with
  | nil =>
    cases hRun
    exact ⟨h, (List.append_nil _).symm⟩
  | cons m tf ih =>
    rw [List.foldlM_cons] at hRun
    obtain ⟨next, hStep, hRest⟩ := BatchLoop.ok_of_bind hRun
    obtain ⟨hScanned, hMembers⟩ := ih (scanned_step h hStep) hRest
    refine ⟨hScanned, hMembers.trans ?_⟩
    obtain ⟨-, ⟨stamp, -, -, rfl⟩ | ⟨stamp, -, -, rfl⟩⟩ := scanMember_eq_ok_iff.mp hStep
    · exact List.append_assoc _ [m] tf
    · exact List.append_assoc _ [m] tf

/-- One member with metrics, and with it at most one with the servers of the same time. -/
def IsIntended (tf : List TarInfo) : Prop :=
  ∃ stamp metrics, IsMetrics stamp metrics ∧
    (tf.Perm [metrics] ∨ ∃ servers, IsServers stamp servers ∧ tf.Perm [metrics, servers])

theorem isIntended_of_safeMembers {tf members : List TarInfo} (h : safeMembers tf = .ok members) :
    members = tf ∧ IsIntended tf := by
  obtain ⟨s, hRun, hEnd⟩ := BatchLoop.ok_of_bind h
  rw [checkStamps] at hEnd
  have hStart : Scanned {} := ⟨none, none, .refl _, .none, .none⟩
  obtain ⟨⟨metrics, servers, hPerm, hMetrics, hServers⟩, hMembers⟩ := scanned_run hStart hRun
  rw [hMembers, List.nil_append] at hPerm
  cases hFound : s.metrics with
  | none =>
    rw [hFound] at hEnd
    cases hEnd
  | some stamp =>
    rw [hFound] at hEnd hMetrics
    cases hMetrics with
    | some hMember =>
      dsimp only at hEnd
      split at hEnd
      · cases hEnd
      · rename_i hStamps
        cases hEnd
        refine ⟨hMembers, stamp, _, hMember, ?_⟩
        cases hOther : s.servers with
        | none =>
          rw [hOther] at hServers
          cases hServers
          exact .inl hPerm
        | some other =>
          rw [hOther] at hServers hStamps
          obtain rfl : other = stamp := by simpa using hStamps
          cases hServers with
          | some hServer => exact .inr ⟨_, hServer, hPerm⟩

theorem foldlM_pair {s t u : Scan} {a b : TarInfo} (hFirst : scanMember s a = .ok t)
    (hSecond : scanMember t b = .ok u) : [a, b].foldlM scanMember s = .ok u := by
  rw [List.foldlM_cons, hFirst]
  change [b].foldlM scanMember t = .ok u
  rw [List.foldlM_cons, hSecond]
  rfl

theorem safeMembers_of_isIntended {tf : List TarInfo} (h : IsIntended tf) :
    safeMembers tf = .ok tf := by
  obtain ⟨stamp, metrics, hMetrics, hPerm | ⟨servers, hServers, hPerm⟩⟩ := h
  · obtain rfl := List.perm_singleton.mp hPerm
    rw [safeMembers, List.foldlM_cons, scanMember_metrics hMetrics (by decide) rfl]
    rfl
  · have hEnd : ∀ members, checkStamps ⟨members, some stamp, some stamp⟩ = .ok members := by
      simp [checkStamps]
    rcases List.perm_pair.mp hPerm with rfl | rfl
    · rw [safeMembers, foldlM_pair (scanMember_metrics hMetrics (by decide) rfl)
        (scanMember_servers hServers (by simp) rfl)]
      exact hEnd _
    · rw [safeMembers, foldlM_pair (scanMember_servers hServers (by decide) rfl)
        (scanMember_metrics hMetrics (by simp) rfl)]
      exact hEnd _

/-- The archives that are let through, whole and in their order; every other one is an error. -/
theorem safeMembers_eq_ok_iff (tf members : List TarInfo) :
    safeMembers tf = .ok members ↔ members = tf ∧ IsIntended tf := by
  constructor
  · exact isIntended_of_safeMembers
  · rintro ⟨rfl, h⟩
    exact safeMembers_of_isIntended h

/-! ## What the restore is given -/

/-- The archive that `main` goes on with: the members it looks for by the heads of their names. -/
def Archive.ofMembers (size : Nat) (encrypted : Bool) (content : TarInfo → Bytes)
    (members : List TarInfo) : Archive where
  size := size
  encrypted := encrypted
  servers := (members.find? fun m => startsWith m.name "servers_").map content
  metrics := ((members.find? fun m => startsWith m.name "server_metrics_").map content).getD []

theorem kind_of_intended {tf : List TarInfo} (h : IsIntended tf) {m : TarInfo} (hm : m ∈ tf) :
    ∃ stamp, IsMetrics stamp m ∨ IsServers stamp m := by
  obtain ⟨stamp, metrics, hMetrics, hPerm | ⟨servers, hServers, hPerm⟩⟩ := h
  · obtain rfl := List.mem_singleton.mp (hPerm.mem_iff.mp hm)
    exact ⟨stamp, .inl hMetrics⟩
  · rcases List.mem_pair.mp (hPerm.mem_iff.mp hm) with rfl | rfl
    · exact ⟨stamp, .inl hMetrics⟩
    · exact ⟨stamp, .inr hServers⟩

theorem not_startsWith_servers {stamp : Text} {m : TarInfo} (h : IsMetrics stamp m) :
    startsWith m.name "servers_" = false := by
  rw [h.name]
  rfl

theorem not_startsWith_metrics {stamp : Text} {m : TarInfo} (h : IsServers stamp m) :
    startsWith m.name "server_metrics_" = false := by
  rw [h.name]
  rfl

/-- The member with the head of one kind is of that kind. -/
theorem isMetrics_of_find? {tf : List TarInfo} (h : IsIntended tf) {m : TarInfo}
    (hFind : tf.find? (fun m => startsWith m.name "server_metrics_") = some m) :
    ∃ stamp, IsMetrics stamp m := by
  obtain ⟨stamp, hKind | hKind⟩ := kind_of_intended h (List.mem_of_find?_eq_some hFind)
  · exact ⟨stamp, hKind⟩
  · have hHead := List.find?_some hFind
    rw [not_startsWith_metrics hKind] at hHead
    cases hHead

theorem isServers_of_find? {tf : List TarInfo} (h : IsIntended tf) {m : TarInfo}
    (hFind : tf.find? (fun m => startsWith m.name "servers_") = some m) :
    ∃ stamp, IsServers stamp m := by
  obtain ⟨stamp, hKind | hKind⟩ := kind_of_intended h (List.mem_of_find?_eq_some hFind)
  · have hHead := List.find?_some hFind
    rw [not_startsWith_servers hKind] at hHead
    cases hHead
  · exact ⟨stamp, hKind⟩

/-- Members that are let through, each as long as its header says, are within the limits that the
restore relies on. -/
theorem rejected_ofMembers {tf members : List TarInfo} (h : safeMembers tf = .ok members)
    {content : TarInfo → Bytes} (hContent : ∀ m ∈ members, ((content m).length : Int) = m.size)
    (opts : Options) (size : Nat) (encrypted : Bool) :
    (Archive.ofMembers size encrypted content members).rejected opts =
      (decide (maxArchiveBytes < size) || (!encrypted && !opts.allowLegacyUnencrypted)) := by
  obtain ⟨rfl, hIntended⟩ := isIntended_of_safeMembers h
  have hMetrics :
      ¬maxMetricsBytes < (Archive.ofMembers size encrypted content members).metrics.length := by
    rw [Archive.ofMembers]
    cases hFind : members.find? fun m => startsWith m.name "server_metrics_" with
    | none => simp
    | some m =>
      obtain ⟨stamp, hKind⟩ := isMetrics_of_find? hIntended hFind
      have hSize := hKind.size
      rw [← hContent m (List.mem_of_find?_eq_some hFind)] at hSize
      rw [Option.map_some, Option.getD_some]
      dsimp only
      omega
  have hServers : (Archive.ofMembers size encrypted content members).servers.any
      (fun content => decide (maxServersBytes < content.length)) = false := by
    rw [Archive.ofMembers]
    cases hFind : members.find? fun m => startsWith m.name "servers_" with
    | none => rfl
    | some m =>
      obtain ⟨stamp, hKind⟩ := isServers_of_find? hIntended hFind
      have hSize := hKind.size
      rw [← hContent m (List.mem_of_find?_eq_some hFind)] at hSize
      rw [Option.map_some, Option.any_some, decide_eq_false_iff_not]
      omega
  rw [Archive.rejected, hServers, decide_eq_false hMetrics, Bool.or_false, Bool.or_false]
  rfl

end GpuMon.Retention
