import GpuMon.Library.BatchLoop
import GpuMon.Library.PyIp

/-!
# The address of a client (`security.resolve_client_ip`)

Behind a trusted proxy the address comes from `X-Forwarded-For`, read from the right until an
entry that is no trusted proxy. All entries are parsed before that.

* `walk_append`: the walk stops at the rightmost entry that is not trusted.
* `client_ip_of_suffix`: what is to the left of that entry matters only by being invalid.
-/

namespace GpuMon.ClientAddress

open PyText PyIp

/-- `TRUST_PROXY` as a flag, and `TRUSTED_PROXY_CIDRS`. -/
structure Settings where
  trustProxy : Bool
  trustedProxyCidrs : Text

/-- `resolvedClientIp` is what an earlier call left in `request.state`. -/
structure Request where
  resolvedClientIp : Text := []
  client : Option Text
  headers : List (Text × Text) := []

/-- `request.headers.get("x-forwarded-for")`. -/
def Request.forwardedFor (r : Request) : Option Text :=
  (r.headers.find? fun h => h.1 = ("x-forwarded-for" : Text)).map Prod.snd

def Request.peer (r : Request) : Text := r.client.getD "unknown"

def trustedNetworks (s : Settings) : Option (List IpNetwork) :=
  (((splitOn ',' s.trustedProxyCidrs).map strip).filter (· ≠ [])).mapM ipNetwork?

def isTrusted (trusted : List IpNetwork) (ip : IpAddress) : Bool :=
  trusted.any fun network => network.contains ip

/-- The loop over `reversed(chain)`. -/
def walk (trusted : List IpNetwork) : IpAddress → List IpAddress → IpAddress
  | current, [] => current
  | current, candidate :: rest =>
    if isTrusted trusted current then walk trusted candidate rest else current

def entries (forwarded : Text) : List Text := (splitOn ',' forwarded).map strip

def invalidForwarded : Text := "invalid-forwarded-address"

/-- The address behind a trusted peer. -/
def forwardedIp (trusted : List IpNetwork) (peerIp : IpAddress) (forwarded : Text) : Text :=
  match (entries forwarded).mapM ipAddress? with
  | none => invalidForwarded
  | some chain => (walk trusted peerIp chain.reverse).text

/-- `resolve_client_ip`. -/
def resolveClientIp (s : Settings) (r : Request) : Text :=
  if r.resolvedClientIp ≠ [] then r.resolvedClientIp
  else
    match ipAddress? r.peer, trustedNetworks s with
    | some peerIp, some trusted =>
      if s.trustProxy && isTrusted trusted peerIp then
        match r.forwardedFor with
        | none | some [] => r.peer
        | some forwarded => forwardedIp trusted peerIp forwarded
      else r.peer
    | _, _ => r.peer

/-! ## The walk -/

variable {s : Settings} {trusted : List IpNetwork} {r r' : Request}

/-- Trusted addresses are passed over. -/
theorem walk_append {current a : IpAddress} {hops rest : List IpAddress}
    (hCurrent : isTrusted trusted current) (hHops : ∀ h ∈ hops, isTrusted trusted h)
    (ha : isTrusted trusted a = false) : walk trusted current (hops ++ a :: rest) = a := by
  induction hops generalizing current with
  | nil =>
    rw [List.nil_append, walk, if_pos hCurrent]
    cases rest with
    | nil => rfl
    | cons b rest => rw [walk, if_neg (by simp [ha])]
  | cons b hops ih =>
    rw [List.cons_append, walk, if_pos hCurrent]
    exact ih (hHops b List.mem_cons_self) fun h hh => hHops h (List.mem_cons_of_mem b hh)

/-- The entries are all addresses. -/
def AllValid (parts : List Text) : Prop := ∀ t ∈ parts, (ipAddress? t).isSome

instance (parts : List Text) : Decidable (AllValid parts) := inferInstanceAs (Decidable (∀ _ ∈ _, _))

theorem allValid_iff {parts : List Text} :
    AllValid parts ↔ ∃ chain, parts.mapM ipAddress? = some chain := by
  simp only [BatchLoop.mapM_eq_some_iff]
  constructor
  · intro hValid
    induction parts with
    | nil => exact ⟨[], rfl⟩
    | cons t parts ih =>
      obtain ⟨hHead, hRest⟩ := List.forall_mem_cons.mp hValid
      obtain ⟨a, ha⟩ := Option.isSome_iff_exists.mp hHead
      obtain ⟨chain, hChain⟩ := ih hRest
      exact ⟨a :: chain, by rw [List.map_cons, List.map_cons, ha, hChain]⟩
  · rintro ⟨chain, hChain⟩ t ht
    have hMem : ipAddress? t ∈ chain.map some := hChain ▸ List.mem_map_of_mem ht
    obtain ⟨a, -, ha⟩ := List.mem_map.mp hMem
    rw [← ha]
    rfl

/-! ## What the header decides -/

/-- The request comes from a trusted peer, and names these entries. -/
structure Forwards (s : Settings) (trusted : List IpNetwork) (r : Request) (parts : List Text) :
    Prop where
  unresolved : r.resolvedClientIp = []
  trustProxy : s.trustProxy = true
  networks : trustedNetworks s = some trusted
  peer : ∃ peerIp, ipAddress? r.peer = some peerIp ∧ isTrusted trusted peerIp
  header : ∃ forwarded, r.forwardedFor = some forwarded ∧ entries forwarded = parts

/-- The entries begin with the rightmost one that is not trusted. -/
structure Untrusted (trusted : List IpNetwork) (a : IpAddress) (parts : List Text) : Prop where
  head : ∃ t hops, parts = t :: hops ∧ ipAddress? t = some a ∧
    ∀ h ∈ hops, ∃ b, ipAddress? h = some b ∧ isTrusted trusted b
  notTrusted : isTrusted trusted a = false

theorem Untrusted.chain {a : IpAddress} {parts : List Text} (h : Untrusted trusted a parts) :
    ∃ hops, parts.mapM ipAddress? = some (a :: hops) ∧ ∀ b ∈ hops, isTrusted trusted b := by
  obtain ⟨t, hops, rfl, ha, hHops⟩ := h.head
  have hValid : AllValid hops := fun u hu => by
    obtain ⟨b, hb, -⟩ := hHops u hu
    simp [hb]
  obtain ⟨chain, hChain⟩ := allValid_iff.mp hValid
  refine ⟨chain, ?_, fun b hb => ?_⟩
  · rw [BatchLoop.mapM_eq_some_iff, List.map_cons, List.map_cons, ha, BatchLoop.mapM_eq_some_iff.mp hChain]
  · have hMem : some b ∈ hops.map ipAddress? :=
      BatchLoop.mapM_eq_some_iff.mp hChain ▸ List.mem_map_of_mem hb
    obtain ⟨u, hu, hub⟩ := List.mem_map.mp hMem
    obtain ⟨b', hb', hTrusted⟩ := hHops u hu
    rw [hub] at hb'
    cases hb'
    exact hTrusted

theorem ipAddress?_nil : ipAddress? [] = none := by decide +kernel

/-- The result for a header by the entries to the left of the rightmost untrusted one. -/
theorem resolve_of_forwards {a : IpAddress} {left parts : List Text}
    (h : Forwards s trusted r (left ++ parts)) (hParts : Untrusted trusted a parts) :
    resolveClientIp s r = if AllValid left then a.text else invalidForwarded := by
  obtain ⟨peerIp, hPeer, hTrusted⟩ := h.peer
  obtain ⟨forwarded, hHeader, hEntries⟩ := h.header
  obtain ⟨hops, hChain, hHops⟩ := hParts.chain
  have hResolve : resolveClientIp s r = forwardedIp trusted peerIp forwarded := by
    rw [resolveClientIp, if_neg (not_not.mpr h.unresolved), hPeer, h.networks]
    dsimp only
    rw [h.trustProxy, Bool.true_and, if_pos hTrusted, hHeader]
    cases forwarded with
    | nil =>
      -- an empty header has no valid entry
      obtain ⟨t, rest, rfl, ha, -⟩ := hParts.head
      have hBlank : entries [] = [[]] := rfl
      rw [hBlank] at hEntries
      have ht : t ∈ ([[]] : List Text) := by simp [hEntries]
      rw [List.mem_singleton.mp ht, ipAddress?_nil] at ha
      cases ha
    | cons c forwarded => rfl
  rw [hResolve, forwardedIp, hEntries, List.mapM_append, hChain]
  by_cases hValid : AllValid left
  · obtain ⟨chain, hLeft⟩ := allValid_iff.mp hValid
    rw [if_pos hValid, hLeft]
    change (walk trusted peerIp (chain ++ a :: hops).reverse).text = a.text
    rw [List.reverse_append, List.reverse_cons, List.append_assoc, List.singleton_append,
      walk_append hTrusted (fun b hb => hHops b (List.mem_reverse.mp hb)) hParts.notTrusted]
  · rw [if_neg hValid]
    cases hLeft : left.mapM ipAddress? with
    | none => rfl
    | some chain => exact absurd (allValid_iff.mpr ⟨chain, hLeft⟩) hValid

/-- Two requests with the same entries from the rightmost untrusted one on. -/
theorem client_ip_of_suffix {a : IpAddress} {left left' parts : List Text}
    (h : Forwards s trusted r (left ++ parts)) (h' : Forwards s trusted r' (left' ++ parts))
    (hParts : Untrusted trusted a parts) :
    (AllValid left → resolveClientIp s r = a.text) ∧
    (AllValid left → AllValid left' → resolveClientIp s r = resolveClientIp s r') ∧
    (¬AllValid left → resolveClientIp s r = invalidForwarded) := by
  rw [resolve_of_forwards h hParts, resolve_of_forwards h' hParts]
  refine ⟨fun hValid => if_pos hValid, fun hValid hValid' => ?_, fun hInvalid => if_neg hInvalid⟩
  rw [if_pos hValid, if_pos hValid']

/-- Loopback is trusted. -/
def localProxy : Settings := { trustProxy := true, trustedProxyCidrs := "127.0.0.1/32" }

def fromProxy (forwarded : Text) : Request :=
  { client := some "127.0.0.1", headers := [("x-forwarded-for", forwarded)] }

def loopback : List IpNetwork := [.v4 0x7f000001#32 0xffffffff#32]

theorem loopback_address : ipAddress? "127.0.0.1" = some (.v4 0x7f000001#32) := by decide +kernel

theorem forwards_fromProxy {forwarded : Text} {parts : List Text}
    (h : entries forwarded = parts) : Forwards localProxy loopback (fromProxy forwarded) parts where
  unresolved := rfl
  trustProxy := rfl
  networks := by decide +kernel
  peer := ⟨.v4 0x7f000001#32, loopback_address, by decide +kernel⟩
  header := ⟨forwarded, rfl, h⟩

theorem client_ip_of_suffix_sample :
    resolveClientIp localProxy (fromProxy "203.0.113.9, 198.51.100.10, 127.0.0.1") =
      resolveClientIp localProxy (fromProxy "198.51.100.10,127.0.0.1") := by
  have hLong : entries "203.0.113.9, 198.51.100.10, 127.0.0.1" =
      ["203.0.113.9".toList] ++ ["198.51.100.10".toList, "127.0.0.1".toList] := by decide +kernel
  have hShort : entries "198.51.100.10,127.0.0.1" =
      [] ++ ["198.51.100.10".toList, "127.0.0.1".toList] := by decide +kernel
  refine (client_ip_of_suffix (a := .v4 0xc633640a#32) (forwards_fromProxy hLong)
    (forwards_fromProxy hShort) ⟨⟨_, _, rfl, by decide +kernel, ?_⟩, by decide +kernel⟩).2.1
    (by decide +kernel) (by decide +kernel)
  exact List.forall_mem_singleton.mpr ⟨.v4 0x7f000001#32, loopback_address, by decide +kernel⟩

/-- Text that is no address, left of the same entry, changes the result. -/
theorem client_ip_left_entry :
    entries "x, 198.51.100.10" = ["x".toList] ++ entries "198.51.100.10" ∧
      (ipAddress? "198.51.100.10").map (isTrusted loopback) = some false ∧
      trustedNetworks localProxy = some loopback ∧
      resolveClientIp localProxy (fromProxy "x, 198.51.100.10") ≠
        resolveClientIp localProxy (fromProxy "198.51.100.10") := by
  decide +kernel

end GpuMon.ClientAddress
