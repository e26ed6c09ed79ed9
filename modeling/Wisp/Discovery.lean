import Mathlib.Data.List.AList
import Wisp.MessageKeys

/-! The decisions of LAN discovery, without its sockets: which heard broker is
dialed, and which links are dropped. A datagram is given as the beacon it decodes to. -/
namespace Wisp

structure Beacon where
  cluster : Str
  uuid : Str
  routerPort : UInt16
  tapPort : UInt16
  deriving DecidableEq, Repr

/-- Where a heard broker is dialed. -/
def Beacon.address (senderIp : Str) (heard : Beacon) : Str :=
  str "tcp://" ++ senderIp ++ str ":" ++ str (toString heard.routerPort.toNat)

def Beacon.isValidClusterName (cluster : Str) : Bool :=
  !cluster.isEmpty && cluster.length ≤ 64 && !cluster.contains 124

/-- A peer of `m_dialed`; `lastSeen` is in milliseconds. -/
structure PeerEntry where
  address : Str
  lastSeen : Nat
  deriving DecidableEq, Repr

structure Discovery where
  cluster : Str
  selfUuid : Str
  dialed : AList fun _ : Str => PeerEntry

namespace Discovery

def maxDialedPeers : Nat := 64
def peerTimeout : Nat := 5000

/-- The new state and the link to dial, if any. Of a pair only the broker with the
smaller uuid dials. -/
def onDatagram (senderIp : Str) (heard : Beacon) (now : Nat) (d : Discovery) :
    Discovery × Option (Str × Str) :=
  if heard.uuid = d.selfUuid then (d,none)
  else if ¬d.selfUuid < heard.uuid then (d,none)
  else
    let address := str "tcp://" ++ senderIp ++ str ":" ++ str (toString heard.routerPort.toNat)
    if heard.cluster ≠ d.cluster then (d,none)
    else if heard.uuid ∈ d.dialed then
      ({ d with dialed := d.dialed.insert heard.uuid ⟨address,now⟩ },none)
    else if d.dialed.keys.length ≥ maxDialedPeers then (d,none)
    else ({ d with dialed := d.dialed.insert heard.uuid ⟨address,now⟩ },some (heard.uuid,address))

/-- The new state and the uuids whose links are dropped. -/
def setCluster (cluster : Str) (d : Discovery) : Discovery × List Str :=
  if cluster = d.cluster then (d,[])
  else ({ d with cluster, dialed := ∅ },d.dialed.keys)

def expireStale (now : Nat) (d : Discovery) : Discovery × List Str :=
  let lost := d.dialed.keys.filter fun uuid =>
    match d.dialed.lookup uuid with
    | none => false
    | some entry => now - entry.lastSeen > peerTimeout
  ({ d with dialed := lost.foldl (fun dialed uuid => dialed.erase uuid) d.dialed },lost)

/-- What a datagram does: nothing, or it refreshes a dialed peer, or it adds one. -/
inductive Hears (senderIp : Str) (heard : Beacon) (now : Nat) (d : Discovery) : Discovery × Option (Str × Str) → Prop
  | ignored : Hears senderIp heard now d (d,none)
  | refreshed (cluster : heard.cluster = d.cluster) (known : heard.uuid ∈ d.dialed) :
      Hears senderIp heard now d
        ({ d with dialed := d.dialed.insert heard.uuid ⟨heard.address senderIp,now⟩ },none)
  | dialed (cluster : heard.cluster = d.cluster) (unknown : heard.uuid ∉ d.dialed) :
      Hears senderIp heard now d
        ({ d with dialed := d.dialed.insert heard.uuid ⟨heard.address senderIp,now⟩ },
          some (heard.uuid,heard.address senderIp))

theorem onDatagram_hears (senderIp : Str) (heard : Beacon) (now : Nat) (d : Discovery) :
    Hears senderIp heard now d (d.onDatagram senderIp heard now) := by
  unfold onDatagram
  dsimp only
  split
  · exact .ignored
  · split
    · exact .ignored
    · split
      · exact .ignored
      next same =>
        have cluster : heard.cluster = d.cluster := not_not.mp same
        split
        next known => exact .refreshed cluster known
        next unknown =>
          split
          · exact .ignored
          · exact .dialed cluster unknown

theorem mem_foldl_erase (lost : List Str) (dialed : AList fun _ : Str => PeerEntry) (uuid : Str) :
    uuid ∈ lost.foldl (fun dialed uuid => dialed.erase uuid) dialed ↔ uuid ∉ lost ∧ uuid ∈ dialed := by
  induction lost generalizing dialed with
  | nil => simp
  | cons first rest ih =>
    rw [List.foldl_cons,ih,AList.mem_erase,List.mem_cons]
    tauto

theorem mem_expireStale (now : Nat) (d : Discovery) (uuid : Str) :
    uuid ∈ (d.expireStale now).1.dialed ↔ uuid ∉ (d.expireStale now).2 ∧ uuid ∈ d.dialed :=
  mem_foldl_erase _ _ _

end Discovery

end Wisp
