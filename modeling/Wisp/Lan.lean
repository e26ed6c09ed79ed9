import Mathlib.Data.Fintype.Card
import Wisp.DiscoveryTrace
import Wisp.Pace

/-! Discovery across a LAN. Every broker announces itself by broadcast and listens for the
others, on a thread that goes round `BrokerDiscovery::run`; its broker thread may switch the
cluster between any two steps of it. A datagram that is on the air may reach a broker late,
twice, or never. -/
namespace Wisp

open Transition Pace

/-- Who a broker is on the LAN. Without a port there is nothing to announce, and
`Broker::start` leaves discovery off. -/
structure Site where
  uuid : Str
  ip : Str
  routerPort : UInt16
  tapPort : UInt16
  plain : Beacon.bar ∉ uuid
  usable : routerPort ≠ 0

namespace Site

def announces (cluster : Str) (site : Site) : Beacon := ⟨cluster,site.uuid,site.routerPort,site.tapPort⟩

def wire (cluster : Str) (site : Site) : Str := Beacon.encode cluster site.uuid site.routerPort site.tapPort

def address (cluster : Str) (site : Site) : Str := (site.announces cluster).address site.ip

theorem decode_wire (site : Site) {cluster : Str} (valid : Beacon.isValidClusterName cluster = true) :
    Beacon.decode (site.wire cluster) = some (site.announces cluster) := by
  simp only [Beacon.isValidClusterName,Bool.and_eq_true,Bool.not_eq_true',List.contains_eq_mem,
    decide_eq_false_iff_not] at valid
  exact Beacon.decode_encode cluster site.uuid site.routerPort site.tapPort valid.2 site.plain site.usable

end Site

structure Network (n : Nat) where
  site : Fin n → Site
  distinct : Function.Injective fun i => (site i).uuid

/-- An announcement on the air. -/
structure Packet (n : Nat) where
  sender : Fin n
  cluster : Str
  sentAt : Nat
  deriving DecidableEq, Repr

/-- Where a thread is in `BrokerDiscovery::run`. -/
inductive Station.Point (n : Nat) where
  | off
  | top
  | announcing (now : Nat)
  | sending (now : Nat) (cluster : Str)
  | expiring (now : Nat)
  | receiving
  | hearing (packet : Packet n) (now : Nat)
  deriving DecidableEq, Repr

/-- A broker's discovery. What it announced and heard is kept since it began with the table
and the cluster it has. -/
structure Station (n : Nat) where
  discovery : Discovery
  running : Bool
  point : Station.Point n
  nextBeacon : Nat
  turned : Nat
  since : Nat
  announced : List (Packet n)
  heard : List (Packet n × Nat)

namespace Station

variable {n : Nat}

inductive Deed (n : Nat) where
  | start
  | stop
  | turn
  | encode
  | broadcast
  | expire
  | receive (packet : Option (Packet n))
  | handle
  | setCluster (cluster : Str)
  deriving DecidableEq, Repr

def beaconInterval : Nat := 1000

def act (net : Network n) (i : Fin n) (clock : Nat) : Deed n → Station n → Outcome (Station n) Discovery.Report
  | .start,t =>
    if t.point = .off then
      ⟨{ t with
          discovery := { t.discovery with dialed := ∅ }
          running := true
          point := .top
          nextBeacon := clock
          turned := clock
          since := clock
          announced := []
          heard := [] },[]⟩
    else ⟨t,[]⟩
  | .stop,t => ⟨{ t with running := false },[]⟩
  | .turn,t =>
    match t.point with
    | .top =>
      if !t.running then ⟨{ t with point := .off },[]⟩
      else if clock ≥ t.nextBeacon then ⟨{ t with turned := clock, point := .announcing clock },[]⟩
      else ⟨{ t with turned := clock, point := .receiving },[]⟩
    | _ => ⟨t,[]⟩
  | .encode,t =>
    match t.point with
    | .announcing now => ⟨{ t with point := .sending now t.discovery.cluster },[]⟩
    | _ => ⟨t,[]⟩
  | .broadcast,t =>
    match t.point with
    | .sending now cluster =>
      -- what was encoded before a switch of the cluster is no announcement in the new one
      let announced := if cluster = t.discovery.cluster then t.announced ++ [⟨i,cluster,clock⟩] else t.announced
      ⟨{ t with announced, point := .expiring now },[]⟩
    | _ => ⟨t,[]⟩
  | .expire,t =>
    match t.point with
    | .expiring now =>
      let swept := t.discovery.call (.expireStale now)
      ⟨{ t with discovery := swept.state, nextBeacon := now + beaconInterval, point := .receiving },swept.events⟩
    | _ => ⟨t,[]⟩
  | .receive packet,t =>
    match t.point with
    | .receiving =>
      match packet with
      | none => ⟨{ t with point := .top },[]⟩
      | some packet => ⟨{ t with point := .hearing packet clock },[]⟩
    | _ => ⟨t,[]⟩
  | .handle,t =>
    match t.point with
    | .hearing packet now =>
      let sender := net.site packet.sender
      let taken := t.discovery.call (.onDatagram sender.ip (sender.wire packet.cluster) now)
      ⟨{ t with discovery := taken.state, heard := t.heard ++ [(packet,now)], point := .top },taken.events⟩
    | _ => ⟨t,[]⟩
  | .setCluster cluster,t =>
    -- the broker checks the name before it passes it on
    if !Beacon.isValidClusterName cluster || cluster == t.discovery.cluster then ⟨t,[]⟩
    else
      let switched := t.discovery.call (.setCluster cluster)
      ⟨{ t with discovery := switched.state, since := clock, announced := [], heard := [] },switched.events⟩

def sends (i : Fin n) (clock : Nat) : Deed n → Station n → List (Packet n)
  | .broadcast,t =>
    match t.point with
    | .sending _ cluster => [⟨i,cluster,clock⟩]
    | _ => []
  | _,_ => []

/-- Only what is on the air is received. -/
def Deed.possible (air : List (Packet n)) : Deed n → Bool
  | .receive (some packet) => decide (packet ∈ air)
  | _ => true

end Station

structure Lan (n : Nat) where
  clock : Nat
  station : Fin n → Station n
  /-- Everything that was ever sent. -/
  air : List (Packet n)

namespace Lan

variable {n : Nat}

inductive Label (n : Nat) where
  | pass (ms : Nat)
  | act (i : Fin n) (deed : Station.Deed n)
  deriving DecidableEq, Repr

def step (net : Network n) : Label n → Lan n → Outcome (Lan n) (Fin n × Discovery.Report)
  | .pass ms,s => ⟨{ s with clock := s.clock + ms },[]⟩
  | .act i deed,s =>
    if deed.possible s.air then
      let done := (s.station i).act net i s.clock deed
      ⟨{ s with
          station := Function.update s.station i done.state
          air := s.air ++ (s.station i).sends i s.clock deed },done.events.map fun report => (i,report)⟩
    else ⟨s,[]⟩

/-- `enableDiscovery` takes no other names. -/
abbrev ClusterName := { cluster : Str // Beacon.isValidClusterName cluster = true }

/-- Nobody has been started. -/
def initial (net : Network n) (cluster : Fin n → ClusterName) : Lan n where
  clock := 0
  station i := ⟨⟨cluster i,(net.site i).uuid,∅⟩,false,.off,0,0,0,[],[]⟩
  air := []

end Lan

namespace Station

variable {n : Nat}

/-- What a table has to do with what was heard. -/
structure Table (net : Network n) (i : Fin n) (clock : Nat) (d : Discovery) (heard : List (Packet n × Nat)) : Prop where
  self : d.selfUuid = (net.site i).uuid
  valid : Beacon.isValidClusterName d.cluster = true
  past : ∀ sighting ∈ heard, sighting.1.sentAt ≤ sighting.2 ∧ sighting.2 ≤ clock
  /-- An entry is there because its broker was heard. -/
  genuine : ∀ uuid entry, d.dialed.lookup uuid = some entry → ∃ packet, (packet,entry.lastSeen) ∈ heard ∧
    packet.cluster = d.cluster ∧ (net.site packet.sender).uuid = uuid ∧ d.selfUuid < uuid ∧
    entry.address = (net.site packet.sender).address d.cluster
  /-- Whoever was heard a short time ago is there. -/
  recent : n ≤ 65 → ∀ packet seen, (packet,seen) ∈ heard → packet.cluster = d.cluster →
    d.selfUuid < (net.site packet.sender).uuid → clock ≤ seen + Discovery.peerTimeout →
    ∃ entry, d.dialed.lookup (net.site packet.sender).uuid = some entry ∧ seen ≤ entry.lastSeen

namespace Table

variable {net : Network n} {i : Fin n} {clock : Nat} {d : Discovery} {heard : List (Packet n × Nat)}

theorem later (table : Table net i clock d heard) {clock' : Nat} (passes : clock ≤ clock') : Table net i clock' d heard where
  self := table.self
  valid := table.valid
  past sighting member := ⟨(table.past sighting member).1,le_trans (table.past sighting member).2 passes⟩
  genuine := table.genuine
  recent few packet seen member same below soon := table.recent few packet seen member same below (le_trans passes soon)

theorem cleared (self : d.selfUuid = (net.site i).uuid) (valid : Beacon.isValidClusterName d.cluster = true)
    (empty : d.dialed = ∅) : Table net i clock d [] where
  self := self
  valid := valid
  past := nofun
  genuine uuid entry found := by
    rw [empty] at found
    cases found
  recent := nofun

/-- A sweep takes nobody who was heard a short time ago. -/
theorem sweep (table : Table net i clock d heard) {now : Nat} (past : now ≤ clock) :
    Table net i clock (d.expireStale now).1 heard where
  self := table.self
  valid := table.valid
  past := table.past
  genuine uuid entry found := by
    have present : uuid ∈ (d.expireStale now).1.dialed := AList.lookup_isSome.mp (by rw [found]; rfl)
    rw [(d.expireStale_leaves now).unchanged uuid present] at found
    exact table.genuine uuid entry found
  recent few packet seen member same below soon := by
    obtain ⟨entry,found,newer⟩ := table.recent few packet seen member same below soon
    refine ⟨entry,?_,newer⟩
    have present : (net.site packet.sender).uuid ∈ d.dialed := AList.lookup_isSome.mp (by rw [found]; rfl)
    have stays : (net.site packet.sender).uuid ∉ (d.expireStale now).2 := by
      rw [Discovery.mem_lost]
      rintro ⟨other,held,stale⟩
      obtain rfl := Option.some.inj (found.symm.trans held)
      omega
    rw [(d.expireStale_leaves now).unchanged _ ((d.mem_expireStale now _).mpr ⟨stays,present⟩),found]

/-- Only the brokers of the LAN get into a table, so there is room for all of up to sixty-five. -/
theorem room (table : Table net i clock d heard) (few : n ≤ 65) {j : Fin n}
    (below : d.selfUuid < (net.site j).uuid) (unknown : (net.site j).uuid ∉ d.dialed) :
    d.dialed.keys.length < Discovery.maxDialedPeers := by
  have apart : j ≠ i := by
    rintro rfl
    rw [table.self] at below
    exact List.lt_irrefl _ below
  have others : d.dialed.keys.toFinset ⊆ ((Finset.univ.erase i).erase j).image fun k => (net.site k).uuid := by
    intro uuid member
    have present : uuid ∈ d.dialed := AList.mem_keys.mpr (List.mem_toFinset.mp member)
    obtain ⟨entry,found⟩ := Option.isSome_iff_exists.mp (AList.lookup_isSome.mpr present)
    obtain ⟨packet,-,-,named,above,-⟩ := table.genuine uuid entry found
    refine Finset.mem_image.mpr ⟨packet.sender,?_,named⟩
    rw [Finset.mem_erase,Finset.mem_erase]
    refine ⟨?_,?_,Finset.mem_univ _⟩
    · rintro rfl
      exact unknown (named ▸ present)
    · rintro rfl
      rw [← named,table.self] at above
      exact List.lt_irrefl _ above
  have count := le_trans (Finset.card_le_card others) Finset.card_image_le
  rw [List.toFinset_card_of_nodup d.dialed.keys_nodup,Finset.card_erase_of_mem (Finset.mem_erase.mpr ⟨apart,Finset.mem_univ j⟩),
    Finset.card_erase_of_mem (Finset.mem_univ i),Finset.card_univ,Fintype.card_fin] at count
  have := j.isLt
  change _ < 64
  omega

/-- What an announcement does to a table. -/
theorem hears (table : Table net i clock d heard) {packet : Packet n} {now : Nat}
    (valid : Beacon.isValidClusterName packet.cluster = true) (flown : packet.sentAt ≤ now) (past : now ≤ clock)
    (newest : ∀ sighting ∈ heard, sighting.2 ≤ now) :
    Table net i clock
      (d.call (.onDatagram (net.site packet.sender).ip ((net.site packet.sender).wire packet.cluster) now)).state
      (heard ++ [(packet,now)]) := by
  have taken : (d.call (.onDatagram (net.site packet.sender).ip ((net.site packet.sender).wire packet.cluster) now)).state =
      (d.onDatagram (net.site packet.sender).ip ((net.site packet.sender).announces packet.cluster) now).1 := by
    rw [Discovery.call,Site.decode_wire _ valid]
  have sightings : ∀ sighting ∈ heard ++ [(packet,now)], sighting.1.sentAt ≤ sighting.2 ∧ sighting.2 ≤ clock := by
    rw [List.forall_mem_append]
    exact ⟨table.past,fun sighting member => by rw [List.mem_singleton.mp member]; exact ⟨flown,past⟩⟩
  have kept (uuid : Str) (entry : PeerEntry) (found : d.dialed.lookup uuid = some entry) :=
    table.genuine uuid entry found
  rw [taken,Discovery.onDatagram_eq]
  split
  next accepts =>
    simp only [Discovery.accepts,Site.announces,Bool.and_eq_true,beq_iff_eq] at accepts
    obtain ⟨⟨above,same⟩,-⟩ := accepts
    refine ⟨table.self,table.valid,sightings,fun uuid entry found => ?_,fun few other seen member joined below soon => ?_⟩
    · by_cases it : uuid = (net.site packet.sender).uuid
      · subst it
        change AList.lookup _ (d.dialed.insert (net.site packet.sender).uuid _) = _ at found
        rw [AList.lookup_insert] at found
        obtain rfl := Option.some.inj found
        refine ⟨packet,by simp,same,rfl,of_decide_eq_true above,?_⟩
        rw [← same]
        rfl
      · change AList.lookup _ (d.dialed.insert (net.site packet.sender).uuid _) = _ at found
        rw [AList.lookup_insert_ne it] at found
        obtain ⟨earlier,member,rest⟩ := kept uuid entry found
        exact ⟨earlier,List.mem_append_left _ member,rest⟩
    · change ∃ entry, AList.lookup _ (d.dialed.insert (net.site packet.sender).uuid _) = _ ∧ _
      by_cases it : (net.site other.sender).uuid = (net.site packet.sender).uuid
      · rw [it,AList.lookup_insert]
        refine ⟨_,rfl,?_⟩
        rcases List.mem_append.mp member with old | new
        · exact newest _ old
        · rw [(Prod.mk.inj (List.mem_singleton.mp new)).2]
      · rw [AList.lookup_insert_ne it]
        rcases List.mem_append.mp member with old | new
        · exact table.recent few other seen old joined below soon
        · rw [(Prod.mk.inj (List.mem_singleton.mp new)).1] at it
          exact absurd rfl it
  next refused =>
    refine ⟨table.self,table.valid,sightings,fun uuid entry found => ?_,fun few other seen member joined below soon => ?_⟩
    · obtain ⟨earlier,member,rest⟩ := kept uuid entry found
      exact ⟨earlier,List.mem_append_left _ member,rest⟩
    · rcases List.mem_append.mp member with old | new
      · exact table.recent few other seen old joined below soon
      -- the table is never full, so a broker of this cluster is not refused
      · obtain ⟨rfl,rfl⟩ := Prod.mk.inj (List.mem_singleton.mp new)
        refine absurd ?_ refused
        simp only [Discovery.accepts,Site.announces,Bool.and_eq_true,Bool.or_eq_true,beq_iff_eq]
        refine ⟨⟨decide_eq_true below,joined⟩,?_⟩
        by_cases known : (net.site other.sender).uuid ∈ d.dialed
        · exact .inl (decide_eq_true known)
        · exact .inr (decide_eq_true (table.room few below known))

end Table

end Station

end Wisp
