import Wisp.ClusterSwap
import Wisp.Delivery
import Wisp.Mesh

/-! A broker that dialed a discovered one, and the dialed broker as it moves between
clusters. Leaving is told over the link, by an `__UNLINK__` that silences it; the link
itself goes when the beacons stop, and a beacon of the own cluster dials again only
then. The dialing broker's discovery hears the beacons of the other at any time. -/
namespace Wisp

open Transition

namespace Broker

/-- What a message other than a SET_CLUSTER leaves alone. -/
structure Stays (b b' : Broker) : Prop where
  brokerId : b'.brokerId = b.brokerId
  clusterName : b'.clusterName = b.clusterName
  discovery : b'.discovery = b.discovery

theorem Stays.refl (b : Broker) : Stays b b := ⟨rfl,rfl,rfl⟩

theorem Stays.trans (first : Stays b b') (later : Stays b' b'') : Stays b b'' :=
  ⟨later.brokerId.trans first.brokerId,later.clusterName.trans first.clusterName,
    later.discovery.trans first.discovery⟩

theorem Stays.foldl {step : Broker → α → Broker} (each : ∀ b x, Stays b (step b x)) (xs : List α) (b : Broker) :
    Stays b (xs.foldl step b) :=
  List.foldlRecOn xs step (.refl b) fun b stays x _ => stays.trans (each b x)

theorem deliverToSubscribers_stays (env : Envelope) (senderId : Str) (isFromPeer : Bool) (m : Moment) (b : Broker) :
    Stays b (b.deliverToSubscribers env senderId isFromPeer m).state := by
  refine Stays.foldl (fun b clientId => ?_) _ b
  split <;> exact ⟨rfl,rfl,rfl⟩

theorem handleClientMessage_stays (env : Envelope) (senderId : Str) (m : Moment) (b : Broker)
    (stays : env.header.handlerKey ≠ Keys.setCluster) : Stays b (b.handleClientMessage env senderId m).1.state := by
  have subscribed (b : Broker) : Stays b (b.handleSubscribe env senderId) := by
    unfold handleSubscribe
    dsimp only
    split_ifs <;> exact ⟨rfl,rfl,rfl⟩
  have touched : Stays b (b.touch senderId m.now) := ⟨rfl,rfl,rfl⟩
  unfold handleClientMessage
  dsimp only
  split_ifs
  all_goals first | exact touched.trans (subscribed _) | exact ⟨rfl,rfl,rfl⟩

theorem processMessage_stays (env : Envelope) (senderId : Str) (m : Moment) (b : Broker)
    (stays : env.header.handlerKey ≠ Keys.setCluster) : Stays b (b.processMessage env senderId false m).state := by
  cases reserved : Keys.isReservedKey env.header.handlerKey with
  | true =>
    rw [processMessage_reserved env senderId m b reserved]
    have counted : Stays b { b with totalMessages := b.totalMessages + 1 } := ⟨rfl,rfl,rfl⟩
    exact counted.trans (handleClientMessage_stays _ senderId m _ (by rwa [stamp_key]))
  | false =>
    cases repeated : (b.seen.isDuplicate (b.stamp env m).header.messageUuid).2 with
    | true =>
      rw [processMessage_duplicate env senderId false m b reserved repeated]
      exact ⟨rfl,rfl,rfl⟩
    | false =>
      rw [processMessage_routed env senderId false m b reserved repeated]
      have made : Stays b (b.ready env senderId false m) := ⟨rfl,rfl,rfl⟩
      have delivered := made.trans (deliverToSubscribers_stays (b.stamp env m) senderId false m _)
      exact delivered.trans ⟨rfl,rfl,rfl⟩

theorem removePeers_stays (keys : List Str) (b : Broker) : Stays b (b.removePeers keys).state := by
  rw [removePeers_state]
  refine Stays.foldl (fun b key => ?_) keys b
  unfold removePeer
  split <;> exact ⟨rfl,rfl,rfl⟩

/-- A SET_CLUSTER is ignored, or the broker and its discovery take the new name. -/
inductive Moves (newCluster : Str) (b : Broker) (outcome : Outcome Broker Output) : Prop
  | ignored (same : outcome = ⟨b,[]⟩)
  | swapped (other : newCluster ≠ b.clusterName) (brokerId : outcome.state.brokerId = b.brokerId)
      (clusterName : outcome.state.clusterName = newCluster) (d : Discovery) (found : b.discovery = some d)
      (discovery : outcome.state.discovery = some (d.setCluster newCluster).1)

theorem handleSetCluster_moves (newCluster : Str) (m : Moment) (b : Broker) :
    Moves newCluster b (b.handleSetCluster newCluster m) := by
  have removed (b : Broker) (clientId : Str) : Stays b (b.removeClient clientId) := ⟨rfl,rfl,rfl⟩
  unfold handleSetCluster
  split
  · exact .ignored rfl
  · split
    · exact .ignored rfl
    next d found =>
      split
      · exact .ignored rfl
      next other =>
        have unlinked : Stays { b with clusterName := newCluster }
            (unlinkInboundPeers m { b with clusterName := newCluster }).state :=
          Stays.foldl removed _ _
        rw [Outcome.andThen]
        generalize (unlinkInboundPeers m { b with clusterName := newCluster }).state = left at unlinked ⊢
        have dropped := removePeers_stays (d.setCluster newCluster).2
          { left with discovery := some (d.setCluster newCluster).1 }
        exact .swapped other (dropped.brokerId.trans unlinked.brokerId)
          (dropped.clusterName.trans unlinked.clusterName) d found dropped.discovery

/-- The broker's discovery has dialed this peer. -/
def Dialed (uuid : Str) (b : Broker) : Prop := ∃ d ∈ b.discovery, uuid ∈ d.dialed

instance (uuid : Str) (b : Broker) : Decidable (b.Dialed uuid) :=
  match found : b.discovery with
  | none => isFalse fun ⟨d,held,_⟩ => by simp [found] at held
  | some d =>
    if dialed : uuid ∈ d.dialed then isTrue ⟨d,by rw [found]; rfl,dialed⟩
    else isFalse fun ⟨other,held,member⟩ => dialed (by
      rw [found,Option.mem_some_iff] at held
      exact held ▸ member)

end Broker

/-- The dialing broker, the dialed one, and what the latter's ROUTER holds for the link. -/
structure Rejoin where
  a : Broker
  x : Broker
  pipe : List Envelope

namespace Rejoin

inductive Label where
  /-- A message to the dialed broker, of a client or of the link. -/
  | client (clientId : Str) (env : Envelope) (m : Moment)
  | beacon (now : Nat)
  | expireStale (now : Nat)
  /-- The link's worker takes the next message. -/
  | answer (room : Bool)

def linkId (s : Rejoin) : Str := peerLinkId s.a.brokerId s.x.brokerId

section

variable (senderIp : Str) (routerPort tapPort : UInt16)

/-- What the dialed broker broadcasts while its discovery is in this state. -/
def announces (d : Discovery) (s : Rejoin) : Beacon := ⟨d.cluster,s.x.brokerId,routerPort,tapPort⟩

def act : Label → Rejoin → Rejoin
  | .client clientId env m, s =>
    let outcome := s.x.processMessage env clientId false m
    { s with x := outcome.state, pipe := s.pipe ++ Mesh.sentTo s.linkId outcome.events }
  | .beacon now, s =>
    match s.a.discovery, s.x.discovery with
    | some d, some other =>
      let heard := d.onDatagram senderIp (s.announces routerPort tapPort other) now
      let a := { s.a with discovery := some heard.1 }
      match heard.2 with
      | none => { s with a }
      | some (uuid,address) =>
        -- a link that is there already keeps its session
        { s with
          a := { a with toRouting := a.toRouting.addPeer a.brokerId uuid address }
          pipe := if a.peers.any fun link => link.key == uuid || link.address == address then s.pipe else [] }
    | _, _ => s
  | .expireStale now, s =>
    match s.a.discovery with
    | none => s
    | some d =>
      { s with a := (Broker.removePeers (d.expireStale now).2 { s.a with discovery := some (d.expireStale now).1 }).state }
  | .answer room, s =>
    match s.pipe with
    | [] => s
    | env :: rest =>
      if s.a.peers.any fun link => link.key == s.x.brokerId then
        { s with a := s.a.answered s.x.brokerId env room, pipe := rest }
      else s

def step (label : Label) (s : Rejoin) : Outcome Rejoin Empty := ⟨s.act senderIp routerPort tapPort label,[]⟩

end

/-- The other broker comes back only when it is not among the dialed any more. -/
def Late (s : Rejoin) : Label → Prop
  | .client _ env _ => env.header.handlerKey = Keys.setCluster → env.payload = s.a.clusterName →
      s.x.clusterName ≠ s.a.clusterName → ¬s.a.Dialed s.x.brokerId
  | _ => True

instance (s : Rejoin) (label : Label) : Decidable (s.Late label) :=
  match label with
  | .client _ _ _ => inferInstanceAs (Decidable (_ → _))
  | .beacon _ | .expireStale _ | .answer _ => isTrue trivial

/-- The two brokers, with every link of the first to the second under its uuid, and
none of them silenced while both are in one cluster. -/
structure Joined (address : Str) (s : Rejoin) : Prop where
  home : ∀ d ∈ s.a.discovery, d.cluster = s.a.clusterName
  away : ∀ d ∈ s.x.discovery, d.cluster = s.x.clusterName
  linked : s.a.Dialed s.x.brokerId ↔ ∃ link ∈ s.a.peers, link.key = s.x.brokerId
  apart : ∀ link ∈ s.a.peers, link.address = address → link.key = s.x.brokerId
  active : s.x.clusterName = s.a.clusterName → ∀ link ∈ s.a.peers, link.key = s.x.brokerId → link.active = true
  quiet : s.x.clusterName = s.a.clusterName → s.a.Dialed s.x.brokerId →
    ∀ env ∈ s.pipe, env.header.handlerKey ≠ Keys.unlink

section

variable {senderIp : Str} {routerPort tapPort : UInt16} {address : Str} {s : Rejoin} (joined : Joined address s)

include joined

/-- A message to the dialed broker that does not move it. -/
theorem Joined.stays {x : Broker} (stays : Broker.Stays s.x x) {sent : List Envelope}
    (polite : ∀ env ∈ sent, env.header.handlerKey ≠ Keys.unlink) : Joined address { s with x, pipe := s.pipe ++ sent } := by
  refine ⟨joined.home,?_,?_,?_,?_,?_⟩
  · rw [stays.discovery,stays.clusterName]
    exact joined.away
  · rw [stays.brokerId]
    exact joined.linked
  · rw [stays.brokerId]
    exact joined.apart
  · rw [stays.brokerId,stays.clusterName]
    exact joined.active
  · rw [stays.brokerId,stays.clusterName]
    intro same dialed env member
    rcases List.mem_append.mp member with old | new
    · exact joined.quiet same dialed env old
    · exact polite env new

/-- And one that does: it is not among the dialed if this brings it back. -/
theorem Joined.moves {x : Broker} {d : Discovery} {cluster : Str} (pipe : List Envelope) (brokerId : x.brokerId = s.x.brokerId)
    (clusterName : x.clusterName = cluster) (discovery : x.discovery = some (d.setCluster cluster).1)
    (back : cluster = s.a.clusterName → ¬s.a.Dialed s.x.brokerId) : Joined address { s with x, pipe } := by
  have gone (same : x.clusterName = s.a.clusterName) : ¬s.a.Dialed s.x.brokerId := back (clusterName ▸ same)
  refine ⟨joined.home,fun other held => ?_,?_,?_,fun same link member key => ?_,fun same dialed => ?_⟩
  · rw [discovery,Option.mem_some_iff] at held
    subst held
    unfold Discovery.setCluster
    split
    next already => rw [clusterName,already]
    · exact clusterName.symm
  · rw [brokerId]
    exact joined.linked
  · rw [brokerId]
    exact joined.apart
  · rw [brokerId] at key
    exact (gone same (joined.linked.mpr ⟨link,member,key⟩)).elim
  · rw [brokerId] at dialed
    exact (gone same dialed).elim

theorem Joined.client (clientId : Str) (env : Envelope) (m : Moment) (late : s.Late (.client clientId env m)) :
    Joined address (s.act senderIp routerPort tapPort (.client clientId env m)) := by
  simp only [act]
  by_cases swap : env.header.handlerKey = Keys.setCluster
  · rw [Broker.processMessage_swapped swap]
    have unlinks {sent : Envelope} (member : sent ∈ Mesh.sentTo s.linkId (s.x.processMessage env clientId false m).events)
        (unlink : sent.header.handlerKey = Keys.unlink) : _ :=
      (Broker.processMessage_unlinks (Mesh.mem_sentTo.mp member) unlink).2.2
    generalize (s.x.processMessage env clientId false m).events = events at unlinks ⊢
    have touched : Broker.Stays s.x (Broker.touch clientId m.now { s.x with totalMessages := s.x.totalMessages + 1 }) :=
      ⟨rfl,rfl,rfl⟩
    cases Broker.handleSetCluster_moves env.payload m
      (Broker.touch clientId m.now { s.x with totalMessages := s.x.totalMessages + 1 }) with
    | ignored same =>
      rw [same] at unlinks ⊢
      exact joined.stays touched fun sent member unlink => by cases unlinks member unlink
    | swapped other brokerId clusterName d found discovery =>
      refine joined.moves _ (brokerId.trans touched.brokerId) clusterName discovery fun back => ?_
      refine late swap back fun already => other ?_
      rw [back,touched.clusterName,already]
  · refine joined.stays (Broker.processMessage_stays env clientId m s.x swap) fun sent member unlink => ?_
    exact swap (Broker.processMessage_unlinks (Mesh.mem_sentTo.mp member) unlink).2.1

theorem Joined.expireStale (now : Nat) : Joined address (s.act senderIp routerPort tapPort (.expireStale now)) := by
  simp only [act]
  split
  · exact joined
  next d found =>
    have stays := Broker.removePeers_stays (d.expireStale now).2 { s.a with discovery := some (d.expireStale now).1 }
    have before : s.a.Dialed s.x.brokerId ↔ s.x.brokerId ∈ d.dialed := by simp [Broker.Dialed,found]
    have after : (Broker.removePeers (d.expireStale now).2 { s.a with discovery := some (d.expireStale now).1 }).state.Dialed
        s.x.brokerId ↔ s.x.brokerId ∉ (d.expireStale now).2 ∧ s.x.brokerId ∈ d.dialed := by
      simp only [Broker.Dialed,stays.discovery,Option.mem_some_iff,exists_eq_left',Discovery.mem_expireStale]
    refine ⟨fun other held => ?_,joined.away,?_,fun link member => ?_,fun same link member => ?_,fun same dialed => ?_⟩
    · rw [stays.discovery,Option.mem_some_iff] at held
      rw [stays.clusterName,← held]
      exact joined.home d found
    · rw [after,← before,joined.linked]
      constructor
      · rintro ⟨kept,link,member,key⟩
        exact ⟨link,Broker.mem_removePeers.mpr ⟨member,key ▸ kept⟩,key⟩
      · rintro ⟨link,member,key⟩
        obtain ⟨old,kept⟩ := Broker.mem_removePeers.mp member
        exact ⟨key ▸ kept,link,old,key⟩
    · exact joined.apart link (Broker.mem_removePeers.mp member).1
    · rw [stays.clusterName] at same
      exact joined.active same link (Broker.mem_removePeers.mp member).1
    · rw [stays.clusterName] at same
      exact joined.quiet same (before.mpr (after.mp dialed).2)

/-- The discovery of the dialing broker took note of something, and dials nothing. -/
theorem Joined.noted {d : Discovery} (cluster : d.cluster = s.a.clusterName)
    (same : s.x.brokerId ∈ d.dialed ↔ s.a.Dialed s.x.brokerId) : Joined address { s with a.discovery := some d } := by
  have dialed : Broker.Dialed s.x.brokerId { s.a with discovery := some d } ↔ s.a.Dialed s.x.brokerId := by
    rw [← same]
    simp [Broker.Dialed]
  refine ⟨fun other held => ?_,joined.away,dialed.trans joined.linked,joined.apart,joined.active,
    fun together held => joined.quiet together (dialed.mp held)⟩
  rw [Option.mem_some_iff] at held
  rw [← held]
  exact cluster

theorem Joined.free (new : ¬s.a.Dialed s.x.brokerId) :
    ∀ link ∈ s.a.peers, link.key ≠ s.x.brokerId ∧ link.address ≠ address := by
  intro link member
  have unlinked : link.key ≠ s.x.brokerId := fun key => new (joined.linked.mpr ⟨link,member,key⟩)
  exact ⟨unlinked,fun there => unlinked (joined.apart link member there)⟩

/-- And here it dials: no link is in the way, and the new one starts afresh. -/
theorem Joined.dialed {a : Broker} {d : Discovery} {link : PeerLink} (new : ¬s.a.Dialed s.x.brokerId)
    (discovery : a.discovery = some d) (cluster : d.cluster = s.a.clusterName)
    (clusterName : a.clusterName = s.a.clusterName) (entered : s.x.brokerId ∈ d.dialed)
    (peers : a.peers = s.a.peers ++ [link]) (key : link.key = s.x.brokerId) (active : link.active = true) :
    Joined address { s with a, pipe := [] } := by
  have listed (other : PeerLink) (member : other ∈ a.peers) : other ∈ s.a.peers ∨ other = link := by
    rw [peers] at member
    simpa using member
  refine ⟨fun held found => ?_,joined.away,?_,fun other member there => ?_,fun same other member named => ?_,by simp⟩
  · rw [discovery,Option.mem_some_iff] at found
    rw [← found,clusterName]
    exact cluster
  · refine ⟨fun _ => ⟨link,?_,key⟩,fun _ => ⟨d,discovery,entered⟩⟩
    rw [peers]
    exact List.mem_append_right _ (List.mem_singleton_self _)
  · rcases listed other member with old | rfl
    · exact joined.apart other old there
    · exact key
  · rcases listed other member with old | rfl
    · exact ((joined.free new other old).1 named).elim
    · exact active

theorem Joined.beacon (now : Nat) (sited : address = Beacon.address senderIp ⟨[],[],routerPort,tapPort⟩) :
    Joined address (s.act senderIp routerPort tapPort (.beacon now)) := by
  simp only [act]
  split
  next d other found heard =>
    have before : s.a.Dialed s.x.brokerId ↔ s.x.brokerId ∈ d.dialed := by simp [Broker.Dialed,found]
    have home := joined.home d found
    have hears := d.onDatagram_hears senderIp (s.announces routerPort tapPort other) now
    generalize d.onDatagram senderIp (s.announces routerPort tapPort other) now = result at hears ⊢
    cases hears with
    | ignored => exact joined.noted home before.symm
    | refreshed cluster known =>
      refine joined.noted home ?_
      rw [before]
      exact ⟨fun _ => known,fun _ => (AList.mem_insert _).mpr (.inl rfl)⟩
    | dialed cluster unknown =>
      have new : ¬s.a.Dialed s.x.brokerId := fun dialed => unknown (before.mp dialed)
      have free : ¬(s.a.peers.any fun link => link.key == s.x.brokerId || link.address == address) = true := by
        simpa [List.any_eq_true] using joined.free new
      have added := @Routing.addPeer_unknown s.a.brokerId _ _ _ (joined.free new)
      have there : Beacon.address senderIp (s.announces routerPort tapPort other) = address := sited.symm
      have named : (s.announces routerPort tapPort other).uuid = s.x.brokerId := rfl
      simp only [there,named,if_neg free]
      exact joined.dialed new rfl home rfl ((AList.mem_insert _).mpr (.inl rfl)) (congrArg Routing.peers added) rfl rfl
  · exact joined

/-- The worker took a message, and changed the links at most in what they hold and
whether they are silenced. -/
theorem Joined.answered {a : Broker} {env : Envelope} {rest : List Envelope} (change : PeerLink → PeerLink)
    (discovery : a.discovery = s.a.discovery) (clusterName : a.clusterName = s.a.clusterName)
    (quiet : s.x.clusterName = s.a.clusterName → ∀ sent ∈ env :: rest, sent.header.handlerKey ≠ Keys.unlink)
    (peers : a.peers = s.a.peers.map change) (same : ∀ link, (change link).key = link.key ∧
      (change link).address = link.address ∧
      (s.x.clusterName = s.a.clusterName → link.active = true → (change link).active = true)) :
    Joined address { s with a, pipe := rest } := by
  have dialed : a.Dialed s.x.brokerId ↔ s.a.Dialed s.x.brokerId := by rw [Broker.Dialed,Broker.Dialed,discovery]
  have listed (link : PeerLink) : link ∈ a.peers ↔ ∃ old ∈ s.a.peers, change old = link := by
    rw [peers,List.mem_map]
  refine ⟨?_,joined.away,?_,fun link member there => ?_,fun together link member named => ?_,fun together _ sent member => ?_⟩
  · rw [discovery,clusterName]
    exact joined.home
  · rw [dialed,joined.linked]
    constructor
    · rintro ⟨link,member,key⟩
      exact ⟨change link,(listed _).mpr ⟨link,member,rfl⟩,(same link).1.trans key⟩
    · rintro ⟨link,member,key⟩
      obtain ⟨old,there,rfl⟩ := (listed link).mp member
      exact ⟨old,there,(same old).1.symm.trans key⟩
  · obtain ⟨old,was,rfl⟩ := (listed link).mp member
    rw [(same old).1]
    exact joined.apart old was ((same old).2.1.symm.trans there)
  · rw [clusterName] at together
    obtain ⟨old,was,rfl⟩ := (listed link).mp member
    exact (same old).2.2 together (joined.active together old was ((same old).1.symm.trans named))
  · rw [clusterName] at together
    exact quiet together sent (List.mem_cons_of_mem _ member)

theorem Joined.answer (room : Bool) : Joined address (s.act senderIp routerPort tapPort (.answer room)) := by
  simp only [act]
  split
  · exact joined
  next env rest listed =>
    split
    next present =>
      obtain ⟨link,member,key⟩ := List.any_eq_true.mp present
      have dialed := joined.linked.mpr ⟨link,member,beq_iff_eq.mp key⟩
      have quiet (same : s.x.clusterName = s.a.clusterName) := joined.quiet same dialed
      rw [listed] at quiet
      unfold Broker.answered
      split_ifs with ack unlink reset inbound
      · exact joined.answered id rfl rfl quiet (List.map_id _).symm fun link => ⟨rfl,rfl,fun _ => id⟩
      · refine joined.answered _ rfl rfl quiet rfl fun link => ?_
        split
        · exact ⟨rfl,rfl,fun same => absurd unlink (quiet same env List.mem_cons_self)⟩
        · exact ⟨rfl,rfl,fun _ => id⟩
      · refine joined.answered _ rfl rfl quiet rfl fun link => ?_
        split <;> exact ⟨rfl,rfl,fun _ => id⟩
      · exact joined.answered id rfl rfl quiet (List.map_id _).symm fun link => ⟨rfl,rfl,fun _ => id⟩
      · exact joined.answered id rfl rfl quiet (List.map_id _).symm fun link => ⟨rfl,rfl,fun _ => id⟩
    · exact joined

theorem Joined.act (label : Label) (sited : address = Beacon.address senderIp ⟨[],[],routerPort,tapPort⟩)
    (late : s.Late label) : Joined address (s.act senderIp routerPort tapPort label) := by
  cases label with
  | client clientId env m => exact joined.client clientId env m late
  | beacon now => exact joined.beacon now sited
  | expireStale now => exact joined.expireStale now
  | answer room => exact joined.answer room

end

/-- The other broker is not dialed yet, and no link has its uuid or its address. -/
structure Begun (address : Str) (s : Rejoin) : Prop where
  home : ∀ d ∈ s.a.discovery, d.cluster = s.a.clusterName
  away : ∀ d ∈ s.x.discovery, d.cluster = s.x.clusterName
  undialed : ¬s.a.Dialed s.x.brokerId
  free : ∀ link ∈ s.a.peers, link.key ≠ s.x.brokerId ∧ link.address ≠ address

theorem Begun.joined {address : Str} {s : Rejoin} (begun : Begun address s) : Joined address s := by
  refine ⟨begun.home,begun.away,⟨fun dialed => (begun.undialed dialed).elim,?_⟩,fun link member there => ?_,
    fun _ link member key => ?_,fun _ dialed => (begun.undialed dialed).elim⟩
  · rintro ⟨link,member,key⟩
    exact ((begun.free link member).1 key).elim
  · exact ((begun.free link member).2 there).elim
  · exact ((begun.free link member).1 key).elim

/-- In every run in which the dialed broker comes back only after it was dropped, whenever
both are in one cluster and it is dialed its link is not silenced, and takes every message. -/
theorem rejoin_restores_flooding (senderIp : Str) (routerPort tapPort : UInt16) (s : Rejoin)
    (begun : Begun (Beacon.address senderIp ⟨[],[],routerPort,tapPort⟩) s) (schedule : List Label)
    (late : Always (step senderIp routerPort tapPort) Late schedule s)
    (together : (run (step senderIp routerPort tapPort) schedule s).state.x.clusterName =
      (run (step senderIp routerPort tapPort) schedule s).state.a.clusterName)
    (dialed : (run (step senderIp routerPort tapPort) schedule s).state.a.Dialed
      (run (step senderIp routerPort tapPort) schedule s).state.x.brokerId) :
    ∃ link ∈ (run (step senderIp routerPort tapPort) schedule s).state.a.peers,
      link.key = (run (step senderIp routerPort tapPort) schedule s).state.x.brokerId ∧ link.active = true ∧
        ∀ env m, .flood link.key env (m.room link.key) ∈
          ((run (step senderIp routerPort tapPort) schedule s).state.a.floodPeers env m).events := by
  have joined := run_invariant (step senderIp routerPort tapPort) (Joined _)
    (fun s label late joined => joined.act label rfl late) schedule s late begun.joined
  generalize (run (step senderIp routerPort tapPort) schedule s).state = reached at *
  obtain ⟨link,member,key⟩ := joined.linked.mp dialed
  have active := joined.active together link member key
  exact ⟨link,member,key,active,fun env m => List.mem_map.mpr ⟨link,List.mem_filter.mpr ⟨member,active⟩,rfl⟩⟩

/-- Two brokers of the cluster `a` that have not heard of each other. -/
def apartInOne : Rejoin :=
  ⟨.new (str "A") (str "a") (some ⟨str "a",str "A",∅⟩),.new (str "X") (str "a") (some ⟨str "a",str "X",∅⟩),[]⟩

theorem apartInOne_begun : Begun (Beacon.address (str "ip") ⟨[],[],1,0⟩) apartInOne := by
  refine ⟨?_,?_,?_,?_⟩ <;> decide +kernel

def swapTo (cluster : String) : Label :=
  .client (str "c") ⟨Wire.makeControlHeader Keys.setCluster (str "c") [],str cluster⟩ (.roomy (str "u"))

/-- The link is dialed and its CONNECT processed; then the dialed broker leaves. -/
def leaves : List Label :=
  [.beacon 0,.client apartInOne.linkId (Control.envelope apartInOne.linkId .connect) (.roomy (str "u")),swapTo "b",.answer true]

/-- It comes back when it was dropped. -/
def returnsLate : List Label := leaves ++ [.expireStale 6000,swapTo "a",.beacon 6000]

theorem rejoin_restores_flooding_late :
    Always (step (str "ip") 1 0) Late returnsLate apartInOne ∧
      ∃ link ∈ (run (step (str "ip") 1 0) returnsLate apartInOne).state.a.peers,
        link.key = (run (step (str "ip") 1 0) returnsLate apartInOne).state.x.brokerId ∧ link.active = true := by
  have late : Always (step (str "ip") 1 0) Late returnsLate apartInOne := by decide +kernel
  obtain ⟨link,member,key,active,-⟩ := rejoin_restores_flooding (str "ip") 1 0 apartInOne apartInOne_begun returnsLate late
    (by decide +kernel) (by decide +kernel)
  exact ⟨late,link,member,key,active⟩

/-- It comes back while it is still among the dialed: its beacons keep the silenced link. -/
theorem rejoin_stays_silenced :
    let reached := (run (step (str "ip") 1 0) (leaves ++ [swapTo "a",.beacon 1000,.expireStale 2000]) apartInOne).state
    reached.x.clusterName = reached.a.clusterName ∧ reached.a.Dialed reached.x.brokerId ∧ reached.pipe = [] ∧
      ∀ link ∈ reached.a.peers, link.active = false := by
  refine ⟨?_,?_,?_,?_⟩ <;> decide +kernel

end Rejoin

end Wisp
