import Wisp.Broker

/-! What one message changes, projection by projection. A control message acts on
the routing state as `turn` says; any other message only adds to the links' queues. -/
namespace Wisp

open Transition

namespace Broker

/-- The effect of a control message from a client on the routing state. -/
def turn (env : Envelope) (senderId : Str) (r : Routing) : Routing :=
  let key := env.header.handlerKey
  let topic := env.header.topic
  if key = Keys.disconnect then r.removeClient senderId
  else if key = Keys.subscribe then
    if !topic.isEmpty && topic.length ≤ maxTopicLengthBytes && r.canSubscribe senderId topic then
      r.subscribe senderId topic (decodeSubscribeScope env.payload)
    else r
  else if key = Keys.unsubscribe then r.unsubscribe senderId topic
  else r

@[simp] theorem removeClient_routing (clientId : Str) (b : Broker) :
    (b.removeClient clientId).toRouting = b.toRouting.removeClient clientId := rfl

@[simp] theorem touch_routing (clientId : Str) (now : Nat) (b : Broker) :
    (b.touch clientId now).toRouting = b.toRouting := rfl

@[simp] theorem noteDroppedTo_routing (clientId : Str) (b : Broker) :
    (b.noteDroppedTo clientId).toRouting = b.toRouting := rfl

theorem handleSubscribe_routing (env : Envelope) (senderId : Str) (b : Broker) :
    (b.handleSubscribe env senderId).toRouting =
      if !env.header.topic.isEmpty && env.header.topic.length ≤ maxTopicLengthBytes &&
          b.canSubscribe senderId env.header.topic then
        b.toRouting.subscribe senderId env.header.topic (decodeSubscribeScope env.payload)
      else b.toRouting := by
  unfold handleSubscribe
  dsimp only
  split
  next empty => simp [empty]
  next named =>
    split
    next long => simp [named,Nat.not_le.mpr long,noteRejectedSubscription]
    next short =>
      split
      next full => simp_all [noteRejectedSubscription]
      next room => simp_all

theorem turn_other (env : Envelope) (senderId : Str) (r : Routing)
    (stays : env.header.handlerKey ≠ Keys.disconnect) (adds : env.header.handlerKey ≠ Keys.subscribe)
    (drops : env.header.handlerKey ≠ Keys.unsubscribe) : turn env senderId r = r := by
  simp [turn,stays,adds,drops]

theorem handleClientMessage_routing (env : Envelope) (senderId : Str) (m : Moment) (b : Broker)
    (stays : env.header.handlerKey ≠ Keys.setCluster) :
    (b.handleClientMessage env senderId m).1.state.toRouting = turn env senderId b.toRouting := by
  unfold handleClientMessage
  dsimp only
  split
  next leaves => simp [turn,leaves]
  next remains =>
    split
    next connects =>
      rw [turn_other] <;> first | rfl | (rw [connects]; decide)
    next =>
      split
      next beats =>
        rw [turn_other] <;> first | rfl | (rw [beats]; decide)
      next =>
        split
        next adds =>
          rw [turn,if_neg remains,if_pos adds]
          exact handleSubscribe_routing env senderId (b.touch senderId m.now)
        next adds =>
          split
          next drops => rw [turn,if_neg remains,if_neg adds,if_pos drops]; rfl
          next drops => exact (turn_other env senderId b.toRouting remains adds drops).symm

theorem handleSubscribe_clients (env : Envelope) (senderId : Str) (b : Broker) :
    (b.handleSubscribe env senderId).clients = b.clients := by
  unfold handleSubscribe
  dsimp only
  split_ifs <;> rfl

theorem handleClientMessage_clients (env : Envelope) (senderId : Str) (m : Moment) (b : Broker)
    (stays : env.header.handlerKey ≠ Keys.setCluster) (clientId : Str) :
    clientId ∈ (b.handleClientMessage env senderId m).1.state.clients ↔
      if env.header.handlerKey = Keys.disconnect then clientId ≠ senderId ∧ clientId ∈ b.clients
      else clientId = senderId ∨ clientId ∈ b.clients := by
  have touched : clientId ∈ (b.touch senderId m.now).clients ↔ clientId = senderId ∨ clientId ∈ b.clients :=
    AList.mem_insert _
  unfold handleClientMessage
  dsimp only
  split
  next => exact AList.mem_erase
  next => split_ifs <;> simp only [handleSubscribe_clients,touched]

/-- What no client message touches besides the dedup check. -/
structure Keeps (b b' : Broker) : Prop where
  brokerId : b'.brokerId = b.brokerId
  seen : b'.seen = b.seen
  inbound : b'.inbound = b.inbound

theorem Keeps.refl (b : Broker) : Keeps b b := ⟨rfl,rfl,rfl⟩

theorem Keeps.trans (first : Keeps b b') (later : Keeps b' b'') : Keeps b b'' :=
  ⟨later.brokerId.trans first.brokerId,later.seen.trans first.seen,later.inbound.trans first.inbound⟩

theorem Keeps.foldl {step : Broker → α → Broker} (each : ∀ b x, Keeps b (step b x)) (xs : List α) (b : Broker) :
    Keeps b (xs.foldl step b) :=
  List.foldlRecOn xs step (.refl b) fun b kept x _ => kept.trans (each b x)

theorem removeClient_keeps (b : Broker) (clientId : Str) : Keeps b (b.removeClient clientId) := ⟨rfl,rfl,rfl⟩

theorem unlinkInboundPeers_keeps (m : Moment) (b : Broker) : Keeps b (b.unlinkInboundPeers m).state :=
  Keeps.foldl removeClient_keeps _ b

theorem removePeer_keeps (key : Str) (b : Broker) : Keeps b (b.removePeer key).state := by
  unfold removePeer
  split <;> exact ⟨rfl,rfl,rfl⟩

theorem removePeers_state (keys : List Str) (b : Broker) :
    (b.removePeers keys).state = keys.foldl (fun b key => (b.removePeer key).state) b :=
  Outcome.foldl_andThen_state removePeer keys ⟨b,[]⟩

theorem removePeers_keeps (keys : List Str) (b : Broker) : Keeps b (b.removePeers keys).state := by
  rw [removePeers_state]
  exact Keeps.foldl (fun b key => removePeer_keeps key b) keys b

/-- A SET_CLUSTER is ignored, or ends the inbound links and then some of the broker's own. -/
theorem handleSetCluster_cases (newCluster : Str) (m : Moment) (b : Broker) :
    b.handleSetCluster newCluster m = ⟨b,[]⟩ ∨ ∃ discovery keys, b.handleSetCluster newCluster m =
      (unlinkInboundPeers m { b with clusterName := newCluster }).andThen fun b =>
        removePeers keys { b with discovery } := by
  unfold handleSetCluster
  split
  · exact .inl rfl
  · split
    · exact .inl rfl
    · split
      · exact .inl rfl
      · exact .inr ⟨_,_,rfl⟩

theorem handleSetCluster_keeps (newCluster : Str) (m : Moment) (b : Broker) :
    Keeps b (b.handleSetCluster newCluster m).state := by
  rcases handleSetCluster_cases newCluster m b with same | ⟨discovery,keys,same⟩
  · rw [same]
    exact .refl b
  · rw [same,Outcome.andThen_state]
    refine Keeps.trans ?_ (removePeers_keeps _ _)
    obtain ⟨brokerId,seen,inbound⟩ := unlinkInboundPeers_keeps m { b with clusterName := newCluster }
    exact ⟨brokerId,seen,inbound⟩

theorem handleSubscribe_keeps (env : Envelope) (senderId : Str) (b : Broker) :
    Keeps b (b.handleSubscribe env senderId) := by
  unfold handleSubscribe
  dsimp only
  split_ifs <;> exact ⟨rfl,rfl,rfl⟩

theorem handleClientMessage_keeps (env : Envelope) (senderId : Str) (m : Moment) (b : Broker) :
    Keeps b (b.handleClientMessage env senderId m).1.state := by
  have touched : Keeps b (b.touch senderId m.now) := ⟨rfl,rfl,rfl⟩
  unfold handleClientMessage
  dsimp only
  split_ifs
  · exact ⟨rfl,rfl,rfl⟩
  · exact touched
  · exact touched
  · exact touched.trans (handleSubscribe_keeps env senderId _)
  · exact touched.trans ⟨rfl,rfl,rfl⟩
  · exact touched.trans (handleSetCluster_keeps _ m _)
  · exact touched

/-- Only a control key is handled without being routed. -/
theorem handleClientMessage_published (env : Envelope) (senderId : Str) (m : Moment) (b : Broker)
    (published : Keys.isReservedKey env.header.handlerKey = false) :
    b.handleClientMessage env senderId m =
      (⟨b.touch senderId m.now,b.greet env.header.handlerKey senderId m⟩,false) := by
  have other (key : Str) (reserved : Keys.isReservedKey key = true) : env.header.handlerKey ≠ key := by
    rintro rfl
    simp [reserved] at published
  unfold handleClientMessage
  dsimp only
  rw [if_neg (other _ (by decide)),if_neg (other _ (by decide)),if_neg (other _ (by decide)),
    if_neg (other _ (by decide)),if_neg (other _ (by decide)),if_neg (other _ (by decide))]

@[simp] theorem stamp_key (env : Envelope) (m : Moment) (b : Broker) :
    (b.stamp env m).header.handlerKey = env.header.handlerKey := by
  unfold stamp; split <;> rfl

@[simp] theorem stamp_topic (env : Envelope) (m : Moment) (b : Broker) :
    (b.stamp env m).header.topic = env.header.topic := by
  unfold stamp; split <;> rfl

@[simp] theorem stamp_payload (env : Envelope) (m : Moment) (b : Broker) :
    (b.stamp env m).payload = env.payload := by
  unfold stamp; split <;> rfl

@[simp] theorem turn_stamp (env : Envelope) (m : Moment) (b : Broker) (senderId : Str) (r : Routing) :
    turn (b.stamp env m) senderId r = turn env senderId r := by
  simp only [turn,stamp_key,stamp_topic,stamp_payload]

/-- The counters and the history after a message passed the loop protection. -/
def recorded (uuid : Str) (b : Broker) : Broker :=
  { b with totalMessages := b.totalMessages + 1, seen := (b.seen.isDuplicate uuid).1 }

/-- The broker that fans a routed message out: a local sender's session is fresh. -/
def ready (env : Envelope) (senderId : Str) (isFromPeer : Bool) (m : Moment) (b : Broker) : Broker :=
  let b := b.recorded (b.stamp env m).header.messageUuid
  if isFromPeer then b else b.touch senderId m.now

theorem processMessage_reserved (env : Envelope) (senderId : Str) (m : Moment) (b : Broker)
    (reserved : Keys.isReservedKey env.header.handlerKey = true) :
    b.processMessage env senderId false m =
      ⟨(handleClientMessage (b.stamp env m) senderId m { b with totalMessages := b.totalMessages + 1 }).1.state,
        .tap (b.stamp env m) :: (handleClientMessage (b.stamp env m) senderId m
          { b with totalMessages := b.totalMessages + 1 }).1.events⟩ := by
  unfold processMessage dispatch
  simp [reserved,Outcome.andThen]

theorem processMessage_swapped {env : Envelope} {senderId : Str} {m : Moment} {b : Broker}
    (swap : env.header.handlerKey = Keys.setCluster) :
    (b.processMessage env senderId false m).state =
      (handleSetCluster env.payload m (touch senderId m.now { b with totalMessages := b.totalMessages + 1 })).state := by
  rw [processMessage_reserved env senderId m b (by rw [swap]; rfl)]
  have others : Keys.setCluster ≠ Keys.disconnect ∧ Keys.setCluster ≠ Keys.connect ∧
      Keys.setCluster ≠ Keys.heartbeat ∧ Keys.setCluster ≠ Keys.subscribe ∧
      Keys.setCluster ≠ Keys.unsubscribe := by decide
  simp [handleClientMessage,swap,others]

theorem processMessage_peer_reserved (env : Envelope) (senderId : Str) (m : Moment) (b : Broker)
    (reserved : Keys.isReservedKey env.header.handlerKey = true) :
    b.processMessage env senderId true m =
      ⟨{ b with totalMessages := b.totalMessages + 1 },[.tap (b.stamp env m)]⟩ := by
  unfold processMessage dispatch
  simp [reserved,Outcome.andThen]

theorem processMessage_duplicate (env : Envelope) (senderId : Str) (isFromPeer : Bool) (m : Moment) (b : Broker)
    (published : Keys.isReservedKey env.header.handlerKey = false)
    (duplicate : (b.seen.isDuplicate (b.stamp env m).header.messageUuid).2 = true) :
    b.processMessage env senderId isFromPeer m =
      ⟨b.recorded (b.stamp env m).header.messageUuid,
        [.checked (dedupId (b.stamp env m).header.messageUuid) true]⟩ := by
  unfold processMessage
  simp [published,duplicate,Outcome.andThen,recorded]

/-- A message past the loop protection goes to the tap, the subscribers and the links. -/
theorem processMessage_routed (env : Envelope) (senderId : Str) (isFromPeer : Bool) (m : Moment) (b : Broker)
    (published : Keys.isReservedKey env.header.handlerKey = false)
    (fresh : (b.seen.isDuplicate (b.stamp env m).header.messageUuid).2 = false) :
    b.processMessage env senderId isFromPeer m =
      ⟨(floodPeers (b.stamp env m) m (deliverToSubscribers (b.stamp env m) senderId isFromPeer m
          (b.ready env senderId isFromPeer m)).state).state,
        .checked (dedupId (b.stamp env m).header.messageUuid) false :: .tap (b.stamp env m) ::
          ((if isFromPeer then [] else b.greet env.header.handlerKey senderId m) ++
            (deliverToSubscribers (b.stamp env m) senderId isFromPeer m
              (b.ready env senderId isFromPeer m)).events ++
            (floodPeers (b.stamp env m) m (deliverToSubscribers (b.stamp env m) senderId isFromPeer m
              (b.ready env senderId isFromPeer m)).state).events)⟩ := by
  unfold processMessage dispatch ready
  cases isFromPeer with
  | false =>
    simp [published,fresh,handleClientMessage_published,Outcome.andThen,recorded]
    rfl
  | true => simp [published,fresh,Outcome.andThen,recorded]

/-- Refused deliveries are counted, and nothing else changes. -/
theorem noteDropped_all (served : List Str) (env : Envelope) (m : Moment) (b : Broker) :
    let b' := served.foldl (fun b clientId => if m.accepts clientId env then b else b.noteDroppedTo clientId) b
    b'.toRouting = b.toRouting ∧ Keeps b b' ∧ ∀ clientId, clientId ∈ b'.clients ↔ clientId ∈ b.clients := by
  induction served generalizing b with
  | nil => exact ⟨rfl,.refl b,fun _ => Iff.rfl⟩
  | cons first rest ih =>
    dsimp only [List.foldl_cons] at ih ⊢
    split
    · exact ih b
    · obtain ⟨routing,keeps,clients⟩ := ih (b.noteDroppedTo first)
      have noted : Keeps b (b.noteDroppedTo first) := ⟨rfl,rfl,rfl⟩
      refine ⟨routing,noted.trans keeps,fun clientId => (clients clientId).trans ?_⟩
      unfold noteDroppedTo
      cases held : b.clients.lookup first with
      | none => rfl
      | some client =>
        refine (AList.mem_insert _).trans ⟨?_,.inr⟩
        rintro (rfl | member)
        · exact AList.lookup_isSome.mp (by simp [held])
        · exact member

/-- What a routed message adds to a link's queue. -/
def traffic (env : Envelope) (m : Moment) (b : Broker) (link : PeerLink) : List Envelope :=
  if (b.seen.isDuplicate (b.stamp env m).header.messageUuid).2 then []
  else if link.active && m.room link.key then [b.stamp env m] else []

theorem traffic_published (env : Envelope) (m : Moment) (b : Broker)
    (published : Keys.isReservedKey env.header.handlerKey = false) (link : PeerLink) :
    ∀ sent ∈ b.traffic env m link, Keys.isReservedKey sent.header.handlerKey = false := by
  intro sent member
  unfold traffic at member
  split at member
  · cases member
  · split at member
    · rw [List.mem_singleton.mp member,stamp_key]
      exact published
    · cases member

theorem ready_routing (env : Envelope) (senderId : Str) (isFromPeer : Bool) (m : Moment) (b : Broker) :
    (b.ready env senderId isFromPeer m).toRouting = b.toRouting := by
  unfold ready
  cases isFromPeer <;> rfl

theorem ready_clients (env : Envelope) (senderId : Str) (isFromPeer : Bool) (m : Moment) (b : Broker)
    (clientId : Str) : clientId ∈ (b.ready env senderId isFromPeer m).clients ↔
      isFromPeer = false ∧ clientId = senderId ∨ clientId ∈ b.clients := by
  unfold ready
  cases isFromPeer with
  | false =>
    simp only [true_and]
    exact AList.mem_insert b.clients
  | true => simp [recorded]

theorem published_routing (env : Envelope) (senderId : Str) (isFromPeer : Bool) (m : Moment) (b : Broker)
    (published : Keys.isReservedKey env.header.handlerKey = false) :
    (b.processMessage env senderId isFromPeer m).state.toRouting = b.toRouting.forward (b.traffic env m) := by
  cases repeated : (b.seen.isDuplicate (b.stamp env m).header.messageUuid).2 with
  | true =>
    rw [processMessage_duplicate env senderId isFromPeer m b published repeated]
    simp [recorded,Routing.forward,traffic,repeated]
  | false =>
    rw [processMessage_routed env senderId isFromPeer m b published repeated]
    have after := (noteDropped_all ((b.ready env senderId isFromPeer m).recipients
      (b.stamp env m).header.topic senderId isFromPeer) (b.stamp env m) m
        (b.ready env senderId isFromPeer m)).1
    simp only [floodPeers,deliverToSubscribers,after,ready_routing]
    congr 1
    funext link
    simp [traffic,repeated]

theorem published_clients (env : Envelope) (senderId : Str) (isFromPeer : Bool) (m : Moment) (b : Broker)
    (published : Keys.isReservedKey env.header.handlerKey = false) (clientId : Str)
    (member : clientId ∈ b.clients) :
    clientId ∈ (b.processMessage env senderId isFromPeer m).state.clients := by
  cases repeated : (b.seen.isDuplicate (b.stamp env m).header.messageUuid).2 with
  | true =>
    rw [processMessage_duplicate env senderId isFromPeer m b published repeated]
    exact member
  | false =>
    rw [processMessage_routed env senderId isFromPeer m b published repeated]
    have after := (noteDropped_all ((b.ready env senderId isFromPeer m).recipients
      (b.stamp env m).header.topic senderId isFromPeer) (b.stamp env m) m
        (b.ready env senderId isFromPeer m)).2.2 clientId
    exact after.mpr ((ready_clients env senderId isFromPeer m b clientId).mpr (.inr member))

theorem reserved_routing (env : Envelope) (senderId : Str) (m : Moment) (b : Broker)
    (reserved : Keys.isReservedKey env.header.handlerKey = true)
    (stays : env.header.handlerKey ≠ Keys.setCluster) :
    (b.processMessage env senderId false m).state.toRouting = turn env senderId b.toRouting := by
  rw [processMessage_reserved env senderId m b reserved]
  exact (handleClientMessage_routing _ senderId m _ (by rwa [stamp_key])).trans (turn_stamp env m b senderId _)

theorem reserved_clients (env : Envelope) (senderId : Str) (m : Moment) (b : Broker)
    (reserved : Keys.isReservedKey env.header.handlerKey = true)
    (stays : env.header.handlerKey ≠ Keys.setCluster) (clientId : Str) :
    clientId ∈ (b.processMessage env senderId false m).state.clients ↔
      if env.header.handlerKey = Keys.disconnect then clientId ≠ senderId ∧ clientId ∈ b.clients
      else clientId = senderId ∨ clientId ∈ b.clients := by
  rw [processMessage_reserved env senderId m b reserved]
  have handled := handleClientMessage_clients (b.stamp env m) senderId m
    { b with totalMessages := b.totalMessages + 1 } (by rwa [stamp_key]) clientId
  rwa [stamp_key] at handled

/-- What no message touches at all. -/
theorem processMessage_same (env : Envelope) (senderId : Str) (isFromPeer : Bool) (m : Moment) (b : Broker) :
    (b.processMessage env senderId isFromPeer m).state.brokerId = b.brokerId ∧
      (b.processMessage env senderId isFromPeer m).state.inbound = b.inbound := by
  cases reserved : Keys.isReservedKey env.header.handlerKey with
  | false =>
    cases repeated : (b.seen.isDuplicate (b.stamp env m).header.messageUuid).2 with
    | true =>
      rw [processMessage_duplicate env senderId isFromPeer m b reserved repeated]
      exact ⟨rfl,rfl⟩
    | false =>
      rw [processMessage_routed env senderId isFromPeer m b reserved repeated]
      have keeps := (noteDropped_all ((b.ready env senderId isFromPeer m).recipients
        (b.stamp env m).header.topic senderId isFromPeer) (b.stamp env m) m
          (b.ready env senderId isFromPeer m)).2.1
      refine ⟨keeps.brokerId.trans ?_,keeps.inbound.trans ?_⟩ <;> unfold ready <;> cases isFromPeer <;> rfl
  | true =>
    cases isFromPeer with
    | true =>
      rw [processMessage_peer_reserved env senderId m b reserved]
      exact ⟨rfl,rfl⟩
    | false =>
      rw [processMessage_reserved env senderId m b reserved]
      have keeps := handleClientMessage_keeps (b.stamp env m) senderId m { b with totalMessages := b.totalMessages + 1 }
      exact ⟨keeps.brokerId,keeps.inbound⟩

theorem processMessage_inbound (env : Envelope) (senderId : Str) (isFromPeer : Bool) (m : Moment) (b : Broker) :
    (b.processMessage env senderId isFromPeer m).state.inbound = b.inbound :=
  (processMessage_same env senderId isFromPeer m b).2

variable {property : Routing → Prop}

theorem turn_turning (turning : Routing.Turning property) (env : Envelope) (senderId : Str) (r : Routing)
    (holds : property r) : property (turn env senderId r) := by
  unfold turn
  dsimp only
  split
  · exact turning.removeClient r _ holds
  · split
    · split
      next accepted =>
        simp only [Bool.and_eq_true,decide_eq_true_eq] at accepted
        exact turning.subscribe r _ _ _ ⟨by simpa using accepted.1.1,accepted.1.2⟩ holds
      · exact holds
    · split
      · exact turning.unsubscribe r _ _ holds
      · exact holds

section

variable (shedding : Routing.Shedding property)

include shedding

theorem removePeer_shedding (key : Str) (b : Broker) (holds : property b.toRouting) :
    property (b.removePeer key).state.toRouting := by
  unfold removePeer
  split
  · exact holds
  · exact shedding.dropLinks _ _ holds

theorem removePeers_shedding (keys : List Str) (b : Broker) (holds : property b.toRouting) :
    property (b.removePeers keys).state.toRouting := by
  rw [removePeers_state]
  exact List.foldlRecOn (motive := fun b : Broker => property b.toRouting) keys _ holds fun b held key _ =>
    removePeer_shedding shedding key b held

theorem unlinkInboundPeers_shedding (m : Moment) (b : Broker) (holds : property b.toRouting) :
    property (b.unlinkInboundPeers m).state.toRouting :=
  List.foldlRecOn (motive := fun b : Broker => property b.toRouting) _ _ holds fun b held clientId _ =>
    shedding.removeClient b.toRouting clientId held

theorem handleSetCluster_shedding (newCluster : Str) (m : Moment) (b : Broker) (holds : property b.toRouting) :
    property (b.handleSetCluster newCluster m).state.toRouting := by
  rcases handleSetCluster_cases newCluster m b with same | ⟨discovery,keys,same⟩
  · rwa [same]
  · rw [same,Outcome.andThen_state]
    refine removePeers_shedding shedding keys _ ?_
    exact unlinkInboundPeers_shedding shedding m { b with clusterName := newCluster } holds

end

/-- The routing state after any message: a swap, a turn, or more traffic. -/
theorem processMessage_routing {env : Envelope} {senderId : Str} {isFromPeer : Bool} {m : Moment} {b : Broker}
    (property : Routing → Prop)
    (swapped : isFromPeer = false → env.header.handlerKey = Keys.setCluster →
      property (handleSetCluster env.payload m
        (touch senderId m.now { b with totalMessages := b.totalMessages + 1 })).state.toRouting)
    (turned : isFromPeer = false → property (turn env senderId b.toRouting)) (same : property b.toRouting)
    (forwarded : Keys.isReservedKey env.header.handlerKey = false →
      property (b.toRouting.forward (b.traffic env m))) :
    property (b.processMessage env senderId isFromPeer m).state.toRouting := by
  cases reserved : Keys.isReservedKey env.header.handlerKey with
  | false =>
    rw [published_routing env senderId isFromPeer m b reserved]
    exact forwarded reserved
  | true =>
    cases isFromPeer with
    | true =>
      rw [processMessage_peer_reserved env senderId m b reserved]
      exact same
    | false =>
      by_cases swap : env.header.handlerKey = Keys.setCluster
      · rw [processMessage_swapped swap]
        exact swapped rfl swap
      · rw [reserved_routing env senderId m b reserved swap]
        exact turned rfl

theorem processMessage_closed (closed : Routing.Closed property) (env : Envelope) (senderId : Str)
    (isFromPeer : Bool) (m : Moment) (b : Broker) (holds : property b.toRouting) :
    property (b.processMessage env senderId isFromPeer m).state.toRouting :=
  processMessage_routing property (fun _ _ => handleSetCluster_shedding closed.toShedding env.payload m _ holds)
    (fun _ => turn_turning closed.toTurning env senderId b.toRouting holds) holds
    fun published => closed.forward _ _ (traffic_published env m b published) holds

end Broker

end Wisp
