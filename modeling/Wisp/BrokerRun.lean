import Wisp.InterestMirror
import Wisp.Session

/-! One broker and its discovery over any run: the client table, the registry and the
interest stay together, whichever way clients and links come and go. -/
namespace Wisp

open Transition

namespace Routing

/-- What one client may hold at most. -/
structure Bounded (r : Routing) : Prop where
  capped : ∀ clientId, (r.subscriptions.held clientId).card ≤ maxSubscriptionsPerClient
  fits : ∀ clientId, ∀ topic ∈ r.subscriptions.held clientId, TopicFits topic

/-- Holding less stays within the bounds. -/
theorem Bounded.shrink {r r' : Routing} (bounded : Bounded r)
    (less : ∀ clientId, r'.subscriptions.held clientId ⊆ r.subscriptions.held clientId) : Bounded r' where
  capped clientId := (Finset.card_le_card (less clientId)).trans (bounded.capped clientId)
  fits clientId topic member := bounded.fits clientId topic (less clientId member)

theorem canSubscribe_iff (r : Routing) (clientId topic : Str) : r.canSubscribe clientId topic = true ↔
    topic ∈ r.subscriptions.held clientId ∨
      (r.subscriptions.held clientId).card < maxSubscriptionsPerClient := by
  rw [SubscriptionRegistry.held_card]
  unfold canSubscribe SubscriptionRegistry.subscriptionsOf SubscriptionRegistry.held SubscriptionRegistry.topicsOf
  cases r.subscriptions.clientTopics.lookup clientId with
  | none =>
    have room : 0 < maxSubscriptionsPerClient := by decide
    simp [room]
  | some topics => simp [AList.mem_keys]

theorem held_subscribe (r : Routing) (clientId topic : Str) (scope : Origin) (other : Str) :
    (r.subscribe clientId topic scope).subscriptions.held other =
      if other = clientId then insert topic (r.subscriptions.held other) else r.subscriptions.held other := by
  ext filter
  rw [SubscriptionRegistry.mem_held,subscribe_scopes]
  by_cases same : other = clientId
  · by_cases named : filter = topic <;> simp [same,named,SubscriptionRegistry.mem_held]
  · simp [same,SubscriptionRegistry.mem_held]

theorem Bounded.subscribe {r : Routing} (bounded : Bounded r) {clientId topic : Str} (scope : Origin)
    (fits : TopicFits topic) (room : r.canSubscribe clientId topic = true) :
    Bounded (r.subscribe clientId topic scope) := by
  constructor
  · intro other
    rw [held_subscribe]
    split
    next same =>
      subst same
      rcases (canSubscribe_iff r other topic).mp room with member | below
      · rw [Finset.insert_eq_of_mem member]
        exact bounded.capped other
      · have grown := Finset.card_insert_le topic (r.subscriptions.held other)
        omega
    · exact bounded.capped other
  · intro other filter member
    rw [held_subscribe] at member
    split at member
    · rcases Finset.mem_insert.mp member with rfl | old
      · exact fits
      · exact bounded.fits other filter old
    · exact bounded.fits other filter member

theorem Bounded.removeClient {r : Routing} (bounded : Bounded r) (clientId : Str) :
    Bounded (r.removeClient clientId) := by
  refine bounded.shrink fun other topic member => ?_
  rw [SubscriptionRegistry.mem_held,removeClient_scopes] at member
  rw [SubscriptionRegistry.mem_held]
  split at member
  · exact absurd rfl member
  · exact member

theorem Bounded.unsubscribe {r : Routing} (bounded : Bounded r) (clientId topic : Str) :
    Bounded (r.unsubscribe clientId topic) := by
  refine bounded.shrink fun other filter member => ?_
  rw [SubscriptionRegistry.mem_held,unsubscribe_scopes] at member
  rw [SubscriptionRegistry.mem_held]
  split at member
  · exact absurd rfl member
  · exact member

theorem bounded_shedding : Shedding Bounded where
  removeClient _ clientId bounded := bounded.removeClient clientId
  dropLinks _ _ bounded := ⟨bounded.capped,bounded.fits⟩

end Routing

namespace Broker

theorem turn_bounded (env : Envelope) (senderId : Str) (r : Routing) (bounded : r.Bounded) :
    (turn env senderId r).Bounded := by
  unfold turn
  dsimp only
  split
  · exact bounded.removeClient senderId
  · split
    · split
      next accepted =>
        simp only [Bool.and_eq_true,decide_eq_true_eq] at accepted
        apply bounded.subscribe
        · exact ⟨by simpa using accepted.1.1,accepted.1.2⟩
        · exact accepted.2
      · exact bounded
    · split
      · exact bounded.unsubscribe senderId _
      · exact bounded

theorem removeClient_known {b : Broker} (known : Known b) (clientId : Str) : Known (b.removeClient clientId) := by
  intro other topic held
  rw [removeClient_routing,Routing.removeClient_scopes] at held
  split at held
  · exact absurd rfl held
  next different => exact AList.mem_erase.mpr ⟨different,known other topic held⟩

/-- The clients and what they subscribe to are the same. -/
structure SameClients (b b' : Broker) : Prop where
  subscriptions : b'.subscriptions = b.subscriptions
  interest : b'.interest = b.interest
  clients : b'.clients = b.clients

theorem SameClients.trans {b b' b'' : Broker} (first : SameClients b b') (later : SameClients b' b'') :
    SameClients b b'' :=
  ⟨later.subscriptions.trans first.subscriptions,later.interest.trans first.interest,
    later.clients.trans first.clients⟩

theorem removePeer_sameClients (key : Str) (b : Broker) : SameClients b (b.removePeer key).state := by
  unfold removePeer
  split <;> exact ⟨rfl,rfl,rfl⟩

theorem removePeers_sameClients (keys : List Str) (b : Broker) : SameClients b (b.removePeers keys).state := by
  rw [removePeers_state]
  exact List.foldlRecOn (motive := SameClients b) keys _ ⟨rfl,rfl,rfl⟩ fun b' same key _ =>
    same.trans (removePeer_sameClients key b')

theorem addPeer_sameClients (key address : Str) (b : Broker) :
    SameClients b { b with toRouting := b.toRouting.addPeer b.brokerId key address } := by
  obtain ⟨subscriptions,interest⟩ := Routing.addPeer_subscriptions b.brokerId key address b.toRouting
  exact ⟨subscriptions,interest,rfl⟩

theorem handleSetCluster_known (newCluster : Str) (m : Moment) {b : Broker} (known : Known b) :
    Known (b.handleSetCluster newCluster m).state := by
  rcases handleSetCluster_cases newCluster m b with same | ⟨discovery,keys,same⟩
  · rwa [same]
  · rw [same,Outcome.andThen_state]
    have left : Known (unlinkInboundPeers m { b with clusterName := newCluster }).state :=
      List.foldlRecOn (motive := Known) _ _ known fun _ held clientId _ => removeClient_known held clientId
    generalize (unlinkInboundPeers m { b with clusterName := newCluster }).state = rest at left
    have kept := removePeers_sameClients keys { rest with discovery }
    intro clientId topic held
    rw [kept.subscriptions] at held
    rw [kept.clients]
    exact left clientId topic held

theorem processMessage_alwaysKnown (env : Envelope) (senderId : Str) (isFromPeer : Bool) (m : Moment) {b : Broker}
    (known : Known b) : Known (b.processMessage env senderId isFromPeer m).state := by
  by_cases stays : isFromPeer = true ∨ env.header.handlerKey ≠ Keys.setCluster
  · exact processMessage_known stays known
  · rw [not_or,Bool.not_eq_true,not_not] at stays
    rw [stays.1,processMessage_swapped stays.2]
    apply handleSetCluster_known
    intro clientId topic held
    exact (AList.mem_insert _).mpr (.inr (known clientId topic held))

/-- What holds of the client table, the registry and the interest between two messages. -/
structure Tidy (b : Broker) : Prop where
  valid : b.toRouting.Valid
  bounded : b.toRouting.Bounded
  known : Known b

theorem new_tidy (brokerId clusterName : Str) (discovery : Option Discovery) :
    Tidy (new brokerId clusterName discovery) where
  valid := Routing.empty_valid
  bounded := ⟨fun _ => Nat.zero_le _,fun _ _ member => by cases member⟩
  known _ _ held := absurd rfl held

theorem Tidy.transfer {b b' : Broker} (tidy : Tidy b) (same : SameClients b b') : Tidy b' := by
  obtain ⟨subscriptions,interest,clients⟩ := same
  refine ⟨⟨?_,?_⟩,⟨?_,?_⟩,?_⟩
  · rw [subscriptions]
    exact tidy.valid.consistent
  · rw [subscriptions,interest]
    exact tidy.valid.tracks
  · rw [subscriptions]
    exact tidy.bounded.capped
  · rw [subscriptions]
    exact tidy.bounded.fits
  · rw [Known,subscriptions,clients]
    exact tidy.known

theorem Tidy.removeClient {b : Broker} (tidy : Tidy b) (clientId : Str) : Tidy (b.removeClient clientId) :=
  ⟨Routing.removeClient_valid tidy.valid clientId,tidy.bounded.removeClient clientId,
    removeClient_known tidy.known clientId⟩

theorem Tidy.processMessage {b : Broker} (tidy : Tidy b) (env : Envelope) (senderId : Str) (isFromPeer : Bool)
    (m : Moment) : Tidy (b.processMessage env senderId isFromPeer m).state where
  valid := processMessage_closed Routing.valid_upheld.toClosed env senderId isFromPeer m b tidy.valid
  bounded := processMessage_routing Routing.Bounded
    (fun _ _ => handleSetCluster_shedding Routing.bounded_shedding env.payload m _ tidy.bounded)
    (fun _ => turn_bounded env senderId b.toRouting tidy.bounded) tidy.bounded
    fun _ => ⟨tidy.bounded.capped,tidy.bounded.fits⟩
  known := processMessage_alwaysKnown env senderId isFromPeer m tidy.known

/-- Everything that happens to one broker, with the datagrams its discovery hears and
the sweeps that expire what it no longer hears. -/
inductive Activity where
  | operation (operation : Operation)
  | datagram (senderIp : Str) (heard : Beacon) (now : Nat)
  | expireStale (now : Nat)

/-- The dial callback is `addPeer`. -/
def hear (senderIp : Str) (heard : Beacon) (now : Nat) (b : Broker) : Broker :=
  match b.discovery with
  | none => b
  | some d =>
    match d.onDatagram senderIp heard now with
    | (d,none) => { b with discovery := some d }
    | (d,some (uuid,address)) =>
      { b with discovery := some d, toRouting := b.toRouting.addPeer b.brokerId uuid address }

/-- The drop callback is `removePeer`. -/
def sweep (now : Nat) (b : Broker) : Outcome Broker Output :=
  match b.discovery with
  | none => ⟨b,[]⟩
  | some d => removePeers (d.expireStale now).2 { b with discovery := some (d.expireStale now).1 }

def act : Activity → Broker → Outcome Broker Output
  | .operation operation, b => operate operation b
  | .datagram senderIp heard now, b => ⟨b.hear senderIp heard now,[]⟩
  | .expireStale now, b => b.sweep now

theorem hear_sameClients (senderIp : Str) (heard : Beacon) (now : Nat) (b : Broker) :
    SameClients b (b.hear senderIp heard now) := by
  unfold hear
  split
  · exact ⟨rfl,rfl,rfl⟩
  · split
    · exact ⟨rfl,rfl,rfl⟩
    next uuid address _ =>
      have added := addPeer_sameClients uuid address b
      exact ⟨added.subscriptions,added.interest,rfl⟩

theorem sweep_sameClients (now : Nat) (b : Broker) : SameClients b (b.sweep now).state := by
  unfold sweep
  split
  · exact ⟨rfl,rfl,rfl⟩
  next d _ =>
    have dropped := removePeers_sameClients (d.expireStale now).2 { b with discovery := some (d.expireStale now).1 }
    exact ⟨dropped.subscriptions,dropped.interest,dropped.clients⟩

theorem operate_tidy {b : Broker} (tidy : Tidy b) (operation : Operation) : Tidy (operate operation b).state := by
  cases operation with
  | receive senderId env m => exact tidy.processMessage env senderId false m
  | receivePeer env m => exact tidy.processMessage env _ true m
  | timeout clientId => exact tidy.removeClient clientId
  | addPeer key address => exact tidy.transfer (addPeer_sameClients key address b)
  | removePeer key => exact tidy.transfer (removePeer_sameClients key b)
  | reset key processed => exact tidy.transfer ⟨rfl,rfl,rfl⟩

theorem act_tidy {b : Broker} (tidy : Tidy b) (activity : Activity) : Tidy (act activity b).state := by
  cases activity with
  | operation operation => exact operate_tidy tidy operation
  | datagram senderIp heard now => exact tidy.transfer (hear_sameClients senderIp heard now b)
  | expireStale now => exact tidy.transfer (sweep_sameClients now b)

theorem run_tidy (brokerId clusterName : Str) (discovery : Option Discovery) (activities : List Activity) :
    Tidy (run act activities (new brokerId clusterName discovery)).state :=
  run_preserves act Tidy (fun _ activity tidy => act_tidy tidy activity) activities _
    (new_tidy brokerId clusterName discovery)

/-- Why a SUBSCRIBE of the client for the topic would be turned down. -/
def Refuses (b : Broker) (clientId topic : Str) : Prop :=
  topic = [] ∨ maxTopicLengthBytes < topic.length ∨
    topic ∉ b.subscriptions.held clientId ∧ maxSubscriptionsPerClient ≤ (b.subscriptions.held clientId).card

theorem accepts_iff (b : Broker) (clientId topic : Str) :
    (!topic.isEmpty && decide (topic.length ≤ maxTopicLengthBytes) && b.canSubscribe clientId topic) = true ↔
      ¬Refuses b clientId topic := by
  rw [Bool.and_eq_true,Bool.and_eq_true,Routing.canSubscribe_iff,decide_eq_true_eq,Refuses,
    Bool.not_eq_true',List.isEmpty_eq_false_iff]
  have lengths := Nat.not_lt (a := maxTopicLengthBytes) (b := topic.length)
  have counts := Nat.not_le (a := maxSubscriptionsPerClient) (b := (b.subscriptions.held clientId).card)
  tauto

/-- A SUBSCRIBE does what it asks for or leaves the routing state as it is. -/
theorem subscribe_routing (env : Envelope) (senderId : Str) (m : Moment) (b : Broker)
    (asks : env.header.handlerKey = Keys.subscribe) :
    (Refuses b senderId env.header.topic →
      (b.processMessage env senderId false m).state.toRouting = b.toRouting) ∧
    (¬Refuses b senderId env.header.topic →
      (b.processMessage env senderId false m).state.toRouting =
        b.toRouting.subscribe senderId env.header.topic (decodeSubscribeScope env.payload)) := by
  have reserved : Keys.isReservedKey env.header.handlerKey = true := by rw [asks]; decide
  have stays : env.header.handlerKey ≠ Keys.setCluster := by rw [asks]; decide
  have remains : env.header.handlerKey ≠ Keys.disconnect := by rw [asks]; decide
  have decision := accepts_iff b senderId env.header.topic
  rw [reserved_routing env senderId m b reserved stays,turn,if_neg remains,if_pos asks]
  constructor
  · intro refused
    exact if_neg fun accepted => decision.mp accepted refused
  · intro taken
    exact if_pos (decision.mpr taken)

/-- Whatever happens, the registry only has clients of the table, each within the bounds;
a SUBSCRIBE is refused for its topic or for the cap alone, and changes nothing then. -/
theorem clients_tidy_and_bounded (brokerId clusterName : Str) (discovery : Option Discovery)
    (activities : List Activity) :
    let b := (run act activities (new brokerId clusterName discovery)).state
    (∀ clientId, clientId ∈ b.subscriptions.clientTopics → clientId ∈ b.clients) ∧
    (∀ topic, ∀ subscriber ∈ SubscriptionRegistry.listed b.subscriptions.topicSubscribers topic,
      subscriber.clientId ∈ b.clients) ∧
    (∀ clientId, (b.subscriptions.held clientId).card ≤ maxSubscriptionsPerClient) ∧
    (∀ clientId, ∀ topic ∈ b.subscriptions.held clientId,
      1 ≤ topic.length ∧ topic.length ≤ maxTopicLengthBytes) ∧
    ∀ senderId env m, env.header.handlerKey = Keys.subscribe →
      let b' := (b.processMessage env senderId false m).state
      (Refuses b senderId env.header.topic → b'.subscriptions = b.subscriptions ∧ b'.interest = b.interest) ∧
      (¬Refuses b senderId env.header.topic → b'.subscriptions.scopeOf senderId env.header.topic =
        some (decodeSubscribeScope env.payload)) ∧
      (env.header.topic ∈ b.subscriptions.held senderId → ¬Refuses b senderId env.header.topic) := by
  intro b
  have tidy : Tidy b := run_tidy brokerId clusterName discovery activities
  have consistent := tidy.valid.consistent
  refine ⟨fun clientId member => ?_,fun topic subscriber member => ?_,tidy.bounded.capped,
    fun clientId topic member => ?_,fun senderId env m asks => ⟨fun refused => ?_,fun taken => ?_,fun held => ?_⟩⟩
  · obtain ⟨topics,entry⟩ := Option.isSome_iff_exists.mp (AList.lookup_isSome.mpr member)
    obtain ⟨topic,key⟩ := List.exists_mem_of_ne_nil _ (consistent.holding clientId topics entry)
    apply tidy.known clientId topic
    rw [← SubscriptionRegistry.mem_held,SubscriptionRegistry.held,SubscriptionRegistry.topicsOf,entry]
    exact List.mem_toFinset.mpr key
  · apply tidy.known subscriber.clientId topic
    rw [(consistent.agree _ _ _).mpr member]
    exact Option.some_ne_none _
  · obtain ⟨named,short⟩ := tidy.bounded.fits clientId topic member
    exact ⟨List.length_pos_iff.mpr named,short⟩
  · rw [(subscribe_routing env senderId m b asks).1 refused]
    exact ⟨rfl,rfl⟩
  · rw [(subscribe_routing env senderId m b asks).2 taken,Routing.subscribe_scopes]
    exact if_pos ⟨rfl,rfl⟩
  · obtain ⟨named,short⟩ := tidy.bounded.fits senderId _ held
    rintro (empty | long | ⟨missing,-⟩)
    · exact named empty
    · omega
    · exact missing held

/-- The client holds the filter in a scope that takes the message's origin. -/
def takes (clientId filter : Str) (isLocal : Bool) (b : Broker) : Bool :=
  (b.subscriptions.scopeOf clientId filter).any fun scope => scopeAccepts scope isLocal

theorem wants_iff (clientId topic : Str) (isLocal : Bool) (b : Broker) :
    Wants b.subscriptions clientId topic isLocal ↔
      b.takes clientId topic isLocal = true ∨ b.takes clientId Keys.wildcardTopic isLocal = true := by
  have each (filter : Str) : b.takes clientId filter isLocal = true ↔
      ∃ scope, b.subscriptions.scopeOf clientId filter = some scope ∧ scopeAccepts scope isLocal = true := by
    unfold takes
    cases b.subscriptions.scopeOf clientId filter <;> simp
  rw [each,each,Wants]
  constructor
  · rintro ⟨filter,rfl | rfl,held⟩
    · exact .inl held
    · exact .inr held
  · rintro (named | wildcard)
    · exact ⟨topic,.inl rfl,named⟩
    · exact ⟨Keys.wildcardTopic,.inr rfl,wildcard⟩

def isSendTo (clientId : Str) : Output → Bool
  | .send identity _ _ => identity == clientId
  | _ => false

theorem deliverToSubscribers_sends {b : Broker} (consistent : b.subscriptions.Consistent) (env : Envelope)
    (senderId : Str) (isFromPeer : Bool) (m : Moment) (clientId : Str) :
    (b.deliverToSubscribers env senderId isFromPeer m).events.countP (isSendTo clientId) =
      if clientId ∈ b.recipients env.header.topic senderId isFromPeer then 1 else 0 := by
  rw [← (recipients_nodup consistent _ senderId isFromPeer).count,List.count,deliverToSubscribers,List.countP_map]
  rfl

/-- Whatever happened before, a routed message is sent once to each client that the
exact topic or the wildcard calls for, and to nobody else. -/
theorem delivers_once_to_each_subscriber (brokerId clusterName : Str) (discovery : Option Discovery)
    (activities : List Activity) (env : Envelope) (senderId : Str) (isFromPeer : Bool) (m : Moment) :
    let b := (run act activities (new brokerId clusterName discovery)).state
    let fanning := b.ready env senderId isFromPeer m
    let delivery := fanning.deliverToSubscribers (b.stamp env m) senderId isFromPeer m
    (∀ clientId, delivery.events.countP (isSendTo clientId) =
      if clientId ∈ fanning.clients ∧ (isFromPeer = false → clientId ≠ senderId) ∧
          (fanning.takes clientId env.header.topic (!isFromPeer) = true ∨
            fanning.takes clientId Keys.wildcardTopic (!isFromPeer) = true) then 1 else 0) ∧
    (∀ output ∈ delivery.events, ∃ clientId, output = m.sendTo clientId (b.stamp env m)) ∧
    (Keys.isReservedKey env.header.handlerKey = false →
      (b.seen.isDuplicate (b.stamp env m).header.messageUuid).2 = false →
        delivery.events <:+: (b.processMessage env senderId isFromPeer m).events) := by
  intro b fanning delivery
  have tidy : Tidy b := run_tidy brokerId clusterName discovery activities
  have consistent : fanning.subscriptions.Consistent := by
    rw [ready_routing env senderId isFromPeer m b]
    exact tidy.valid.consistent
  refine ⟨fun clientId => ?_,fun output member => ?_,fun published fresh => ?_⟩
  · have echo : (isFromPeer = true ∨ clientId ≠ senderId) ↔ (isFromPeer = false → clientId ≠ senderId) := by
      cases isFromPeer <;> simp
    have served := mem_recipients consistent env.header.topic senderId isFromPeer clientId
    rw [wants_iff,echo,and_left_comm] at served
    rw [deliverToSubscribers_sends consistent,stamp_topic]
    exact if_congr served rfl rfl
  · obtain ⟨clientId,-,rfl⟩ := List.mem_map.mp member
    exact ⟨clientId,rfl⟩
  · rw [processMessage_routed env senderId isFromPeer m b published fresh]
    exact ((List.infix_append _ _ _).trans (List.suffix_cons _ _).isInfix).trans (List.suffix_cons _ _).isInfix

end Broker

end Wisp
