import Wisp.Discovery
import Wisp.MessageHistory
import Wisp.Routing
import Wisp.Transition

/-! The broker thread: what one message does to the broker's state, and everything
it sends because of it. The logs, their throttles and the statistics broadcast are
left out. -/
namespace Wisp

open Transition

structure ClientState where
  lastSeen : Nat
  droppedMessages : Nat := 0
  deriving DecidableEq, Repr

structure Broker extends Routing where
  brokerId : Str
  clients : AList fun _ : Str => ClientState
  clusterName : Str
  discovery : Option Discovery
  seen : MessageHistory
  /-- `m_peerInboundQueue`: what the links' workers received and the broker thread has not taken. -/
  inbound : List Envelope
  totalMessages : Nat
  totalDropped : Nat
  rejectedSubscriptions : Nat

/-- What the surroundings answer while one message is processed: the clock, the
stamp `generateBinaryUUID` draws, and which sends find room. -/
structure Moment where
  now : Nat
  uuid : Str
  accepts : Str → Envelope → Bool
  room : Str → Bool

/-- A moment in which no send is refused. -/
def Moment.roomy (uuid : Str) : Moment := ⟨0,uuid,fun _ _ => true,fun _ => true⟩

inductive Output where
  | checked (id : MessageId) (duplicate : Bool)
  | tap (env : Envelope)
  | send (identity : Str) (env : Envelope) (accepted : Bool)
  | flood (key : Str) (env : Envelope) (accepted : Bool)
  | closed (link : PeerLink)
  deriving DecidableEq, Repr

/-- `Wire::sendTo` on the ROUTER socket. -/
def Moment.sendTo (m : Moment) (identity : Str) (env : Envelope) : Output :=
  .send identity env (m.accepts identity env)

namespace Broker

def new (brokerId clusterName : Str) (discovery : Option Discovery) : Broker :=
  { Routing.empty with
    brokerId, clusterName, discovery, clients := ∅, seen := .new, inbound := []
    totalMessages := 0, totalDropped := 0, rejectedSubscriptions := 0 }

def removeClient (clientId : Str) (b : Broker) : Broker :=
  { b with toRouting := b.toRouting.removeClient clientId, clients := b.clients.erase clientId }

def touch (clientId : Str) (now : Nat) (b : Broker) : Broker :=
  let client := (b.clients.lookup clientId).getD ⟨0,0⟩
  { b with clients := b.clients.insert clientId { client with lastSeen := now } }

def noteRejectedSubscription (b : Broker) : Broker :=
  { b with rejectedSubscriptions := b.rejectedSubscriptions + 1 }

def handleSubscribe (env : Envelope) (senderId : Str) (b : Broker) : Broker :=
  let topic := env.header.topic
  if topic.isEmpty then b
  else if topic.length > maxTopicLengthBytes then b.noteRejectedSubscription
  else if !b.canSubscribe senderId topic then b.noteRejectedSubscription
  else { b with toRouting := b.subscribe senderId topic (decodeSubscribeScope env.payload) }

def linkPrefix : Str := str "BrokerLink-"

def unlinkInboundPeers (m : Moment) (b : Broker) : Outcome Broker Output :=
  let inboundLinks := b.clients.keys.filter linkPrefix.isPrefixOf
  let unlinkFrame := Wire.makeControl Keys.unlink b.brokerId []
  ⟨inboundLinks.foldl (fun b clientId => b.removeClient clientId) b,
    inboundLinks.map fun clientId => m.sendTo clientId unlinkFrame⟩

/-- The worker sends what it still holds, and the DISCONNECT behind it, as it stops. -/
def removePeer (key : Str) (b : Broker) : Outcome Broker Output :=
  match b.peers.find? fun link => link.key == key with
  | none => ⟨b,[]⟩
  | some link =>
    ⟨{ b with peers := b.peers.filter fun link => link.key != key },
      [.closed { link with control := link.control ++ [.disconnect b.brokerId] }]⟩

def removePeers (keys : List Str) (b : Broker) : Outcome Broker Output :=
  keys.foldl (fun done key => done.andThen (removePeer key)) ⟨b,[]⟩

/-- The broker keeps its own copy of the name; discovery drops the links it dialed. -/
def handleSetCluster (newCluster : Str) (m : Moment) (b : Broker) : Outcome Broker Output :=
  if !Beacon.isValidClusterName newCluster then ⟨b,[]⟩
  else
    match b.discovery with
    | none => ⟨b,[]⟩
    | some d =>
      if newCluster = b.clusterName then ⟨b,[]⟩
      else
        (unlinkInboundPeers m { b with clusterName := newCluster }).andThen fun b =>
          removePeers (d.setCluster newCluster).2 { b with discovery := some (d.setCluster newCluster).1 }

/-- An identity without a session is asked to rebuild it, unless it leads with CONNECT. -/
def greet (key senderId : Str) (m : Moment) (b : Broker) : List Output :=
  if senderId ∉ b.clients ∧ key ≠ Keys.connect then
    [m.sendTo senderId (Wire.makeControl Keys.reset b.brokerId [])]
  else []

/-- The outcome, and whether the message was fully handled. -/
def handleClientMessage (env : Envelope) (senderId : Str) (m : Moment) (b : Broker) :
    Outcome Broker Output × Bool :=
  let key := env.header.handlerKey
  if key = Keys.disconnect then (⟨b.removeClient senderId,[]⟩,true)
  else
    let greeting := b.greet key senderId m
    let b := b.touch senderId m.now
    if key = Keys.connect then (⟨b,greeting⟩,true)
    else if key = Keys.heartbeat then
      (⟨b,greeting ++ [m.sendTo senderId (Wire.makeControl Keys.heartbeatAck b.brokerId [])]⟩,true)
    else if key = Keys.subscribe then (⟨b.handleSubscribe env senderId,greeting⟩,true)
    else if key = Keys.unsubscribe then
      (⟨{ b with toRouting := b.unsubscribe senderId env.header.topic },greeting⟩,true)
    else if key = Keys.setCluster then
      ((⟨b,greeting⟩ : Outcome Broker Output).andThen (handleSetCluster env.payload m),true)
    else (⟨b,greeting⟩,false)

def noteDroppedTo (clientId : Str) (b : Broker) : Broker :=
  { b with
    clients := match b.clients.lookup clientId with
      | none => b.clients
      | some client => b.clients.insert clientId { client with droppedMessages := client.droppedMessages + 1 }
    totalDropped := b.totalDropped + 1 }

/-- Subscribers of the exact topic, then the wildcard ones their exact subscription
did not already serve. -/
def recipients (topic senderId : Str) (isFromPeer : Bool) (b : Broker) : List Str :=
  let exactSubs := (b.subscriptions.subscribersOf topic).getD []
  let wildcardSubs := if topic = Keys.wildcardTopic then []
    else (b.subscriptions.subscribersOf Keys.wildcardTopic).getD []
  let isLocal := !isFromPeer
  let deliver : Subscriber → Bool := fun subscriber =>
    !(!isFromPeer && subscriber.clientId == senderId) && scopeAccepts subscriber.scope isLocal &&
      decide (subscriber.clientId ∈ b.clients)
  let served : Subscriber → Bool := fun subscriber =>
    match exactSubs.find? fun exact => exact.clientId == subscriber.clientId with
    | none => false
    | some exact => scopeAccepts exact.scope isLocal
  ((exactSubs.filter deliver) ++ wildcardSubs.filter fun subscriber =>
    !served subscriber && deliver subscriber).map Subscriber.clientId

def deliverToSubscribers (env : Envelope) (senderId : Str) (isFromPeer : Bool) (m : Moment) (b : Broker) :
    Outcome Broker Output :=
  let served := b.recipients env.header.topic senderId isFromPeer
  ⟨served.foldl (fun b clientId => if m.accepts clientId env then b else b.noteDroppedTo clientId) b,
    served.map fun clientId => m.sendTo clientId env⟩

def floodPeers (env : Envelope) (m : Moment) (b : Broker) : Outcome Broker Output :=
  let links := b.peers.filter fun link => link.active
  ⟨{ b with
      toRouting := b.forward fun link => if link.active && m.room link.key then [env] else []
      totalDropped := b.totalDropped + links.countP fun link => !m.room link.key },
    links.map fun link => .flood link.key env (m.room link.key)⟩

/-- Fresh messages only; forwarded ones keep their uuid. -/
def stamp (env : Envelope) (m : Moment) (b : Broker) : Envelope :=
  if env.header.messageUuid.isEmpty then
    { env with header := { env.header with messageUuid := m.uuid, originBrokerId := b.brokerId } }
  else env

/-- What happens to a stamped message past the dedup check. -/
def dispatch (env : Envelope) (senderId : Str) (isFromPeer : Bool) (m : Moment) (b : Broker) :
    Outcome Broker Output :=
  let handled := if isFromPeer then (⟨b,[]⟩,false) else b.handleClientMessage env senderId m
  (⟨b,[.tap env]⟩ : Outcome Broker Output).andThen fun _ =>
    if handled.2 || Keys.isReservedKey env.header.handlerKey then handled.1
    else (handled.1.andThen (deliverToSubscribers env senderId isFromPeer m)).andThen (floodPeers env m)

def processMessage (env : Envelope) (senderId : Str) (isFromPeer : Bool) (m : Moment) (b : Broker) :
    Outcome Broker Output :=
  let env := b.stamp env m
  let b := { b with totalMessages := b.totalMessages + 1 }
  if Keys.isReservedKey env.header.handlerKey then b.dispatch env senderId isFromPeer m
  else
    let (seen,duplicate) := b.seen.isDuplicate env.header.messageUuid
    (⟨{ b with seen },[.checked (dedupId env.header.messageUuid) duplicate]⟩ :
        Outcome Broker Output).andThen fun b =>
      if duplicate then ⟨b,[]⟩ else b.dispatch env senderId isFromPeer m

end Broker

end Wisp
