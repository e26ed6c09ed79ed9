import Wisp.BrokerTurn

/-! The statistics a broker reports every second. They go past the routing path: to the
inspector, and to the clients subscribed to them by name. -/
namespace Wisp

open Transition

def Keys.sysStats : Str := str "__SYS_STATS__"

structure ClientInfo where
  id : Str
  subscriptions : List Str
  droppedMessages : Nat
  subscriptionCount : Nat
  deriving DecidableEq, Repr

structure SystemStats where
  brokerId : Str
  clientsCount : Nat
  peersCount : Nat
  msgsPerSec : Nat
  kbPerSec : Rat
  totalMsgs : Nat
  uptimeSec : Nat
  cluster : Str
  totalDropped : Nat
  totalRejectedSubs : Nat
  connectedClients : List ClientInfo
  deriving DecidableEq, Repr

/-- What the clock and the counters of the interval come to. -/
structure Rates where
  msgsPerSec : Nat
  kbPerSec : Rat
  uptimeSec : Nat

namespace Broker

def maxListedSubscriptions : Nat := 64

/-- The topics are listed in order, as many as a report takes. -/
def clientInfo (clientId : Str) (client : ClientState) (b : Broker) : ClientInfo :=
  match b.subscriptions.subscriptionsOf clientId with
  | none => ⟨clientId,[],client.droppedMessages,0⟩
  | some topics =>
    ⟨clientId,(topics.keys.mergeSort fun topic other => decide (topic ≤ other)).take maxListedSubscriptions,
      client.droppedMessages,topics.keys.length⟩

def systemStats (rates : Rates) (b : Broker) : SystemStats where
  brokerId := b.brokerId
  clientsCount := b.clients.keys.length
  peersCount := b.peers.length
  msgsPerSec := rates.msgsPerSec
  kbPerSec := rates.kbPerSec
  totalMsgs := b.totalMessages
  uptimeSec := rates.uptimeSec
  cluster := b.clusterName
  totalDropped := b.totalDropped
  totalRejectedSubs := b.rejectedSubscriptions
  connectedClients := b.clients.entries.map fun entry => b.clientInfo entry.1 entry.2

/-- The report as a message; `pack` wraps and serializes the record. -/
def statsMessage (pack : SystemStats → Str) (rates : Rates) (b : Broker) : Envelope :=
  ⟨Wire.makeControlHeader Keys.sysStats (str "BROKER_SYSTEM") Keys.sysStats,pack (b.systemStats rates)⟩

/-- Subscribers by name alone: a wildcard subscriber may be a peer link. -/
def statsRecipients (b : Broker) : List Str :=
  (((b.subscriptions.subscribersOf Keys.sysStats).getD []).filter fun subscriber =>
    scopeAccepts subscriber.scope true).map Subscriber.clientId

def broadcastStats (pack : SystemStats → Str) (rates : Rates) (m : Moment) (b : Broker) : Outcome Broker Output :=
  let report := b.statsMessage pack rates
  ⟨b.statsRecipients.foldl (fun b clientId => if m.accepts clientId report then b else b.noteDroppedTo clientId) b,
    .tap report :: b.statsRecipients.map fun clientId => m.sendTo clientId report⟩

variable (pack : SystemStats → Str) (rates : Rates) (m : Moment) (b : Broker)

theorem broadcastStats_routing : (b.broadcastStats pack rates m).state.toRouting = b.toRouting :=
  (noteDropped_all b.statsRecipients (b.statsMessage pack rates) m b).1

/-- Everything sent is the broker's own report, to a client that asked for it by name. -/
theorem broadcastStats_sends {b : Broker} (consistent : b.subscriptions.Consistent) {clientId : Str} {env : Envelope}
    {accepted : Bool} (member : .send clientId env accepted ∈ (b.broadcastStats pack rates m).events) :
    env = b.statsMessage pack rates ∧ b.subscriptions.scopeOf clientId Keys.sysStats ≠ none := by
  obtain ⟨other,recipient,sent⟩ := List.mem_map.mp ((List.mem_cons.mp member).resolve_left (by rintro ⟨⟩))
  obtain ⟨rfl,rfl,-⟩ := Output.send.inj sent
  obtain ⟨subscriber,listed,rfl⟩ := List.mem_map.mp recipient
  refine ⟨rfl,?_⟩
  rw [(consistent.agree _ _ subscriber.scope).mpr (List.mem_of_mem_filter listed)]
  exact Option.some_ne_none _

end Broker

end Wisp
