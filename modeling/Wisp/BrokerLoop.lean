import Wisp.Flow
import Wisp.Framing
import Wisp.Mesh
import Wisp.SignOfLife
import Wisp.Stats

/-! The loop of the broker thread: client messages off the ROUTER socket, then what the
links' workers queued, then the sweep for silent clients and the statistics. Clients, links
and discovery act between any two of its steps. Times are nanoseconds of the steady clock. -/
namespace Wisp

open Transition Multipart

def seconds (count : Nat) : Nat := count * 1000000000

def milliseconds (count : Nat) : Nat := count * 1000000

/-- Lets an event through at most once per interval. A window may have begun before the
clock did. -/
structure LogThrottle where
  interval : Nat
  lastFired : Int
  deriving DecidableEq, Repr

def LogThrottle.new (now : Nat) : LogThrottle := ⟨seconds 5,now - seconds 5⟩

def LogThrottle.ready (now : Nat) (t : LogThrottle) : Bool × LogThrottle :=
  if now - t.lastFired < t.interval then (false,t) else (true,{ t with lastFired := now })

/-- Where the broker thread is in its loop. -/
inductive BrokerLoop.Point where
  | polling
  | clients (drained : Nat)
  | draining
  | peers (batch : List Envelope)
  | timers
  deriving DecidableEq, Repr

structure BrokerLoop where
  broker : Broker
  socket : Socket Str
  point : BrokerLoop.Point
  /-- The latest reading of the clock. -/
  clock : Nat
  lastCleanup : Nat
  lastStatsTime : Nat
  msgsInterval : Nat
  bytesInterval : Nat
  malformedCount : Nat
  malformedThrottle : LogThrottle

namespace BrokerLoop

def maxMessagesPerWake : Nat := 1000

def maxRemovalsPerSweep : Nat := 16

structure Config where
  codec : HeaderCodec
  /-- In milliseconds, as the constructor takes it. -/
  clientTimeout : Nat
  startTime : Nat
  pack : SystemStats → Str
  /-- The rates of an interval: its messages, its bytes, its length and the uptime. -/
  rates : Nat → Nat → Nat → Nat → Rates

def Config.cleanupInterval (config : Config) : Nat := min 2000 (config.clientTimeout / 2)

/-- The thread as it enters its loop. -/
def start (b : Broker) (config : Config) (now : Nat) : BrokerLoop where
  broker := b
  socket := idle
  point := .polling
  clock := now
  lastCleanup := now
  lastStatsTime := config.startTime
  msgsInterval := 0
  bytesInterval := 0
  malformedCount := 0
  malformedThrottle := .new now

inductive Event where
  /-- A message handed to `processMessage`, and the bytes it counts for. -/
  | client (identity : Str) (env : Envelope) (bytes : Nat)
  | peer (env : Envelope) (bytes : Nat)
  /-- What the processing of a message sends, and what a report does. -/
  | output (output : Output)
  | broadcast (output : Output)
  /-- A session is entered. -/
  | joined (clientId : Str)
  | malformed
  | warned (count : Nat)
  | sweep (now : Nat)
  | swept (clientId : Str)
  /-- A report on an interval with so many messages and bytes. -/
  | report (messages bytes : Nat)

/-- What happens: at the socket, in the other threads, and in the loop itself. -/
inductive Label where
  | arrive (group : FrameGroup Str)
  | answer (key : Str) (env : Envelope) (room : Bool)
  | dial (key address : Str)
  | hangup (key : Str)
  | datagram (senderIp : Str) (heard : Beacon) (now : Nat)
  | expire (now : Nat)
  | poll
  | receive (m : Moment)
  | drain
  | route (m : Moment)
  /-- The clients in the order the table is walked in, and the surroundings of a broadcast. -/
  | timers (now : Nat) (order : List Str) (m : Moment)

/-- The reading of the clock that the loop takes in this step. -/
def Label.reading : Label → Option Nat
  | .receive m | .route m => some m.now
  | .timers now _ _ => some now
  | _ => none

def ofBroker (s : BrokerLoop) (outcome : Outcome Broker Output) : Outcome BrokerLoop Event :=
  ⟨{ s with broker := outcome.state },outcome.events.map .output⟩

def noteMalformed (now : Nat) (s : BrokerLoop) : Outcome BrokerLoop Event :=
  let count := s.malformedCount + 1
  match s.malformedThrottle.ready now with
  | (true,throttle) => ⟨{ s with malformedCount := 0, malformedThrottle := throttle },[.malformed,.warned count]⟩
  | (false,_) => ⟨{ s with malformedCount := count },[.malformed]⟩

def count (bytes : Nat) (s : BrokerLoop) : BrokerLoop :=
  { s with msgsInterval := s.msgsInterval + 1, bytesInterval := s.bytesInterval + bytes }

/-- The length of the frame behind the identity. -/
def headerSize (s : Socket Str) : Nat :=
  match s.frames with
  | _ :: (headerFrame,_) :: _ => headerFrame.length
  | _ => 0

def processClient (identity : Str) (env : Envelope) (bytes : Nat) (m : Moment) (s : BrokerLoop) : Outcome BrokerLoop Event :=
  let outcome := s.broker.processMessage env identity false m
  let entered := if identity ∉ s.broker.clients ∧ identity ∈ outcome.state.clients then [Event.joined identity] else []
  (⟨s.count bytes,.client identity env bytes :: entered⟩ : Outcome BrokerLoop Event).andThen fun s => s.ofBroker outcome

/-- One turn of the drain of the ROUTER socket. -/
def receive (config : Config) (m : Moment) (s : BrokerLoop) : Outcome BrokerLoop Event :=
  match s.point with
  | .clients drained =>
    if drained < maxMessagesPerWake then
      match routerIteration config.codec s.socket with
      | none => ⟨{ s with point := .draining },[]⟩
      | some (socket,none) => noteMalformed m.now { s with socket, point := .clients (drained + 1) }
      | some (socket,some (identity,env)) =>
        processClient identity env (headerSize s.socket + env.payload.length) m
          { s with socket, point := .clients (drained + 1) }
    else ⟨{ s with point := .draining },[]⟩
  | _ => ⟨s,[]⟩

def drain (s : BrokerLoop) : BrokerLoop :=
  match s.point with
  | .draining => { s with point := .peers s.broker.inbound, broker := { s.broker with inbound := [] } }
  | _ => s

def processPeer (env : Envelope) (bytes : Nat) (m : Moment) (s : BrokerLoop) : Outcome BrokerLoop Event :=
  (⟨s.count bytes,[.peer env bytes]⟩ : Outcome BrokerLoop Event).andThen fun s =>
    s.ofBroker (s.broker.processMessage env (str "PEER") true m)

/-- The next message of the batch. Its size counts with the header as this broker encodes it. -/
def route (config : Config) (m : Moment) (s : BrokerLoop) : Outcome BrokerLoop Event :=
  match s.point with
  | .peers [] => ⟨{ s with point := .timers },[]⟩
  | .peers (env :: rest) =>
    processPeer env ((Wire.encodeHeader config.codec (s.broker.stamp env m).header).length + env.payload.length) m
      { s with point := .peers rest }
  | _ => ⟨s,[]⟩

def expired (timeout now : Nat) (clientId : Str) (b : Broker) : Bool :=
  match b.clients.lookup clientId with
  | none => false
  | some client => decide (now - client.lastSeen > timeout)

/-- The walk over the table: who is silent for too long goes, until the sweep has done its share. -/
def sweep (timeout now : Nat) : List Str → Nat → Broker → Outcome Broker Str
  | [],_,b => ⟨b,[]⟩
  | clientId :: rest,removed,b =>
    if removed < maxRemovalsPerSweep then
      if expired timeout now clientId b then
        (⟨b.removeClient clientId,[clientId]⟩ : Outcome Broker Str).andThen (sweep timeout now rest (removed + 1))
      else sweep timeout now rest removed b
    else ⟨b,[]⟩

def cleanup (config : Config) (now : Nat) (order : List Str) (s : BrokerLoop) : Outcome BrokerLoop Event :=
  if now - s.lastCleanup > milliseconds config.cleanupInterval then
    let swept := sweep (milliseconds config.clientTimeout) now order 0 s.broker
    ⟨{ s with broker := swept.state, lastCleanup := now },.sweep now :: swept.events.map .swept⟩
  else ⟨s,[]⟩

def stats (config : Config) (now : Nat) (m : Moment) (s : BrokerLoop) : Outcome BrokerLoop Event :=
  if now - s.lastStatsTime > seconds 1 then
    let rates := config.rates s.msgsInterval s.bytesInterval (m.now - s.lastStatsTime) (m.now - config.startTime)
    let sent := s.broker.broadcastStats config.pack rates m
    ⟨{ s with broker := sent.state, lastStatsTime := now, msgsInterval := 0, bytesInterval := 0 },
      .report s.msgsInterval s.bytesInterval :: sent.events.map .broadcast⟩
  else ⟨s,[]⟩

/-- The end of a turn. The table is walked in some order of its keys. -/
def timers (config : Config) (now : Nat) (order : List Str) (m : Moment) (s : BrokerLoop) : Outcome BrokerLoop Event :=
  if s.point = .timers ∧ order.Perm s.broker.clients.keys then
    (cleanup config now order { s with point := .polling }).andThen (stats config now m)
  else ⟨s,[]⟩

def poll (s : BrokerLoop) : BrokerLoop :=
  match s.point with
  | .polling => { s with point := if s.socket.frames.isEmpty then .draining else .clients 0 }
  | _ => s

def act (config : Config) : Label → BrokerLoop → Outcome BrokerLoop Event
  | .arrive group,s => ⟨{ s with socket := { s.socket with frames := s.socket.frames ++ flagged group.1 } },[]⟩
  | .answer key env room,s => s.ofBroker ⟨s.broker.answered key env room,[]⟩
  | .dial key address,s =>
    s.ofBroker ⟨{ s.broker with toRouting := s.broker.toRouting.addPeer s.broker.brokerId key address },[]⟩
  | .hangup key,s => s.ofBroker (s.broker.removePeer key)
  | .datagram senderIp heard now,s => s.ofBroker ⟨s.broker.hear senderIp heard now,[]⟩
  | .expire now,s => s.ofBroker (s.broker.sweep now)
  | .poll,s => ⟨poll s,[]⟩
  | .receive m,s => receive config m s
  | .drain,s => ⟨drain s,[]⟩
  | .route m,s => route config m s
  | .timers now order m,s => timers config now order m s

/-- The clock is read, and then the step is taken. -/
def tick (label : Label) (s : BrokerLoop) : BrokerLoop :=
  { s with clock := label.reading.getD s.clock }

def step (config : Config) (label : Label) (s : BrokerLoop) : Outcome BrokerLoop Event :=
  act config label (s.tick label)

/-- The clock does not go back. -/
def OnTime (s : BrokerLoop) (label : Label) : Prop := ∀ now ∈ label.reading, s.clock ≤ now

/-! What a step can do. -/

/-- What the loop's own moves leave as it is, and what the other threads do. -/
structure Aside (s s' : BrokerLoop) : Prop where
  clients : s'.broker.clients = s.broker.clients
  totalMessages : s'.broker.totalMessages = s.broker.totalMessages
  totalDropped : s'.broker.totalDropped = s.broker.totalDropped
  msgsInterval : s'.msgsInterval = s.msgsInterval
  bytesInterval : s'.bytesInterval = s.bytesInterval
  malformedCount : s'.malformedCount = s.malformedCount
  clock : s'.clock = s.clock

/-- The outcomes of a step: nothing for the clients and the counters, or a part of the loop. -/
inductive Deed (config : Config) (s : BrokerLoop) : Outcome BrokerLoop Event → Prop
  | aside {s' : BrokerLoop} {outputs : List Output} (same : Aside s s')
      (closed : ∀ output ∈ outputs, ∃ link, output = .closed link) : Deed config s ⟨s',outputs.map .output⟩
  | malformed {s' : BrokerLoop} (now : Nat) (same : Aside s s') : Deed config s (noteMalformed now s')
  | client {s' : BrokerLoop} (identity : Str) (env : Envelope) (bytes : Nat) (m : Moment) (same : Aside s s')
      (reads : m.now = s.clock) (unmoved : s'.broker = s.broker) : Deed config s (processClient identity env bytes m s')
  | peer {s' : BrokerLoop} (env : Envelope) (bytes : Nat) (m : Moment) (same : Aside s s') :
      Deed config s (processPeer env bytes m s')
  | timers {s' : BrokerLoop} (order : List Str) (m : Moment) (same : Aside s s')
      (walks : order.Perm s.broker.clients.keys) :
      Deed config s ((cleanup config s.clock order s').andThen (stats config s.clock m))

/-- The counts of messages and of drops are the same. -/
structure SameTotals (b b' : Broker) : Prop where
  totalMessages : b'.totalMessages = b.totalMessages
  totalDropped : b'.totalDropped = b.totalDropped

theorem SameTotals.trans {b b' b'' : Broker} (first : SameTotals b b') (later : SameTotals b' b'') : SameTotals b b'' :=
  ⟨later.totalMessages.trans first.totalMessages,later.totalDropped.trans first.totalDropped⟩

theorem SameTotals.foldl {step : Broker → α → Broker} (each : ∀ b x, SameTotals b (step b x)) (xs : List α) (b : Broker) :
    SameTotals b (xs.foldl step b) :=
  List.foldlRecOn xs step ⟨rfl,rfl⟩ fun b kept x _ => kept.trans (each b x)

theorem answered_same (key : Str) (env : Envelope) (room : Bool) (b : Broker) :
    (b.answered key env room).clients = b.clients ∧ SameTotals b (b.answered key env room) := by
  unfold Broker.answered
  split_ifs <;> exact ⟨rfl,rfl,rfl⟩

theorem removePeers_same (keys : List Str) (b : Broker) : SameTotals b (b.removePeers keys).state := by
  rw [Broker.removePeers_state]
  refine SameTotals.foldl (fun b key => ?_) keys b
  unfold Broker.removePeer
  split <;> exact ⟨rfl,rfl⟩

theorem hear_same (senderIp : Str) (heard : Beacon) (now : Nat) (b : Broker) :
    SameTotals b (b.hear senderIp heard now) := by
  unfold Broker.hear
  split
  · exact ⟨rfl,rfl⟩
  · split <;> exact ⟨rfl,rfl⟩

/-- Stopping links leaves the clients and the counters, and only closes links. -/
theorem Deed.stopping {config : Config} {s : BrokerLoop} (keys : List Str) {b : Broker}
    (clients : b.clients = s.broker.clients) (totals : SameTotals s.broker b) :
    Deed config s (s.ofBroker (b.removePeers keys)) := by
  have same := totals.trans (removePeers_same keys b)
  refine .aside ⟨?_,same.totalMessages,same.totalDropped,rfl,rfl,rfl,rfl⟩ fun output member => ?_
  · exact (Broker.removePeers_sameClients keys b).clients.trans clients
  · obtain ⟨link,-,rfl⟩ := Broker.removePeers_closes keys b output member
    exact ⟨_,rfl⟩

/-- A turn of the drain finds nothing, something it cannot read, or a message. -/
theorem receive_cases (config : Config) (m : Moment) (s : BrokerLoop) :
    (∃ point, receive config m s = ⟨{ s with point },[]⟩) ∨
    (∃ socket point, routerIteration config.codec s.socket = some (socket,none) ∧
      receive config m s = noteMalformed m.now { s with socket, point }) ∨
    ∃ socket point identity env bytes, routerIteration config.codec s.socket = some (socket,some (identity,env)) ∧
      receive config m s = processClient identity env bytes m { s with socket, point } := by
  unfold receive
  split
  · split
    · split
      next => exact .inl ⟨_,rfl⟩
      next socket found => exact .inr (.inl ⟨socket,_,found,rfl⟩)
      next socket identity env found => exact .inr (.inr ⟨socket,_,identity,env,_,found,rfl⟩)
    · exact .inl ⟨_,rfl⟩
  · exact .inl ⟨s.point,rfl⟩

theorem Aside.refl (s : BrokerLoop) : Aside s s := ⟨rfl,rfl,rfl,rfl,rfl,rfl,rfl⟩

theorem Deed.moved {config : Config} {s s' : BrokerLoop} (same : Aside s s') : Deed config s ⟨s',[]⟩ :=
  .aside same fun _ (member : _ ∈ []) => absurd member List.not_mem_nil

theorem act_deed (config : Config) (label : Label) (s : BrokerLoop) (reads : ∀ now ∈ label.reading, now = s.clock) :
    Deed config s (act config label s) := by
  cases label with
  | arrive group => exact .moved ⟨rfl,rfl,rfl,rfl,rfl,rfl,rfl⟩
  | answer key env room =>
    obtain ⟨clients,totals⟩ := answered_same key env room s.broker
    exact .moved ⟨clients,totals.totalMessages,totals.totalDropped,rfl,rfl,rfl,rfl⟩
  | dial key address => exact .moved ⟨rfl,rfl,rfl,rfl,rfl,rfl,rfl⟩
  | hangup key => exact .stopping [key] rfl ⟨rfl,rfl⟩
  | datagram senderIp heard now =>
    have totals := hear_same senderIp heard now s.broker
    have clients := (Broker.hear_sameClients senderIp heard now s.broker).clients
    exact .moved ⟨clients,totals.totalMessages,totals.totalDropped,rfl,rfl,rfl,rfl⟩
  | expire now =>
    rw [act]
    unfold Broker.sweep
    split
    · exact .moved (.refl s)
    · exact .stopping _ rfl ⟨rfl,rfl⟩
  | poll =>
    rw [act]
    unfold poll
    split
    · exact .moved ⟨rfl,rfl,rfl,rfl,rfl,rfl,rfl⟩
    · exact .moved (.refl s)
  | receive m =>
    rcases receive_cases config m s with ⟨point,same⟩ | ⟨socket,point,-,same⟩ |
      ⟨socket,point,identity,env,bytes,-,same⟩
    · rw [act,same]
      exact .moved ⟨rfl,rfl,rfl,rfl,rfl,rfl,rfl⟩
    · rw [act,same]
      exact .malformed m.now ⟨rfl,rfl,rfl,rfl,rfl,rfl,rfl⟩
    · rw [act,same]
      exact .client identity env bytes m ⟨rfl,rfl,rfl,rfl,rfl,rfl,rfl⟩ (reads m.now rfl) rfl
  | drain =>
    rw [act]
    unfold drain
    split
    · exact .moved ⟨rfl,rfl,rfl,rfl,rfl,rfl,rfl⟩
    · exact .moved (.refl s)
  | route m =>
    rw [act]
    unfold route
    split
    · exact .moved ⟨rfl,rfl,rfl,rfl,rfl,rfl,rfl⟩
    · exact .peer _ _ m ⟨rfl,rfl,rfl,rfl,rfl,rfl,rfl⟩
    · exact .moved (.refl s)
  | timers now order m =>
    obtain rfl := reads now rfl
    rw [act]
    unfold timers
    split
    next here => exact .timers order m ⟨rfl,rfl,rfl,rfl,rfl,rfl,rfl⟩ here.2
    · exact .moved (.refl s)

theorem step_deed (config : Config) (label : Label) (s : BrokerLoop) :
    Deed config (s.tick label) (step config label s) := by
  refine act_deed config label (s.tick label) fun now reading => ?_
  rw [Option.mem_def] at reading
  rw [tick,reading]
  rfl

end BrokerLoop

end Wisp
