import Wisp.BrokerLoop

/-! What the broker's loop makes of what reaches it. Beside the loop stands a plain server
that has no socket, no batch and no turns: it processes each thing at once. Every run of the
loop is one of the server's, over the groups off the ROUTER socket in order of arrival and
what the links' workers queue in the order they queue it. -/
namespace Wisp

open Transition Multipart

namespace BrokerLoop

/-- What the plain server is asked to do: a group off the socket, a message of a link, an act
of another thread, or a part of the timers. -/
inductive Service where
  | group (group : FrameGroup Str) (m : Moment)
  | peer (env : Envelope) (m : Moment)
  | answer (key : Str) (env : Envelope) (room : Bool)
  | dial (key address : Str)
  | hangup (key : Str)
  | datagram (senderIp : Str) (heard : Beacon) (now : Nat)
  | expire (now : Nat)
  | drain
  | sweep (now : Nat) (order : List Str)
  | report (rates : Rates) (m : Moment)

def serve (config : Config) : Service → Broker → Outcome Broker Output
  | .group group m,b =>
    match readRouterGroup config.codec group.1 with
    | none => ⟨b,[]⟩
    | some (identity,env) => b.processMessage env identity false m
  | .peer env m,b => b.processMessage env (str "PEER") true m
  | .answer key env room,b => ⟨b.answered key env room,[]⟩
  | .dial key address,b => ⟨{ b with toRouting := b.toRouting.addPeer b.brokerId key address },[]⟩
  | .hangup key,b => b.removePeer key
  | .datagram senderIp heard now,b => ⟨b.hear senderIp heard now,[]⟩
  | .expire now,b => b.sweep now
  | .drain,b => ⟨{ b with inbound := [] },[]⟩
  | .sweep now order,b => ⟨(BrokerLoop.sweep (milliseconds config.clientTimeout) now order 0 b).state,[]⟩
  | .report rates m,b => b.broadcastStats config.pack rates m

namespace Service

def groups : Service → List (FrameGroup Str)
  | .group taken _ => [taken]
  | _ => []

def peers : Service → List Envelope
  | .peer env _ => [env]
  | _ => []

/-- The acts of other threads. -/
def isAside : Service → Bool
  | .answer _ _ _ | .dial _ _ | .hangup _ | .datagram _ _ _ | .expire _ => true
  | _ => false

def moments : Service → List Moment
  | .group _ m | .peer _ m | .report _ m => [m]
  | _ => []

/-- A message that is processed. -/
def messages (config : Config) : Service → Nat
  | .group taken _ => if (readRouterGroup config.codec taken.1).isSome then 1 else 0
  | .peer _ _ => 1
  | _ => 0

def unreadable (config : Config) : Service → Nat
  | .group taken _ => if (readRouterGroup config.codec taken.1).isSome then 0 else 1
  | _ => 0

end Service

/-- The length of a group's header frame. -/
def headerLength : List Str → Nat
  | _ :: headerFrame :: _ => headerFrame.length
  | _ => 0

/-- The header frame and the payload as they came; a link's message has its header encoded
again, with its stamp. -/
def Service.bytes (config : Config) (b : Broker) : Service → Nat
  | .group taken _ =>
    match readRouterGroup config.codec taken.1 with
    | none => 0
    | some (_,env) => headerLength taken.1 + env.payload.length
  | .peer env m => (Wire.encodeHeader config.codec (b.stamp env m).header).length + env.payload.length
  | _ => 0

def Event.outputs : Event → List Output
  | .output sent | .broadcast sent => [sent]
  | _ => []

def Event.messages : Event → Nat
  | .client _ _ _ => 1
  | .peer _ _ => 1
  | _ => 0

def Event.bytes : Event → Nat
  | .client _ _ bytes => bytes
  | .peer _ bytes => bytes
  | _ => 0

def Event.unreadable : Event → Nat
  | .malformed => 1
  | _ => 0

namespace Label

def arriving : Label → List (FrameGroup Str)
  | .arrive group => [group]
  | _ => []

def asides : Label → List Service
  | .answer key env room => [.answer key env room]
  | .dial key address => [.dial key address]
  | .hangup key => [.hangup key]
  | .datagram senderIp heard now => [.datagram senderIp heard now]
  | .expire now => [.expire now]
  | _ => []

def moments : Label → List Moment
  | .receive m | .route m | .timers _ _ m => [m]
  | _ => []

end Label

/-- What the callback of a link queues: the acks, the UNLINK and the RESET are its own. -/
def queuedBy (env : Envelope) (room : Bool) : List Envelope :=
  if env.header.handlerKey = Keys.heartbeatAck then []
  else if env.header.handlerKey = Keys.unlink then []
  else if env.header.handlerKey = Keys.reset then []
  else if room then [env] else []

def Label.queued : Label → List Envelope
  | .answer _ env room => queuedBy env room
  | _ => []

/-- The rest of the batch. -/
def Point.batch : Point → List Envelope
  | .peers batch => batch
  | _ => []

def waitingPeers (s : BrokerLoop) : List Envelope := s.point.batch ++ s.broker.inbound

/-- The server's run over these services is the loop's over these labels: the groups on the
socket and those that arrive are served from the front, what the links queue likewise, the
other threads act as they do, and the broker and all it sends are the same. -/
structure Replays (config : Config) (s : BrokerLoop) (held : List (FrameGroup Str)) (labels : List Label)
    (done : Outcome BrokerLoop Event) (services : List Service) (left : List (FrameGroup Str)) : Prop where
  groups : held ++ labels.flatMap Label.arriving = services.flatMap Service.groups ++ left
  socket : done.state.socket = waiting left
  peers : s.waitingPeers ++ labels.flatMap Label.queued = services.flatMap Service.peers ++ done.state.waitingPeers
  asides : services.filter Service.isAside = labels.flatMap Label.asides
  moments : (services.flatMap Service.moments).Sublist (labels.flatMap Label.moments)
  broker : run (serve config) services s.broker = ⟨done.state.broker,done.events.flatMap Event.outputs⟩

/-- No poll is made. -/
def Unpolled (s : BrokerLoop) (label : Label) : Prop := ¬(label = .poll ∧ s.point = .polling)

/-- How many more groups this turn of the loop takes. -/
def Point.allowance : Point → Nat
  | .clients drained => maxMessagesPerWake - drained
  | _ => 0

theorem Point.allowance_le (point : Point) : point.allowance ≤ maxMessagesPerWake := by
  cases point with
  | clients drained => exact Nat.sub_le _ _
  | _ => exact Nat.zero_le _

/-- What the loop notes of the messages it takes, and how many groups it takes before it polls
again. -/
structure Served (config : Config) (s : BrokerLoop) (held : List (FrameGroup Str)) (labels : List Label)
    (done : Outcome BrokerLoop Event) (services : List Service) (left : List (FrameGroup Str)) : Prop
    extends Replays config s held labels done services left where
  messages : tally Event.messages done.events = tally (Service.messages config) services
  bytes : tally Event.bytes done.events = tally (Service.bytes config s.broker) services
  unreadable : tally Event.unreadable done.events = tally (Service.unreadable config) services
  share : Always (step config) Unpolled labels s →
    (services.flatMap Service.groups).length + done.state.point.allowance ≤ s.point.allowance

theorem sweep_same (timeout now : Nat) (order : List Str) (removed : Nat) (b : Broker) :
    Broker.Keeps b (sweep timeout now order removed b).state := by
  induction order generalizing removed b with
  | nil => exact .refl b
  | cons clientId rest ih =>
    unfold sweep
    split
    · split
      · exact (Broker.removeClient_keeps b clientId).trans (ih (removed + 1) (b.removeClient clientId))
      · exact ih removed b
    · exact .refl b

theorem hear_keeps (senderIp : Str) (heard : Beacon) (now : Nat) (b : Broker) :
    Broker.Keeps b (b.hear senderIp heard now) := by
  unfold Broker.hear
  split
  · exact .refl b
  · split <;> exact ⟨rfl,rfl,rfl⟩

theorem expire_keeps (now : Nat) (b : Broker) : Broker.Keeps b (b.sweep now).state := by
  unfold Broker.sweep
  split
  · exact .refl b
  · obtain ⟨brokerId,seen,inbound⟩ := Broker.removePeers_keeps _ _
    exact ⟨brokerId,seen,inbound⟩

theorem broadcastStats_keeps (pack : SystemStats → Str) (rates : Rates) (m : Moment) (b : Broker) :
    Broker.Keeps b (b.broadcastStats pack rates m).state :=
  (Broker.noteDropped_all b.statsRecipients (b.statsMessage pack rates) m b).2.1

theorem answered_inbound (key : Str) (env : Envelope) (room : Bool) (b : Broker) :
    (b.answered key env room).inbound = b.inbound ++ queuedBy env room := by
  unfold Broker.answered queuedBy
  split
  · exact (List.append_nil _).symm
  · split
    · exact (List.append_nil _).symm
    · split
      · exact (List.append_nil _).symm
      · cases room
        · exact (List.append_nil _).symm
        · rfl

theorem serve_brokerId (config : Config) (service : Service) (b : Broker) :
    (serve config service b).state.brokerId = b.brokerId := by
  cases service with
  | group group m =>
    rw [serve]
    split
    · rfl
    · exact (Broker.processMessage_same _ _ _ _ b).1
  | peer env m => exact (Broker.processMessage_same _ _ _ _ b).1
  | answer key env room =>
    rw [serve]
    unfold Broker.answered
    split_ifs <;> rfl
  | hangup key => exact (Broker.removePeer_keeps key b).brokerId
  | datagram senderIp heard now => exact (hear_keeps senderIp heard now b).brokerId
  | expire now => exact (expire_keeps now b).brokerId
  | sweep now order => exact (sweep_same _ now order 0 b).brokerId
  | report rates m => exact (broadcastStats_keeps config.pack rates m b).brokerId
  | _ => rfl

theorem stamp_same {b b' : Broker} (same : b'.brokerId = b.brokerId) (env : Envelope) (m : Moment) :
    b'.stamp env m = b.stamp env m := by
  unfold Broker.stamp
  rw [same]

theorem bytes_same (config : Config) {b b' : Broker} (same : b'.brokerId = b.brokerId) :
    Service.bytes config b' = Service.bytes config b := by
  funext service
  cases service with
  | peer env m => rw [Service.bytes,Service.bytes,stamp_same same]
  | _ => rfl

/-! One after the other. -/

section

variable {config : Config} {s : BrokerLoop} {held left rest : List (FrameGroup Str)} {labels more : List Label}
  {done : Outcome BrokerLoop Event} {services later : List Service}

theorem Replays.brokerId (replays : Replays config s held labels done services left) :
    done.state.broker.brokerId = s.broker.brokerId := by
  have kept : (run (serve config) services s.broker).state.brokerId = s.broker.brokerId :=
    run_preserves (serve config) (·.brokerId = s.broker.brokerId)
      (fun b service same => (serve_brokerId config service b).trans same) services s.broker rfl
  rw [replays.broker] at kept
  exact kept

theorem Served.nil (waits : s.socket = waiting held) : Served config s held [] ⟨s,[]⟩ [] held where
  groups := List.append_nil held
  socket := waits
  peers := List.append_nil _
  asides := rfl
  moments := .slnil
  broker := rfl
  messages := rfl
  bytes := rfl
  unreadable := rfl
  share _ := Nat.le_of_eq (Nat.zero_add _)

theorem Replays.append (first : Replays config s held labels (run (step config) labels s) services left)
    (next : Replays config (run (step config) labels s).state left more
      (run (step config) more (run (step config) labels s).state) later rest) :
    Replays config s held (labels ++ more) (run (step config) (labels ++ more) s) (services ++ later) rest := by
  rw [run_append]
  constructor
  case groups =>
    rw [List.flatMap_append,List.flatMap_append,← List.append_assoc,first.groups,List.append_assoc,next.groups,
      List.append_assoc]
  case socket => exact next.socket
  case peers =>
    rw [List.flatMap_append,List.flatMap_append,← List.append_assoc,first.peers,List.append_assoc,next.peers,
      List.append_assoc]
  case asides => rw [List.filter_append,List.flatMap_append,first.asides,next.asides]
  case moments =>
    rw [List.flatMap_append,List.flatMap_append]
    exact first.moments.append next.moments
  case broker => rw [run_append,first.broker,next.broker,List.flatMap_append]

theorem Served.append (first : Served config s held labels (run (step config) labels s) services left)
    (next : Served config (run (step config) labels s).state left more
      (run (step config) more (run (step config) labels s).state) later rest) :
    Served config s held (labels ++ more) (run (step config) (labels ++ more) s) (services ++ later) rest := by
  have replays := first.toReplays.append next.toReplays
  rw [run_append] at replays ⊢
  refine ⟨replays,?_,?_,?_,fun unpolled => ?_⟩
  · rw [tally_append,tally_append,first.messages,next.messages]
  · rw [tally_append,tally_append,first.bytes,next.bytes,bytes_same config first.toReplays.brokerId]
  · rw [tally_append,tally_append,first.unreadable,next.unreadable]
  · obtain ⟨before,after⟩ := (always_append (step config) labels more s).mp unpolled
    have early := first.share before
    have late := next.share after
    rw [List.flatMap_append,List.length_append]
    dsimp only
    omega

end

/-! What one step asks of the server. -/

section

variable {config : Config} {s : BrokerLoop} {held : List (FrameGroup Str)} {label : Label}

theorem outputs_shown (outputs : List Output) : (outputs.map Event.output).flatMap Event.outputs = outputs := by
  rw [List.flatMap_map]
  exact List.flatMap_singleton' outputs

theorem outputs_unweighed {weight : Event → Nat} (hidden : ∀ output, weight (.output output) = 0)
    (outputs : List Output) : tally weight (outputs.map Event.output) = 0 :=
  tally_map_zero weight Event.output hidden outputs

/-- A step that takes nothing off the socket. -/
theorem Served.still {done : Outcome BrokerLoop Event} (services : List Service) (waits : s.socket = waiting held)
    (none : label.arriving = [] ∧ ∀ service ∈ services, service.groups = [] ∧ service.peers = [])
    (socket : done.state.socket = s.socket) (peers : s.waitingPeers ++ label.queued = done.state.waitingPeers)
    (asides : services.filter Service.isAside = label.asides)
    (moments : (services.flatMap Service.moments).Sublist label.moments)
    (broker : run (serve config) services s.broker = ⟨done.state.broker,done.events.flatMap Event.outputs⟩)
    (quiet : ∀ event ∈ done.events, event.messages = 0 ∧ event.bytes = 0 ∧ event.unreadable = 0)
    (share : s.Unpolled label → done.state.point.allowance ≤ s.point.allowance) :
    Served config s held [label] done services held := by
  have ungrouped : services.flatMap Service.groups = [] :=
    List.flatMap_eq_nil_iff.mpr fun service member => (none.2 service member).1
  have unrouted : services.flatMap Service.peers = [] :=
    List.flatMap_eq_nil_iff.mpr fun service member => (none.2 service member).2
  have weightless (service : Service) (member : service ∈ services) :
      service.messages config = 0 ∧ service.bytes config s.broker = 0 ∧ service.unreadable config = 0 := by
    obtain ⟨group,peer⟩ := none.2 service member
    cases service with
    | group => cases group
    | peer => cases peer
    | _ => exact ⟨rfl,rfl,rfl⟩
  refine ⟨⟨?_,socket.trans waits,?_,?_,?_,broker⟩,?_,?_,?_,fun unpolled => ?_⟩
  · rw [List.flatMap_singleton,none.1,ungrouped,List.append_nil,List.nil_append]
  · rw [List.flatMap_singleton,unrouted,List.nil_append,peers]
  · rw [List.flatMap_singleton,asides]
  · rwa [List.flatMap_singleton]
  · rw [tally_zero fun event member => (quiet event member).1,tally_zero fun service member => (weightless service member).1]
  · rw [tally_zero fun event member => (quiet event member).2.1,
      tally_zero fun service member => (weightless service member).2.1]
  · rw [tally_zero fun event member => (quiet event member).2.2,
      tally_zero fun service member => (weightless service member).2.2]
  · rw [ungrouped,List.length_nil,Nat.zero_add]
    exact share unpolled.1

/-- A step that only moves the loop. -/
theorem Served.moved {s' : BrokerLoop} (waits : s.socket = waiting held) (plain : label.arriving = [])
    (unqueued : label.queued = []) (elsewhere : label.asides = []) (socket : s'.socket = s.socket)
    (broker : s'.broker = s.broker) (batch : s'.point.batch = s.point.batch)
    (share : s.Unpolled label → s'.point.allowance ≤ s.point.allowance) : Served config s held [label] ⟨s',[]⟩ [] held := by
  refine .still [] waits ⟨plain,List.forall_mem_nil _⟩ socket ?_ elsewhere.symm (List.nil_sublist _) ?_
    (List.forall_mem_nil _) share
  · rw [unqueued,List.append_nil,waitingPeers,waitingPeers,broker,batch]
  · rw [run_nil,broker]
    rfl

/-- The act of another thread. -/
theorem Served.aside {outcome : Outcome Broker Output} (service : Service) (waits : s.socket = waiting held)
    (plain : label.arriving = []) (same : label.asides = [service]) (aside : service.isAside = true)
    (acts : serve config service s.broker = outcome)
    (inbound : outcome.state.inbound = s.broker.inbound ++ label.queued) :
    Served config s held [label] (s.ofBroker outcome) [service] held := by
  refine .still [service] waits ⟨plain,List.forall_mem_singleton.mpr ?_⟩ rfl ?_ ?_ ?_ ?_ ?_ fun _ => Nat.le_refl _
  · cases service with
    | group | peer => cases aside
    | _ => exact ⟨rfl,rfl⟩
  · rw [waitingPeers,waitingPeers,List.append_assoc]
    exact congrArg (s.point.batch ++ ·) inbound.symm
  · rw [List.filter_singleton,aside,same]
    rfl
  · cases service with
    | group | peer | report => cases aside
    | _ => exact List.nil_sublist _
  · rw [run,run_nil,acts,ofBroker,outputs_shown,List.append_nil]
  · intro event member
    obtain ⟨output,-,rfl⟩ := List.mem_map.mp member
    exact ⟨rfl,rfl,rfl⟩

/-- The group that came first is taken. -/
theorem Served.takes {done : Outcome BrokerLoop Event} (group : FrameGroup Str) (m : Moment)
    (socket : done.state.socket = waiting held) (peers : done.state.waitingPeers = s.waitingPeers)
    (broker : serve config (.group group m) s.broker = ⟨done.state.broker,done.events.flatMap Event.outputs⟩)
    (messages : tally Event.messages done.events = Service.messages config (.group group m))
    (bytes : tally Event.bytes done.events = Service.bytes config s.broker (.group group m))
    (unreadable : tally Event.unreadable done.events = Service.unreadable config (.group group m))
    (share : 1 + done.state.point.allowance ≤ s.point.allowance) :
    Served config s (group :: held) [.receive m] done [.group group m] held := by
  refine ⟨⟨List.append_nil _,socket,?_,rfl,.refl _,?_⟩,messages,bytes,unreadable,fun _ => share⟩
  · rw [peers]
    exact List.append_nil _
  · rw [run,run_nil,broker,List.append_nil]

theorem noteMalformed_serves (group : FrameGroup Str) (m : Moment) (point : Point)
    (unread : readRouterGroup config.codec group.1 = none) (free : point.batch = s.point.batch)
    (share : 1 + point.allowance ≤ s.point.allowance) :
    Served config s (group :: held) [.receive m] (noteMalformed m.now { s with socket := waiting held, point })
      [.group group m] held := by
  have serves : serve config (.group group m) s.broker = ⟨s.broker,[]⟩ := by rw [serve,unread]
  have weighs : Service.messages config (.group group m) = 0 ∧ Service.bytes config s.broker (.group group m) = 0 ∧
      Service.unreadable config (.group group m) = 1 := by
    simp [Service.messages,Service.bytes,Service.unreadable,unread]
  have peers : s.waitingPeers = point.batch ++ s.broker.inbound := congrArg (· ++ s.broker.inbound) free.symm
  unfold noteMalformed
  split
  · exact .takes group m rfl peers.symm serves weighs.1.symm weighs.2.1.symm weighs.2.2.symm share
  · exact .takes group m rfl peers.symm serves weighs.1.symm weighs.2.1.symm weighs.2.2.symm share

/-- The header frame that is counted is the group's own. -/
theorem headerSize_waiting {group : FrameGroup Str} {message : Str × Envelope} (held : List (FrameGroup Str))
    (read : readRouterGroup config.codec group.1 = some message) :
    headerSize (waiting (group :: held)) = headerLength group.1 := by
  obtain ⟨frames,nonempty⟩ := group
  rcases frames with _ | ⟨identity,_ | ⟨headerFrame,_ | ⟨payload,rest⟩⟩⟩
  · exact absurd rfl nonempty
  · cases read
  · rfl
  · rfl

theorem processClient_serves (group : FrameGroup Str) (m : Moment) (point : Point) {identity : Str} {env : Envelope}
    (waits : s.socket = waiting (group :: held)) (read : readRouterGroup config.codec group.1 = some (identity,env))
    (free : point.batch = s.point.batch) (share : 1 + point.allowance ≤ s.point.allowance) :
    Served config s (group :: held) [.receive m]
      (processClient identity env (headerSize s.socket + env.payload.length) m { s with socket := waiting held, point })
      [.group group m] held := by
  set bytes := headerSize s.socket + env.payload.length with size
  let outcome := s.broker.processMessage env identity false m
  let entered := if identity ∉ s.broker.clients ∧ identity ∈ outcome.state.clients then [Event.joined identity] else []
  have events : (processClient identity env bytes m { s with socket := waiting held, point }).events =
      .client identity env bytes :: entered ++ outcome.events.map .output := rfl
  have weight (weigh : Event → Nat) (outputs : ∀ output, weigh (.output output) = 0) (joins : weigh (.joined identity) = 0) :
      tally weigh (processClient identity env bytes m { s with socket := waiting held, point }).events =
        weigh (.client identity env bytes) := by
    have silent : tally weigh entered = 0 := by
      refine tally_zero fun event member => ?_
      dsimp only [entered] at member
      split at member
      · rw [List.mem_singleton.mp member,joins]
      · cases member
    rw [events,tally_append,tally_cons,silent,outputs_unweighed outputs]
    rfl
  refine .takes group m rfl ?_ ?_ ?_ ?_ ?_ share
  · have inbound := Broker.processMessage_inbound env identity false m s.broker
    change point.batch ++ outcome.state.inbound = s.point.batch ++ s.broker.inbound
    rw [free,inbound]
  · have shown : entered.flatMap Event.outputs = [] := by
      dsimp only [entered]
      split <;> rfl
    rw [serve,read,events,List.flatMap_append,List.flatMap_cons,shown,outputs_shown]
    rfl
  · rw [weight _ (fun _ => rfl) rfl]
    simp [Event.messages,Service.messages,read]
  · rw [weight _ (fun _ => rfl) rfl]
    rw [waits,headerSize_waiting held read] at size
    simp [Event.bytes,Service.bytes,read,size]
  · rw [weight _ (fun _ => rfl) rfl]
    simp [Event.unreadable,Service.unreadable,read]

theorem receive_serves (config : Config) (m : Moment) (waits : s.socket = waiting held) :
    ∃ services left, Served config s held [.receive m] (receive config m s) services left := by
  have takes := routerIteration_takes config.codec
  have stops (free : s.point.batch = []) :
      Served config s held [.receive m] ⟨{ s with point := .draining },[]⟩ [] held :=
    .moved waits rfl rfl rfl rfl rfl free.symm fun _ => Nat.zero_le _
  unfold receive
  split
  next drained here =>
    have free : s.point.batch = [] := by rw [here]; rfl
    have turn : s.point.allowance = maxMessagesPerWake - drained := congrArg Point.allowance here
    split
    next room =>
      have share : 1 + (Point.clients (drained + 1)).allowance ≤ s.point.allowance := by
        change 1 + (maxMessagesPerWake - (drained + 1)) ≤ s.point.allowance
        omega
      cases held with
      | nil =>
        have found : routerIteration config.codec s.socket = none := by rw [waits,takes.waiting_nil]
        rw [found]
        exact ⟨[],[],stops free⟩
      | cons group held =>
        have found : routerIteration config.codec s.socket = some (waiting held,readRouterGroup config.codec group.1) := by
          rw [waits,takes.waiting_cons]
        rw [found]
        cases read : readRouterGroup config.codec group.1 with
        | none => exact ⟨_,held,noteMalformed_serves group m _ read free.symm share⟩
        | some message => exact ⟨_,held,processClient_serves group m _ waits read free.symm share⟩
    · exact ⟨[],held,stops free⟩
  · exact ⟨[],held,.moved waits rfl rfl rfl rfl rfl rfl fun _ => Nat.le_refl _⟩

theorem processPeer_serves (m : Moment) {env : Envelope} {rest : List Envelope} (waits : s.socket = waiting held)
    (batch : s.point = .peers (env :: rest)) :
    Served config s held [.route m]
      (processPeer env ((Wire.encodeHeader config.codec (s.broker.stamp env m).header).length + env.payload.length) m
        { s with point := .peers rest }) [.peer env m] held := by
  set bytes := (Wire.encodeHeader config.codec (s.broker.stamp env m).header).length + env.payload.length with size
  let outcome := s.broker.processMessage env (str "PEER") true m
  have events : (processPeer env bytes m { s with point := .peers rest }).events =
      .peer env bytes :: outcome.events.map .output := rfl
  have inbound : outcome.state.inbound = s.broker.inbound := Broker.processMessage_inbound env _ true m s.broker
  have weight (weigh : Event → Nat) (outputs : ∀ output, weigh (.output output) = 0) :
      tally weigh (processPeer env bytes m { s with point := .peers rest }).events = weigh (.peer env bytes) := by
    rw [events,tally_cons,outputs_unweighed outputs]
    rfl
  refine ⟨⟨List.append_nil held,waits,?_,rfl,.refl _,?_⟩,weight _ fun _ => rfl,weight _ fun _ => rfl,weight _ fun _ => rfl,
    fun _ => Nat.zero_le _⟩
  · rw [waitingPeers,batch]
    exact (List.append_nil _).trans (congrArg (env :: rest ++ ·) inbound.symm)
  · rw [run,run_nil,serve,events,List.flatMap_cons,outputs_shown,List.append_nil]
    rfl

/-- The batch is routed from its front. -/
theorem route_serves (config : Config) (m : Moment) (waits : s.socket = waiting held) :
    ∃ services, Served config s held [.route m] (route config m s) services held := by
  unfold route
  split
  next here =>
    refine ⟨[],.moved waits rfl rfl rfl rfl rfl ?_ fun _ => Nat.zero_le _⟩
    rw [here]
    rfl
  next env rest here => exact ⟨_,processPeer_serves m waits here⟩
  · exact ⟨[],.moved waits rfl rfl rfl rfl rfl rfl fun _ => Nat.le_refl _⟩

/-- What the parts of the timers ask of the server. -/
structure Timed (config : Config) (m : Moment) (s : BrokerLoop) (done : Outcome BrokerLoop Event)
    (services : List Service) : Prop where
  only : ∀ service ∈ services, service.groups = [] ∧ service.peers = [] ∧ service.isAside = false
  moments : (services.flatMap Service.moments).Sublist [m]
  broker : run (serve config) services s.broker = ⟨done.state.broker,done.events.flatMap Event.outputs⟩
  quiet : ∀ event ∈ done.events, event.messages = 0 ∧ event.bytes = 0 ∧ event.unreadable = 0
  socket : done.state.socket = s.socket
  point : done.state.point = s.point
  inbound : done.state.broker.inbound = s.broker.inbound

theorem cleanup_timed (config : Config) (now : Nat) (order : List Str) (m : Moment) (s : BrokerLoop) :
    ∃ services, Timed config m s (cleanup config now order s) services ∧ services.flatMap Service.moments = [] := by
  unfold cleanup
  split
  · refine ⟨[.sweep now order],⟨List.forall_mem_singleton.mpr ⟨rfl,rfl,rfl⟩,List.nil_sublist _,?_,?_,rfl,rfl,?_⟩,rfl⟩
    · have silent : ∀ swept : List Str, (swept.map Event.swept).flatMap Event.outputs = [] := fun swept =>
        List.flatMap_eq_nil_iff.mpr fun event member => by
          obtain ⟨clientId,-,rfl⟩ := List.mem_map.mp member
          rfl
      rw [run,run_nil,List.flatMap_cons,silent]
      rfl
    · intro event member
      rcases List.mem_cons.mp member with rfl | swept
      · exact ⟨rfl,rfl,rfl⟩
      · obtain ⟨clientId,-,rfl⟩ := List.mem_map.mp swept
        exact ⟨rfl,rfl,rfl⟩
    · exact (sweep_same _ now order 0 s.broker).inbound
  · exact ⟨[],⟨List.forall_mem_nil _,List.nil_sublist _,rfl,List.forall_mem_nil _,rfl,rfl,rfl⟩,rfl⟩

theorem stats_timed (config : Config) (now : Nat) (m : Moment) (s : BrokerLoop) :
    ∃ services, Timed config m s (stats config now m s) services := by
  unfold stats
  split
  · let rates := config.rates s.msgsInterval s.bytesInterval (m.now - s.lastStatsTime) (m.now - config.startTime)
    refine ⟨[.report rates m],List.forall_mem_singleton.mpr ⟨rfl,rfl,rfl⟩,.refl _,?_,?_,rfl,rfl,
      (broadcastStats_keeps config.pack rates m s.broker).inbound⟩
    · have shown : ∀ sent : List Output, (sent.map Event.broadcast).flatMap Event.outputs = sent := fun sent => by
        rw [List.flatMap_map]
        exact List.flatMap_singleton' sent
      rw [run,run_nil,List.flatMap_cons,shown,List.append_nil]
      rfl
    · intro event member
      rcases List.mem_cons.mp member with rfl | sent
      · exact ⟨rfl,rfl,rfl⟩
      · obtain ⟨output,-,rfl⟩ := List.mem_map.mp sent
        exact ⟨rfl,rfl,rfl⟩
  · exact ⟨[],List.forall_mem_nil _,List.nil_sublist _,rfl,List.forall_mem_nil _,rfl,rfl,rfl⟩

theorem Timed.andThen {m : Moment} {first : Outcome BrokerLoop Event} {next : BrokerLoop → Outcome BrokerLoop Event}
    {swept reported : List Service} (timed : Timed config m s first swept) (silent : swept.flatMap Service.moments = [])
    (later : Timed config m first.state (next first.state) reported) :
    Timed config m s (first.andThen next) (swept ++ reported) where
  only service member := (List.mem_append.mp member).elim (timed.only service) (later.only service)
  moments := by
    rw [List.flatMap_append,silent]
    exact later.moments
  broker := by
    rw [run_append,timed.broker,Outcome.andThen_events,List.flatMap_append]
    dsimp only
    rw [later.broker]
    rfl
  quiet event member := (List.mem_append.mp member).elim (timed.quiet event) (later.quiet event)
  socket := later.socket.trans timed.socket
  point := later.point.trans timed.point
  inbound := later.inbound.trans timed.inbound

theorem Timed.serves {m : Moment} {now : Nat} {order : List Str} {done : Outcome BrokerLoop Event} {services : List Service}
    (timed : Timed config m { s with point := .polling } done services) (waits : s.socket = waiting held)
    (free : s.point.batch = []) : Served config s held [.timers now order m] done services held := by
  refine .still services waits ⟨rfl,fun service member => ?_⟩ timed.socket ?_ ?_ timed.moments timed.broker timed.quiet
    fun _ => ?_
  · exact ⟨(timed.only service member).1,(timed.only service member).2.1⟩
  · rw [waitingPeers,waitingPeers,timed.point,timed.inbound,free]
    exact List.append_nil _
  · refine List.filter_eq_nil_iff.mpr fun service member => ?_
    rw [(timed.only service member).2.2]
    rintro ⟨⟩
  · rw [timed.point]
    exact Nat.zero_le _

theorem timers_serves (config : Config) (now : Nat) (order : List Str) (m : Moment) (waits : s.socket = waiting held) :
    ∃ services, Served config s held [.timers now order m] (timers config now order m s) services held := by
  unfold timers
  split
  next here =>
    have free : s.point.batch = [] := by rw [here.1]; rfl
    obtain ⟨swept,first,silent⟩ := cleanup_timed config now order m { s with point := .polling }
    obtain ⟨reported,next⟩ := stats_timed config now m (cleanup config now order { s with point := .polling }).state
    exact ⟨swept ++ reported,(first.andThen silent next).serves waits free⟩
  · exact ⟨[],.moved waits rfl rfl rfl rfl rfl rfl fun _ => Nat.le_refl _⟩

/-- The clock is none of the server's business. -/
theorem Served.tick {done : Outcome BrokerLoop Event} {services : List Service} {left : List (FrameGroup Str)}
    (served : Served config (s.tick label) held [label] done services left) : Served config s held [label] done services left := by
  obtain ⟨⟨groups,socket,peers,asides,moments,broker⟩,messages,bytes,unreadable,share⟩ := served
  exact ⟨⟨groups,socket,peers,asides,moments,broker⟩,messages,bytes,unreadable,fun unpolled => share ⟨unpolled.1,trivial⟩⟩

theorem step_serves (config : Config) (label : Label) (s : BrokerLoop) (held : List (FrameGroup Str))
    (waits : s.socket = waiting held) :
    ∃ services left, Served config s held [label] (run (step config) [label] s) services left := by
  have single : run (step config) [label] s = step config label s := by
    rw [run,run_nil,List.append_nil]
  rw [single]
  cases label with
  | arrive group =>
    refine ⟨[],held ++ [group],⟨⟨rfl,?_,List.append_nil _,rfl,.slnil,rfl⟩,rfl,rfl,rfl,fun _ => Nat.le_of_eq (Nat.zero_add _)⟩⟩
    simp [step,act,tick,waits,waiting]
  | answer key env room => exact ⟨_,held,.aside _ waits rfl rfl rfl rfl (answered_inbound key env room s.broker)⟩
  | dial key address => exact ⟨_,held,.aside _ waits rfl rfl rfl rfl (List.append_nil _).symm⟩
  | hangup key =>
    have inbound := (Broker.removePeer_keeps key s.broker).inbound
    exact ⟨_,held,.aside _ waits rfl rfl rfl rfl (inbound.trans (List.append_nil _).symm)⟩
  | datagram senderIp heard now =>
    have inbound := (hear_keeps senderIp heard now s.broker).inbound
    exact ⟨_,held,.aside _ waits rfl rfl rfl rfl (inbound.trans (List.append_nil _).symm)⟩
  | expire now =>
    have inbound := (expire_keeps now s.broker).inbound
    exact ⟨_,held,.aside _ waits rfl rfl rfl rfl (inbound.trans (List.append_nil _).symm)⟩
  | poll =>
    refine ⟨[],held,?_⟩
    rw [step,act]
    unfold poll
    split
    next here =>
      have polling : s.point = .polling := here
      refine .moved waits rfl rfl rfl rfl rfl ?_ fun unpolled => absurd ⟨rfl,polling⟩ unpolled
      rw [polling]
      split <;> rfl
    · exact .moved waits rfl rfl rfl rfl rfl rfl fun _ => Nat.le_refl _
  | receive m =>
    obtain ⟨services,left,served⟩ := receive_serves config (s := s.tick (.receive m)) m waits
    exact ⟨services,left,served.tick⟩
  | drain =>
    rw [step,act]
    unfold drain
    split
    next here =>
      have draining : s.point = .draining := here
      refine ⟨[.drain],held,.still _ waits ⟨rfl,List.forall_mem_singleton.mpr ⟨rfl,rfl⟩⟩ rfl ?_ rfl (.refl _) rfl
        (List.forall_mem_nil _) fun _ => Nat.zero_le _⟩
      rw [waitingPeers,draining]
      rfl
    · exact ⟨[],held,.moved waits rfl rfl rfl rfl rfl rfl fun _ => Nat.le_refl _⟩
  | route m =>
    obtain ⟨services,served⟩ := route_serves config (s := s.tick (.route m)) m waits
    exact ⟨services,held,served.tick⟩
  | timers now order m =>
    obtain ⟨services,served⟩ := timers_serves config (s := s.tick (.timers now order m)) now order m waits
    exact ⟨services,held,served.tick⟩

end

theorem run_serves (config : Config) (schedule : List Label) (s : BrokerLoop) (held : List (FrameGroup Str))
    (waits : s.socket = waiting held) :
    ∃ services left, Served config s held schedule (run (step config) schedule s) services left := by
  induction schedule generalizing s held with
  | nil => exact ⟨[],held,.nil waits⟩
  | cons label rest ih =>
    obtain ⟨services,between,first⟩ := step_serves config label s held waits
    obtain ⟨later,left,next⟩ := ih _ between first.socket
    exact ⟨services ++ later,left,first.append next⟩

end BrokerLoop

end Wisp
