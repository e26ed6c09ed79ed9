import Mathlib.Data.Fintype.Basic
import Mathlib.Data.Fintype.Sets
import Wisp.BrokerTurn

/-! Brokers joined by links. Queues are FIFO and lose nothing but what a refused
send refuses; which queue moves next is the schedule's choice. A link is a worker
of the dialing broker and a session, named by the link's identity, of the dialed
one. A ROUTER serves one connection under an identity at a time, so an identity in
use by a link is not another client's and not a second link's. -/
namespace Wisp

open Transition

structure Mesh (n : Nat) where
  broker : Fin n → Broker
  /-- What a broker's ROUTER holds for an identity. -/
  pipe : Fin n → Str → List Envelope
  /-- Stopped links whose last messages have not all arrived. -/
  closing : List PeerLink

inductive Label (n : Nat) where
  | client (i : Fin n) (clientId : Str) (env : Envelope) (m : Moment)
  | timeout (i : Fin n) (clientId : Str)
  | control (i : Fin n) (key : Str) (m : Moment)
  | flooded (i : Fin n) (key : Str) (m : Moment)
  | answer (i : Fin n) (key : Str) (room : Bool)
  | inbound (i : Fin n) (m : Moment)
  | heartbeat (i : Fin n) (key : Str) (m : Moment)
  | dial (i : Fin n) (key address : Str)
  | datagram (i : Fin n) (senderIp : Str) (heard : Beacon) (now : Nat)
  | expire (i : Fin n) (now : Nat)
  | hangup (i : Fin n) (key : Str)
  | closing (position : Nat) (m : Moment)

namespace PeerLink

def popControl (link : PeerLink) : PeerLink := { link with control := link.control.tail }

def popEncoded (link : PeerLink) : PeerLink := { link with encoded := link.encoded.tail }

def deactivate (link : PeerLink) : PeerLink := { link with active := false }

theorem popControl_shrinks (link : PeerLink) : Routing.Shrinks link link.popControl :=
  ⟨rfl,rfl,rfl,List.tail_suffix _,List.suffix_refl _⟩

theorem popEncoded_shrinks (link : PeerLink) : Routing.Shrinks link link.popEncoded :=
  ⟨rfl,rfl,rfl,List.suffix_refl _,List.tail_suffix _⟩

theorem deactivate_shrinks (link : PeerLink) : Routing.Shrinks link link.deactivate :=
  ⟨rfl,rfl,rfl,List.suffix_refl _,List.suffix_refl _⟩

end PeerLink

namespace Broker

def mapLink (key : Str) (f : PeerLink → PeerLink) (b : Broker) : Broker :=
  { b with toRouting := b.toRouting.mapLink key f }

/-- What a link's worker does with a message from the remote: the acks are its own. -/
def answered (key : Str) (env : Envelope) (room : Bool) (b : Broker) : Broker :=
  if env.header.handlerKey = Keys.heartbeatAck then b
  else if env.header.handlerKey = Keys.unlink then b.mapLink key PeerLink.deactivate
  else if env.header.handlerKey = Keys.reset then { b with toRouting := b.toRouting.resendInterest key }
  else if room then { b with inbound := b.inbound ++ [env] }
  else b

end Broker

namespace Mesh

variable {n : Nat}

def setBroker (i : Fin n) (b : Broker) (s : Mesh n) : Mesh n := { s with broker := Function.update s.broker i b }

def sentTo (identity : Str) (outputs : List Output) : List Envelope :=
  outputs.filterMap fun
    | .send other env true => if other = identity then some env else none
    | _ => none

def closedBy (outputs : List Output) : List PeerLink :=
  outputs.filterMap fun
    | .closed link => some link
    | _ => none

theorem mem_closedBy {outputs : List Output} {link : PeerLink} :
    link ∈ closedBy outputs ↔ .closed link ∈ outputs := by
  unfold closedBy
  rw [List.mem_filterMap]
  constructor
  · rintro ⟨output,member,taken⟩
    split at taken
    · cases Option.some.inj taken
      exact member
    · cases taken
  · exact fun member => ⟨_,member,rfl⟩

theorem mem_sentTo {identity : Str} {outputs : List Output} {env : Envelope} :
    env ∈ sentTo identity outputs ↔ .send identity env true ∈ outputs := by
  unfold sentTo
  rw [List.mem_filterMap]
  constructor
  · rintro ⟨output,member,taken⟩
    split at taken
    · split at taken
      next same =>
        cases Option.some.inj taken
        exact same ▸ member
      · cases taken
    · cases taken
  · intro member
    exact ⟨_,member,by simp⟩

/-- Broker `k` acted: its messages enter the pipes and its stopped links close. -/
def absorb (k : Fin n) (outcome : Outcome Broker Output) (s : Mesh n) : Outcome (Mesh n) (Fin n × Output) :=
  ⟨{ broker := Function.update s.broker k outcome.state
     pipe := fun j identity =>
       if j = k then s.pipe k identity ++ sentTo identity outcome.events else s.pipe j identity
     closing := s.closing ++ closedBy outcome.events },
    outcome.events.map fun output => (k,output)⟩

def arrive (k : Fin n) (env : Envelope) (senderId : Str) (isFromPeer : Bool) (m : Moment) (s : Mesh n) :
    Outcome (Mesh n) (Fin n × Output) :=
  s.absorb k ((s.broker k).processMessage env senderId isFromPeer m)

def linkOf (i : Fin n) (key : Str) (s : Mesh n) : Option PeerLink :=
  (s.broker i).peers.find? fun link => link.key == key

variable (locate : Str → Option (Fin n))

/-- The identity belongs to a link dialed to broker `k`. -/
def Linked (s : Mesh n) (k : Fin n) (identity : Str) : Prop :=
  (∃ i, ∃ link ∈ (s.broker i).peers, locate link.address = some k ∧ link.linkId = identity) ∨
    ∃ link ∈ s.closing, locate link.address = some k ∧ link.linkId = identity

instance (s : Mesh n) (k : Fin n) (identity : Str) : Decidable (s.Linked locate k identity) :=
  inferInstanceAs (Decidable (_ ∨ _))

/-- `addPeer`. The new session starts with an empty pipe. -/
def dialed (i : Fin n) (key address : Str) (s : Mesh n) : Mesh n :=
  let b := s.broker i
  let linkId := peerLinkId b.brokerId key
  if b.peers.any fun link => link.key == key || link.address == address then s
  else
    match locate address with
    | none => s.setBroker i { b with toRouting := b.toRouting.addPeer b.brokerId key address }
    | some k =>
      if s.Linked locate k linkId ∨ linkId ∈ (s.broker k).clients then s
      else
        { s.setBroker i { b with toRouting := b.toRouting.addPeer b.brokerId key address } with
          pipe := fun j identity => if j = k ∧ identity = linkId then [] else s.pipe j identity }

/-- The next message of a stopped link, or its end. -/
def closes (position : Nat) (m : Moment) (s : Mesh n) : Outcome (Mesh n) (Fin n × Output) :=
  match s.closing[position]? with
  | none => ⟨s,[]⟩
  | some link =>
    match link.control, locate link.address with
    | message :: _, some k =>
      arrive k (message.envelope link.linkId) link.linkId false m
        { s with closing := s.closing.set position link.popControl }
    | _, _ => ⟨{ s with closing := s.closing.eraseIdx position },[]⟩

/-- A label that is not enabled changes nothing. -/
def step : Label n → Mesh n → Outcome (Mesh n) (Fin n × Output)
  | .client i clientId env m, s =>
    if s.Linked locate i clientId then ⟨s,[]⟩ else s.arrive i env clientId false m
  | .timeout i clientId, s =>
    if clientId ∈ (s.broker i).clients then ⟨s.setBroker i ((s.broker i).removeClient clientId),[]⟩
    else ⟨s,[]⟩
  | .control i key m, s =>
    match s.linkOf i key with
    | none => ⟨s,[]⟩
    | some link =>
      match link.control, locate link.address with
      | message :: _, some k =>
        (s.setBroker i ((s.broker i).mapLink key PeerLink.popControl)).arrive k
          (message.envelope link.linkId) link.linkId false m
      | _, _ => ⟨s,[]⟩
  | .flooded i key m, s =>
    match s.linkOf i key with
    | none => ⟨s,[]⟩
    | some link =>
      -- nothing precedes the CONNECT on a link's socket
      if .connect ∈ link.control then ⟨s,[]⟩
      else
        match link.encoded, locate link.address with
        | env :: _, some k =>
          (s.setBroker i ((s.broker i).mapLink key PeerLink.popEncoded)).arrive k env link.linkId false m
        | _, _ => ⟨s,[]⟩
  | .answer i key room, s =>
    match s.linkOf i key with
    | none => ⟨s,[]⟩
    | some link =>
      match locate link.address with
      | none => ⟨s,[]⟩
      | some k =>
        match s.pipe k link.linkId with
        | [] => ⟨s,[]⟩
        | env :: rest =>
          ⟨{ s.setBroker i ((s.broker i).answered key env room) with
              pipe := fun j identity => if j = k ∧ identity = link.linkId then rest else s.pipe j identity },[]⟩
  | .inbound i m, s =>
    match (s.broker i).inbound with
    | [] => ⟨s,[]⟩
    | env :: rest =>
      (s.setBroker i { s.broker i with inbound := rest }).arrive i env (str "PEER") true m
  | .heartbeat i key m, s =>
    match s.linkOf i key with
    | none => ⟨s,[]⟩
    | some link =>
      if .connect ∈ link.control then ⟨s,[]⟩
      else
        match locate link.address with
        | none => ⟨s,[]⟩
        | some k => s.arrive k (Wire.makeControl Keys.heartbeat link.linkId []) link.linkId false m
  | .dial i key address, s => ⟨s.dialed locate i key address,[]⟩
  | .datagram i senderIp heard now, s =>
    match (s.broker i).discovery with
    | none => ⟨s,[]⟩
    | some d =>
      let s := s.setBroker i { s.broker i with discovery := some (d.onDatagram senderIp heard now).1 }
      match (d.onDatagram senderIp heard now).2 with
      | none => ⟨s,[]⟩
      | some (uuid,address) => ⟨s.dialed locate i uuid address,[]⟩
  | .expire i now, s =>
    match (s.broker i).discovery with
    | none => ⟨s,[]⟩
    | some d =>
      s.absorb i (Broker.removePeers (d.expireStale now).2
        { s.broker i with discovery := some (d.expireStale now).1 })
  | .hangup i key, s => s.absorb i ((s.broker i).removePeer key)
  | .closing position m, s => s.closes locate position m

/-- The link `key` of broker `i`, and the broker it was dialed to. -/
structure Joins (s : Mesh n) (i : Fin n) (key : Str) (link : PeerLink) (k : Fin n) : Prop where
  found : s.linkOf i key = some link
  target : locate link.address = some k

/-- What a label can do: nothing, or its effect where its guard holds. -/
inductive Effect (s : Mesh n) : Label n → Outcome (Mesh n) (Fin n × Output) → Prop
  | stutter (label : Label n) : Effect s label ⟨s,[]⟩
  | client {i : Fin n} {clientId : Str} (env : Envelope) (m : Moment) (free : ¬s.Linked locate i clientId) :
      Effect s (.client i clientId env m) (s.arrive i env clientId false m)
  | timeout {i : Fin n} {clientId : Str} (known : clientId ∈ (s.broker i).clients) :
      Effect s (.timeout i clientId) ⟨s.setBroker i ((s.broker i).removeClient clientId),[]⟩
  | control {i : Fin n} {key : Str} {link : PeerLink} {k : Fin n} (message : Control) (m : Moment)
      (joins : s.Joins locate i key link k) (head : link.control.head? = some message) :
      Effect s (.control i key m) ((s.setBroker i ((s.broker i).mapLink key PeerLink.popControl)).arrive k
        (message.envelope link.linkId) link.linkId false m)
  | flooded {i : Fin n} {key : Str} {link : PeerLink} {k : Fin n} (env : Envelope) (m : Moment)
      (joins : s.Joins locate i key link k) (led : .connect ∉ link.control)
      (head : link.encoded.head? = some env) :
      Effect s (.flooded i key m) ((s.setBroker i ((s.broker i).mapLink key PeerLink.popEncoded)).arrive k
        env link.linkId false m)
  | answer {i : Fin n} {key : Str} {link : PeerLink} {k : Fin n} {rest : List Envelope} (env : Envelope)
      (room : Bool) (joins : s.Joins locate i key link k) (queued : s.pipe k link.linkId = env :: rest) :
      Effect s (.answer i key room) ⟨{ s.setBroker i ((s.broker i).answered key env room) with
        pipe := fun j identity => if j = k ∧ identity = link.linkId then rest else s.pipe j identity },[]⟩
  | inbound {i : Fin n} {rest : List Envelope} (env : Envelope) (m : Moment)
      (queued : (s.broker i).inbound = env :: rest) :
      Effect s (.inbound i m)
        ((s.setBroker i { s.broker i with inbound := rest }).arrive i env (str "PEER") true m)
  | heartbeat {i : Fin n} {key : Str} {link : PeerLink} {k : Fin n} (m : Moment)
      (joins : s.Joins locate i key link k) (led : .connect ∉ link.control) :
      Effect s (.heartbeat i key m)
        (s.arrive k (Wire.makeControl Keys.heartbeat link.linkId []) link.linkId false m)
  | dial {i : Fin n} {key address : Str} :
      Effect s (.dial i key address) ⟨s.dialed locate i key address,[]⟩
  | datagram {i : Fin n} {senderIp : Str} {heard : Beacon} {now : Nat} (discovery : Option Discovery) :
      Effect s (.datagram i senderIp heard now) ⟨s.setBroker i { s.broker i with discovery },[]⟩
  | discovered {i : Fin n} {senderIp : Str} {heard : Beacon} {now : Nat} (discovery : Option Discovery)
      (key address : Str) (dials : ∃ d, (s.broker i).discovery = some d ∧
        (d.onDatagram senderIp heard now).2 = some (key,address)) : Effect s (.datagram i senderIp heard now)
        ⟨(s.setBroker i { s.broker i with discovery }).dialed locate i key address,[]⟩
  | expire {i : Fin n} {now : Nat} (discovery : Option Discovery) (keys : List Str) :
      Effect s (.expire i now) (s.absorb i (Broker.removePeers keys { s.broker i with discovery }))
  | hangup {i : Fin n} {key : Str} : Effect s (.hangup i key) (s.absorb i ((s.broker i).removePeer key))
  | closing {position : Nat} {link : PeerLink} {k : Fin n} (message : Control) (m : Moment)
      (found : s.closing[position]? = some link) (target : locate link.address = some k)
      (head : link.control.head? = some message) :
      Effect s (.closing position m) (arrive k (message.envelope link.linkId) link.linkId false m
        { s with closing := s.closing.set position link.popControl })
  | closed {position : Nat} {m : Moment} :
      Effect s (.closing position m) ⟨{ s with closing := s.closing.eraseIdx position },[]⟩

theorem step_effect (label : Label n) (s : Mesh n) : Effect locate s label (step locate label s) := by
  cases label with
  | client i clientId env m =>
    simp only [step]
    split
    · exact .stutter _
    next free => exact .client env m free
  | timeout i clientId =>
    simp only [step]
    split
    next known => exact .timeout known
    · exact .stutter _
  | control i key m =>
    simp only [step]
    split
    · exact .stutter _
    next link found =>
      split
      next message rest k head target => exact .control message m ⟨found,target⟩ (by rw [head]; rfl)
      · exact .stutter _
  | flooded i key m =>
    simp only [step]
    split
    · exact .stutter _
    next link found =>
      split
      · exact .stutter _
      next led =>
        split
        next env rest k head target => exact .flooded env m ⟨found,target⟩ led (by rw [head]; rfl)
        · exact .stutter _
  | answer i key room =>
    simp only [step]
    split
    · exact .stutter _
    next link found =>
      split
      · exact .stutter _
      next k target =>
        split
        · exact .stutter _
        next env rest queued => exact .answer env room ⟨found,target⟩ queued
  | inbound i m =>
    simp only [step]
    split
    · exact .stutter _
    next env rest queued => exact .inbound env m queued
  | heartbeat i key m =>
    simp only [step]
    split
    · exact .stutter _
    next link found =>
      split
      · exact .stutter _
      next led =>
        split
        · exact .stutter _
        next k target => exact .heartbeat m ⟨found,target⟩ led
  | dial i key address => exact .dial
  | datagram i senderIp heard now =>
    simp only [step]
    split
    · exact .stutter _
    next d found =>
      split
      · exact .datagram _
      next key address dials => exact .discovered _ key address ⟨d,found,dials⟩
  | expire i now =>
    simp only [step]
    split
    · exact .stutter _
    · exact .expire _ _
  | hangup i key => exact .hangup
  | closing position m =>
    simp only [step,closes]
    split
    · exact .stutter _
    next link found =>
      split
      next message rest k head target => exact .closing message m found target (by rw [head]; rfl)
      · exact .closed

variable {locate} {s : Mesh n}

/-- A property of every broker, after one of them changed. -/
theorem setBroker_all (P : Broker → Prop) {i j : Fin n} {b : Broker} (all : ∀ i, P (s.broker i)) (new : P b) :
    P ((s.setBroker i b).broker j) := by
  unfold setBroker
  by_cases same : j = i
  · subst same; simpa using new
  · simpa [same] using all j

theorem absorb_all (P : Broker → Prop) {k j : Fin n} {outcome : Outcome Broker Output}
    (all : ∀ i, P (s.broker i)) (new : P outcome.state) : P ((s.absorb k outcome).state.broker j) :=
  setBroker_all P all new

theorem dialed_all (P : Broker → Prop) (all : ∀ i, P (s.broker i)) (i : Fin n) (key address : Str)
    (new : P { s.broker i with toRouting := (s.broker i).toRouting.addPeer (s.broker i).brokerId key address })
    {j : Fin n} : P ((s.dialed locate i key address).broker j) := by
  unfold dialed
  dsimp only
  split
  · exact all j
  · split
    · exact setBroker_all P all new
    · split
      · exact all j
      · exact setBroker_all P all new

variable {property : Routing → Prop}

theorem answered_upheld (upheld : Routing.Upheld property) (key : Str) (env : Envelope) (room : Bool) (b : Broker)
    (holds : property b.toRouting) : property (b.answered key env room).toRouting := by
  unfold Broker.answered
  split_ifs
  · exact holds
  · exact upheld.mapLink _ _ _ PeerLink.deactivate_shrinks holds
  · exact upheld.resendInterest _ _ holds
  · exact holds
  · exact holds

/-- A property of each broker's own, after a message was processed by one of them. -/
theorem arrive_each (property : Fin n → Routing → Prop) {k j : Fin n} {env : Envelope} {senderId : Str}
    {isFromPeer : Bool} {m : Moment} (closed : ∀ i, Routing.Closed (property i))
    (holds : ∀ i, property i (s.broker i).toRouting) :
    property j ((s.arrive k env senderId isFromPeer m).state.broker j).toRouting := by
  unfold arrive absorb
  by_cases same : j = k
  · subst same
    simpa using Broker.processMessage_closed (closed j) env senderId isFromPeer m _ (holds j)
  · simpa [same] using holds j

theorem arrive_closed {k j : Fin n} {env : Envelope} {senderId : Str} {isFromPeer : Bool} {m : Moment}
    (closed : Routing.Closed property) (holds : ∀ i, property (s.broker i).toRouting) :
    property ((s.arrive k env senderId isFromPeer m).state.broker j).toRouting :=
  arrive_each (fun _ => property) (fun _ => closed) holds

theorem step_upheld (upheld : Routing.Upheld property) (label : Label n) (s : Mesh n)
    (holds : ∀ i, property (s.broker i).toRouting) (j : Fin n) :
    property ((step locate label s).state.broker j).toRouting := by
  have closed := upheld.toClosed
  have effect := step_effect locate label s
  generalize step locate label s = outcome at effect
  cases effect with
  | stutter => exact holds j
  | client env m free => exact arrive_closed closed holds
  | timeout known =>
    exact setBroker_all (fun b => property b.toRouting) holds (closed.removeClient _ _ (holds _))
  | control message m joins head =>
    refine arrive_closed closed fun _ => ?_
    exact setBroker_all (fun b => property b.toRouting) holds
      (upheld.mapLink _ _ _ PeerLink.popControl_shrinks (holds _))
  | flooded env m joins led head =>
    refine arrive_closed closed fun _ => ?_
    exact setBroker_all (fun b => property b.toRouting) holds
      (upheld.mapLink _ _ _ PeerLink.popEncoded_shrinks (holds _))
  | answer env room joins queued =>
    exact setBroker_all (fun b => property b.toRouting) holds (answered_upheld upheld _ env room _ (holds _))
  | inbound env m queued =>
    refine arrive_closed closed fun _ => ?_
    exact setBroker_all (fun b => property b.toRouting) holds (holds _)
  | heartbeat m joins led => exact arrive_closed closed holds
  | dial => exact dialed_all (fun b => property b.toRouting) holds _ _ _ (upheld.addPeer _ _ _ _ (holds _))
  | datagram discovery => exact setBroker_all (fun b => property b.toRouting) holds (holds _)
  | discovered discovery key address =>
    have kept (i j : Fin n) : property ((s.setBroker i { s.broker i with discovery }).broker j).toRouting :=
      setBroker_all (fun b => property b.toRouting) holds (holds i)
    exact dialed_all (fun b => property b.toRouting) (kept _) _ _ _ (upheld.addPeer _ _ _ _ (kept _ _))
  | @expire i _ discovery keys =>
    exact absorb_all (fun b => property b.toRouting) holds
      (Broker.removePeers_shedding closed.toShedding keys { s.broker i with discovery } (holds i))
  | hangup =>
    exact absorb_all (fun b => property b.toRouting) holds (Broker.removePeer_shedding closed.toShedding _ _ (holds _))
  | closing message m found target head =>
    refine arrive_closed closed fun i => ?_
    exact holds i
  | closed => exact holds j

/-- Brokers that have just started, with no links yet. -/
structure Initial (s : Mesh n) : Prop where
  fresh : ∀ i, ∃ brokerId clusterName discovery, s.broker i = Broker.new brokerId clusterName discovery
  pipe : ∀ k identity, s.pipe k identity = []
  closing : s.closing = []

theorem Initial.routing (initial : Initial s) (i : Fin n) : (s.broker i).toRouting = Routing.empty := by
  obtain ⟨_,_,_,new⟩ := initial.fresh i
  rw [new]
  rfl

theorem Initial.valid (initial : Initial s) (i : Fin n) : (s.broker i).toRouting.Valid :=
  initial.routing i ▸ Routing.empty_valid

def start (ids : Fin n → Str) (discovery : Fin n → Option Discovery) : Mesh n where
  broker i := Broker.new (ids i) (((discovery i).map Discovery.cluster).getD []) (discovery i)
  pipe _ _ := []
  closing := []

theorem start_initial (ids : Fin n → Str) (discovery : Fin n → Option Discovery) : Initial (start ids discovery) :=
  ⟨fun _ => ⟨_,_,_,rfl⟩,fun _ _ => rfl,rfl⟩

-- over the zero that the literals of `Fin` are stated with, so that the pair's are read through this name
instance pair_neZero : @NeZero Nat Zero.ofOfNat0 2 := ⟨two_ne_zero⟩

/-- Two brokers, reached at the addresses `a` and `b`. -/
def pair : Str → Option (Fin 2) := fun address =>
  if address = str "a" then some 0 else if address = str "b" then some 1 else none

def pairIds : Fin 2 → Str
  | 0 => str "AAAAAAAA"
  | 1 => str "BBBBBBBB"

/-- A moment that refuses nothing and stamps with the number given. -/
def stamping (number : UInt8) : Moment := .roomy (List.replicate 15 0 ++ [number])

def publication (topic : Str) : Envelope := ⟨{ handlerKey := str "news", topic },[]⟩

def subscription (topic : Str) (scope : Origin) : Envelope :=
  ⟨Wire.makeControlHeader Keys.subscribe [] topic,encodeSubscribeScope scope⟩

end Mesh

end Wisp
