import Wisp.FairQueue
import Wisp.MeshRest

/-! One message published in a mesh at rest, and the endless run that follows, in
which every queue is served again and again. The message spreads from the dialing
end of a link to the other always, and back only to a broker that wants its topic. -/
namespace Wisp

open Transition Relation

/-- A moment in which no send is refused. -/
def Moment.Roomy (m : Moment) : Prop :=
  (∀ identity env, m.accepts identity env = true) ∧ ∀ key, m.room key = true

def Label.Roomy : Label n → Prop
  | .client _ _ _ m | .control _ _ m | .flooded _ _ m | .inbound _ m | .heartbeat _ _ m | .closing _ m => m.Roomy
  | .answer _ _ room => room = true
  | .timeout _ _ | .dial _ _ _ | .datagram _ _ _ _ | .expire _ _ | .hangup _ _ => True

namespace Mesh

variable {n : Nat}

theorem Carries.roomy {locate : Str → Option (Fin n)} {s start : Mesh n} {k : Fin n} {label : Label n} {env : Envelope}
    {senderId : Str} {isFromPeer : Bool} {m : Moment}
    (carries : Carries locate s k label start env senderId isFromPeer m) (roomy : label.Roomy) : m.Roomy := by
  cases carries <;> exact roomy

/-- A message passes from broker `i` to broker `k`: down a link that `i` dialed, or
back up a link to a broker that wants the topic. -/
def Hop (locate : Str → Option (Fin n)) (s : Mesh n) (topic : Str) (i k : Fin n) : Prop :=
  Dials locate s i k ∨ Dials locate s k i ∧ (s.broker k).interest.Wants topic

def Route (locate : Str → Option (Fin n)) (s : Mesh n) (topic : Str) : Fin n → Fin n → Prop :=
  ReflTransGen (Hop locate s topic)

/-- A client publishes in a mesh that `setup` brought to rest; from then on the
schedule moves traffic only, refuses no send and serves every queue again and again. -/
structure Publication (n : Nat) where
  locate : Str → Option (Fin n)
  initial : Mesh n
  setup : List (Label n)
  schedule : Nat → Label n
  broker : Fin n
  clientId : Str
  env : Envelope
  m : Moment
  fresh : Initial initial
  ordinary : Always (step locate) (fun s label => Routine locate s label ∧
    label.Avoids (dedupId (Broker.stampedUuid env m))) setup initial
  quiet : Quiet locate (run (step locate) setup initial).state
  free : ¬(run (step locate) setup initial).state.Linked locate broker clientId
  application : Keys.isReservedKey env.header.handlerKey = false
  stamped : Broker.stampedUuid env m ≠ []
  published : schedule 0 = .client broker clientId env m
  calm : ∀ t, (schedule (t + 1)).Calm
  distinct : ∀ t, (schedule (t + 1)).Avoids (dedupId (Broker.stampedUuid env m))
  roomy : ∀ t, (schedule t).Roomy
  floods : ∀ i, ∀ link ∈ ((run (step locate) setup initial).state.broker i).peers,
    ∀ t, ∃ later, t ≤ later ∧ ∃ m, schedule later = .flooded i link.key m
  answers : ∀ i, ∀ link ∈ ((run (step locate) setup initial).state.broker i).peers,
    ∀ t, ∃ later, t ≤ later ∧ ∃ room, schedule later = .answer i link.key room
  takes : ∀ i t, ∃ later, t ≤ later ∧ ∃ m, schedule later = .inbound i m

namespace Publication

variable (p : Publication n)

/-- The mesh at rest. -/
def settled : Mesh n := (run (step p.locate) p.setup p.initial).state

def state (t : Nat) : Mesh n := (runFor (step p.locate) p.schedule p.settled t).state

def reports (t : Nat) : List (Fin n × Output) := (step p.locate (p.schedule t) (p.state t)).events

def messageId : MessageId := dedupId (Broker.stampedUuid p.env p.m)

/-- The message as its broker stamped it. -/
def message : Envelope := (p.settled.broker p.broker).stamp p.env p.m

/-- The broker routes the message at some time. -/
def Reaches (k : Fin n) : Prop := ∃ t, (k,.tap p.message) ∈ p.reports t

theorem state_succ (t : Nat) : p.state (t + 1) = (step p.locate (p.schedule t) (p.state t)).state := by
  rw [state,runFor_succ]
  rfl

theorem message_copy : Copy p.messageId p.message := by
  refine ⟨?_,?_,?_⟩
  · rw [message,Broker.stamp_key]
    exact p.application
  · rw [message,Broker.stamp_uuid]
    exact p.stamped
  · rw [message,Broker.stamp_uuid,messageId]

theorem start : Untouched p.locate p.messageId p.settled (run (step p.locate) p.setup p.initial).events :=
  run_untouched p.fresh p.setup p.ordinary

theorem always_calm (t : Nat) : (p.schedule t).Calm := by
  cases t with
  | zero =>
    rw [p.published]
    have application := p.application
    refine ⟨Broker.idle_published application,fun swap => ?_⟩
    simp [swap,show Keys.isReservedKey Keys.setCluster = true from rfl] at application
  | succ t => exact p.calm t

/-- Links and subscriptions stay as they were, and every session in order. -/
theorem rest (t : Nat) : Sound p.locate (p.state t) ∧ Frozen p.settled (p.state t) := by
  induction t with
  | zero => exact ⟨p.start.sound,.refl _⟩
  | succ t ih =>
    obtain ⟨sound,frozen⟩ := ih
    rw [state_succ]
    have calmly := step_calmly sound (frozen.quiet p.quiet) (p.always_calm t)
    exact ⟨step_sound _ _ _ (calm_routine (p.always_calm t)) sound,frozen.trans calmly.frozen⟩

theorem sound (t : Nat) : Sound p.locate (p.state t) := (p.rest t).1

theorem frozen (t : Nat) : Frozen p.settled (p.state t) := (p.rest t).2

theorem resting (t : Nat) : Quiet p.locate (p.state t) := (p.frozen t).quiet p.quiet

theorem calmly (t : Nat) : Calmly p.locate (p.state t) (p.schedule t) (step p.locate (p.schedule t) (p.state t)) :=
  step_calmly (p.sound t) (p.resting t) (p.always_calm t)

theorem moves (t : Nat) : Moves p.locate (p.state t) (step p.locate (p.schedule t) (p.state t)) :=
  step_moves (p.sound t) (calm_routine (p.always_calm t))

/-- Only the one publication draws the id. -/
theorem own {t : Nat} {k : Fin n} {clientId : Str} {env e : Envelope} {m : Moment}
    (label : p.schedule t = .client k clientId env m) (stamped : e = ((p.state t).broker k).stamp env m)
    (same : dedupId e.header.messageUuid = p.messageId) : k = p.broker ∧ clientId = p.clientId ∧ e = p.message := by
  cases t with
  | zero =>
    rw [p.published] at label
    cases label
    exact ⟨rfl,rfl,stamped⟩
  | succ t =>
    have avoids := p.distinct t
    rw [label] at avoids
    rw [stamped,Broker.stamp_uuid] at same
    exact (avoids same).elim

section

variable {t : Nat} {k : Fin n} {e : Envelope} (tapped : (k,.tap e) ∈ p.reports t)
  (application : Keys.isReservedKey e.header.handlerKey = false) (same : dedupId e.header.messageUuid = p.messageId)

include tapped application same

theorem source : Source p.locate (p.state t) k e (p.schedule t) := by
  refine routed_source tapped application ?_
  cases t with
  | zero => exact .inr ⟨_,_,_,_,p.published⟩
  | succ t => exact .inl (same ▸ p.distinct t)

theorem routed_message (copies : Copies p.messageId (· = p.message) (p.state t)) : e = p.message :=
  (p.source tapped application same).allowed copies application same fun _ _ _ label stamped =>
    (p.own label stamped same).2.2

end

/-- Whatever carries the id is the message. -/
theorem copies (t : Nat) : Copies p.messageId (· = p.message) (p.state t) := by
  induction t with
  | zero =>
    have none := p.start.none
    exact ⟨fun i link member env queued copy => (none.encoded i link member env queued copy).elim,
      fun k identity env queued copy => (none.pipe k identity env queued copy).elim,
      fun i env queued copy => (none.inbound i env queued copy).elim⟩
  | succ t ih =>
    rw [state_succ]
    exact (p.moves t).copies ih fun k e tapped copy => p.routed_message tapped copy.application copy.same ih

/-- A broker that takes the message for a duplicate has routed it. -/
theorem duplicate_reached {t : Nat} {k : Fin n}
    (duplicate : (((p.state t).broker k).seen.isDuplicate p.message.header.messageUuid).2 = true) : p.Reaches k := by
  have accounted := run_accounted p.locate p.fresh (p.setup ++ (List.range t).map p.schedule)
  rw [run_append] at accounted
  have logged := mem_accepted.mp ((accounted.recorded k).recollects.seen duplicate)
  rw [p.message_copy.same,outputsOf_append,List.mem_append] at logged
  rcases logged with before | since
  · exact (p.start.unaccepted k (mem_outputsOf.mp before)).elim
  · obtain ⟨t',-,checked⟩ := runFor_event (step p.locate) (mem_outputsOf.mp since)
    obtain ⟨e,tapped,application,same⟩ := accepted_routed (p.sound t') checked
    exact ⟨t',p.routed_message tapped application same (p.copies t') ▸ tapped⟩

theorem arrival_reaches {t : Nat} {k : Fin n} {start : Mesh n} {senderId : Str} {isFromPeer : Bool} {m : Moment}
    (stepped : step p.locate (p.schedule t) (p.state t) = start.arrive k p.message senderId isFromPeer m)
    (same : (start.broker k).seen = ((p.state t).broker k).seen) : p.Reaches k := by
  have stamped : (start.broker k).stamp p.message m = p.message := Broker.stamp_stamped p.message_copy.stamped m _
  cases repeated : ((start.broker k).seen.isDuplicate p.message.header.messageUuid).2 with
  | true => exact p.duplicate_reached (same ▸ repeated)
  | false =>
    refine ⟨t,?_⟩
    have tapped : .tap ((start.broker k).stamp p.message m) ∈
        ((start.broker k).processMessage p.message senderId isFromPeer m).events :=
      Broker.routed_tapped p.message_copy.application (by rwa [stamped])
    rw [stamped] at tapped
    rw [reports,stepped]
    exact List.mem_map_of_mem tapped

theorem published_reaches : p.Reaches p.broker := by
  have stepped : step p.locate (p.schedule 0) (p.state 0) =
      p.settled.arrive p.broker p.env p.clientId false p.m := by
    rw [p.published]
    exact if_neg p.free
  cases repeated : ((p.settled.broker p.broker).seen.isDuplicate p.message.header.messageUuid).2 with
  | true => exact p.duplicate_reached (t := 0) repeated
  | false =>
    refine ⟨0,?_⟩
    rw [reports,stepped]
    exact List.mem_map_of_mem (Broker.routed_tapped p.application repeated)

/-! Every queue brings the message to its receiver. -/

theorem inbound_reaches {t : Nat} {i : Fin n} (queued : p.message ∈ ((p.state t).broker i).inbound) :
    p.Reaches i := by
  have keeps (t : Nat) (other : ¬∃ m, p.schedule t = .inbound i m) :
      ((p.state t).broker i).inbound <+: ((p.state (t + 1)).broker i).inbound := by
    rw [state_succ]
    exact (p.calmly t).inboundQueue fun m label => other ⟨m,label⟩
  have pops (t : Nat) (taken : ∃ m, p.schedule t = .inbound i m) :
      ((p.state t).broker i).inbound.tail <+: ((p.state (t + 1)).broker i).inbound := by
    obtain ⟨m,label⟩ := taken
    rw [state_succ,label]
    exact inbound_pops i m
  obtain ⟨later,-,⟨m,label⟩,head⟩ := FairQueue.served _ _ keeps pops (p.takes i) queued
  obtain ⟨rest,waiting⟩ := List.head?_eq_some_iff.mp head
  refine p.arrival_reaches (label ▸ step_inbound waiting m) ?_
  exact setBroker_seen rfl

section

variable {t : Nat} {i k : Fin n} {key : Str} {link : PeerLink} (joins : p.settled.Joins p.locate i key link k)

include joins

/-- The link as it is at a later time. -/
theorem joins_later (t : Nat) : ∃ later, (p.state t).Joins p.locate i key later k ∧ later.linkId = link.linkId ∧
    later.active = true := by
  obtain ⟨later,joined,same⟩ := (p.frozen t).joins joins
  simp only [PeerLink.bare,PeerLink.mk.injEq] at same
  exact ⟨later,joined,same.2.2.1,((p.sound t).sessions i later (List.mem_of_find?_eq_some joined.found)).active⟩

theorem named : link.key = key := by simpa using List.find?_some joins.found

theorem flood_reaches (queued : p.message ∈ (p.state t).sendQueue i key) : p.Reaches k := by
  have fair := p.floods i link (List.mem_of_find?_eq_some joins.found)
  rw [p.named joins] at fair
  have keeps (t : Nat) (other : ¬∃ m, p.schedule t = .flooded i key m) :
      (p.state t).sendQueue i key <+: (p.state (t + 1)).sendQueue i key := by
    rw [state_succ]
    exact (p.calmly t).sendQueue fun m label => other ⟨m,label⟩
  have pops (t : Nat) (taken : ∃ m, p.schedule t = .flooded i key m) :
      ((p.state t).sendQueue i key).tail <+: (p.state (t + 1)).sendQueue i key := by
    obtain ⟨m,label⟩ := taken
    obtain ⟨now,joined,-⟩ := p.joins_later joins t
    rw [state_succ,label]
    exact flooded_pops (p.sound t) (p.resting t) joined m
  obtain ⟨later,-,⟨m,label⟩,head⟩ := FairQueue.served _ _ keeps pops fair queued
  obtain ⟨now,joined,-⟩ := p.joins_later joins later
  have listed := List.mem_of_find?_eq_some joined.found
  have led : .connect ∉ now.control := by simp [p.resting later i now listed k joined.target]
  obtain ⟨rest,waiting⟩ := List.head?_eq_some_iff.mp (sendQueue_joins joined ▸ head)
  refine p.arrival_reaches (label ▸ step_flooded joined led waiting m) ?_
  exact setBroker_seen rfl

theorem pipe_reaches (queued : p.message ∈ (p.state t).pipe k link.linkId) : p.Reaches i := by
  have fair := p.answers i link (List.mem_of_find?_eq_some joins.found)
  rw [p.named joins] at fair
  have keeps (t : Nat) (other : ¬∃ room, p.schedule t = .answer i key room) :
      (p.state t).pipe k link.linkId <+: (p.state (t + 1)).pipe k link.linkId := by
    obtain ⟨now,joined,named,-⟩ := p.joins_later joins t
    rw [state_succ,← named]
    exact (p.calmly t).pipeQueue (p.sound t).apart joined fun room label => other ⟨room,label⟩
  have pops (t : Nat) (taken : ∃ room, p.schedule t = .answer i key room) :
      ((p.state t).pipe k link.linkId).tail <+: (p.state (t + 1)).pipe k link.linkId := by
    obtain ⟨room,label⟩ := taken
    obtain ⟨now,joined,named,-⟩ := p.joins_later joins t
    rw [state_succ,label,← named]
    exact answer_pops joined room
  obtain ⟨later,-,⟨room,label⟩,head⟩ := FairQueue.served _ _ keeps pops fair queued
  obtain ⟨now,joined,named,-⟩ := p.joins_later joins later
  obtain ⟨rest,waiting⟩ := List.head?_eq_some_iff.mp (named ▸ head)
  have accepted := p.roomy later
  rw [label] at accepted
  refine p.inbound_reaches (t := later + 1) ?_
  rw [state_succ,label,show room = true from accepted]
  exact answer_taken joined waiting p.message_copy.application

end

/-- What a broker that routes the message does with it. -/
structure Routed (t : Nat) (k : Fin n) (senderId : Str) (isFromPeer : Bool) : Prop where
  sends : ∀ clientId, (k,.send clientId p.message true) ∈ p.reports t ↔
    (isFromPeer = true ∨ clientId ≠ senderId) ∧ clientId ∈ ((p.state t).broker k).clients ∧
      Broker.Wants ((p.state t).broker k).subscriptions clientId p.env.header.topic (!isFromPeer)
  floods : ∀ j key link, p.settled.Joins p.locate k key link j → p.message ∈ (p.state (t + 1)).sendQueue k key
  sender : isFromPeer = true ∨ k = p.broker ∧ senderId = p.clientId ∨
    ∃ i key link, (p.state t).Joins p.locate i key link k ∧ senderId = link.linkId ∧ p.message ∈ link.encoded

theorem routed {t : Nat} {k : Fin n} (tapped : (k,.tap p.message) ∈ p.reports t) :
    ∃ senderId isFromPeer, p.Routed t k senderId isFromPeer := by
  have source := p.source tapped p.message_copy.application p.message_copy.same
  obtain ⟨start,env,senderId,isFromPeer,m,carries,stepped,stamped,published,fresh⟩ :=
    step_shown tapped (.inl rfl) p.message_copy.application
  have roomy := carries.roomy (p.roomy t)
  have topic : env.header.topic = p.env.header.topic := by
    rw [← Broker.stamp_topic env m (start.broker k),← stamped,message,Broker.stamp_topic]
  refine ⟨senderId,isFromPeer,fun clientId => ?_,fun j key link joins => ?_,?_⟩
  · have sends := carries.sends ((p.sound t).valid k).consistent published fresh clientId true
    rw [← stamped,roomy.1,topic,← stepped] at sends
    exact sends.trans (and_iff_right rfl)
  · obtain ⟨now,joined,-,active⟩ := p.joins_later joins t
    obtain ⟨later,waiting,same⟩ := carries.frozen.joins joined
    simp only [PeerLink.bare,PeerLink.mk.injEq] at same
    rw [state_succ,stepped,stamped]
    exact arrive_floods waiting (same.2.2.2.2.2 ▸ active) (roomy.2 _) published fresh
  · clear roomy tapped stepped
    generalize label : p.schedule t = chosen at carries source
    cases carries with
    | client free =>
      obtain ⟨here,named,-⟩ := p.own label stamped p.message_copy.same
      exact .inr (.inl ⟨here,named⟩)
    | flooded joins head =>
      cases source with
      | flooded joins' head' =>
        cases Option.some.inj (joins.found.symm.trans joins'.found)
        exact .inr (.inr ⟨_,_,_,joins,rfl,List.mem_of_mem_head? head'⟩)
    | inbound queued => exact .inl rfl

/-- What waits on a link was routed by the broker at its dialing end. -/
theorem encoded_reached {t : Nat} {i : Fin n} {link : PeerLink} (member : link ∈ ((p.state t).broker i).peers)
    (queued : p.message ∈ link.encoded) : p.Reaches i := by
  induction t generalizing link with
  | zero => exact (p.start.none.encoded i link member _ queued p.message_copy).elim
  | succ t ih =>
    rw [state_succ] at member
    rcases (p.moves t).encoded member queued with ⟨old,listed,-,early⟩ | ⟨tapped,-⟩
    · exact ih listed early
    · exact ⟨t,tapped⟩

theorem settled_joins {i k : Fin n} {link : PeerLink} (member : link ∈ (p.settled.broker i).peers)
    (located : p.locate link.address = some k) : p.settled.Joins p.locate i link.key link k :=
  p.start.sound.toFramed.joins member located

theorem hop_reaches {i k : Fin n} (hop : Hop p.locate p.settled p.env.header.topic i k) (reached : p.Reaches i) :
    p.Reaches k := by
  obtain ⟨t,tapped⟩ := reached
  obtain ⟨senderId,isFromPeer,routed⟩ := p.routed tapped
  rcases hop with ⟨link,member,located⟩ | ⟨⟨link,member,located⟩,wants⟩
  · have joins := p.settled_joins member located
    exact p.flood_reaches joins (routed.floods k link.key link joins)
  · have joins := p.settled_joins member located
    obtain ⟨now,joined,named,-⟩ := p.joins_later joins t
    have listed := List.mem_of_find?_eq_some joined.found
    by_cases sender : isFromPeer = true ∨ link.linkId ≠ senderId
    · refine p.pipe_reaches (t := t + 1) joins ?_
      rw [← (p.frozen t).interest k] at wants
      have wanted := link_wants (p.sound t) (p.resting t) listed joined.target wants (!isFromPeer)
      have known := (p.sound t).connected joined (by simp [p.resting t k now listed i joined.target])
      rw [named] at wanted known
      have sent := (routed.sends link.linkId).mpr ⟨sender,known,wanted⟩
      rw [state_succ]
      exact (p.moves t).sent_piped sent
    · -- the broker has the message from this very link
      obtain ⟨local',own⟩ := not_or.mp sender
      rw [not_not] at own
      rcases routed.sender with remote | ⟨rfl,client⟩ | ⟨j,key,other,joined',same,queued⟩
      · exact (local' remote).elim
      · exact (p.free (.inl ⟨k,link,member,located,own.trans client⟩)).elim
      · have listed' := List.mem_of_find?_eq_some joined'.found
        obtain ⟨rfl,-⟩ := (p.sound t).apart k now listed j other listed' i joined.target joined'.target
          (by rw [named,own,same])
        exact p.encoded_reached listed' queued

theorem route_reaches {k : Fin n} (route : Route p.locate p.settled p.env.header.topic p.broker k) : p.Reaches k := by
  induction route with
  | refl => exact p.published_reaches
  | tail _ hop ih => exact p.hop_reaches hop ih

/-- Copies of the message are only where a route leads. -/
structure Confined (t : Nat) : Prop where
  encoded : ∀ i, ∀ link ∈ ((p.state t).broker i).peers, p.message ∈ link.encoded →
    Route p.locate p.settled p.env.header.topic p.broker i
  pipe : ∀ i, ∀ link ∈ (p.settled.broker i).peers, ∀ k, p.locate link.address = some k →
    p.message ∈ (p.state t).pipe k link.linkId → Route p.locate p.settled p.env.header.topic p.broker i
  inbound : ∀ i, p.message ∈ ((p.state t).broker i).inbound →
    Route p.locate p.settled p.env.header.topic p.broker i

variable {p} in
theorem Confined.route {t : Nat} (confined : p.Confined t) {k : Fin n} (tapped : (k,.tap p.message) ∈ p.reports t) :
    Route p.locate p.settled p.env.header.topic p.broker k := by
  have source := p.source tapped p.message_copy.application p.message_copy.same
  generalize label : p.schedule t = chosen at source
  cases source with
  | published free stamped =>
    rw [(p.own label stamped p.message_copy.same).1]
    exact .refl
  | @flooded i key link m joins head stamped =>
    have listed := List.mem_of_find?_eq_some joins.found
    obtain ⟨old,member,same⟩ := (p.frozen t).link listed
    simp only [PeerLink.bare,PeerLink.mk.injEq] at same
    exact (confined.encoded i link listed (List.mem_of_mem_head? head)).tail
      (.inl ⟨old,member,same.2.1 ▸ joins.target⟩)
  | inbound queued stamped => exact confined.inbound k (queued ▸ List.mem_cons_self)

theorem confined (t : Nat) : p.Confined t := by
  induction t with
  | zero =>
    have none := p.start.none
    exact ⟨fun i link member queued => (none.encoded i link member _ queued p.message_copy).elim,
      fun i link member k located queued => (none.pipe k _ _ queued p.message_copy).elim,
      fun i queued => (none.inbound i _ queued p.message_copy).elim⟩
  | succ t ih =>
    refine ⟨fun i link member queued => ?_,fun i link member k located queued => ?_,fun i queued => ?_⟩
    · rw [state_succ] at member
      rcases (p.moves t).encoded member queued with ⟨old,listed,-,early⟩ | ⟨tapped,-⟩
      · exact ih.encoded i old listed early
      · exact ih.route tapped
    · rw [state_succ] at queued
      rcases (p.moves t).pipe queued with early | sent
      · exact ih.pipe i link member k located early
      · have tapped := (p.moves t).tapped sent p.message_copy.application
        obtain ⟨senderId,isFromPeer,routed⟩ := p.routed tapped
        obtain ⟨now,joined,named,-⟩ := p.joins_later (p.settled_joins member located) t
        have wanted := ((routed.sends link.linkId).mp sent).2.2
        rw [← named] at wanted
        have wants := link_wanted (p.sound t) (p.resting t) (List.mem_of_find?_eq_some joined.found) joined.target wanted
        rw [(p.frozen t).interest i] at wants
        exact (ih.route tapped).tail (.inr ⟨⟨link,member,located⟩,wants⟩)
    · rw [state_succ] at queued
      rcases (p.moves t).inbound queued with early | ⟨link,listed,k,located,piped⟩
      · exact ih.inbound i early
      · obtain ⟨old,member,same⟩ := (p.frozen t).link listed
        simp only [PeerLink.bare,PeerLink.mk.injEq] at same
        exact ih.pipe i old member k (same.2.1 ▸ located) (same.2.2.1 ▸ piped)

theorem reaches_iff (k : Fin n) : p.Reaches k ↔ Route p.locate p.settled p.env.header.topic p.broker k :=
  ⟨fun ⟨t,tapped⟩ => (p.confined t).route tapped,p.route_reaches⟩

/-- A client that is not a link, subscribed to the topic or to everything, from anywhere. -/
structure Subscriber (k : Fin n) (clientId : Str) : Prop where
  ordinary : ¬p.settled.Linked p.locate k clientId
  holds : (p.settled.broker k).subscriptions.scopeOf clientId p.env.header.topic = some .any ∨
    (p.settled.broker k).subscriptions.scopeOf clientId Keys.wildcardTopic = some .any

/-- A broker that routes the message sends it to every subscriber but the publisher. -/
theorem subscriber_sent {t : Nat} {k : Fin n} {clientId : Str} (subscriber : p.Subscriber k clientId)
    (other : k ≠ p.broker ∨ clientId ≠ p.clientId) (tapped : (k,.tap p.message) ∈ p.reports t) :
    (k,.send clientId p.message true) ∈ p.reports t := by
  obtain ⟨senderId,isFromPeer,routed⟩ := p.routed tapped
  have frozen := p.frozen t
  have wants : Broker.Wants ((p.state t).broker k).subscriptions clientId p.env.header.topic (!isFromPeer) := by
    rw [frozen.subscriptions k]
    rcases subscriber.holds with exact' | every
    · exact ⟨_,.inl rfl,_,exact',scopeAccepts_any _⟩
    · exact ⟨_,.inr rfl,_,every,scopeAccepts_any _⟩
  refine (routed.sends clientId).mpr ⟨?_,?_,wants⟩
  · refine routed.sender.imp id ?_
    rintro (⟨rfl,rfl⟩ | ⟨i,key,link,joins,rfl,-⟩)
    · exact other.resolve_left (not_not.mpr rfl)
    · rintro rfl
      obtain ⟨old,member,same⟩ := frozen.link (List.mem_of_find?_eq_some joins.found)
      simp only [PeerLink.bare,PeerLink.mk.injEq] at same
      exact subscriber.ordinary (.inl ⟨i,old,member,same.2.1 ▸ joins.target,same.2.2.1.symm⟩)
  · obtain ⟨filter,-,scope,held,-⟩ := wants
    exact (p.sound t).known k clientId filter (by simp [held])

end Publication

end Mesh

end Wisp
