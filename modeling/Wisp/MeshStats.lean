import Wisp.MeshSessions
import Wisp.Stats

/-! What stays with one broker: control messages and statistics. The links of a mesh ask
for application topics and the wildcard alone, and they are known to the broker they
were dialed to by the prefix of their identities. -/
namespace Wisp

open Transition

/-- A link as `addPeer` opens it, with whatever was queued on it since. -/
structure Contained (link : PeerLink) : Prop where
  identity : Broker.linkPrefix <+: link.linkId
  told : Interest.Tells link.control
  forwarded : ∀ env ∈ link.encoded, Keys.isReservedKey env.header.handlerKey = false

theorem Contained.shrink {link link' : PeerLink} (contained : Contained link) (shrinks : Routing.Shrinks link link') :
    Contained link' where
  identity := shrinks.linkId ▸ contained.identity
  told topic member := contained.told topic (shrinks.control.subset member)
  forwarded env member := contained.forwarded env (shrinks.encoded.subset member)

theorem Contained.push {link : PeerLink} (contained : Contained link) {messages : List Control}
    (tells : Interest.Tells messages) : Contained { link with control := link.control ++ messages } :=
  ⟨contained.identity,contained.told.append tells,contained.forwarded⟩

/-- What a link's worker sends under its identity. -/
theorem Contained.asks {link : PeerLink} (contained : Contained link) {message : Control} (queued : message ∈ link.control)
    (adds : (message.envelope link.linkId).header.handlerKey = Keys.subscribe) :
    Interest.Filter (message.envelope link.linkId).header.topic := by
  obtain ⟨topic,rfl⟩ := Control.key_subscribe (by simpa using adds)
  exact contained.told topic queued

theorem goodbye_tells (brokerId : Str) : Interest.Tells [.disconnect brokerId] := by
  intro topic member
  cases List.mem_singleton.mp member

theorem peerLinkId_leads (brokerId key : Str) : Broker.linkPrefix <+: peerLinkId brokerId key := by
  unfold peerLinkId Broker.linkPrefix
  simp only [List.append_assoc]
  exact List.prefix_append _ _

namespace Routing

theorem contained_upheld : Upheld fun r => ∀ link ∈ r.peers, Contained link where
  toTurning := everyLink_told Contained fun _ _ tells contained => contained.push tells
  forward r traffic application every link member := by
    obtain ⟨old,listed,rfl⟩ := (mem_forward traffic r link).mp member
    refine ⟨(every old listed).identity,(every old listed).told,fun env queued => ?_⟩
    rcases List.mem_append.mp queued with before | added
    · exact (every old listed).forwarded env before
    · exact application old env added
  mapLink r key f shrinks every link member := by
    obtain ⟨old,listed,rfl⟩ := List.mem_map.mp member
    split
    · exact (every old listed).shrink (shrinks old)
    · exact every old listed
  addPeer r brokerId key address every := by
    unfold addPeer
    split
    · exact every
    · intro link member
      rcases List.mem_append.mp member with old | new
      · exact every link old
      · rw [List.mem_singleton.mp new]
        refine ⟨peerLinkId_leads brokerId key,fun topic asked => ?_,by simp⟩
        exact r.interest.sendInterestTo_tells topic ((List.mem_cons.mp asked).resolve_left (by rintro ⟨⟩))
  resendInterest r key every link member := by
    obtain ⟨old,listed,rfl⟩ := List.mem_map.mp member
    split
    · exact (every old listed).push r.interest.sendInterestTo_tells
    · exact every old listed

/-- What is held under a link's identity is what a link asks for. -/
def HeldByLinks (r : Routing) : Prop :=
  ∀ identity, Broker.linkPrefix <+: identity → ∀ topic, r.subscriptions.scopeOf identity topic ≠ none →
    Interest.Filter topic

theorem heldByLinks_shedding : Shedding HeldByLinks where
  removeClient r clientId held identity link topic remains := by
    rw [removeClient_scopes] at remains
    split at remains
    · exact absurd rfl remains
    · exact held identity link topic remains
  dropLinks _ _ held := held

end Routing

namespace Broker

variable {env : Envelope} {senderId : Str} {isFromPeer : Bool} {m : Moment} {b : Broker}

theorem turn_heldByLinks {r : Routing} (held : r.HeldByLinks)
    (asks : linkPrefix <+: senderId → env.header.handlerKey = Keys.subscribe → Interest.Filter env.header.topic) :
    (turn env senderId r).HeldByLinks := by
  intro identity link topic holds
  unfold turn at holds
  dsimp only at holds
  split at holds
  · rw [Routing.removeClient_scopes] at holds
    split at holds
    · exact absurd rfl holds
    · exact held identity link topic holds
  · split at holds
    next adds =>
      split at holds
      · rw [Routing.subscribe_scopes] at holds
        split at holds
        next same => exact same.2 ▸ asks (same.1 ▸ link) adds
        · exact held identity link topic holds
      · exact held identity link topic holds
    · split at holds
      · rw [Routing.unsubscribe_scopes] at holds
        split at holds
        · exact absurd rfl holds
        · exact held identity link topic holds
      · exact held identity link topic holds

theorem processMessage_heldByLinks (held : b.toRouting.HeldByLinks)
    (asks : isFromPeer = false → linkPrefix <+: senderId → env.header.handlerKey = Keys.subscribe →
      Interest.Filter env.header.topic) :
    (b.processMessage env senderId isFromPeer m).state.toRouting.HeldByLinks :=
  processMessage_routing Routing.HeldByLinks
    (fun _ _ => handleSetCluster_shedding Routing.heldByLinks_shedding env.payload m _ held)
    (fun fromClient => turn_heldByLinks held (asks fromClient)) held fun _ => held

/-- A link stopped by a swap is what it was, with the DISCONNECT behind it. -/
theorem processMessage_stops (every : ∀ link ∈ b.peers, Contained link) {link : PeerLink}
    (member : .closed link ∈ (b.processMessage env senderId isFromPeer m).events) : Contained link := by
  obtain ⟨r,kept,old,listed,brokerId,rfl⟩ :=
    processMessage_closes Routing.contained_upheld.toShedding every member
  exact (kept old listed).push (goodbye_tells _)

/-- A message with a reserved key is not forwarded: what the broker sends because of it
is its own, and the queues of forwarded traffic stay as they are. -/
theorem processMessage_unforwarded (reserved : Keys.isReservedKey env.header.handlerKey = true) :
    (∀ key sent accepted, .flood key sent accepted ∉ (b.processMessage env senderId isFromPeer m).events) ∧
    (∀ identity sent accepted, .send identity sent accepted ∈ (b.processMessage env senderId isFromPeer m).events →
      sent = Wire.makeControl Keys.reset b.brokerId [] ∨ sent = Wire.makeControl Keys.heartbeatAck b.brokerId [] ∨
        sent = Wire.makeControl Keys.unlink b.brokerId []) ∧
    ∀ link ∈ (b.processMessage env senderId isFromPeer m).state.peers, ∃ old ∈ b.peers,
      Named link old ∧ link.encoded = old.encoded := by
  refine ⟨fun key sent accepted member => ?_,fun identity sent accepted member => ?_,?_⟩
  · generalize flooded : Output.flood key sent accepted = output at member
    cases processMessage_reports member with
    | routed published fresh shown => simp [published] at reserved
    | swapped fromClient swap handled =>
      rcases handleSetCluster_outputs handled with ⟨_,rfl⟩ | ⟨_,_,_,rfl⟩ <;> cases flooded
    | _ => cases flooded
  · generalize sends : Output.send identity sent accepted = output at member
    cases processMessage_reports member with
    | routed published fresh shown => simp [published] at reserved
    | greeted fromClient unknown unled => exact .inl (Output.send.inj sends).2.1
    | acked => exact .inr (.inl (Output.send.inj sends).2.1)
    | swapped fromClient swap handled =>
      rcases handleSetCluster_outputs handled with ⟨_,rfl⟩ | ⟨_,_,_,rfl⟩
      · exact .inr (.inr (Output.send.inj sends).2.1)
      · cases sends
    | _ => cases sends
  · have turning : Routing.Turning fun r => ∀ link ∈ r.peers, ∃ old ∈ b.peers, Named link old ∧
        link.encoded = old.encoded :=
      Routing.everyLink_turning _ fun _ _ ⟨old,listed,named,same⟩ =>
        ⟨old,listed,⟨named.key,named.address,named.linkId⟩,same⟩
    have start : ∀ link ∈ b.peers, ∃ old ∈ b.peers, Named link old ∧ link.encoded = old.encoded :=
      fun link member => ⟨link,member,.refl link,rfl⟩
    exact processMessage_routing (fun r => ∀ link ∈ r.peers, ∃ old ∈ b.peers, Named link old ∧
        link.encoded = old.encoded)
      (fun _ _ => handleSetCluster_shedding turning.toShedding env.payload m _ start)
      (fun _ => turn_turning turning env senderId b.toRouting start) start
      fun published => by simp [published] at reserved

end Broker

theorem Interest.Filter.named {topic : Str} (filter : Filter topic) :
    topic ≠ [] ∧ Keys.isReservedKey topic = false := by
  rcases filter with rfl | propagatable
  · decide
  · simp only [isPropagatableTopic,Bool.and_eq_true,Bool.not_eq_true',List.isEmpty_eq_false_iff] at propagatable
    exact ⟨propagatable.1.1,propagatable.2⟩

namespace Mesh

variable {n : Nat} {locate : Str → Option (Fin n)} {s : Mesh n}

structure Secluded (s : Mesh n) : Prop where
  valid : ∀ i, (s.broker i).toRouting.Valid
  links : ∀ i, ∀ link ∈ (s.broker i).peers, Contained link
  stopped : ∀ link ∈ s.closing, Contained link
  held : ∀ i, (s.broker i).toRouting.HeldByLinks

theorem Initial.secluded (initial : Initial s) : Secluded s where
  valid := initial.valid
  links i link member := by
    rw [initial.routing i] at member
    cases member
  stopped link member := by
    rw [initial.closing] at member
    cases member
  held i := by
    rw [initial.routing i]
    exact fun _ _ _ holds => absurd rfl holds

theorem Secluded.setBroker (secluded : Secluded s) {i : Fin n} {b : Broker} (valid : b.toRouting.Valid)
    (links : ∀ link ∈ b.peers, Contained link) (held : b.toRouting.HeldByLinks) : Secluded (s.setBroker i b) where
  valid _ := setBroker_all (fun b => b.toRouting.Valid) secluded.valid valid
  links _ := setBroker_all (fun b => ∀ link ∈ b.peers, Contained link) secluded.links links
  stopped := secluded.stopped
  held _ := setBroker_all (fun b => b.toRouting.HeldByLinks) secluded.held held

/-- Nothing that leaves the registry as it is matters. -/
theorem Secluded.update (secluded : Secluded s) {i : Fin n} {b : Broker}
    (upheld : ∀ property : Routing → Prop, Routing.Upheld property → property (s.broker i).toRouting →
      property b.toRouting) (same : b.subscriptions = (s.broker i).subscriptions) : Secluded (s.setBroker i b) := by
  refine secluded.setBroker (upheld _ Routing.valid_upheld (secluded.valid i))
    (upheld _ Routing.contained_upheld (secluded.links i)) ?_
  rw [Routing.HeldByLinks,same]
  exact secluded.held i

theorem Secluded.sameRouting (secluded : Secluded s) {i : Fin n} {b : Broker}
    (same : b.toRouting = (s.broker i).toRouting) : Secluded (s.setBroker i b) :=
  secluded.update (fun _ _ holds => same ▸ holds) (by rw [same])

theorem Secluded.mapLink (secluded : Secluded s) (i : Fin n) (key : Str) {f : PeerLink → PeerLink}
    (shrinks : ∀ link, Routing.Shrinks link (f link)) : Secluded (s.setBroker i ((s.broker i).mapLink key f)) :=
  secluded.update (fun _ upheld holds => upheld.mapLink _ key f shrinks holds) rfl

theorem Secluded.addPeer (secluded : Secluded s) (i : Fin n) (key address : Str) :
    Secluded (s.setBroker i
      { s.broker i with toRouting := (s.broker i).toRouting.addPeer (s.broker i).brokerId key address }) :=
  secluded.update (fun _ upheld holds => upheld.addPeer _ _ key address holds)
    (Routing.addPeer_subscriptions _ key address _).1

theorem Secluded.dialed (secluded : Secluded s) (i : Fin n) (key address : Str) :
    Secluded (s.dialed locate i key address) := by
  have added := secluded.addPeer i key address
  unfold Mesh.dialed
  dsimp only
  split
  · exact secluded
  · split
    · exact added
    · split
      · exact secluded
      · exact ⟨added.valid,added.links,added.stopped,added.held⟩

theorem Secluded.absorb (secluded : Secluded s) {k : Fin n} {outcome : Outcome Broker Output}
    (valid : outcome.state.toRouting.Valid) (links : ∀ link ∈ outcome.state.peers, Contained link)
    (held : outcome.state.toRouting.HeldByLinks) (stops : ∀ link, .closed link ∈ outcome.events → Contained link) :
    Secluded (s.absorb k outcome).state where
  valid _ := absorb_all (fun b => b.toRouting.Valid) secluded.valid valid
  links _ := absorb_all (fun b => ∀ link ∈ b.peers, Contained link) secluded.links links
  stopped link member := by
    rcases List.mem_append.mp member with old | new
    · exact secluded.stopped link old
    · exact stops link (mem_closedBy.mp new)
  held _ := absorb_all (fun b => b.toRouting.HeldByLinks) secluded.held held

theorem Secluded.arrive (secluded : Secluded s) {k : Fin n} {env : Envelope} {senderId : Str} {isFromPeer : Bool}
    {m : Moment} (asks : isFromPeer = false → Broker.linkPrefix <+: senderId →
      env.header.handlerKey = Keys.subscribe → Interest.Filter env.header.topic) :
    Secluded (s.arrive k env senderId isFromPeer m).state :=
  secluded.absorb
    (Broker.processMessage_closed Routing.valid_upheld.toClosed env senderId isFromPeer m _ (secluded.valid k))
    (Broker.processMessage_closed Routing.contained_upheld.toClosed env senderId isFromPeer m _ (secluded.links k))
    (Broker.processMessage_heldByLinks (secluded.held k) asks)
    fun _ => Broker.processMessage_stops (secluded.links k)

theorem Secluded.removePeers (secluded : Secluded s) (i : Fin n) (discovery : Option Discovery) (keys : List Str) :
    Secluded (s.absorb i (Broker.removePeers keys { s.broker i with discovery })).state := by
  refine secluded.absorb ?_ ?_ ?_ fun link stopped => ?_
  · exact Broker.removePeers_shedding Routing.valid_upheld.toShedding keys _ (secluded.valid i)
  · exact Broker.removePeers_shedding Routing.contained_upheld.toShedding keys _ (secluded.links i)
  · exact Broker.removePeers_shedding Routing.heldByLinks_shedding keys _ (secluded.held i)
  · obtain ⟨old,listed,same⟩ := Broker.removePeers_closes _ _ _ stopped
    cases same
    exact (secluded.links i old listed).push (goodbye_tells _)

/-- The mesh, with the statistics, and with links opened whatever the remote remembers of
their identities. -/
inductive Action (n : Nat) where
  | mesh (label : Label n)
  | addPeer (i : Fin n) (key address : Str)
  | broadcastStats (i : Fin n) (rates : Rates) (m : Moment)

def act (locate : Str → Option (Fin n)) (pack : SystemStats → Str) :
    Action n → Mesh n → Outcome (Mesh n) (Fin n × Output)
  | .mesh label, s => step locate label s
  | .addPeer i key address, s =>
    let b := s.broker i
    ⟨s.setBroker i { b with toRouting := b.toRouting.addPeer b.brokerId key address },[]⟩
  | .broadcastStats i rates m, s => s.absorb i ((s.broker i).broadcastStats pack rates m)

/-- The identities of links are left to the links that `addPeer` opens. -/
def Action.OwnIdentity : Action n → Prop
  | .mesh (.client _ clientId _ _) => ¬Broker.linkPrefix <+: clientId
  | _ => True

instance (action : Action n) : Decidable action.OwnIdentity :=
  match action with
  | .mesh (.client _ clientId _ _) => inferInstanceAs (Decidable (¬Broker.linkPrefix <+: clientId))
  | .mesh (.timeout _ _) | .mesh (.control _ _ _) | .mesh (.flooded _ _ _) | .mesh (.answer _ _ _)
  | .mesh (.inbound _ _) | .mesh (.heartbeat _ _ _) | .mesh (.dial _ _ _) | .mesh (.datagram _ _ _ _)
  | .mesh (.expire _ _) | .mesh (.hangup _ _) | .mesh (.closing _ _) | .addPeer _ _ _
  | .broadcastStats _ _ _ => isTrue trivial

theorem step_secluded (locate : Str → Option (Fin n)) (label : Label n) (own : (Action.mesh label).OwnIdentity)
    (secluded : Secluded s) : Secluded (step locate label s).state := by
  have effect := step_effect locate label s
  generalize step locate label s = outcome at effect
  cases effect with
  | stutter => exact secluded
  | client env m free => exact secluded.arrive fun _ impostor => absurd impostor own
  | timeout known =>
    refine secluded.setBroker (Routing.valid_upheld.removeClient _ _ (secluded.valid _)) ?_ ?_
    · exact Routing.contained_upheld.removeClient _ _ (secluded.links _)
    · exact Routing.heldByLinks_shedding.removeClient _ _ (secluded.held _)
  | @control i key link k message m joins head =>
    refine (secluded.mapLink i key PeerLink.popControl_shrinks).arrive fun _ _ adds => ?_
    exact (secluded.links i link (List.mem_of_find?_eq_some joins.found)).asks (List.mem_of_mem_head? head) adds
  | @flooded i key link k env m joins led head =>
    refine (secluded.mapLink i key PeerLink.popEncoded_shrinks).arrive fun _ _ adds => ?_
    have application := (secluded.links i link (List.mem_of_find?_eq_some joins.found)).forwarded env
      (List.mem_of_mem_head? head)
    rw [adds] at application
    exact absurd application (by decide)
  | @answer i key link k rest env room joins queued =>
    have same : ((s.broker i).answered key env room).subscriptions = (s.broker i).subscriptions := by
      unfold Broker.answered
      split_ifs <;> rfl
    have answered := secluded.update (fun _ upheld holds => answered_upheld upheld key env room _ holds) same
    exact ⟨answered.valid,answered.links,answered.stopped,answered.held⟩
  | @inbound i rest env m queued =>
    have taken : Secluded (s.setBroker i { s.broker i with inbound := rest }) := secluded.sameRouting rfl
    exact taken.arrive fun fromClient => by cases fromClient
  | heartbeat m joins led =>
    exact secluded.arrive fun _ _ adds => absurd adds (by rw [Wire.makeControl_key]; decide)
  | dial => exact secluded.dialed _ _ _
  | datagram discovery => exact secluded.sameRouting rfl
  | @discovered i _ _ _ discovery key address =>
    have heard : Secluded (s.setBroker i { s.broker i with discovery }) := secluded.sameRouting rfl
    exact heard.dialed i key address
  | expire discovery keys => exact secluded.removePeers _ discovery keys
  | @hangup i key => exact secluded.removePeers i (s.broker i).discovery [key]
  | @closing position link k message m found target head =>
    have contained := secluded.stopped link (List.mem_of_getElem? found)
    have shrunk : Secluded { s with closing := s.closing.set position link.popControl } :=
      ⟨secluded.valid,secluded.links,fun other member => (List.mem_or_eq_of_mem_set member).elim
        (secluded.stopped other) fun same => same ▸ contained.shrink link.popControl_shrinks,secluded.held⟩
    exact shrunk.arrive fun _ _ adds => contained.asks (List.mem_of_mem_head? head) adds
  | closed =>
    exact ⟨secluded.valid,secluded.links,fun other member => secluded.stopped other (List.mem_of_mem_eraseIdx member),
      secluded.held⟩

theorem act_secluded (locate : Str → Option (Fin n)) (pack : SystemStats → Str) (s : Mesh n) (action : Action n)
    (own : action.OwnIdentity) (secluded : Secluded s) : Secluded (act locate pack action s).state := by
  cases action with
  | mesh label => exact step_secluded locate label own secluded
  | addPeer i key address => exact secluded.addPeer i key address
  | broadcastStats i rates m =>
    have same := (s.broker i).broadcastStats_routing pack rates m
    refine secluded.absorb ?_ ?_ ?_ fun link stopped => ?_
    · rw [same]
      exact secluded.valid i
    · rw [same]
      exact secluded.links i
    · rw [same]
      exact secluded.held i
    · simp [Broker.broadcastStats,Moment.sendTo] at stopped

/-- No message that passes through a broker is a report. -/
theorem step_unreported {label : Label n} {k : Fin n} {clientId : Str} {env : Envelope} {accepted : Bool}
    (member : (k,.send clientId env accepted) ∈ (step locate label s).events) :
    env.header.handlerKey ≠ Keys.sysStats := by
  have arrived {start : Mesh n} {k' : Fin n} {arriving : Envelope} {senderId : Str} {isFromPeer : Bool} {m : Moment}
      (member : (k,.send clientId env accepted) ∈ (start.arrive k' arriving senderId isFromPeer m).events) :
      env.header.handlerKey ≠ Keys.sysStats := by
    obtain ⟨output,reported,same⟩ := List.mem_map.mp member
    obtain ⟨rfl,rfl⟩ := Prod.mk.inj same
    cases reserved : Keys.isReservedKey arriving.header.handlerKey with
    | true =>
      rcases (Broker.processMessage_unforwarded reserved).2.1 _ _ _ reported with rfl | rfl | rfl <;>
        rw [Wire.makeControl_key] <;> decide
    | false =>
      generalize sends : Output.send clientId env accepted = output at reported
      cases Broker.processMessage_reports reported with
      | routed published fresh shown =>
        rcases shown with rfl | ⟨_,_,rfl⟩ | ⟨_,_,rfl⟩
        · cases sends
        · obtain ⟨-,rfl,-⟩ := Output.send.inj sends
          intro report
          rw [← Broker.stamp_key arriving _ (start.broker k'),report] at published
          exact absurd published (by decide)
        · cases sends
      | greeted fromClient unknown unled =>
        obtain ⟨-,rfl,-⟩ := Output.send.inj sends
        rw [Wire.makeControl_key]
        decide
      | acked =>
        obtain ⟨-,rfl,-⟩ := Output.send.inj sends
        rw [Wire.makeControl_key]
        decide
      | swapped fromClient swap handled =>
        rw [swap] at reserved
        exact absurd reserved (by decide)
      | _ => cases sends
  have stopped {i : Fin n} {keys : List Str} {b : Broker}
      (member : (k,.send clientId env accepted) ∈ (s.absorb i (Broker.removePeers keys b)).events) : False := by
    obtain ⟨output,reported,same⟩ := List.mem_map.mp member
    obtain ⟨-,rfl⟩ := Prod.mk.inj same
    obtain ⟨_,-,closed⟩ := Broker.removePeers_closes _ _ _ reported
    cases closed
  have effect := step_effect locate label s
  generalize step locate label s = outcome at effect member
  cases effect with
  | client | control | flooded | inbound | heartbeat | closing => exact arrived member
  | expire discovery keys => exact (stopped member).elim
  | @hangup i key =>
    have dropped : (k,.send clientId env accepted) ∈ (s.absorb i (Broker.removePeers [key] (s.broker i))).events :=
      member
    exact (stopped dropped).elim
  | _ => cases member

/-- In every state a mesh can reach, a message with a reserved key goes no further than
the broker that received it, no link holds a reserved or empty topic at its remote, and
the reports a broker's clients are sent are those it made itself. -/
theorem control_and_stats_stay_local (locate : Str → Option (Fin n)) (pack : SystemStats → Str) (s : Mesh n)
    (initial : Initial s) (schedule : List (Action n)) (own : ∀ action ∈ schedule, action.OwnIdentity) :
    let reached := (run (act locate pack) schedule s).state
    (∀ k env senderId isFromPeer m, Keys.isReservedKey env.header.handlerKey = true →
      let b := reached.broker k
      let outcome := b.processMessage env senderId isFromPeer m
      (∀ key sent accepted, .flood key sent accepted ∉ outcome.events) ∧
      (∀ identity sent accepted, .send identity sent accepted ∈ outcome.events →
        sent = Wire.makeControl Keys.reset b.brokerId [] ∨ sent = Wire.makeControl Keys.heartbeatAck b.brokerId [] ∨
          sent = Wire.makeControl Keys.unlink b.brokerId []) ∧
      ∀ link ∈ outcome.state.peers, ∃ old ∈ b.peers, Named link old ∧ link.encoded = old.encoded) ∧
    (∀ i, ∀ link ∈ (reached.broker i).peers, ∀ k, locate link.address = some k →
      ∀ topic ∈ (reached.broker k).subscriptions.held link.linkId,
        topic ≠ [] ∧ Keys.isReservedKey topic = false) ∧
    ∀ action k clientId env accepted, (k,.send clientId env accepted) ∈ (act locate pack action reached).events →
      env.header.handlerKey = Keys.sysStats → ¬Broker.linkPrefix <+: clientId ∧
        ∃ stats, env.payload = pack stats ∧ stats.brokerId = (reached.broker k).brokerId := by
  intro reached
  have secluded : Secluded reached :=
    run_invariant (act locate pack) Secluded (act_secluded locate pack) schedule s
      (Always.of_labels (act locate pack) own s) initial.secluded
  refine ⟨fun k env senderId isFromPeer m => Broker.processMessage_unforwarded,fun i link member k located topic held => ?_,
    fun action k clientId env accepted member report => ?_⟩
  · rw [SubscriptionRegistry.mem_held] at held
    exact (secluded.held k link.linkId (secluded.links i link member).identity topic held).named
  · cases action with
    | mesh label => exact absurd report (step_unreported member)
    | addPeer i key address => cases member
    | broadcastStats i rates m =>
      obtain ⟨output,reported,same⟩ := List.mem_map.mp member
      obtain ⟨rfl,rfl⟩ := Prod.mk.inj same
      obtain ⟨rfl,subscribed⟩ := Broker.broadcastStats_sends pack rates m (secluded.valid i).consistent reported
      refine ⟨fun link => ?_,_,rfl,rfl⟩
      have named := (secluded.held i clientId link Keys.sysStats subscribed).named
      exact absurd named.2 (by decide)

/-- A client of the dialing broker asks for the reports and for everything else. -/
def watched : List (Action 2) :=
  [.mesh (.client 0 (str "c") (subscription Keys.sysStats .any) (stamping 0)),
    .mesh (.client 0 (str "c") (subscription Keys.wildcardTopic .any) (stamping 0)),
    .addPeer 0 (str "b") (str "b"),.mesh (.control 0 (str "b") (stamping 0)),.mesh (.control 0 (str "b") (stamping 0)),
    .broadcastStats 1 ⟨0,0,0⟩ (stamping 0)]

theorem control_and_stats_stay_local_watched :
    let reached := (run (act pair SystemStats.brokerId) watched (start pairIds fun _ => none)).state
    let reports := (act pair SystemStats.brokerId (.broadcastStats 0 ⟨0,0,0⟩ (stamping 0)) reached).events
    (∀ action ∈ watched, action.OwnIdentity) ∧ reports.length = 2 ∧
    (reached.broker 1).subscriptions.held (peerLinkId (pairIds 0) (str "b")) = {Keys.wildcardTopic} ∧
    ∀ clientId env accepted, (0,.send clientId env accepted) ∈ reports → env.header.handlerKey = Keys.sysStats →
      ∃ stats : SystemStats, env.payload = stats.brokerId ∧ stats.brokerId = (reached.broker 0).brokerId :=
  ⟨by decide,by decide +kernel,by decide +kernel,fun clientId env accepted member report =>
    ((control_and_stats_stay_local pair SystemStats.brokerId _ (start_initial pairIds fun _ => none) watched
      (by decide)).2.2 _ 0 clientId env accepted member report).2⟩

end Mesh

end Wisp
