import Wisp.MeshOrigin
import Wisp.MeshInterest

/-! A cluster swap at the remote of a link. The remote forgets the session and says
UNLINK; the dialing broker stops flooding but keeps the link, its heartbeats and its
interest updates. The session stays empty only while none of these makes it subscribe. -/
namespace Wisp

open Transition

namespace Interest

variable {interest : Interest}

theorem sendInterestTo_nil : interest.sendInterestTo = [] ↔ interest.wide = false ∧ interest.topics = [] := by
  unfold sendInterestTo
  split <;> simp_all

theorem noteTopicSubscribed_nothing (nothing : interest.sendInterestTo = []) (topic : Str) :
    interest.noteTopicSubscribed topic = (interest,[]) ∨
      (interest.noteTopicSubscribed topic).1.sendInterestTo ≠ [] := by
  obtain ⟨narrow,none⟩ := sendInterestTo_nil.mp nothing
  simp only [wide,Bool.or_eq_false_iff] at narrow
  unfold noteTopicSubscribed
  split_ifs with wild already propagatable known
  · exact .inl rfl
  · exact .inr (by simp [sendInterestTo_nil,wide])
  · exact .inl rfl
  · exact .inr (by simp [sendInterestTo_nil,add])
  · exact .inl rfl

theorem noteTopicUnsubscribed_nothing (nothing : interest.sendInterestTo = []) (topic : Str) :
    interest.noteTopicUnsubscribed topic = (interest,[]) := by
  obtain ⟨narrow,none⟩ := sendInterestTo_nil.mp nothing
  simp only [wide,Bool.or_eq_false_iff] at narrow
  simp [noteTopicUnsubscribed,narrow,none]

/-- A broker that wants nothing tells its links nothing, until it wants something. -/
theorem noteMeshInterestChange_nothing (nothing : interest.sendInterestTo = []) (topic : Str) (before now : Bool) :
    interest.noteMeshInterestChange topic before now = (interest,[]) ∨
      before = false ∧ (interest.noteMeshInterestChange topic before now).1.sendInterestTo ≠ [] := by
  unfold noteMeshInterestChange
  split
  · exact .inl rfl
  next changed =>
    split
    next wanted =>
      refine (noteTopicSubscribed_nothing nothing topic).imp_right fun something => ⟨?_,something⟩
      simpa [wanted] using changed
    · exact .inl (noteTopicUnsubscribed_nothing nothing topic)

end Interest

namespace Routing

variable {which : Str → Str → Prop} {r : Routing}

/-- The broker of such a link wants nothing, and the link is not about to subscribe. -/
def Muted (which : Str → Str → Prop) (r : Routing) : Prop :=
  ∀ link ∈ r.peers, which link.address link.linkId →
    r.interest.sendInterestTo = [] ∧ ∀ topic, .subscribe topic ∉ link.control

/-- Such a link is about to subscribe only if its broker wants something. -/
def Hushed (which : Str → Str → Prop) (r : Routing) : Prop :=
  ∀ link ∈ r.peers, which link.address link.linkId →
    r.interest.sendInterestTo = [] → ∀ topic, .subscribe topic ∉ link.control

theorem Muted.hushed (muted : Muted which r) : Hushed which r :=
  fun link member chosen _ => (muted link member chosen).2

/-- While such a link exists, a change of subscriptions leaves the routing as it is, or something is wanted now. -/
theorem Muted.still (muted : Muted which r) (topic : Str) (before : Bool) {link : PeerLink}
    (member : link ∈ (r.noteMeshInterestChange topic before).peers) (chosen : which link.address link.linkId) :
    r.noteMeshInterestChange topic before = r ∨
      before = false ∧ (r.noteMeshInterestChange topic before).interest.sendInterestTo ≠ [] := by
  rw [noteMeshInterestChange_peers,pushControl] at member
  obtain ⟨old,listed,rfl⟩ := List.mem_map.mp member
  obtain ⟨empty,-⟩ := muted old listed chosen
  refine (Interest.noteMeshInterestChange_nothing empty topic before
    (r.subscriptions.hasMeshSubscriber topic)).imp_left fun same => ?_
  simp [noteMeshInterestChange,same]

theorem Muted.noted (muted : Muted which r) (topic : Str) (before : Bool) :
    Hushed which (r.noteMeshInterestChange topic before) := by
  intro link member chosen nothing
  rcases muted.still topic before member chosen with same | ⟨-,something⟩
  · rw [same] at member
    exact (muted link member chosen).2
  · exact (something nothing).elim

theorem Muted.dropped (muted : Muted which r) (topic : Str) :
    Muted which (r.noteMeshInterestChange topic true) := by
  intro link member chosen
  have same := (muted.still topic true member chosen).resolve_right (by simp)
  rw [same] at member ⊢
  exact muted link member chosen

theorem muted_shedding (which : Str → Str → Prop) : Shedding (Muted which) where
  removeClient r clientId muted := by
    have all (topics : List Str) {r : Routing} (muted : Muted which r) :
        Muted which (topics.foldl (fun r topic => r.noteMeshInterestChange topic true) r) := by
      induction topics generalizing r with
      | nil => exact muted
      | cons topic rest ih => exact ih (muted.dropped topic)
    refine all _ ?_
    exact muted
  dropLinks _ _ muted link member := muted link (List.mem_of_mem_filter member)

theorem Muted.subscribe (muted : Muted which r) (clientId topic : Str) (scope : Origin) :
    Hushed which (r.subscribe clientId topic scope) := by
  unfold Routing.subscribe
  dsimp only
  split
  · refine Muted.noted ?_ topic _
    exact muted
  · exact muted.hushed

theorem Muted.unsubscribe (muted : Muted which r) (clientId topic : Str) :
    Hushed which (r.unsubscribe clientId topic) := by
  unfold Routing.unsubscribe
  dsimp only
  split
  · refine Muted.noted ?_ topic _
    exact muted
  · exact muted.hushed

theorem Muted.turn (muted : Muted which r) (env : Envelope) (senderId : Str) :
    Hushed which (Broker.turn env senderId r) := by
  unfold Broker.turn
  dsimp only
  split_ifs
  · exact ((muted_shedding which).removeClient r senderId muted).hushed
  · exact muted.subscribe _ _ _
  · exact muted.hushed
  · exact muted.unsubscribe _ _
  · exact muted.hushed

theorem Muted.forward (muted : Muted which r) (traffic : PeerLink → List Envelope) :
    Muted which (r.forward traffic) := by
  intro link member chosen
  obtain ⟨old,listed,rfl⟩ := (mem_forward traffic r link).mp member
  exact muted old listed chosen

theorem Muted.mapLink (muted : Muted which r) {key : Str} {f : PeerLink → PeerLink}
    (shrinks : ∀ link, Shrinks link (f link)) : Muted which (r.mapLink key f) := by
  intro link member chosen
  obtain ⟨old,listed,rfl⟩ := List.mem_map.mp member
  split at chosen
  next here =>
    rw [(shrinks old).address,(shrinks old).linkId] at chosen
    obtain ⟨empty,quiet⟩ := muted old listed chosen
    rw [if_pos here]
    exact ⟨empty,fun topic queued => quiet topic ((shrinks old).control.subset queued)⟩
  next other =>
    rw [if_neg other]
    exact muted old listed chosen

/-- A RESET finds nothing to send again. -/
theorem Muted.resendInterest (muted : Muted which r) (key : Str) : Muted which (r.resendInterest key) := by
  intro link member chosen
  obtain ⟨old,listed,rfl⟩ := List.mem_map.mp member
  have named : which old.address old.linkId := by
    split at chosen <;> exact chosen
  obtain ⟨empty,quiet⟩ := muted old listed named
  refine ⟨empty,fun topic => ?_⟩
  split
  · simp [empty,quiet topic]
  · exact quiet topic

end Routing

namespace Broker

variable {which : Str → Str → Prop} {env : Envelope} {senderId other topic : Str} {isFromPeer : Bool} {m : Moment}
  {b : Broker}

theorem processMessage_hushed (muted : Routing.Muted which b.toRouting) :
    Routing.Hushed which (b.processMessage env senderId isFromPeer m).state.toRouting := by
  refine processMessage_routing (Routing.Hushed which) (fun _ _ => ?_) (fun _ => muted.turn env senderId)
    muted.hushed fun _ => (muted.forward _).hushed
  refine (handleSetCluster_shedding (Routing.muted_shedding which) _ m _ ?_).hushed
  exact muted

/-- A link stopped by a swap takes no SUBSCRIBE with it. -/
theorem processMessage_closing (muted : Routing.Muted which b.toRouting) {link : PeerLink}
    (member : .closed link ∈ (b.processMessage env senderId isFromPeer m).events)
    (chosen : which link.address link.linkId) : .subscribe topic ∉ link.control := by
  obtain ⟨r,kept,old,listed,brokerId,rfl⟩ := processMessage_closes (Routing.muted_shedding which) muted member
  simpa using (kept old listed chosen).2 topic

theorem scopes_shedding (other topic : Str) :
    Routing.Shedding fun r => r.subscriptions.scopeOf other topic = none :=
  ⟨fun r clientId free => by simp [Routing.removeClient_scopes,free],fun _ _ free => free⟩

theorem processMessage_scopes_none
    (silent : isFromPeer = false → other = senderId → env.header.handlerKey ≠ Keys.subscribe)
    (free : b.subscriptions.scopeOf other topic = none) :
    (b.processMessage env senderId isFromPeer m).state.subscriptions.scopeOf other topic = none := by
  refine processMessage_routing (fun r => r.subscriptions.scopeOf other topic = none) (fun _ _ => ?_)
    (fun fromClient => turn_scopes_none (silent fromClient) free) free fun _ => free
  refine handleSetCluster_shedding (scopes_shedding other topic) _ m _ ?_
  exact free

/-- Whoever is sent an UNLINK has lost its subscriptions. -/
theorem unlinkInboundPeers_cuts {sent : Envelope} {accepted : Bool}
    (member : .send other sent accepted ∈ (b.unlinkInboundPeers m).events) :
    (b.unlinkInboundPeers m).state.subscriptions.scopeOf other topic = none := by
  unfold unlinkInboundPeers at member ⊢
  dsimp only at member ⊢
  generalize b.clients.keys.filter linkPrefix.isPrefixOf = links at member ⊢
  obtain ⟨clientId,listed,same⟩ := List.mem_map.mp member
  obtain ⟨rfl,-⟩ := Output.send.inj same
  clear member same
  have scopes (b : Broker) : (links.foldl (fun b clientId => b.removeClient clientId) b).subscriptions.scopeOf
      clientId topic = if clientId ∈ links then none else b.subscriptions.scopeOf clientId topic := by
    clear listed
    induction links generalizing b with
    | nil => simp
    | cons first rest ih =>
      rw [List.foldl_cons,ih (b.removeClient first)]
      have removed : (b.removeClient first).subscriptions.scopeOf clientId topic =
          if clientId = first then none else b.subscriptions.scopeOf clientId topic :=
        Routing.removeClient_scopes first b.toRouting clientId topic
      rw [removed]
      by_cases early : clientId = first <;> by_cases late : clientId ∈ rest <;> simp [early,late]
  rw [scopes,if_pos listed]

theorem processMessage_cuts {sent : Envelope} {accepted : Bool}
    (member : .send other sent accepted ∈ (b.processMessage env senderId isFromPeer m).events)
    (unlink : sent.header.handlerKey = Keys.unlink) :
    (b.processMessage env senderId isFromPeer m).state.subscriptions.scopeOf other topic = none := by
  obtain ⟨rfl,swap,handled⟩ := processMessage_unlinks member unlink
  rw [processMessage_swapped swap]
  rcases handleSetCluster_cases env.payload m
    (touch senderId m.now { b with totalMessages := b.totalMessages + 1 }) with same | ⟨discovery,keys,same⟩
  · rw [same] at handled
    cases handled
  · rw [same] at handled ⊢
    rcases List.mem_append.mp handled with unlinked | dropped
    · rw [Outcome.andThen_state]
      refine removePeers_shedding (scopes_shedding other topic) keys _ ?_
      exact unlinkInboundPeers_cuts unlinked
    · obtain ⟨_,_,closed⟩ := removePeers_closes _ _ _ dropped
      cases closed

end Broker

/-- No SUBSCRIBE waits on the link. -/
def PeerLink.Quiet (link : PeerLink) : Prop := ∀ message ∈ link.control, message.key ≠ Keys.subscribe

instance (link : PeerLink) : Decidable link.Quiet := inferInstanceAs (Decidable (∀ _ ∈ _, _))

theorem PeerLink.quiet_iff {link : PeerLink} : link.Quiet ↔ ∀ topic, .subscribe topic ∉ link.control := by
  refine ⟨fun quiet topic member => quiet _ member rfl,fun none message member adds => ?_⟩
  obtain ⟨topic,rfl⟩ := Control.key_subscribe adds
  exact none topic member

namespace Mesh

variable {n : Nat} {locate : Str → Option (Fin n)} {s : Mesh n} {x : Fin n} {identity : Str}

/-- A link dialed to broker `x` under the identity. -/
def Toward (locate : Str → Option (Fin n)) (x : Fin n) (identity address linkId : Str) : Prop :=
  locate address = some x ∧ linkId = identity

/-- No SUBSCRIBE waits on a link to the session, nor on what is left of one. Only the answer to a
RESET and the push of a change put one there. -/
def Unasked (locate : Str → Option (Fin n)) (x : Fin n) (identity : Str) (s : Mesh n) : Prop :=
  (∀ d, ∀ link ∈ (s.broker d).peers, Toward locate x identity link.address link.linkId → link.Quiet) ∧
    ∀ link ∈ s.closing, Toward locate x identity link.address link.linkId → link.Quiet

/-- The label is a client's that took the identity, or opens a new link under it. -/
def Reopens (locate : Str → Option (Fin n)) (x : Fin n) (identity : Str) (s : Mesh n) : Label n → Prop
  | .client i clientId _ _ => i = x ∧ clientId = identity
  | .dial i key address => Toward locate x identity address (peerLinkId (s.broker i).brokerId key)
  | .datagram i senderIp heard now =>
    ∃ dial ∈ (s.broker i).discovery.bind fun d => (d.onDatagram senderIp heard now).2,
      Toward locate x identity dial.2 (peerLinkId (s.broker i).brokerId dial.1)
  | _ => False

instance (address linkId : Str) : Decidable (Toward locate x identity address linkId) :=
  inferInstanceAs (Decidable (_ ∧ _))

instance : Decidable (Unasked locate x identity s) :=
  inferInstanceAs (Decidable ((∀ _, ∀ _ ∈ _, _ → _) ∧ ∀ _ ∈ _, _ → _))

instance (label : Label n) : Decidable (Reopens locate x identity s label) :=
  match label with
  | .client _ _ _ _ => inferInstanceAs (Decidable (_ ∧ _))
  | .dial _ _ _ => inferInstanceAs (Decidable (Toward _ _ _ _ _))
  | .datagram i senderIp heard now => inferInstanceAs (Decidable
      (∃ dial ∈ (s.broker i).discovery.bind fun d => (d.onDatagram senderIp heard now).2, _))
  | .timeout _ _ | .control _ _ _ | .flooded _ _ _ | .answer _ _ _ | .inbound _ _ | .heartbeat _ _ _ | .expire _ _
  | .hangup _ _ | .closing _ _ => isFalse id

/-- The session is over: broker `x` holds nothing for it. -/
def Gone (x : Fin n) (identity : Str) (s : Mesh n) : Prop :=
  ∀ topic, (s.broker x).subscriptions.scopeOf identity topic = none

theorem Gone.setBroker (gone : Gone x identity s) {i : Fin n} {b : Broker}
    (after : i = x → ∀ topic, b.subscriptions.scopeOf identity topic = none) : Gone x identity (s.setBroker i b) := by
  intro topic
  by_cases here : x = i
  · subst here
    simpa [Mesh.setBroker] using after rfl topic
  · simpa [Mesh.setBroker,here] using gone topic

theorem Gone.update (gone : Gone x identity s) (i : Fin n) (b : Broker) (same : b.subscriptions = (s.broker i).subscriptions) :
    Gone x identity (s.setBroker i b) := by
  refine gone.setBroker fun here topic => ?_
  rw [same,here]
  exact gone topic

theorem Gone.absorb (gone : Gone x identity s) {k : Fin n} {outcome : Outcome Broker Output}
    (after : k = x → ∀ topic, outcome.state.subscriptions.scopeOf identity topic = none) :
    Gone x identity (s.absorb k outcome).state := by
  intro topic
  by_cases here : x = k
  · subst here
    simpa [Mesh.absorb] using after rfl topic
  · simpa [Mesh.absorb,here] using gone topic

theorem Gone.arrive (gone : Gone x identity s) {k : Fin n} {env : Envelope} {senderId : Str} {isFromPeer : Bool} {m : Moment}
    (silent : k = x → isFromPeer = false → identity = senderId → env.header.handlerKey ≠ Keys.subscribe) :
    Gone x identity (s.arrive k env senderId isFromPeer m).state := by
  refine gone.absorb fun here topic => ?_
  subst here
  exact Broker.processMessage_scopes_none (silent rfl) (gone topic)

/-- A broker drops links of its own. -/
theorem Gone.removePeers (gone : Gone x identity s) (i : Fin n) (discovery : Option Discovery) (keys : List Str) :
    Gone x identity (s.absorb i (Broker.removePeers keys { s.broker i with discovery })).state := by
  refine gone.absorb fun here topic => ?_
  subst here
  refine Broker.removePeers_shedding (Broker.scopes_shedding identity topic) keys _ ?_
  exact gone topic

theorem Gone.dialed (gone : Gone x identity s) (i : Fin n) (key address : Str) :
    Gone x identity (s.dialed locate i key address) := by
  have choice : s.dialed locate i key address = s ∨ _ := dialed_cases s i key address
  rcases choice with same | ⟨-,same⟩
  · rwa [same]
  · intro topic
    rw [same,(opened_broker locate s i key address x).1]
    exact gone topic

/-- One step brings the session back only with a SUBSCRIBE of its link, or of somebody else in
its name. -/
theorem step_gone (gone : Gone x identity s) (unasked : Unasked locate x identity s)
    (queued : ∀ i, (s.broker i).toRouting.Queued) (label : Label n) (closed : ¬Reopens locate x identity s label) :
    Gone x identity (step locate label s).state := by
  have effect := step_effect locate label s
  generalize step locate label s = outcome at effect
  cases effect with
  | stutter => exact gone
  | client env m free => exact gone.arrive fun here _ same => (closed ⟨here,same.symm⟩).elim
  | @timeout i clientId known =>
    refine gone.setBroker fun here topic => ?_
    subst here
    exact (Broker.scopes_shedding identity topic).removeClient _ clientId (gone topic)
  | @control i key link k message m joins head =>
    refine Gone.arrive (gone.update i ((s.broker i).mapLink key PeerLink.popControl) rfl) fun here _ same subscribes => ?_
    subst here
    rw [Control.envelope_key] at subscribes
    exact unasked.1 i link (List.mem_of_find?_eq_some joins.found) ⟨joins.target,same.symm⟩ message
      (List.mem_of_mem_head? head) subscribes
  | @flooded i key link k env m joins led head =>
    have application := ((queued i).queues link (List.mem_of_find?_eq_some joins.found)).forwarded env
      (List.mem_of_mem_head? head)
    exact Gone.arrive (gone.update i ((s.broker i).mapLink key PeerLink.popEncoded) rfl)
      fun _ _ _ => (Broker.idle_published application).adds
  | @answer i key link k rest env room joins queued =>
    have same : ((s.broker i).answered key env room).subscriptions = (s.broker i).subscriptions := by
      unfold Broker.answered
      split_ifs <;> rfl
    exact gone.update i _ same
  | @inbound i rest env m queue =>
    refine Gone.arrive (gone.update i { s.broker i with inbound := rest } rfl) fun _ fromClient => ?_
    cases fromClient
  | heartbeat m joins led => exact gone.arrive fun _ _ _ => (Broker.idle_heartbeat _).adds
  | dial => exact gone.dialed _ _ _
  | @datagram i _ _ _ discovery => exact gone.update i { s.broker i with discovery } rfl
  | @discovered i _ _ _ discovery key address dials =>
    exact (gone.update i { s.broker i with discovery } rfl).dialed i key address
  | expire discovery keys => exact gone.removePeers _ discovery keys
  | @hangup i key => exact gone.removePeers i (s.broker i).discovery [key]
  | @closing position link k message m found target head =>
    have popped : Gone x identity { s with closing := s.closing.set position link.popControl } := gone
    refine popped.arrive fun here _ same subscribes => ?_
    subst here
    rw [Control.envelope_key] at subscribes
    exact unasked.2 link (List.mem_of_getElem? found) ⟨target,same.symm⟩ message (List.mem_of_mem_head? head) subscribes
  | closed => exact gone

/-- Nor is it sent an application message. -/
theorem Gone.unsent (gone : Gone x identity s) (consistent : (s.broker x).subscriptions.Consistent) {label : Label n}
    {e : Envelope} {accepted : Bool} (sent : (x,.send identity e accepted) ∈ (step locate label s).events) :
    Keys.isReservedKey e.header.handlerKey = true := by
  by_contra application
  rw [Bool.not_eq_true] at application
  obtain ⟨start,env,senderId,isFromPeer,m,carries,stepped,rfl,published,fresh⟩ :=
    step_shown sent (.inr ⟨_,_,rfl⟩) application
  rw [stepped,carries.sends consistent published fresh] at sent
  obtain ⟨filter,-,scope,held,-⟩ := sent.2.2.2
  simp [gone filter] at held

theorem arrive_cuts {start : Mesh n} {k : Fin n} {env sent : Envelope} {senderId : Str} {isFromPeer accepted : Bool}
    {m : Moment} (reported : (x,.send identity sent accepted) ∈ (start.arrive k env senderId isFromPeer m).events)
    (unlink : sent.header.handlerKey = Keys.unlink) (topic : Str) :
    ((start.arrive k env senderId isFromPeer m).state.broker x).subscriptions.scopeOf identity topic = none := by
  obtain ⟨rfl,member⟩ := arrive_event reported
  simpa [arrive,absorb] using Broker.processMessage_cuts member unlink

/-- The swap itself ends the session. -/
theorem step_cuts {label : Label n} {sent : Envelope} {accepted : Bool}
    (reported : (x,.send identity sent accepted) ∈ (step locate label s).events)
    (unlink : sent.header.handlerKey = Keys.unlink) (topic : Str) :
    ((step locate label s).state.broker x).subscriptions.scopeOf identity topic = none := by
  have effect := step_effect locate label s
  generalize step locate label s = outcome at effect reported ⊢
  cases effect with
  | client env m free => exact arrive_cuts reported unlink topic
  | control message m joins head => exact arrive_cuts reported unlink topic
  | flooded env m joins led head => exact arrive_cuts reported unlink topic
  | inbound env m queued => exact arrive_cuts reported unlink topic
  | heartbeat m joins led => exact arrive_cuts reported unlink topic
  | closing message m found target head => exact arrive_cuts reported unlink topic
  | expire discovery keys =>
    obtain ⟨output,member,same⟩ := List.mem_map.mp reported
    obtain ⟨link,-,closes⟩ := Broker.removePeers_closes _ _ _ member
    simp [closes] at same
  | @hangup i key =>
    obtain ⟨output,member,same⟩ := List.mem_map.mp reported
    obtain ⟨link,-,closes⟩ := Broker.removePeers_closes [key] (s.broker i) output member
    simp [closes] at same
  | _ => cases reported

/-- The swap is final as long as no SUBSCRIBE waits on the link it cut, and no new link opens
under the identity. -/
theorem unlinked_for_good (locate : Str → Option (Fin n)) (s : Mesh n) (initial : Initial s)
    (earlier : List (Label n)) (label : Label n) (later : List (Label n)) (x : Fin n) (identity : Str)
    (frame : Envelope) (accepted : Bool)
    (swapped : (x,.send identity frame accepted) ∈
      (step locate label (run (step locate) earlier s).state).events)
    (unlink : frame.header.handlerKey = Keys.unlink)
    (met : Always (step locate) (fun s label => Unasked locate x identity s ∧ ¬Reopens locate x identity s label)
      later (run (step locate) (earlier ++ [label]) s).state) :
    (∀ topic, ((run (step locate) later (run (step locate) (earlier ++ [label]) s).state).state.broker
        x).subscriptions.scopeOf identity topic = none) ∧
      ∀ e accepted, (x,.send identity e accepted) ∈
        (run (step locate) later (run (step locate) (earlier ++ [label]) s).state).events →
        Keys.isReservedKey e.header.handlerKey = true := by
  have queued := run_preserves (step locate) (fun s => ∀ i, (s.broker i).toRouting.Queued)
    (fun s label => step_upheld Routing.queued_upheld label s) (earlier ++ [label]) s
    fun i => initial.routing i ▸ Routing.empty_queued
  have valid := (run_accounted locate initial (earlier ++ [label])).valid
  have cut : Gone x identity (run (step locate) (earlier ++ [label]) s).state := by
    intro topic
    rw [run_snoc]
    exact step_cuts swapped unlink topic
  generalize (run (step locate) (earlier ++ [label]) s).state = swapped at *
  have all := run_history (step locate) (fun s trace => ((∀ i, (s.broker i).toRouting.Queued) ∧
    (∀ i, (s.broker i).toRouting.Valid) ∧ Gone x identity s) ∧
    ∀ e accepted, (x,.send identity e accepted) ∈ trace → Keys.isReservedKey e.header.handlerKey = true)
    (fun s trace label met holds => ?_) later swapped [] met ⟨⟨queued,valid,cut⟩,by simp⟩
  · exact ⟨all.1.2.2,by simpa using all.2⟩
  · obtain ⟨⟨queued,valid,gone⟩,silent⟩ := holds
    refine ⟨⟨step_upheld Routing.queued_upheld label s queued,step_upheld Routing.valid_upheld label s valid,
      step_gone gone met.1 queued label met.2⟩,fun e accepted member => ?_⟩
    rcases List.mem_append.mp member with early | now
    · exact silent e accepted early
    · exact gone.unsent (valid x).consistent now

/-- No broker with a link to the session wants anything of it. -/
def Unwanted (locate : Str → Option (Fin n)) (x : Fin n) (identity : Str) (s : Mesh n) : Prop :=
  ∀ d, ∀ link ∈ (s.broker d).peers, Toward locate x identity link.address link.linkId →
    (s.broker d).interest.sendInterestTo = []

/-- No SUBSCRIBE is on its way unless the dialing broker wants something. -/
structure Unlinked (locate : Str → Option (Fin n)) (x : Fin n) (identity : Str) (s : Mesh n) : Prop where
  hushed : ∀ d, Routing.Hushed (Toward locate x identity) (s.broker d).toRouting
  closing : ∀ link ∈ s.closing, Toward locate x identity link.address link.linkId →
    ∀ topic, .subscribe topic ∉ link.control

/-- The same, with a dialing broker that wants nothing. -/
structure Still (locate : Str → Option (Fin n)) (x : Fin n) (identity : Str) (s : Mesh n) : Prop where
  muted : ∀ d, Routing.Muted (Toward locate x identity) (s.broker d).toRouting
  closing : ∀ link ∈ s.closing, Toward locate x identity link.address link.linkId →
    ∀ topic, .subscribe topic ∉ link.control

theorem Still.unlinked (still : Still locate x identity s) : Unlinked locate x identity s :=
  ⟨fun d => (still.muted d).hushed,still.closing⟩

theorem Still.unasked (still : Still locate x identity s) : Unasked locate x identity s :=
  ⟨fun d link member toward => PeerLink.quiet_iff.mpr (still.muted d link member toward).2,
    fun link member toward => PeerLink.quiet_iff.mpr (still.closing link member toward)⟩

theorem Unlinked.still (unlinked : Unlinked locate x identity s) (unwanted : Unwanted locate x identity s) :
    Still locate x identity s :=
  ⟨fun d link member toward =>
    ⟨unwanted d link member toward,unlinked.hushed d link member toward (unwanted d link member toward)⟩,unlinked.closing⟩

section

variable (still : Still locate x identity s)

include still

theorem Still.absorb {k : Fin n} {outcome : Outcome Broker Output}
    (hushed : Routing.Hushed (Toward locate x identity) outcome.state.toRouting)
    (closing : ∀ link topic, .closed link ∈ outcome.events → Toward locate x identity link.address link.linkId →
      .subscribe topic ∉ link.control) : Unlinked locate x identity (s.absorb k outcome).state := by
  refine ⟨fun d => ?_,fun link member toward topic => ?_⟩
  · by_cases here : d = k
    · subst here
      simpa [Mesh.absorb] using hushed
    · simpa [Mesh.absorb,here] using (still.muted d).hushed
  · rcases List.mem_append.mp member with old | new
    · exact still.closing link old toward topic
    · exact closing link topic (mem_closedBy.mp new) toward

theorem Still.arrive (k : Fin n) (env : Envelope) (senderId : Str) (isFromPeer : Bool) (m : Moment) :
    Unlinked locate x identity (s.arrive k env senderId isFromPeer m).state :=
  still.absorb (Broker.processMessage_hushed (still.muted k)) fun _ _ member =>
    Broker.processMessage_closing (still.muted k) member

theorem Still.removePeers (i : Fin n) (discovery : Option Discovery) (keys : List Str) :
    Unlinked locate x identity (s.absorb i (Broker.removePeers keys { s.broker i with discovery })).state := by
  refine still.absorb (Routing.Muted.hushed ?_) fun link topic member toward => ?_
  · refine Broker.removePeers_shedding (Routing.muted_shedding _) keys _ ?_
    exact still.muted i
  · obtain ⟨old,listed,same⟩ := Broker.removePeers_closes _ _ _ member
    cases same
    simpa using (still.muted i old listed toward).2 topic

theorem Still.setBroker (i : Fin n) (b : Broker) (muted : Routing.Muted (Toward locate x identity) b.toRouting) :
    Still locate x identity (s.setBroker i b) :=
  ⟨fun _ => setBroker_all (fun b => Routing.Muted (Toward locate x identity) b.toRouting) still.muted muted,still.closing⟩

theorem Still.dialed {i : Fin n} {key address : Str}
    (fresh : ¬Toward locate x identity address (peerLinkId (s.broker i).brokerId key)) :
    Still locate x identity (s.dialed locate i key address) := by
  have choice : s.dialed locate i key address = s ∨ _ := dialed_cases s i key address
  rcases choice with same | ⟨-,same⟩
  · rwa [same]
  · rw [same]
    refine ⟨fun d link member toward => ?_,still.closing⟩
    rw [(opened_broker locate s i key address d).2.1]
    rcases mem_opened.mp member with old | ⟨rfl,rfl⟩
    · exact still.muted d link old toward
    · exact (fresh toward).elim

/-- A step of a mesh that wants nothing of the session queues no SUBSCRIBE for it, unless
something is wanted afterwards. -/
theorem Still.step (label : Label n) (closed : ¬Reopens locate x identity s label) :
    Unlinked locate x identity (step locate label s).state := by
  have effect := step_effect locate label s
  generalize Mesh.step locate label s = outcome at effect
  cases effect with
  | stutter => exact still.unlinked
  | client env m free => exact still.arrive _ _ _ _ _
  | @timeout i clientId known =>
    exact (still.setBroker i _ ((Routing.muted_shedding _).removeClient _ clientId (still.muted i))).unlinked
  | @control i key link k message m joins head =>
    exact (still.setBroker i _ ((still.muted i).mapLink PeerLink.popControl_shrinks)).arrive _ _ _ _ _
  | @flooded i key link k env m joins led head =>
    exact (still.setBroker i _ ((still.muted i).mapLink PeerLink.popEncoded_shrinks)).arrive _ _ _ _ _
  | @answer i key link k rest env room joins queued =>
    have answered : Routing.Muted (Toward locate x identity) ((s.broker i).answered key env room).toRouting := by
      unfold Broker.answered
      split_ifs
      · exact still.muted i
      · exact (still.muted i).mapLink PeerLink.deactivate_shrinks
      · exact (still.muted i).resendInterest key
      · exact still.muted i
      · exact still.muted i
    have after := still.setBroker i _ answered
    exact ⟨fun d => (after.muted d).hushed,after.closing⟩
  | @inbound i rest env m queue =>
    exact (still.setBroker i { s.broker i with inbound := rest } (still.muted i)).arrive _ _ _ _ _
  | heartbeat m joins led => exact still.arrive _ _ _ _ _
  | dial => exact (still.dialed closed).unlinked
  | @datagram i _ _ _ discovery => exact (still.setBroker i { s.broker i with discovery } (still.muted i)).unlinked
  | @discovered i _ _ _ discovery key address dials =>
    have known := still.setBroker i { s.broker i with discovery } (still.muted i)
    refine (known.dialed fun toward => closed ?_).unlinked
    obtain ⟨d,found,chosen⟩ := dials
    exact ⟨(key,address),by simp [found,chosen],by simpa [Mesh.setBroker] using toward⟩
  | expire discovery keys => exact still.removePeers _ discovery keys
  | @hangup i key => exact still.removePeers i (s.broker i).discovery [key]
  | @closing position link k message m found target head =>
    have popped : Still locate x identity { s with closing := s.closing.set position link.popControl } := by
      refine ⟨still.muted,fun other member toward topic => ?_⟩
      rcases List.mem_or_eq_of_mem_set member with old | rfl
      · exact still.closing other old toward topic
      · exact fun queued => still.closing link (List.mem_of_getElem? found) toward topic (List.mem_of_mem_tail queued)
    exact popped.arrive _ _ _ _ _
  | closed => exact ⟨fun d => (still.muted d).hushed,fun link member =>
      still.closing link (List.mem_of_mem_eraseIdx member)⟩

end

/-- Brokers that want nothing of the session let no SUBSCRIBE wait on their links to it, if none
waited to begin with. -/
theorem unwanted_unasked (unlinked : Unlinked locate x identity s) (later : List (Label n))
    (met : Always (step locate) (fun s label => Unwanted locate x identity s ∧ ¬Reopens locate x identity s label) later s) :
    Always (step locate) (fun s label => Unasked locate x identity s ∧ ¬Reopens locate x identity s label) later s := by
  induction later generalizing s with
  | nil => trivial
  | cons label later ih =>
    obtain ⟨⟨unwanted,closed⟩,rest⟩ := met
    have still := unlinked.still unwanted
    exact ⟨⟨still.unasked,closed⟩,ih (still.step label closed) rest⟩

/-- The pair, with the second broker in a discovered cluster. -/
def clustered : Mesh 2 := start pairIds fun i => if i = 1 then some ⟨str "red",pairIds 1,∅⟩ else none

def swapCluster : Label 2 :=
  .client 1 (str "a") ⟨{ handlerKey := Keys.setCluster, topic := [] },str "blue"⟩ (stamping 0)

/-- The first broker's link at the second. -/
def pairLink : Str := peerLinkId (pairIds 0) (str "b")

def unlinkFrame : Envelope := Wire.makeControl Keys.unlink (pairIds 1) []

/-- The first broker takes the UNLINK, its link's next heartbeat is met with a RESET,
and the second broker's client publishes. -/
def carriesOn : List (Label 2) :=
  [.answer 0 (str "b") true,.heartbeat 0 (str "b") (stamping 0),.answer 0 (str "b") true,
    .control 0 (str "b") (stamping 0),.client 1 (str "p") (publication (str "t")) (stamping 1)]

/-- The first broker takes the UNLINK, and the second broker's client publishes before the link's
next heartbeat. -/
def carriesOnQuietly : List (Label 2) :=
  [.answer 0 (str "b") true,.client 1 (str "p") (publication (str "t")) (stamping 1)]

theorem unlinked_for_good_quietly :
    (1,.send pairLink unlinkFrame true) ∈
        (step pair swapCluster (run (step pair) subscribedAcross clustered).state).events ∧
      ((run (step pair) carriesOnQuietly (run (step pair) (subscribedAcross ++ [swapCluster]) clustered).state).state.broker
        1).subscriptions.scopeOf pairLink (str "t") = none :=
  ⟨by decide +kernel,(unlinked_for_good pair clustered (start_initial _ _) subscribedAcross swapCluster carriesOnQuietly 1
    pairLink unlinkFrame true (by decide +kernel) rfl (by decide +kernel)).1 (str "t")⟩

/-- With a subscriber behind the link, the RESET brings its subscription back. -/
theorem unlinked_session_returns :
    (1,.send pairLink unlinkFrame true) ∈
        (step pair swapCluster (run (step pair) subscribedAcross clustered).state).events ∧
      (∀ d, ∀ link ∈ ((run (step pair) (subscribedAcross ++ [swapCluster]) clustered).state.broker d).peers,
        link.control = []) ∧
      Always (step pair) (fun s label => ¬Reopens pair 1 pairLink s label) carriesOn
        (run (step pair) (subscribedAcross ++ [swapCluster]) clustered).state ∧
      ((run (step pair) carriesOn (run (step pair) (subscribedAcross ++ [swapCluster]) clustered).state).state.broker
        1).subscriptions.scopeOf pairLink (str "t") = some .any ∧
      (1,.send pairLink (stampedBy 1 (str "t") 1) true) ∈
        (run (step pair) carriesOn (run (step pair) (subscribedAcross ++ [swapCluster]) clustered).state).events := by
  refine ⟨?_,?_,?_,?_,?_⟩ <;> decide +kernel

end Mesh

end Wisp
