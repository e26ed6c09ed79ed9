import Wisp.BrokerTurn

/-! Who a routed message goes to, and what one message can report: a control
message nothing but control traffic, a repeat its recognition, any other one
delivery to each recipient and one copy to each link. -/
namespace Wisp

open Transition

namespace SubscriptionRegistry

theorem find_listed (consistent : Consistent r) (clientId topic : Str) :
    (listed r.topicSubscribers topic).find? (fun s => s.clientId == clientId) =
      (r.scopeOf clientId topic).map fun scope => ⟨clientId,scope⟩ := by
  cases found : (listed r.topicSubscribers topic).find? (fun s => s.clientId == clientId) with
  | none =>
    cases held : r.scopeOf clientId topic with
    | none => rfl
    | some scope =>
      have entry := (consistent.agree clientId topic scope).mp held
      simpa using List.find?_eq_none.mp found _ entry
  | some subscriber =>
    have entry := List.mem_of_find?_eq_some found
    obtain rfl : subscriber.clientId = clientId := by simpa using List.find?_some found
    rw [(consistent.agree _ topic subscriber.scope).mpr entry]
    rfl

end SubscriptionRegistry

namespace Broker

/-- The client's subscription to the topic or to the wildcard takes a message of this origin. -/
def Wants (r : SubscriptionRegistry) (clientId topic : Str) (isLocal : Bool) : Prop :=
  ∃ filter, (filter = topic ∨ filter = Keys.wildcardTopic) ∧
    ∃ scope, r.scopeOf clientId filter = some scope ∧ scopeAccepts scope isLocal = true

section

variable {b : Broker} (consistent : b.subscriptions.Consistent)

include consistent

theorem mem_recipients (topic senderId : Str) (isFromPeer : Bool) (clientId : Str) :
    clientId ∈ b.recipients topic senderId isFromPeer ↔
      (isFromPeer = true ∨ clientId ≠ senderId) ∧ clientId ∈ b.clients ∧
        Wants b.subscriptions clientId topic (!isFromPeer) := by
  have entry (filter : Str) (s : Subscriber) :
      s ∈ SubscriptionRegistry.listed b.subscriptions.topicSubscribers filter ↔
        b.subscriptions.scopeOf s.clientId filter = some s.scope :=
    (consistent.agree s.clientId filter s.scope).symm
  have vector (filter : Str) : (b.subscriptions.subscribersOf filter).getD [] =
      SubscriptionRegistry.listed b.subscriptions.topicSubscribers filter := rfl
  simp only [recipients,vector,SubscriptionRegistry.find_listed consistent,List.mem_map,List.mem_append,
    List.mem_filter]
  constructor
  · rintro ⟨s,⟨member,deliver⟩ | ⟨member,deliver⟩,rfl⟩
    · simp only [Bool.and_eq_true,decide_eq_true_eq] at deliver
      refine ⟨by simpa using deliver.1.1,deliver.2,topic,.inl rfl,s.scope,(entry _ s).mp member,deliver.1.2⟩
    · simp only [Bool.and_eq_true,decide_eq_true_eq] at deliver
      split at member
      · cases member
      · refine ⟨by simpa using deliver.2.1.1,deliver.2.2,_,.inr rfl,s.scope,(entry _ s).mp member,
          deliver.2.1.2⟩
  · rintro ⟨echo,known,filter,matching,scope,held,accepts⟩
    by_cases exact : ∃ o, b.subscriptions.scopeOf clientId topic = some o ∧ scopeAccepts o (!isFromPeer) = true
    · obtain ⟨o,holds,takes⟩ := exact
      refine ⟨⟨clientId,o⟩,.inl ⟨(entry _ ⟨clientId,o⟩).mpr holds,?_⟩,rfl⟩
      simpa [takes,known] using echo
    · have wild : filter = Keys.wildcardTopic := by
        rcases matching with rfl | wild
        · exact (exact ⟨scope,held,accepts⟩).elim
        · exact wild
      subst wild
      have other : topic ≠ Keys.wildcardTopic := by
        rintro rfl
        exact exact ⟨scope,held,accepts⟩
      refine ⟨⟨clientId,scope⟩,.inr ⟨?_,?_⟩,rfl⟩
      · rw [if_neg other]
        exact (entry _ ⟨clientId,scope⟩).mpr held
      · cases holds : b.subscriptions.scopeOf clientId topic with
        | none => simpa [holds,accepts,known] using echo
        | some o =>
          have refused : scopeAccepts o (!isFromPeer) = false :=
            Bool.eq_false_iff.mpr fun takes => exact ⟨o,holds,takes⟩
          simpa [holds,refused,accepts,known] using echo

theorem recipients_nodup (topic senderId : Str) (isFromPeer : Bool) :
    (b.recipients topic senderId isFromPeer).Nodup := by
  have vector (filter : Str) : (b.subscriptions.subscribersOf filter).getD [] =
      SubscriptionRegistry.listed b.subscriptions.topicSubscribers filter := rfl
  have single := consistent.proper.single
  simp only [recipients,vector,List.map_append]
  refine List.nodup_append.mpr ⟨?_,?_,?_⟩
  · exact (single topic).sublist (List.filter_sublist.map _)
  · split
    · exact List.nodup_nil
    · exact (single _).sublist (List.filter_sublist.map _)
  · -- a client in both lists would have been served by its exact subscription
    intro clientId exact other wild same
    subst same
    obtain ⟨s,member,rfl⟩ := List.mem_map.mp exact
    obtain ⟨s',member',same⟩ := List.mem_map.mp wild
    rw [List.mem_filter] at member member'
    have held := (consistent.agree s.clientId topic s.scope).mpr member.1
    simp only [Bool.and_eq_true] at member member'
    rw [SubscriptionRegistry.find_listed consistent,same,held] at member'
    simp [member.2.1.2] at member'

end

/-- Control traffic: nothing checked, nothing routed. -/
def Silent : Output → Prop
  | .checked _ _ => False
  | .tap env => Keys.isReservedKey env.header.handlerKey = true
  | .send _ env _ => Keys.isReservedKey env.header.handlerKey = true
  | .flood _ _ _ => False
  | .closed _ => True

theorem greet_silent (key senderId : Str) (m : Moment) (b : Broker) :
    ∀ output ∈ b.greet key senderId m, Silent output := by
  intro output member
  unfold greet at member
  split at member
  · rw [List.mem_singleton.mp member]
    rfl
  · cases member

/-- Dropping links reports them, as they stop. -/
theorem removePeers_closes (keys : List Str) (b : Broker) : ∀ output ∈ (b.removePeers keys).events,
    ∃ link ∈ b.peers, output = .closed { link with control := link.control ++ [.disconnect b.brokerId] } := by
  suffices each : ∀ done : Outcome Broker Output, done.state.peers ⊆ b.peers → done.state.brokerId = b.brokerId →
      (∀ output ∈ done.events, ∃ link ∈ b.peers,
        output = .closed { link with control := link.control ++ [.disconnect b.brokerId] }) →
      ∀ output ∈ (keys.foldl (fun done key => done.andThen (removePeer key)) done).events, ∃ link ∈ b.peers,
        output = .closed { link with control := link.control ++ [.disconnect b.brokerId] } from
    each ⟨b,[]⟩ (List.Subset.refl _) rfl (by simp)
  induction keys with
  | nil => exact fun done _ _ closes => closes
  | cons key rest ih =>
    intro done part named closes
    refine ih (done.andThen (removePeer key)) ?_ ?_ fun output member => ?_
    · refine List.Subset.trans ?_ part
      rw [Outcome.andThen_state]
      unfold removePeer
      split
      · exact List.Subset.refl _
      · exact fun link member => List.mem_of_mem_filter member
    · exact (removePeer_keeps key done.state).brokerId.trans named
    · rcases List.mem_append.mp member with old | new
      · exact closes output old
      · unfold removePeer at new
        split at new
        · cases new
        next link found =>
          rw [List.mem_singleton.mp new,named]
          exact ⟨link,part (List.mem_of_find?_eq_some found),rfl⟩

theorem removePeers_silent (keys : List Str) (b : Broker) :
    ∀ output ∈ (b.removePeers keys).events, Silent output := by
  intro output member
  obtain ⟨link,-,rfl⟩ := removePeers_closes keys b output member
  trivial

theorem removePeer_silent (key : Str) (b : Broker) : ∀ output ∈ (b.removePeer key).events, Silent output :=
  removePeers_silent [key] b

/-- A swap tells the inbound links to unlink, and stops the links discovery drops. -/
theorem handleSetCluster_outputs {newCluster : Str} {m : Moment} {b : Broker} {output : Output}
    (member : output ∈ (b.handleSetCluster newCluster m).events) :
    (∃ identity, output = m.sendTo identity (Wire.makeControl Keys.unlink b.brokerId [])) ∨
    ∃ link ∈ (unlinkInboundPeers m { b with clusterName := newCluster }).state.peers, ∃ brokerId,
      output = .closed { link with control := link.control ++ [.disconnect brokerId] } := by
  rcases handleSetCluster_cases newCluster m b with same | ⟨discovery,keys,same⟩
  · rw [same] at member
    cases member
  · rw [same,Outcome.andThen_events,List.mem_append] at member
    rcases member with unlinked | dropped
    · obtain ⟨identity,-,rfl⟩ := List.mem_map.mp unlinked
      exact .inl ⟨identity,rfl⟩
    · obtain ⟨link,listed,rfl⟩ := removePeers_closes _ _ _ dropped
      exact .inr ⟨link,listed,_,rfl⟩

theorem handleSetCluster_silent (newCluster : Str) (m : Moment) (b : Broker) :
    ∀ output ∈ (b.handleSetCluster newCluster m).events, Silent output := by
  intro output member
  rcases handleSetCluster_outputs member with ⟨identity,rfl⟩ | ⟨link,-,brokerId,rfl⟩
  · rfl
  · trivial

theorem handleClientMessage_silent (env : Envelope) (senderId : Str) (m : Moment) (b : Broker) :
    ∀ output ∈ (b.handleClientMessage env senderId m).1.events, Silent output := by
  have greeting := greet_silent env.header.handlerKey senderId m b
  intro output member
  unfold handleClientMessage at member
  dsimp only at member
  split_ifs at member
  · cases member
  · exact greeting output member
  · rcases List.mem_append.mp member with greeted | acked
    · exact greeting output greeted
    · rw [List.mem_singleton.mp acked]
      rfl
  · exact greeting output member
  · exact greeting output member
  · rcases List.mem_append.mp member with greeted | swapped
    · exact greeting output greeted
    · exact handleSetCluster_silent _ m _ output swapped
  · exact greeting output member

/-- Everything one message can report. -/
inductive Trail (b : Broker) (outcome : Outcome Broker Output) : Prop
  | silent (seen : outcome.state.seen = b.seen) (events : ∀ output ∈ outcome.events, Silent output)
  | repeated (uuid : Str) (known : (b.seen.isDuplicate uuid).2 = true)
      (seen : outcome.state.seen = (b.seen.isDuplicate uuid).1)
      (events : outcome.events = [.checked (dedupId uuid) true])
  | routed (env : Envelope) (greeting : List Output) (served links : List Str) (m : Moment)
      (published : Keys.isReservedKey env.header.handlerKey = false)
      (fresh : (b.seen.isDuplicate env.header.messageUuid).2 = false)
      (seen : outcome.state.seen = (b.seen.isDuplicate env.header.messageUuid).1)
      (polite : ∀ output ∈ greeting, Silent output) (distinct : served.Nodup)
      (events : outcome.events = .checked (dedupId env.header.messageUuid) false :: .tap env ::
        (greeting ++ served.map (m.sendTo · env) ++ links.map fun key => .flood key env (m.room key)))

theorem processMessage_trail {b : Broker} (consistent : b.subscriptions.Consistent) (env : Envelope)
    (senderId : Str) (isFromPeer : Bool) (m : Moment) : Trail b (b.processMessage env senderId isFromPeer m) := by
  by_cases published : Keys.isReservedKey env.header.handlerKey = false
  · cases repeated : (b.seen.isDuplicate (b.stamp env m).header.messageUuid).2 with
    | true =>
      rw [processMessage_duplicate env senderId isFromPeer m b published repeated]
      exact .repeated _ repeated rfl rfl
    | false =>
      have same := ready_routing env senderId isFromPeer m b
      have still : (b.ready env senderId isFromPeer m).subscriptions.Consistent := by rwa [same]
      rw [processMessage_routed env senderId isFromPeer m b published repeated]
      obtain ⟨_,keeps,_⟩ := noteDropped_all ((b.ready env senderId isFromPeer m).recipients
        (b.stamp env m).header.topic senderId isFromPeer) (b.stamp env m) m (b.ready env senderId isFromPeer m)
      refine .routed (b.stamp env m) (if isFromPeer then [] else b.greet env.header.handlerKey senderId m) ((b.ready env senderId isFromPeer m).recipients
        (b.stamp env m).header.topic senderId isFromPeer) (((deliverToSubscribers (b.stamp env m) senderId
          isFromPeer m (b.ready env senderId isFromPeer m)).state.peers.filter (·.active)).map (·.key)) m
        (by rwa [stamp_key]) repeated ?_ ?_ (recipients_nodup still _ _ _) ?_
      · exact keeps.seen.trans (by unfold ready; cases isFromPeer <;> rfl)
      · intro output member
        split at member
        · cases member
        · exact greet_silent _ _ _ _ output member
      · simp [deliverToSubscribers,floodPeers]
  · have reserved := Bool.not_eq_false _ ▸ published
    cases isFromPeer with
    | false =>
      rw [processMessage_reserved env senderId m b reserved]
      refine .silent (handleClientMessage_keeps _ senderId m _).seen fun output member => ?_
      rcases List.mem_cons.mp member with rfl | handled
      · simpa [Silent] using reserved
      · exact handleClientMessage_silent _ senderId m _ output handled
    | true =>
      rw [processMessage_peer_reserved env senderId m b reserved]
      refine .silent rfl fun output member => ?_
      rw [List.mem_singleton.mp member]
      simpa [Silent] using reserved

section

variable {b : Broker} {env e : Envelope} {senderId clientId : Str} {isFromPeer : Bool} {m : Moment}

/-- What one message can report, output by output. -/
inductive Reports (b : Broker) (env : Envelope) (senderId : Str) (isFromPeer : Bool) (m : Moment) : Output → Prop
  | checked (id : MessageId) (duplicate : Bool) : Reports b env senderId isFromPeer m (.checked id duplicate)
  | routed {output : Output} (published : Keys.isReservedKey env.header.handlerKey = false)
      (fresh : (b.seen.isDuplicate (b.stamp env m).header.messageUuid).2 = false)
      (shows : output = .tap (b.stamp env m) ∨ (∃ clientId accepted, output = .send clientId (b.stamp env m) accepted) ∨
        ∃ key accepted, output = .flood key (b.stamp env m) accepted) : Reports b env senderId isFromPeer m output
  | noted (reserved : Keys.isReservedKey env.header.handlerKey = true) :
      Reports b env senderId isFromPeer m (.tap (b.stamp env m))
  | greeted (fromClient : isFromPeer = false) (unknown : senderId ∉ b.clients)
      (unled : env.header.handlerKey ≠ Keys.connect) :
      Reports b env senderId isFromPeer m (m.sendTo senderId (Wire.makeControl Keys.reset b.brokerId []))
  | acked : Reports b env senderId isFromPeer m (m.sendTo senderId (Wire.makeControl Keys.heartbeatAck b.brokerId []))
  | swapped {output : Output} (fromClient : isFromPeer = false) (swap : env.header.handlerKey = Keys.setCluster)
      (handled : output ∈ (handleSetCluster env.payload m
        (touch senderId m.now { b with totalMessages := b.totalMessages + 1 })).events) :
      Reports b env senderId isFromPeer m output

theorem greet_reports (fromClient : isFromPeer = false) {output : Output}
    (member : output ∈ b.greet env.header.handlerKey senderId m) : Reports b env senderId isFromPeer m output := by
  unfold greet at member
  split at member
  next unknown =>
    rw [List.mem_singleton.mp member]
    exact .greeted fromClient unknown.1 unknown.2
  · cases member

theorem processMessage_reports {output : Output}
    (member : output ∈ (b.processMessage env senderId isFromPeer m).events) :
    Reports b env senderId isFromPeer m output := by
  cases reserved : Keys.isReservedKey env.header.handlerKey with
  | false =>
    cases repeated : (b.seen.isDuplicate (b.stamp env m).header.messageUuid).2 with
    | true =>
      rw [processMessage_duplicate env senderId isFromPeer m b reserved repeated,List.mem_singleton] at member
      subst member
      exact .checked _ _
    | false =>
      rw [processMessage_routed env senderId isFromPeer m b reserved repeated] at member
      simp only [List.mem_cons,List.mem_append] at member
      rcases member with rfl | rfl | (greeted | sent) | flooded
      · exact .checked _ _
      · exact .routed reserved repeated (.inl rfl)
      · split at greeted
        · cases greeted
        next fromClient => exact greet_reports (Bool.eq_false_iff.mpr fromClient) greeted
      · obtain ⟨other,-,rfl⟩ := List.mem_map.mp sent
        exact .routed reserved repeated (.inr (.inl ⟨other,_,rfl⟩))
      · obtain ⟨link,-,rfl⟩ := List.mem_map.mp flooded
        exact .routed reserved repeated (.inr (.inr ⟨_,_,rfl⟩))
  | true =>
    cases isFromPeer with
    | true =>
      rw [processMessage_peer_reserved env senderId m b reserved,List.mem_singleton] at member
      subst member
      exact .noted reserved
    | false =>
      rw [processMessage_reserved env senderId m b reserved] at member
      rcases List.mem_cons.mp member with rfl | handled
      · exact .noted reserved
      · have greeted {output : Output} (member : output ∈ greet env.header.handlerKey senderId m
            { b with totalMessages := b.totalMessages + 1 }) : Reports b env senderId false m output :=
          greet_reports rfl member
        unfold handleClientMessage at handled
        simp only [stamp_key,stamp_payload] at handled
        split_ifs at handled with leaves connects beats adds drops swap
        · cases handled
        · exact greeted handled
        · rcases List.mem_append.mp handled with early | acked
          · exact greeted early
          · rw [List.mem_singleton.mp acked]
            exact .acked
        · exact greeted handled
        · exact greeted handled
        · rcases List.mem_append.mp handled with early | swapped
          · exact greeted early
          · exact .swapped rfl swap swapped
        · exact greeted handled

/-- A link is stopped by a swap only: a link of the broker once the remote ones are forgotten,
with the DISCONNECT behind what it still had to send. -/
theorem processMessage_closes {property : Routing → Prop} (shedding : Routing.Shedding property)
    (holds : property b.toRouting) {link : PeerLink}
    (member : .closed link ∈ (b.processMessage env senderId isFromPeer m).events) :
    ∃ r : Routing, property r ∧ ∃ old ∈ r.peers, ∃ brokerId,
      link = { old with control := old.control ++ [.disconnect brokerId] } := by
  generalize closed : Output.closed link = output at member
  cases processMessage_reports member with
  | routed published fresh shown => rcases shown with rfl | ⟨_,_,rfl⟩ | ⟨_,_,rfl⟩ <;> cases closed
  | swapped fromClient swap handled =>
    rcases handleSetCluster_outputs handled with ⟨identity,rfl⟩ | ⟨old,listed,brokerId,rfl⟩
    · cases closed
    · cases closed
      have kept := unlinkInboundPeers_shedding shedding m
        { touch senderId m.now { b with totalMessages := b.totalMessages + 1 } with clusterName := env.payload } holds
      exact ⟨_,kept,old,listed,brokerId,rfl⟩
  | _ => cases closed

/-- Only a SET_CLUSTER tells anyone to unlink. -/
theorem processMessage_unlinks {sent : Envelope} {accepted : Bool}
    (member : .send clientId sent accepted ∈ (b.processMessage env senderId isFromPeer m).events)
    (unlink : sent.header.handlerKey = Keys.unlink) :
    isFromPeer = false ∧ env.header.handlerKey = Keys.setCluster ∧
      .send clientId sent accepted ∈ (handleSetCluster env.payload m
        (touch senderId m.now { b with totalMessages := b.totalMessages + 1 })).events := by
  generalize sends : Output.send clientId sent accepted = output at member
  cases processMessage_reports member with
  | checked id duplicate => cases sends
  | noted reserved => cases sends
  | greeted fromClient unknown unled =>
    obtain ⟨-,rfl,-⟩ := Output.send.inj sends
    exact absurd unlink (by rw [Wire.makeControl_key]; decide)
  | acked =>
    obtain ⟨-,rfl,-⟩ := Output.send.inj sends
    exact absurd unlink (by rw [Wire.makeControl_key]; decide)
  | routed published fresh shown =>
    rcases shown with rfl | ⟨_,_,rfl⟩ | ⟨_,_,rfl⟩
    · cases sends
    · rw [(Output.send.inj sends).2.1,stamp_key] at unlink
      simp [unlink,show Keys.isReservedKey Keys.unlink = true from rfl] at published
    · cases sends
  | swapped fromClient swap handled => exact ⟨fromClient,swap,sends ▸ handled⟩

/-- The message is on the tap, or sent to somebody. -/
def Shows (e : Envelope) (output : Output) : Prop :=
  output = .tap e ∨ ∃ clientId accepted, output = .send clientId e accepted

/-- An application message shows only when it was routed. -/
theorem shown_routed {output : Output} (member : output ∈ (b.processMessage env senderId isFromPeer m).events)
    (shows : Shows e output) (application : Keys.isReservedKey e.header.handlerKey = false) :
    e = b.stamp env m ∧ Keys.isReservedKey env.header.handlerKey = false ∧
      (b.seen.isDuplicate (b.stamp env m).header.messageUuid).2 = false := by
  have loud : ¬Silent output := by
    rcases shows with rfl | ⟨clientId,accepted,rfl⟩ <;> simp [Silent,application]
  cases processMessage_reports member with
  | checked id duplicate => simp [Shows] at shows
  | routed published fresh shown =>
    refine ⟨?_,published,fresh⟩
    rcases shown with rfl | ⟨_,_,rfl⟩ | ⟨_,_,rfl⟩
    · simpa [Shows,eq_comm] using shows
    · simpa [Shows,eq_comm] using shows
    · simp [Shows] at shows
  | noted reserved => exact (loud (by simpa [Silent] using reserved)).elim
  | greeted fromClient unknown unled => exact (loud rfl).elim
  | acked => exact (loud rfl).elim
  | swapped fromClient swap handled => exact (loud (handleSetCluster_silent _ _ _ _ handled)).elim

theorem routed_tapped (published : Keys.isReservedKey env.header.handlerKey = false)
    (fresh : (b.seen.isDuplicate (b.stamp env m).header.messageUuid).2 = false) :
    .tap (b.stamp env m) ∈ (b.processMessage env senderId isFromPeer m).events := by
  rw [processMessage_routed env senderId isFromPeer m b published fresh]
  simp

/-- A routed message is sent to its recipients, and to nobody else. -/
theorem routed_sends (consistent : b.subscriptions.Consistent)
    (published : Keys.isReservedKey env.header.handlerKey = false)
    (fresh : (b.seen.isDuplicate (b.stamp env m).header.messageUuid).2 = false) (accepted : Bool) :
    .send clientId (b.stamp env m) accepted ∈ (b.processMessage env senderId isFromPeer m).events ↔
      accepted = m.accepts clientId (b.stamp env m) ∧ (isFromPeer = true ∨ clientId ≠ senderId) ∧
        clientId ∈ b.clients ∧ Wants b.subscriptions clientId env.header.topic (!isFromPeer) := by
  have same := ready_routing env senderId isFromPeer m b
  have still : (b.ready env senderId isFromPeer m).subscriptions.Consistent := by rwa [same]
  have served : clientId ∈ (b.ready env senderId isFromPeer m).recipients env.header.topic senderId isFromPeer ↔
      (isFromPeer = true ∨ clientId ≠ senderId) ∧ clientId ∈ b.clients ∧
        Wants b.subscriptions clientId env.header.topic (!isFromPeer) := by
    rw [mem_recipients still,ready_clients,same]
    refine and_congr_right fun echo => and_congr_left fun _ => ?_
    rcases echo with peer | other
    · simp [peer]
    · simp [other]
  rw [processMessage_routed env senderId isFromPeer m b published fresh,← served]
  simp only [List.mem_cons,reduceCtorEq,false_or,List.mem_append]
  constructor
  · rintro ((greeted | sent) | flooded)
    · split at greeted
      · cases greeted
      · have silent := greet_silent _ _ _ _ _ greeted
        simp [Silent,published] at silent
    · obtain ⟨other,member,send⟩ := List.mem_map.mp sent
      obtain ⟨rfl,_,rfl⟩ := Output.send.inj send
      exact ⟨rfl,by simpa using member⟩
    · simp [floodPeers] at flooded
  · rintro ⟨rfl,member⟩
    exact .inl (.inr (List.mem_map.mpr ⟨clientId,by simpa using member,rfl⟩))

end

end Broker

end Wisp
