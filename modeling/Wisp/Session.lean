import Wisp.Delivery
import Wisp.LinkQueues

/-! What a broker does for the session behind one identity, and when the session of
a link is in order: the remote holds what the link's messages built, accepts traffic
of every origin for it, and has not asked it to start over. -/
namespace Wisp

open Transition

namespace Broker

theorem turn_subscribe (sender senderId : Str) {topic : Str} {r : Routing} (fits : Routing.TopicFits topic)
    (room : r.canSubscribe senderId topic = true) :
    turn (Wire.makeControl Keys.subscribe sender topic) senderId r = r.subscribe senderId topic .any := by
  have remains : Keys.subscribe ≠ Keys.disconnect := by decide
  simp [turn,remains,fits.1,fits.2,room,decodeSubscribeScope]

theorem turn_unsubscribe (sender senderId topic : Str) (r : Routing) :
    turn (Wire.makeControl Keys.unsubscribe sender topic) senderId r = r.unsubscribe senderId topic := by
  have remains : Keys.unsubscribe ≠ Keys.disconnect := by decide
  have other : Keys.unsubscribe ≠ Keys.subscribe := by decide
  simp [turn,remains,other]

theorem turn_scopes_other (env : Envelope) {senderId other : Str} (different : other ≠ senderId) (r : Routing)
    (topic : Str) : (turn env senderId r).subscriptions.scopeOf other topic =
      r.subscriptions.scopeOf other topic := by
  unfold turn
  dsimp only
  split_ifs
  · simp [Routing.removeClient_scopes,different]
  · simp [Routing.subscribe_scopes,different]
  · rfl
  · simp [Routing.unsubscribe_scopes,different]
  · rfl

/-- Only a SUBSCRIBE of its own gives an identity a subscription. -/
theorem turn_scopes_none {env : Envelope} {senderId other : Str}
    (silent : other = senderId → env.header.handlerKey ≠ Keys.subscribe) {r : Routing} {topic : Str}
    (free : r.subscriptions.scopeOf other topic = none) :
    (turn env senderId r).subscriptions.scopeOf other topic = none := by
  unfold turn
  dsimp only
  split_ifs with leaves adds
  · simp [Routing.removeClient_scopes,free]
  · rw [Routing.subscribe_scopes,if_neg,free]
    exact fun here => silent here.1 adds
  · exact free
  · simp [Routing.unsubscribe_scopes,free]
  · exact free

/-- The message changes no subscription. -/
structure Idle (env : Envelope) : Prop where
  stays : env.header.handlerKey ≠ Keys.disconnect
  adds : env.header.handlerKey ≠ Keys.subscribe
  drops : env.header.handlerKey ≠ Keys.unsubscribe

theorem idle_published (published : Keys.isReservedKey env.header.handlerKey = false) : Idle env := by
  have other (key : Str) (reserved : Keys.isReservedKey key = true) : env.header.handlerKey ≠ key := by
    rintro rfl
    simp [reserved] at published
  exact ⟨other _ rfl,other _ rfl,other _ rfl⟩

theorem idle_heartbeat (linkId : Str) : Idle (Wire.makeControl Keys.heartbeat linkId []) := by
  refine ⟨?_,?_,?_⟩ <;> rw [Wire.makeControl_key] <;> decide

/-- Every identity that holds a subscription has a session. -/
def Known (b : Broker) : Prop :=
  ∀ clientId topic, b.subscriptions.scopeOf clientId topic ≠ none → clientId ∈ b.clients

section

variable {env : Envelope} {senderId other : Str} {isFromPeer : Bool} {m : Moment} {b : Broker}
  (stays : isFromPeer = true ∨ env.header.handlerKey ≠ Keys.setCluster)

theorem processMessage_peer_routing (reserved : Keys.isReservedKey env.header.handlerKey = true) :
    (b.processMessage env senderId true m).state.toRouting = b.toRouting ∧
      (b.processMessage env senderId true m).state.clients = b.clients := by
  rw [processMessage_peer_reserved env senderId m b reserved]
  exact ⟨rfl,rfl⟩

include stays

theorem processMessage_scopes_other (different : isFromPeer = true ∨ other ≠ senderId) (topic : Str) :
    (b.processMessage env senderId isFromPeer m).state.subscriptions.scopeOf other topic =
      b.subscriptions.scopeOf other topic := by
  cases reserved : Keys.isReservedKey env.header.handlerKey with
  | false =>
    rw [published_routing env senderId isFromPeer m b reserved]
    rfl
  | true =>
    cases isFromPeer with
    | true => rw [(processMessage_peer_routing reserved).1]
    | false =>
      simp only [Bool.false_eq_true,false_or] at stays different
      rw [reserved_routing env senderId m b reserved stays]
      exact turn_scopes_other env different b.toRouting topic

theorem processMessage_scopes_idle (idle : Idle env) (topic : Str) :
    (b.processMessage env senderId isFromPeer m).state.subscriptions.scopeOf other topic =
      b.subscriptions.scopeOf other topic := by
  cases reserved : Keys.isReservedKey env.header.handlerKey with
  | false =>
    rw [published_routing env senderId isFromPeer m b reserved]
    rfl
  | true =>
    cases isFromPeer with
    | true => rw [(processMessage_peer_routing reserved).1]
    | false =>
      simp only [Bool.false_eq_true,false_or] at stays
      rw [reserved_routing env senderId m b reserved stays,turn_other env senderId _ idle.stays idle.adds idle.drops]

theorem processMessage_clients_keep (known : other ∈ b.clients)
    (remains : isFromPeer = true ∨ other ≠ senderId ∨ env.header.handlerKey ≠ Keys.disconnect) :
    other ∈ (b.processMessage env senderId isFromPeer m).state.clients := by
  cases reserved : Keys.isReservedKey env.header.handlerKey with
  | false => exact published_clients env senderId isFromPeer m b reserved other known
  | true =>
    cases isFromPeer with
    | true => rwa [(processMessage_peer_routing reserved).2]
    | false =>
      simp only [Bool.false_eq_true,false_or] at stays remains
      rw [reserved_clients env senderId m b reserved stays]
      split
      next leaves => exact ⟨remains.resolve_right (not_not.mpr leaves),known⟩
      · exact .inr known

theorem processMessage_known (known : Known b) : Known (b.processMessage env senderId isFromPeer m).state := by
  intro clientId topic held
  cases reserved : Keys.isReservedKey env.header.handlerKey with
  | false =>
    rw [published_routing env senderId isFromPeer m b reserved] at held
    exact published_clients env senderId isFromPeer m b reserved clientId (known clientId topic held)
  | true =>
    cases isFromPeer with
    | true =>
      rw [(processMessage_peer_routing reserved).1] at held
      rw [(processMessage_peer_routing reserved).2]
      exact known clientId topic held
    | false =>
      simp only [Bool.false_eq_true,false_or] at stays
      rw [reserved_routing env senderId m b reserved stays] at held
      rw [reserved_clients env senderId m b reserved stays]
      split
      next leaves =>
        rw [turn,if_pos leaves,Routing.removeClient_scopes] at held
        split at held
        · exact absurd rfl held
        next other => exact ⟨other,known clientId topic held⟩
      · by_cases same : clientId = senderId
        · exact .inl same
        · rw [turn_scopes_other env same] at held
          exact .inr (known clientId topic held)

theorem processMessage_open (link : PeerLink) :
    .closed link ∉ (b.processMessage env senderId isFromPeer m).events := by
  intro member
  generalize closed : Output.closed link = output at member
  cases processMessage_reports member with
  | routed published fresh shown => rcases shown with rfl | ⟨_,_,rfl⟩ | ⟨_,_,rfl⟩ <;> cases closed
  | swapped fromClient swap handled => exact stays.elim (by simp [fromClient]) fun other => other swap
  | _ => cases closed

/-- A session in place is neither reset nor unlinked. -/
theorem processMessage_polite {sent : Envelope} {accepted : Bool}
    (member : .send other sent accepted ∈ (b.processMessage env senderId isFromPeer m).events)
    (known : isFromPeer = true ∨ other ≠ senderId ∨ other ∈ b.clients ∨ env.header.handlerKey = Keys.connect) :
    sent.header.handlerKey ≠ Keys.reset ∧ sent.header.handlerKey ≠ Keys.unlink := by
  generalize sends : Output.send other sent accepted = output at member
  cases processMessage_reports member with
  | checked id duplicate => cases sends
  | routed published fresh shown =>
    have application : sent.header.handlerKey = env.header.handlerKey := by
      rcases shown with rfl | ⟨_,_,rfl⟩ | ⟨_,_,rfl⟩
      · cases sends
      · rw [(Output.send.inj sends).2.1,stamp_key]
      · cases sends
    rw [application]
    constructor
    · intro same
      simp [same,show Keys.isReservedKey Keys.reset = true from rfl] at published
    · intro same
      simp [same,show Keys.isReservedKey Keys.unlink = true from rfl] at published
  | noted reserved => cases sends
  | greeted fromClient unknown unled =>
    obtain ⟨rfl,-⟩ := Output.send.inj sends
    rcases known with peer | different | session | connects
    · simp [fromClient] at peer
    · exact (different rfl).elim
    · exact (unknown session).elim
    · exact (unled connects).elim
  | acked =>
    obtain ⟨-,rfl,-⟩ := Output.send.inj sends
    rw [Wire.makeControl_key]
    decide
  | swapped fromClient swap handled => exact (stays.elim (by simp [fromClient]) fun other => other swap).elim

end

/-- What the remote holds for a link once it processed the link's next message. -/
theorem control_held {message : Control} {linkId : Str} {m : Moment} {b : Broker}
    (sendable : message = .connect ∨ message.Pushed)
    (small : (b.subscriptions.held linkId).card ≤ maxInterestTopics + 2) :
    let b' := (b.processMessage (message.envelope linkId) linkId false m).state
    b'.subscriptions.held linkId = EditLog.replay (b.subscriptions.held linkId) (Control.edits [message]) ∧
      ∀ topic scope, b'.subscriptions.scopeOf linkId topic = some scope →
        scope = .any ∨ b.subscriptions.scopeOf linkId topic = some scope := by
  intro b'
  have turned {key topic : Str} (reserved : Keys.isReservedKey key = true) (stays : key ≠ Keys.setCluster) :
      (b.processMessage (Wire.makeControl key linkId topic) linkId false m).state.toRouting =
        turn (Wire.makeControl key linkId topic) linkId b.toRouting :=
    reserved_routing _ linkId m b reserved stays
  cases message with
  | connect =>
    have same : b'.toRouting = b.toRouting := by
      refine (turned rfl (by decide)).trans (turn_other _ _ _ ?_ ?_ ?_) <;> rw [Wire.makeControl_key] <;> decide
    rw [same]
    exact ⟨rfl,fun _ _ => .inr⟩
  | subscribe topic =>
    have fits : Routing.TopicFits topic := sendable.resolve_left (by simp)
    have room := Routing.canSubscribe_of_small b.toRouting linkId topic small
    have same : b'.toRouting = b.toRouting.subscribe linkId topic .any :=
      (turned rfl (by decide)).trans (turn_subscribe _ _ fits room)
    rw [same]
    constructor
    · ext t
      simp only [SubscriptionRegistry.mem_held,Routing.subscribe_scopes,Control.edits_subscribe,
        Control.edits_nil,EditLog.replay_cons,EditLog.replay_nil,EditLog.Edit.apply,Finset.mem_insert]
      by_cases here : t = topic <;> simp [here]
    · intro t scope held
      rw [Routing.subscribe_scopes] at held
      split at held
      · exact .inl (Option.some.inj held).symm
      · exact .inr held
  | unsubscribe topic =>
    have same : b'.toRouting = b.toRouting.unsubscribe linkId topic :=
      (turned rfl (by decide)).trans (turn_unsubscribe _ _ _ _)
    rw [same]
    constructor
    · ext t
      simp only [SubscriptionRegistry.mem_held,Routing.unsubscribe_scopes,Control.edits_unsubscribe,
        Control.edits_nil,EditLog.replay_cons,EditLog.replay_nil,EditLog.Edit.apply,Finset.mem_erase]
      by_cases here : t = topic <;> simp [here]
    · intro t scope held
      rw [Routing.unsubscribe_scopes] at held
      split at held
      · cases held
      · exact .inr held
  | disconnect brokerId => exact (sendable.resolve_left (by simp)).elim

end Broker

/-- The remote's side of a link. -/
structure View where
  held : Finset Str
  everyOrigin : Prop
  known : Prop
  pipe : List Envelope

/-- The later view takes nothing from the session, and asks nothing of it. -/
structure View.Follows (view later : View) : Prop where
  held : later.held = view.held
  everyOrigin : view.everyOrigin → later.everyOrigin
  known : view.known → later.known
  pipe : ∀ env ∈ later.pipe, env ∈ view.pipe ∨
    env.header.handlerKey ≠ Keys.reset ∧ env.header.handlerKey ≠ Keys.unlink

theorem View.Follows.refl (view : View) : view.Follows view := ⟨rfl,id,id,fun _ => .inl⟩

structure Attended (view : View) (link : PeerLink) : Prop where
  everyOrigin : view.everyOrigin
  connected : .connect ∉ link.control → view.known
  unreset : ∀ env ∈ view.pipe, env.header.handlerKey ≠ Keys.reset ∧ env.header.handlerKey ≠ Keys.unlink
  active : link.active = true

theorem Attended.follow {view later : View} (attended : Attended view link) (follows : view.Follows later) :
    Attended later link :=
  ⟨follows.everyOrigin attended.everyOrigin,fun led => follows.known (attended.connected led),
    fun env member => (follows.pipe env member).elim (attended.unreset env) id,attended.active⟩

/-- A link's session, given what the dialing broker wants. -/
structure Session (interest : Interest) (view : View) (link : PeerLink) : Prop extends Attended view link where
  mirrored : interest.Mirrored view.held link.control

theorem Session.follow {view later : View} (session : Session interest view link) (follows : view.Follows later) :
    Session interest later link :=
  ⟨session.toAttended.follow follows,follows.held ▸ session.mirrored⟩

/-- Every link of the broker is in order, given the remotes' views by address and identity. -/
def Sessions (view : Str → Str → View) (r : Routing) : Prop :=
  ∀ link ∈ r.peers, Session r.interest (view link.address link.linkId) link

theorem sessions_iff (view : Str → Str → View) (r : Routing) : Sessions view r ↔
    r.Mirrors (fun address linkId => (view address linkId).held) ∧
      ∀ link ∈ r.peers, Attended (view link.address link.linkId) link :=
  ⟨fun sessions => ⟨fun link member => (sessions link member).mirrored,
    fun link member => (sessions link member).toAttended⟩,
    fun both link member => ⟨both.2 link member,both.1 link member⟩⟩

theorem sessions_closed (view : Str → Str → View) : Routing.Closed (Sessions view) := by
  have attended : Routing.Closed fun r => ∀ link ∈ r.peers, Attended (view link.address link.linkId) link := by
    refine Routing.everyLink_closed _ (fun link messages attended => ?_) fun link traffic attended => ?_
    · exact ⟨attended.everyOrigin,fun led => attended.connected fun member =>
        led (List.mem_append.mpr (.inl member)),attended.unreset,attended.active⟩
    · exact ⟨attended.everyOrigin,attended.connected,attended.unreset,attended.active⟩
  have both := (Routing.mirrors_closed fun address linkId => (view address linkId).held).and attended
  rwa [← show Sessions view = _ from funext fun r => propext (sessions_iff view r)] at both

end Wisp
