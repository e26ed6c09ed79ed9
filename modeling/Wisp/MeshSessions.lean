import Wisp.Mesh
import Wisp.Session

/-! A mesh in its ordinary running: clients come, subscribe and go, brokers dial and
queues move, but no cluster is swapped, no link is dropped and no link's session
times out. Every link's session then stays in order: what its remote holds and what
is still queued for it add up to what the dialing broker wants. -/
namespace Wisp

open Transition

/-- The same link, whatever its queues hold. -/
structure Named (link old : PeerLink) : Prop where
  key : link.key = old.key
  address : link.address = old.address
  linkId : link.linkId = old.linkId

theorem Named.refl (link : PeerLink) : Named link link := ⟨rfl,rfl,rfl⟩

theorem named_closed (base : List PeerLink) :
    Routing.Closed fun r => ∀ link ∈ r.peers, ∃ old ∈ base, Named link old :=
  Routing.everyLink_closed _
    (fun _ _ ⟨old,listed,named⟩ => ⟨old,listed,named.key,named.address,named.linkId⟩)
    fun _ _ ⟨old,listed,named⟩ => ⟨old,listed,named.key,named.address,named.linkId⟩

theorem named_mapLink {r : Routing} {key : Str} {f : PeerLink → PeerLink}
    (shrinks : ∀ link, Routing.Shrinks link (f link)) {link : PeerLink} (member : link ∈ (r.mapLink key f).peers) :
    ∃ old ∈ r.peers, Named link old ∧ link = if old.key = key then f old else old := by
  obtain ⟨old,listed,rfl⟩ := List.mem_map.mp member
  refine ⟨old,listed,?_,rfl⟩
  split
  · exact ⟨(shrinks old).key,(shrinks old).address,(shrinks old).linkId⟩
  · exact .refl old

namespace Mesh

variable {n : Nat} {locate : Str → Option (Fin n)} {s s' : Mesh n}

def viewAt (s : Mesh n) (k : Fin n) (identity : Str) : View where
  held := (s.broker k).subscriptions.held identity
  everyOrigin := ∀ topic scope, (s.broker k).subscriptions.scopeOf identity topic = some scope → scope = .any
  known := identity ∈ (s.broker k).clients
  pipe := s.pipe k identity

/-- The view of the remote at an address; nobody is there to object at an address without a broker. -/
def view (locate : Str → Option (Fin n)) (s : Mesh n) (address identity : Str) : View :=
  match locate address with
  | none => ⟨∅,True,True,[]⟩
  | some k => s.viewAt k identity

theorem view_located {address : Str} {k : Fin n} (located : locate address = some k) (identity : Str) :
    s.view locate address identity = s.viewAt k identity := by
  simp [view,located]

theorem view_follows {address identity : Str}
    (follows : ∀ k, locate address = some k → (s.viewAt k identity).Follows (s'.viewAt k identity)) :
    (s.view locate address identity).Follows (s'.view locate address identity) := by
  unfold view
  cases located : locate address with
  | none => exact .refl _
  | some k => exact follows k located

/-- No two links use one identity at one broker. -/
def Apart (locate : Str → Option (Fin n)) (s : Mesh n) : Prop :=
  ∀ i, ∀ link ∈ (s.broker i).peers, ∀ j, ∀ other ∈ (s.broker j).peers, ∀ k,
    locate link.address = some k → locate other.address = some k → link.linkId = other.linkId →
      i = j ∧ link.key = other.key

theorem Apart.named (apart : Apart locate s)
    (names : ∀ j, ∀ link ∈ (s'.broker j).peers, ∃ old ∈ (s.broker j).peers, Named link old) :
    Apart locate s' := by
  intro i link member j other member' k target target' same
  obtain ⟨old,listed,named⟩ := names i link member
  obtain ⟨old',listed',named'⟩ := names j other member'
  rw [named.key,named'.key]
  refine apart i old listed j old' listed' k ?_ ?_ ?_
  · rwa [← named.address]
  · rwa [← named'.address]
  · rw [← named.linkId,same,named'.linkId]

/-- What each broker keeps, and what keeps the links from being confused. -/
structure Framed (locate : Str → Option (Fin n)) (s : Mesh n) : Prop where
  valid : ∀ i, (s.broker i).toRouting.Valid
  queued : ∀ i, (s.broker i).toRouting.Queued
  known : ∀ i, (s.broker i).Known
  closing : s.closing = []
  apart : Apart locate s

structure Sound (locate : Str → Option (Fin n)) (s : Mesh n) : Prop extends Framed locate s where
  sessions : ∀ i, Sessions (s.view locate) (s.broker i).toRouting

theorem Initial.sound (initial : Initial s) : Sound locate s := by
  have none (i : Fin n) : (s.broker i).peers = [] := by rw [initial.routing i]; rfl
  refine ⟨⟨initial.valid,fun i => ?_,fun i clientId topic held => ?_,initial.closing,?_⟩,?_⟩
  · rw [initial.routing i]
    exact Routing.empty_queued
  · rw [initial.routing i] at held
    exact absurd rfl held
  · intro i link member
    simp [none i] at member
  · intro i link member
    simp [none i] at member

theorem link_unique (framed : Framed locate s) {i : Fin n} {key : Str} {link other : PeerLink}
    (found : s.linkOf i key = some link) (listed : other ∈ (s.broker i).peers) (same : other.key = key) :
    other = link := by
  have member := List.mem_of_find?_eq_some found
  have named : link.key = key := by simpa using List.find?_some found
  exact List.inj_on_of_nodup_map (framed.queued i).distinct listed member (same.trans named.symm)

theorem Framed.joins (framed : Framed locate s) {i k : Fin n} {link : PeerLink} (member : link ∈ (s.broker i).peers)
    (located : locate link.address = some k) : s.Joins locate i link.key link k := by
  have some : (s.linkOf i link.key).isSome := List.find?_isSome.mpr ⟨link,member,beq_self_eq_true link.key⟩
  obtain ⟨first,found⟩ := Option.isSome_iff_exists.mp some
  exact ⟨by rw [found,link_unique framed found member rfl],located⟩

section

variable {k : Fin n} {env : Envelope} {senderId : Str} {isFromPeer : Bool} {m : Moment}
  (stays : isFromPeer = true ∨ env.header.handlerKey ≠ Keys.setCluster)

include stays

theorem Framed.arrive (framed : Framed locate s) :
    Framed locate (s.arrive k env senderId isFromPeer m).state where
  valid _ := arrive_closed Routing.valid_upheld.toClosed framed.valid
  queued _ := arrive_closed Routing.queued_upheld.toClosed framed.queued
  known _ := absorb_all Broker.Known framed.known (Broker.processMessage_known stays (framed.known k))
  closing := by
    have none : closedBy ((s.broker k).processMessage env senderId isFromPeer m).events = [] :=
      List.eq_nil_iff_forall_not_mem.mpr fun link member =>
        Broker.processMessage_open stays link (mem_closedBy.mp member)
    simp [Mesh.arrive,absorb,none,framed.closing]
  apart := by
    refine framed.apart.named fun j => ?_
    exact arrive_each (fun j r => ∀ link ∈ r.peers, ∃ old ∈ (s.broker j).peers, Named link old)
      (fun j => named_closed _) fun j link member => ⟨link,member,.refl link⟩

/-- A message changes nothing for a session that is not its sender's, and for its
sender's when it is not about subscriptions. -/
theorem arrive_follows {j : Fin n} {identity : Str}
    (safe : j = k → (isFromPeer = true ∨ identity ≠ senderId) ∨
      identity ∈ (s.broker k).clients ∧ Broker.Idle env) :
    (s.viewAt j identity).Follows ((s.arrive k env senderId isFromPeer m).state.viewAt j identity) := by
  by_cases here : j = k
  · subst here
    have scopes (topic : Str) : ((s.broker j).processMessage env senderId isFromPeer m).state.subscriptions.scopeOf
        identity topic = (s.broker j).subscriptions.scopeOf identity topic := by
      rcases safe rfl with different | ⟨-,idle⟩
      · exact Broker.processMessage_scopes_other stays different topic
      · exact Broker.processMessage_scopes_idle stays idle topic
    have after : (s.arrive j env senderId isFromPeer m).state.broker j =
        ((s.broker j).processMessage env senderId isFromPeer m).state := by simp [arrive,absorb]
    refine ⟨?_,?_,?_,?_⟩
    · simp only [viewAt,after]
      exact SubscriptionRegistry.held_congr scopes
    · simp only [viewAt,after,scopes]
      exact id
    · simp only [viewAt,after]
      refine fun known => Broker.processMessage_clients_keep stays known ?_
      rcases safe rfl with (peer | different) | ⟨-,idle⟩
      · exact .inl peer
      · exact .inr (.inl different)
      · exact .inr (.inr idle.stays)
    · intro sent member
      simp only [viewAt,arrive,absorb,if_true,List.mem_append] at member
      rcases member with old | new
      · exact .inl old
      · refine .inr (Broker.processMessage_polite stays (mem_sentTo.mp new) ?_)
        rcases safe rfl with (peer | different) | ⟨session,-⟩
        · exact .inl peer
        · exact .inr (.inl different)
        · exact .inr (.inr (.inl session))
  · refine ⟨?_,?_,?_,?_⟩ <;> simp [viewAt,arrive,absorb,here]
    exact fun env => .inl

theorem Sound.arrive (sound : Sound locate s)
    (safe : ∀ i, ∀ link ∈ (s.broker i).peers, locate link.address = some k →
      (isFromPeer = true ∨ link.linkId ≠ senderId) ∨
        link.linkId ∈ (s.broker k).clients ∧ Broker.Idle env) :
    Sound locate (s.arrive k env senderId isFromPeer m).state := by
  refine ⟨sound.toFramed.arrive stays,fun j => ?_⟩
  refine arrive_closed (sessions_closed _) fun i link member => ?_
  refine (sound.sessions i link member).follow (view_follows fun j located => ?_)
  refine arrive_follows stays ?_
  rintro rfl
  exact safe i link member located

end

theorem setBroker_names {i : Fin n} {b : Broker}
    (names : ∀ link ∈ b.peers, ∃ old ∈ (s.broker i).peers, Named link old) (j : Fin n) :
    ∀ link ∈ ((s.setBroker i b).broker j).peers, ∃ old ∈ (s.broker j).peers, Named link old := by
  intro link member
  by_cases here : j = i
  · subst here
    simp only [setBroker,Function.update_self] at member
    exact names link member
  · simp only [setBroker,Function.update_of_ne here] at member
    exact ⟨link,member,.refl link⟩

theorem Framed.setBroker (framed : Framed locate s) {i : Fin n} {b : Broker} (valid : b.toRouting.Valid)
    (queued : b.toRouting.Queued) (known : b.Known)
    (names : ∀ link ∈ b.peers, ∃ old ∈ (s.broker i).peers, Named link old) :
    Framed locate (s.setBroker i b) :=
  ⟨fun _ => setBroker_all (fun b => b.toRouting.Valid) framed.valid valid,
    fun _ => setBroker_all (fun b => b.toRouting.Queued) framed.queued queued,
    fun _ => setBroker_all Broker.Known framed.known known,framed.closing,
    framed.apart.named (setBroker_names names)⟩

theorem setBroker_viewAt {i : Fin n} {b : Broker} (subscriptions : b.subscriptions = (s.broker i).subscriptions)
    (clients : b.clients = (s.broker i).clients) (k : Fin n) (identity : Str) :
    (s.setBroker i b).viewAt k identity = s.viewAt k identity := by
  unfold viewAt setBroker
  by_cases here : k = i
  · subst here
    simp [subscriptions,clients]
  · simp [here]

/-- A change that the sessions do not depend on: traffic taken from a queue, or a
part of the broker other than its routing. -/
structure Unseen (b b' : Broker) : Prop where
  subscriptions : b'.subscriptions = b.subscriptions
  interest : b'.interest = b.interest
  clients : b'.clients = b.clients
  links : ∀ link ∈ b'.peers, ∃ old ∈ b.peers,
    Named link old ∧ link.control = old.control ∧ link.active = old.active
  queued : b.toRouting.Queued → b'.toRouting.Queued

theorem Unseen.of_routing {b b' : Broker} (routing : b'.toRouting = b.toRouting) (clients : b'.clients = b.clients) :
    Unseen b b' :=
  ⟨by rw [routing],by rw [routing],clients,fun link member => ⟨link,routing ▸ member,.refl link,rfl,rfl⟩,
    fun queued => routing ▸ queued⟩

theorem Unseen.inbound (b : Broker) (inbound : List Envelope) : Unseen b { b with inbound } := .of_routing rfl rfl

theorem Unseen.discovery (b : Broker) (discovery : Option Discovery) : Unseen b { b with discovery } :=
  .of_routing rfl rfl

theorem Unseen.popEncoded (b : Broker) (key : Str) : Unseen b (b.mapLink key PeerLink.popEncoded) := by
  refine ⟨rfl,rfl,rfl,fun link member => ?_,Routing.queued_upheld.mapLink _ _ _ PeerLink.popEncoded_shrinks⟩
  obtain ⟨old,listed,named,rfl⟩ := named_mapLink PeerLink.popEncoded_shrinks member
  refine ⟨old,listed,named,?_,?_⟩ <;> split <;> rfl

theorem Sound.setBroker (sound : Sound locate s) {i : Fin n} {b : Broker} (unseen : Unseen (s.broker i) b) :
    Sound locate (s.setBroker i b) := by
  have valid := sound.valid i
  refine ⟨sound.toFramed.setBroker ?_ (unseen.queued (sound.queued i)) ?_ ?_,fun j link member => ?_⟩
  · refine ⟨unseen.subscriptions ▸ valid.consistent,?_⟩
    rw [unseen.interest,unseen.subscriptions]
    exact valid.tracks
  · intro clientId topic held
    rw [unseen.subscriptions] at held
    rw [unseen.clients]
    exact sound.known i clientId topic held
  · intro link member
    obtain ⟨old,listed,named,-⟩ := unseen.links link member
    exact ⟨old,listed,named⟩
  · have same (k : Fin n) (identity : Str) := setBroker_viewAt (s := s) unseen.subscriptions unseen.clients k identity
    have views (address identity : Str) :
        (s.setBroker i b).view locate address identity = s.view locate address identity := by
      unfold view
      split
      · rfl
      · exact same _ _
    rw [views]
    by_cases here : j = i
    · subst here
      simp only [Mesh.setBroker,Function.update_self] at member ⊢
      obtain ⟨old,listed,named,control,active⟩ := unseen.links link member
      have session := sound.sessions j old listed
      rw [unseen.interest,named.address,named.linkId]
      exact ⟨⟨session.everyOrigin,control ▸ session.connected,session.unreset,active ▸ session.active⟩,
        control ▸ session.mirrored⟩
    · simp only [Mesh.setBroker,Function.update_of_ne here] at member ⊢
      exact sound.sessions j link member

theorem Framed.popControl (framed : Framed locate s) (i : Fin n) (key : Str) :
    Framed locate (s.setBroker i ((s.broker i).mapLink key PeerLink.popControl)) := by
  refine framed.setBroker ?_ ?_ ?_ fun link member => ?_
  · exact Routing.valid_upheld.mapLink _ _ _ PeerLink.popControl_shrinks (framed.valid i)
  · exact Routing.queued_upheld.mapLink _ _ _ PeerLink.popControl_shrinks (framed.queued i)
  · intro clientId topic held
    exact framed.known i clientId topic held
  · obtain ⟨old,listed,named,-⟩ := named_mapLink PeerLink.popControl_shrinks member
    exact ⟨old,listed,named⟩

theorem popControl_viewAt (s : Mesh n) (i : Fin n) (key : Str) (j : Fin n) (identity : Str) :
    (s.setBroker i ((s.broker i).mapLink key PeerLink.popControl)).viewAt j identity = s.viewAt j identity :=
  setBroker_viewAt (b := (s.broker i).mapLink key PeerLink.popControl) rfl rfl j identity

/-- A remote's view of a link once it processed the link's next message. -/
theorem control_viewAt {k : Fin n} {identity : Str} {message : Control} {m : Moment}
    (sendable : message = .connect ∨ message.Pushed)
    (small : (s.viewAt k identity).held.card ≤ maxInterestTopics + 2)
    (attended : message = .connect ∨ (s.viewAt k identity).known) :
    let later := (s.arrive k (message.envelope identity) identity false m).state.viewAt k identity
    later.held = EditLog.replay (s.viewAt k identity).held (Control.edits [message]) ∧
      ((s.viewAt k identity).everyOrigin → later.everyOrigin) ∧ later.known ∧
      ∀ env ∈ later.pipe, env ∈ (s.viewAt k identity).pipe ∨
        env.header.handlerKey ≠ Keys.reset ∧ env.header.handlerKey ≠ Keys.unlink := by
  have after : (s.arrive k (message.envelope identity) identity false m).state.broker k =
      ((s.broker k).processMessage (message.envelope identity) identity false m).state := by simp [arrive,absorb]
  have stays : (message.envelope identity).header.handlerKey ≠ Keys.setCluster := by
    simpa using message.key_ne_setCluster
  have reserved : Keys.isReservedKey (message.envelope identity).header.handlerKey = true := by
    simpa using message.key_reserved
  obtain ⟨held,scopes⟩ := Broker.control_held (m := m) sendable small
  refine ⟨?_,fun every topic scope => ?_,?_,fun sent member => ?_⟩
  · simpa [viewAt,after] using held
  · rw [after]
    exact fun taken => (scopes topic scope taken).elim id (every topic scope)
  · simp only [viewAt,after]
    rw [Broker.reserved_clients _ identity m _ reserved stays,if_neg]
    · exact .inl rfl
    · intro leaves
      obtain ⟨brokerId,rfl⟩ := Control.key_disconnect (by simpa using leaves)
      exact sendable.resolve_left (by simp)
  · simp only [viewAt,arrive,absorb,if_true,List.mem_append] at member
    rcases member with old | new
    · exact .inl old
    · refine .inr (Broker.processMessage_polite (.inr stays) (mem_sentTo.mp new) (.inr (.inr ?_)))
      rcases attended with rfl | known
      · exact .inr rfl
      · exact .inl known

section

variable {i k : Fin n} {key : Str} {link : PeerLink} {message : Control} {m : Moment} (sound : Sound locate s)
  (joins : s.Joins locate i key link k) (head : link.control.head? = some message)

include sound joins head

theorem Sound.sendable : message = .connect ∨ message.Pushed :=
  ((sound.queued i).queues link (List.mem_of_find?_eq_some joins.found)).updates message
    (List.mem_of_mem_head? head)

theorem Sound.attended : message = .connect ∨ link.linkId ∈ (s.broker k).clients := by
  have listed := List.mem_of_find?_eq_some joins.found
  have leads := ((sound.queued i).queues link listed).leads
  refine or_iff_not_imp_left.mpr fun other => ?_
  have known := (sound.sessions i link listed).connected (by
    rw [List.eq_cons_of_mem_head? head]
    simpa [Ne.symm other] using leads)
  rwa [view_located joins.target] at known

/-- The session of the link whose next message its remote processed. -/
theorem Sound.delivered : Session (s.broker i).interest
    (((s.setBroker i ((s.broker i).mapLink key PeerLink.popControl)).arrive k (message.envelope link.linkId)
      link.linkId false m).state.viewAt k link.linkId) link.popControl := by
  have session := sound.sessions i link (List.mem_of_find?_eq_some joins.found)
  rw [view_located joins.target] at session
  have mirrored := session.mirrored
  rw [List.eq_cons_of_mem_head? head] at mirrored
  obtain ⟨held,every,known,pipe⟩ := control_viewAt (m := m)
    (s := s.setBroker i ((s.broker i).mapLink key PeerLink.popControl)) (sound.sendable joins head)
    (by rw [popControl_viewAt]; exact mirrored.small.start)
    (by rw [popControl_viewAt]; exact sound.attended joins head)
  rw [popControl_viewAt] at held every pipe
  refine ⟨⟨every session.everyOrigin,fun _ => known,fun env member => ?_,session.active⟩,?_⟩
  · exact (pipe env member).elim (session.unreset env) id
  · rw [held]
    exact mirrored.tail

/-- The next message of a link's queue, processed by its remote, keeps every session in order. -/
theorem Sound.control : Sound locate ((s.setBroker i ((s.broker i).mapLink key PeerLink.popControl)).arrive k
    (message.envelope link.linkId) link.linkId false m).state := by
  have stays : false = true ∨ (message.envelope link.linkId).header.handlerKey ≠ Keys.setCluster := by
    simpa using message.key_ne_setCluster
  have delivered := sound.delivered (m := m) joins head
  refine ⟨(sound.popControl i key).arrive stays,fun j => arrive_closed (sessions_closed _) fun j popped member => ?_⟩
  have listed := List.mem_of_find?_eq_some joins.found
  -- another link's session is not the sender's
  have other {old : PeerLink} (member : old ∈ (s.broker j).peers) (different : ¬(j = i ∧ old.key = link.key)) :
      Session (s.broker j).interest (((s.setBroker i ((s.broker i).mapLink key PeerLink.popControl)).arrive k
        (message.envelope link.linkId) link.linkId false m).state.view locate old.address old.linkId) old := by
    refine (sound.sessions j old member).follow (view_follows fun k' located => ?_)
    rw [← popControl_viewAt s i key]
    refine arrive_follows stays ?_
    rintro rfl
    refine .inl (.inr fun same => different ?_)
    exact sound.apart j old member i link listed k' located joins.target same
  have named : link.key = key := by simpa using List.find?_some joins.found
  by_cases here : j = i
  · subst here
    simp only [Mesh.setBroker,Function.update_self] at member ⊢
    obtain ⟨old,listed',-,rfl⟩ := named_mapLink PeerLink.popControl_shrinks member
    by_cases same : old.key = key
    · obtain rfl := link_unique sound.toFramed joins.found listed' same
      rw [if_pos same]
      have located : locate old.popControl.address = some k := joins.target
      rw [view_located located]
      exact delivered
    · rw [if_neg same]
      exact other listed' fun both => same (both.2.trans named)
  · simp only [Mesh.setBroker,Function.update_of_ne here] at member ⊢
    exact other member fun both => here both.1

end

/-- Messages taken from the pipes. -/
theorem Sound.drain (sound : Sound locate s) {pipe : Fin n → Str → List Envelope}
    (taken : ∀ k identity, pipe k identity ⊆ s.pipe k identity) : Sound locate { s with pipe } :=
  ⟨⟨sound.valid,sound.queued,sound.known,sound.closing,sound.apart⟩,fun i link member =>
    (sound.sessions i link member).follow (view_follows fun k _ =>
      ⟨rfl,id,id,fun _ listed => .inl (taken k link.linkId listed)⟩)⟩

theorem Sound.answer (sound : Sound locate s) {i k : Fin n} {key : Str} {link : PeerLink} {env : Envelope}
    {rest : List Envelope} (room : Bool) (joins : s.Joins locate i key link k)
    (queued : s.pipe k link.linkId = env :: rest) :
    Sound locate { s.setBroker i ((s.broker i).answered key env room) with
      pipe := fun j identity => if j = k ∧ identity = link.linkId then rest else s.pipe j identity } := by
  have session := sound.sessions i link (List.mem_of_find?_eq_some joins.found)
  rw [view_located joins.target] at session
  have polite := session.unreset env (by rw [viewAt,queued]; exact List.mem_cons_self)
  have unseen : Unseen (s.broker i) ((s.broker i).answered key env room) := by
    unfold Broker.answered
    simp only [polite.1,polite.2,if_false]
    refine .of_routing ?_ ?_ <;> split_ifs <;> rfl
  refine (sound.setBroker unseen).drain fun j identity => ?_
  split
  next here =>
    obtain ⟨rfl,rfl⟩ := here
    exact fun _ member => queued ▸ List.mem_cons_of_mem _ member
  · exact fun env member => member

/-- An ordinary client's session ends. -/
theorem Sound.timeout (sound : Sound locate s) {k : Fin n} {clientId : Str} (free : ¬s.Linked locate k clientId) :
    Sound locate (s.setBroker k ((s.broker k).removeClient clientId)) := by
  have follows {i : Fin n} {link : PeerLink} (member : link ∈ (s.broker i).peers) :
      (s.view locate link.address link.linkId).Follows ((s.setBroker k ((s.broker k).removeClient clientId)).view
        locate link.address link.linkId) := by
    refine view_follows fun k' located => ?_
    by_cases here : k' = k
    · subst here
      have different : link.linkId ≠ clientId := by
        rintro rfl
        exact free (.inl ⟨i,link,member,located,rfl⟩)
      have scopes (topic : Str) : ((s.broker k').removeClient clientId).subscriptions.scopeOf link.linkId topic =
          (s.broker k').subscriptions.scopeOf link.linkId topic := by
        simp [Routing.removeClient_scopes,different]
      refine ⟨?_,?_,?_,fun env => .inl⟩
      · simpa [viewAt,Mesh.setBroker] using SubscriptionRegistry.held_congr scopes
      · simp [viewAt,Mesh.setBroker,Routing.removeClient_scopes,different]
      · simpa [viewAt,Mesh.setBroker,Broker.removeClient,AList.mem_erase] using fun known => ⟨different,known⟩
    · refine ⟨?_,?_,?_,fun env => .inl⟩ <;> simp [viewAt,Mesh.setBroker,here]
  have still (i : Fin n) : Sessions ((s.setBroker k ((s.broker k).removeClient clientId)).view locate)
      (s.broker i).toRouting := fun link member => (sound.sessions i link member).follow (follows member)
  refine ⟨sound.toFramed.setBroker ?_ ?_ ?_ ?_,fun j => ?_⟩
  · exact Routing.valid_upheld.removeClient _ _ (sound.valid k)
  · exact Routing.queued_upheld.removeClient _ _ (sound.queued k)
  · intro other topic held
    simp only [Broker.removeClient_routing,Routing.removeClient_scopes] at held
    split at held
    · exact absurd rfl held
    next different => exact AList.mem_erase.mpr ⟨different,sound.known k other topic held⟩
  · exact (named_closed _).removeClient _ _ fun link member => ⟨link,member,.refl link⟩
  · exact setBroker_all (fun b => Sessions _ b.toRouting) still ((sessions_closed _).removeClient _ _ (still k))

/-- The link `addPeer` puts in the table. -/
def newLink (b : Broker) (key address : Str) : PeerLink :=
  ⟨key,address,peerLinkId b.brokerId key,.connect :: b.interest.sendInterestTo,[],true⟩

/-- The state with the new link in it. -/
def opened (locate : Str → Option (Fin n)) (s : Mesh n) (i : Fin n) (key address : Str) : Mesh n :=
  { s.setBroker i { s.broker i with peers := (s.broker i).peers ++ [newLink (s.broker i) key address] } with
    pipe := fun j identity => if locate address = some j ∧ identity = (newLink (s.broker i) key address).linkId then []
      else s.pipe j identity }

/-- The link's key and address are new to the dialing broker, and its identity to the dialed one. -/
structure Opens (locate : Str → Option (Fin n)) (s : Mesh n) (i : Fin n) (key address : Str) : Prop where
  unknown : ∀ link ∈ (s.broker i).peers, link.key ≠ key ∧ link.address ≠ address
  free : ∀ k, locate address = some k → ¬s.Linked locate k (newLink (s.broker i) key address).linkId
  sessionless : ∀ k, locate address = some k → (newLink (s.broker i) key address).linkId ∉ (s.broker k).clients

theorem dialed_cases (s : Mesh n) (i : Fin n) (key address : Str) : s.dialed locate i key address = s ∨
    Opens locate s i key address ∧ s.dialed locate i key address = s.opened locate i key address := by
  unfold dialed
  dsimp only
  split
  · exact .inl rfl
  next unknown =>
    simp only [List.any_eq_true,not_exists,not_and,Bool.or_eq_true,beq_iff_eq,not_or] at unknown
    rw [Routing.addPeer_unknown unknown]
    split
    next nowhere =>
      refine .inr ⟨⟨unknown,by simp [nowhere],by simp [nowhere]⟩,?_⟩
      simp [opened,nowhere,setBroker,newLink]
    next k located =>
      split
      · exact .inl rfl
      next fresh =>
        obtain ⟨free,sessionless⟩ := not_or.mp fresh
        refine .inr ⟨⟨unknown,?_,?_⟩,?_⟩
        · rintro _ same
          cases Option.some.inj (located.symm.trans same)
          exact free
        · rintro _ same
          cases Option.some.inj (located.symm.trans same)
          exact sessionless
        · simp only [opened,located,Option.some.injEq,eq_comm,newLink]

theorem mem_opened {i j : Fin n} {key address : Str} {link : PeerLink} :
    link ∈ ((s.opened locate i key address).broker j).peers ↔
      link ∈ (s.broker j).peers ∨ j = i ∧ link = newLink (s.broker i) key address := by
  by_cases here : j = i
  · subst here
    simp [opened,setBroker]
  · simp [opened,setBroker,here]

/-- Dialing changes nothing in a broker but its table of links. -/
theorem opened_broker (locate : Str → Option (Fin n)) (s : Mesh n) (i : Fin n) (key address : Str) (j : Fin n) :
    ((s.opened locate i key address).broker j).subscriptions = (s.broker j).subscriptions ∧
      ((s.opened locate i key address).broker j).interest = (s.broker j).interest ∧
      ((s.opened locate i key address).broker j).clients = (s.broker j).clients := by
  by_cases here : j = i
  · subst here
    simp [opened,setBroker]
  · simp [opened,setBroker,here]

theorem Opens.apart (opens : Opens locate s i key address) (apart : Apart locate s) :
    Apart locate (s.opened locate i key address) := by
  intro a link member b other member' k target target' same
  rcases mem_opened.mp member with old | ⟨rfl,rfl⟩ <;> rcases mem_opened.mp member' with old' | ⟨rfl,rfl⟩
  · exact apart a link old b other old' k target target' same
  · exact (opens.free k target' (.inl ⟨a,link,old,target,same⟩)).elim
  · exact (opens.free k target (.inl ⟨b,other,old',target',same.symm⟩)).elim
  · exact ⟨rfl,rfl⟩

/-- Nothing is known of the new identity at its remote. -/
theorem Opens.blank (opens : Opens locate s i key address) (known : ∀ k, (s.broker k).Known) :
    let view := (s.opened locate i key address).view locate address (newLink (s.broker i) key address).linkId
    view.held = ∅ ∧ view.everyOrigin ∧ view.pipe = [] := by
  unfold view
  cases located : locate address with
  | none => exact ⟨rfl,trivial,rfl⟩
  | some k =>
    obtain ⟨subscriptions,-,-⟩ := opened_broker locate s i key address k
    have free (topic : Str) :
        (s.broker k).subscriptions.scopeOf (newLink (s.broker i) key address).linkId topic = none :=
      not_not.mp fun held => opens.sessionless k located (known k _ topic held)
    refine ⟨?_,fun topic scope held => ?_,?_⟩
    · refine Finset.eq_empty_of_forall_notMem fun topic member => ?_
      simp only [viewAt,subscriptions] at member
      exact (SubscriptionRegistry.mem_held _ _ _).mp member (free topic)
    · rw [subscriptions,free] at held
      cases held
    · simp [viewAt,Mesh.opened,located]

theorem Sound.opened (sound : Sound locate s) {i : Fin n} {key address : Str} (opens : Opens locate s i key address) :
    Sound locate (s.opened locate i key address) := by
  refine ⟨⟨fun j => ?_,fun j => ?_,fun j => ?_,sound.closing,opens.apart sound.apart⟩,fun j link member => ?_⟩
  · obtain ⟨subscriptions,interest,-⟩ := opened_broker locate s i key address j
    exact ⟨subscriptions ▸ (sound.valid j).consistent,by rw [interest,subscriptions]; exact (sound.valid j).tracks⟩
  · have added := Routing.queued_upheld.addPeer _ (s.broker i).brokerId key address (sound.queued i)
    rw [Routing.addPeer_unknown opens.unknown] at added
    exact setBroker_all (fun b => b.toRouting.Queued) sound.queued added
  · obtain ⟨subscriptions,-,clients⟩ := opened_broker locate s i key address j
    rw [Broker.Known,subscriptions,clients]
    exact sound.known j
  · obtain ⟨-,interest,-⟩ := opened_broker locate s i key address j
    rw [interest]
    rcases mem_opened.mp member with old | ⟨rfl,rfl⟩
    · refine (sound.sessions j link old).follow (view_follows fun k _ => ?_)
      obtain ⟨subscriptions,-,clients⟩ := opened_broker locate s i key address k
      refine ⟨?_,?_,?_,fun env listed => .inl ?_⟩
      · simp [viewAt,subscriptions]
      · simp [viewAt,subscriptions]
      · simp [viewAt,clients]
      · simp only [viewAt,Mesh.opened] at listed ⊢
        split at listed
        · cases listed
        · exact listed
    · obtain ⟨held,every,pipe⟩ := opens.blank sound.known
      refine ⟨⟨every,fun led => absurd List.mem_cons_self led,fun env listed => ?_,rfl⟩,?_⟩
      · change env ∈ ((s.opened locate j key address).view locate address _).pipe at listed
        rw [pipe] at listed
        cases listed
      · change Interest.Mirrored _ ((s.opened locate j key address).view locate address _).held _
        rw [held]
        exact (s.broker j).interest.opened

theorem Sound.dialed (sound : Sound locate s) (i : Fin n) (key address : Str) :
    Sound locate (s.dialed locate i key address) := by
  rcases dialed_cases s i key address with same | ⟨opens,same⟩
  · rwa [same]
  · rw [same]
    exact sound.opened opens

/-- Ordinary running. -/
def Routine (locate : Str → Option (Fin n)) (s : Mesh n) : Label n → Prop
  | .client _ _ env _ => env.header.handlerKey ≠ Keys.setCluster
  | .timeout k clientId => ¬s.Linked locate k clientId
  | .expire _ _ => False
  | .hangup _ _ => False
  | _ => True

instance (label : Label n) : Decidable (Routine locate s label) :=
  match label with
  | .client _ _ _ _ => inferInstanceAs (Decidable (_ ≠ _))
  | .timeout _ _ => inferInstanceAs (Decidable (¬_))
  | .expire _ _ => isFalse id
  | .hangup _ _ => isFalse id
  | .control _ _ _ | .flooded _ _ _ | .answer _ _ _ | .inbound _ _ | .heartbeat _ _ _ | .dial _ _ _
  | .datagram _ _ _ _ | .closing _ _ => isTrue trivial

theorem Sound.connected (sound : Sound locate s) {i k : Fin n} {key : Str} {link : PeerLink}
    (joins : s.Joins locate i key link k) (led : .connect ∉ link.control) : link.linkId ∈ (s.broker k).clients := by
  have known := (sound.sessions i link (List.mem_of_find?_eq_some joins.found)).connected led
  rwa [view_located joins.target] at known

theorem step_sound (locate : Str → Option (Fin n)) (s : Mesh n) (label : Label n) (routine : Routine locate s label)
    (sound : Sound locate s) : Sound locate (step locate label s).state := by
  have effect := step_effect locate label s
  generalize step locate label s = outcome at effect
  cases effect with
  | stutter => exact sound
  | client env m free =>
    refine sound.arrive (.inr routine) fun i link member target => .inl (.inr ?_)
    rintro rfl
    exact free (.inl ⟨i,link,member,target,rfl⟩)
  | timeout known => exact sound.timeout routine
  | control message m joins head => exact sound.control joins head
  | @flooded i key link k env m joins led head =>
    have listed := List.mem_of_find?_eq_some joins.found
    have application := ((sound.queued i).queues link listed).forwarded env (List.mem_of_mem_head? head)
    have idle := Broker.idle_published application
    have known : ((s.setBroker i ((s.broker i).mapLink key PeerLink.popEncoded)).viewAt k link.linkId).known := by
      rw [setBroker_viewAt (b := (s.broker i).mapLink key PeerLink.popEncoded) rfl rfl]
      exact sound.connected joins led
    refine (sound.setBroker (.popEncoded _ key)).arrive (.inr ?_) fun j other member target => ?_
    · intro swap
      simp [swap,show Keys.isReservedKey Keys.setCluster = true from rfl] at application
    · by_cases same : other.linkId = link.linkId
      · exact .inr ⟨same ▸ known,idle⟩
      · exact .inl (.inr same)
  | answer env room joins queued => exact sound.answer room joins queued
  | inbound env m queued =>
    exact (sound.setBroker (.inbound _ _)).arrive (.inl rfl) fun _ _ _ _ => .inl (.inl rfl)
  | @heartbeat i key link k m joins led =>
    refine sound.arrive (.inr (by rw [Wire.makeControl_key]; decide)) fun j other member target => ?_
    by_cases same : other.linkId = link.linkId
    · exact .inr ⟨same ▸ sound.connected joins led,Broker.idle_heartbeat _⟩
    · exact .inl (.inr same)
  | dial => exact sound.dialed _ _ _
  | datagram discovery => exact sound.setBroker (.discovery _ discovery)
  | discovered discovery key address => exact (sound.setBroker (.discovery _ discovery)).dialed _ _ _
  | expire discovery keys => exact routine.elim
  | hangup => exact routine.elim
  | closing message m found target head => simp [sound.closing] at found
  | @closed position m =>
    have none : s.closing.eraseIdx position = s.closing := by simp [sound.closing]
    rwa [none]

theorem run_sound (initial : Initial s) (schedule : List (Label n))
    (routine : Always (step locate) (Routine locate) schedule s) :
    Sound locate (run (step locate) schedule s).state :=
  run_invariant (step locate) (Sound locate) (fun s label => step_sound locate s label) schedule s routine
    initial.sound

end Mesh

end Wisp
