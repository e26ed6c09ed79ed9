import Wisp.MeshFlow
import Wisp.MeshInterest

/-! A mesh while nobody changes subscriptions or links. Only traffic moves then:
each queue of it grows at its end and is served from its head. -/
namespace Wisp

open Transition

/-- A link without the traffic queued on it. -/
def PeerLink.bare (link : PeerLink) : PeerLink := { link with encoded := [] }

namespace Broker

variable {env : Envelope} {senderId : Str} {isFromPeer : Bool} {m : Moment} {b : Broker}

/-- What a message that changes no subscription adds to a link's queue. -/
def carried (env : Envelope) (m : Moment) (b : Broker) (link : PeerLink) : List Envelope :=
  if Keys.isReservedKey env.header.handlerKey then [] else b.traffic env m link

variable (senderId) in
theorem idle_routing (stays : isFromPeer = true ∨ env.header.handlerKey ≠ Keys.setCluster)
    (idle : isFromPeer = true ∨ Idle env) :
    (b.processMessage env senderId isFromPeer m).state.toRouting = b.toRouting.forward (b.carried env m) := by
  cases reserved : Keys.isReservedKey env.header.handlerKey with
  | false =>
    rw [published_routing env senderId isFromPeer m b reserved]
    congr 1
    funext link
    simp [carried,reserved]
  | true =>
    have nothing : b.toRouting.forward (b.carried env m) = b.toRouting := by
      simp [Routing.forward,carried,reserved]
    rw [nothing]
    cases isFromPeer with
    | true => exact (processMessage_peer_routing reserved).1
    | false =>
      simp only [Bool.false_eq_true,false_or] at stays idle
      rw [reserved_routing env senderId m b reserved stays,turn_other env senderId _ idle.stays idle.adds idle.drops]

end Broker

/-- Traffic only: nobody subscribes, leaves, dials or hangs up. -/
def Label.Calm : Label n → Prop
  | .client _ _ env _ => Broker.Idle env ∧ env.header.handlerKey ≠ Keys.setCluster
  | .timeout _ _ | .dial _ _ _ | .datagram _ _ _ _ | .expire _ _ | .hangup _ _ => False
  | .control _ _ _ | .flooded _ _ _ | .answer _ _ _ | .inbound _ _ | .heartbeat _ _ _ | .closing _ _ => True

namespace Mesh

variable {n : Nat} {locate : Str → Option (Fin n)} {s s' : Mesh n}

theorem calm_routine {label : Label n} (calm : label.Calm) : Routine locate s label := by
  cases label with
  | client i clientId env m => exact calm.2
  | timeout i clientId => exact calm.elim
  | expire i now => exact calm.elim
  | hangup i key => exact calm.elim
  | _ => trivial

/-- What a calm step does at rest. -/
inductive Calmly (locate : Str → Option (Fin n)) (s : Mesh n) : Label n → Outcome (Mesh n) (Fin n × Output) → Prop
  | still (label : Label n) : Calmly locate s label ⟨s,[]⟩
  | sends {label : Label n} (k : Fin n) (env : Envelope) (senderId : Str) (m : Moment) (idle : Broker.Idle env)
      (stays : env.header.handlerKey ≠ Keys.setCluster) : Calmly locate s label (s.arrive k env senderId false m)
  | flooded {i k : Fin n} {key : Str} {link : PeerLink} (env : Envelope) (m : Moment)
      (joins : s.Joins locate i key link k) (application : Keys.isReservedKey env.header.handlerKey = false) :
      Calmly locate s (.flooded i key m) ((s.setBroker i ((s.broker i).mapLink key PeerLink.popEncoded)).arrive k
        env link.linkId false m)
  | inbound {i : Fin n} {rest : List Envelope} (env : Envelope) (m : Moment)
      (queued : (s.broker i).inbound = env :: rest) : Calmly locate s (.inbound i m)
        ((s.setBroker i { s.broker i with inbound := rest }).arrive i env (str "PEER") true m)
  | answer {i k : Fin n} {key : Str} {link : PeerLink} {rest : List Envelope} (env : Envelope) (room : Bool)
      (joins : s.Joins locate i key link k) (queued : s.pipe k link.linkId = env :: rest)
      (inbound : List Envelope) (grows : (s.broker i).inbound <+: inbound) : Calmly locate s (.answer i key room)
        ⟨{ s.setBroker i { s.broker i with inbound } with
          pipe := fun j identity => if j = k ∧ identity = link.linkId then rest else s.pipe j identity },[]⟩

/-- A link's answer at rest is taken in, or was an ack. -/
theorem answered_calm (key : Str) {env : Envelope} (room : Bool) (b : Broker)
    (polite : env.header.handlerKey ≠ Keys.reset ∧ env.header.handlerKey ≠ Keys.unlink) :
    b.answered key env room = { b with inbound :=
      if env.header.handlerKey ≠ Keys.heartbeatAck ∧ room = true then b.inbound ++ [env] else b.inbound } := by
  unfold Broker.answered
  simp only [polite.1,polite.2,if_false]
  split_ifs <;> simp_all

theorem step_calmly (sound : Sound locate s) (quiet : Quiet locate s) {label : Label n} (calm : label.Calm) :
    Calmly locate s label (step locate label s) := by
  have effect := step_effect locate label s
  generalize step locate label s = outcome at effect
  cases effect with
  | stutter => exact .still _
  | client env m free => exact .sends _ env _ m calm.1 calm.2
  | timeout known => exact calm.elim
  | @control i key link k message m joins head =>
    rw [quiet i link (List.mem_of_find?_eq_some joins.found) k joins.target] at head
    cases head
  | @flooded i key link k env m joins led head =>
    exact .flooded env m joins (((sound.queued i).queues link (List.mem_of_find?_eq_some joins.found)).forwarded env
      (List.mem_of_mem_head? head))
  | @answer i key link k rest env room joins queued =>
    have session := sound.sessions i link (List.mem_of_find?_eq_some joins.found)
    rw [view_located joins.target] at session
    rw [answered_calm key room _ (session.unreset env (by rw [viewAt,queued]; exact List.mem_cons_self))]
    refine .answer env room joins queued _ ?_
    split
    · exact List.prefix_append _ _
    · exact List.prefix_refl _
  | inbound env m queued => exact .inbound env m queued
  | heartbeat m joins led =>
    exact .sends _ _ _ m (Broker.idle_heartbeat _) (by rw [Wire.makeControl_key]; decide)
  | dial => exact calm.elim
  | datagram discovery => exact calm.elim
  | discovered discovery key address => exact calm.elim
  | expire discovery keys => exact calm.elim
  | hangup => exact calm.elim
  | closing message m found target head => simp [sound.closing] at found
  | @closed position m =>
    have none : s.closing.eraseIdx position = s.closing := by simp [sound.closing]
    rw [none]
    exact .still _

/-- Subscriptions, interest and links stand still. -/
structure Frozen (s s' : Mesh n) : Prop where
  subscriptions : ∀ i, (s'.broker i).subscriptions = (s.broker i).subscriptions
  interest : ∀ i, (s'.broker i).interest = (s.broker i).interest
  links : ∀ i, (s'.broker i).peers.map PeerLink.bare = (s.broker i).peers.map PeerLink.bare
  clients : ∀ i clientId, clientId ∈ (s.broker i).clients → clientId ∈ (s'.broker i).clients

theorem Frozen.refl (s : Mesh n) : Frozen s s := ⟨fun _ => rfl,fun _ => rfl,fun _ => rfl,fun _ _ => id⟩

theorem Frozen.trans {s'' : Mesh n} (first : Frozen s s') (later : Frozen s' s'') : Frozen s s'' :=
  ⟨fun i => (later.subscriptions i).trans (first.subscriptions i),
    fun i => (later.interest i).trans (first.interest i),fun i => (later.links i).trans (first.links i),
    fun i clientId known => later.clients i clientId (first.clients i clientId known)⟩

/-- One broker changed, in its traffic only. -/
theorem Frozen.of_update {k : Fin n} {b : Broker} (updated : s'.broker = Function.update s.broker k b)
    (subscriptions : b.subscriptions = (s.broker k).subscriptions) (interest : b.interest = (s.broker k).interest)
    (links : b.peers.map PeerLink.bare = (s.broker k).peers.map PeerLink.bare)
    (clients : ∀ clientId ∈ (s.broker k).clients, clientId ∈ b.clients) : Frozen s s' := by
  refine ⟨fun i => ?_,fun i => ?_,fun i => ?_,fun i => ?_⟩ <;> rw [updated] <;> by_cases here : i = k
  all_goals first | subst here | skip
  all_goals simp_all

theorem arrive_frozen {k : Fin n} {env : Envelope} {senderId : Str} {isFromPeer : Bool} {m : Moment}
    (stays : isFromPeer = true ∨ env.header.handlerKey ≠ Keys.setCluster)
    (idle : isFromPeer = true ∨ Broker.Idle env) : Frozen s (s.arrive k env senderId isFromPeer m).state := by
  have routing := Broker.idle_routing senderId (m := m) (b := s.broker k) stays idle
  refine .of_update rfl ?_ ?_ ?_ fun clientId known => ?_
  · rw [routing]
    rfl
  · rw [routing]
    rfl
  · rw [routing]
    simp [Routing.forward,PeerLink.bare,Function.comp_def]
  · refine Broker.processMessage_clients_keep stays known ?_
    exact idle.imp id fun idle => .inr idle.stays

theorem inbound_frozen (i : Fin n) (inbound : List Envelope) :
    Frozen s (s.setBroker i { s.broker i with inbound }) :=
  .of_update (b := { s.broker i with inbound }) rfl rfl rfl rfl fun _ => id

theorem popEncoded_frozen (i : Fin n) (key : Str) :
    Frozen s (s.setBroker i ((s.broker i).mapLink key PeerLink.popEncoded)) := by
  refine .of_update rfl rfl rfl ?_ fun _ => id
  simp only [Broker.mapLink,Routing.mapLink,List.map_map]
  refine List.map_congr_left fun link _ => ?_
  simp only [Function.comp_apply]
  split <;> rfl

theorem Calmly.frozen {label : Label n} {outcome : Outcome (Mesh n) (Fin n × Output)}
    (calmly : Calmly locate s label outcome) : Frozen s outcome.state := by
  cases calmly with
  | still => exact .refl s
  | sends k env senderId m idle stays => exact arrive_frozen (.inr stays) (.inr idle)
  | flooded env m joins application =>
    refine (popEncoded_frozen _ _).trans (arrive_frozen (.inr fun swap => ?_) (.inr (Broker.idle_published application)))
    simp [swap,show Keys.isReservedKey Keys.setCluster = true from rfl] at application
  | inbound env m queued =>
    exact (inbound_frozen _ _).trans (arrive_frozen (.inl rfl) (.inl rfl))
  | @answer i k key link rest env room joins queued inbound grows =>
    have frozen := inbound_frozen (s := s) i inbound
    exact ⟨frozen.subscriptions,frozen.interest,frozen.links,frozen.clients⟩

theorem Carries.frozen {k : Fin n} {label : Label n} {start : Mesh n} {env : Envelope} {senderId : Str}
    {isFromPeer : Bool} {m : Moment} (carries : Carries locate s k label start env senderId isFromPeer m) :
    Frozen s start := by
  cases carries with
  | client free => exact .refl s
  | flooded joins head => exact popEncoded_frozen _ _
  | inbound queued => exact inbound_frozen _ _

section

variable (frozen : Frozen s s')

include frozen

theorem Frozen.link {i : Fin n} {link : PeerLink} (member : link ∈ (s'.broker i).peers) :
    ∃ old ∈ (s.broker i).peers, link.bare = old.bare := by
  have listed := List.mem_map_of_mem (f := PeerLink.bare) member
  rw [frozen.links i] at listed
  obtain ⟨old,member,same⟩ := List.mem_map.mp listed
  exact ⟨old,member,same.symm⟩

theorem Frozen.quiet (quiet : Quiet locate s) : Quiet locate s' := by
  intro i link member k located
  obtain ⟨old,listed,same⟩ := frozen.link member
  simp only [PeerLink.bare,PeerLink.mk.injEq] at same
  rw [same.2.2.2.1]
  exact quiet i old listed k (same.2.1 ▸ located)

theorem Frozen.joins {i k : Fin n} {key : Str} {link : PeerLink} (joins : s.Joins locate i key link k) :
    ∃ later, s'.Joins locate i key later k ∧ later.bare = link.bare := by
  have find (peers : List PeerLink) : (peers.map PeerLink.bare).find? (fun link => link.key == key) =
      (peers.find? fun link => link.key == key).map PeerLink.bare := by
    rw [List.find?_map]
    rfl
  have same : (s'.linkOf i key).map PeerLink.bare = (s.linkOf i key).map PeerLink.bare := by
    rw [linkOf,linkOf,← find,← find,frozen.links i]
  rw [joins.found,Option.map_some,Option.map_eq_some_iff] at same
  obtain ⟨later,found,same⟩ := same
  refine ⟨later,⟨found,?_⟩,same⟩
  simp only [PeerLink.bare,PeerLink.mk.injEq] at same
  rw [same.2.1,joins.target]

end

/-- The traffic queued on a link. -/
def sendQueue (s : Mesh n) (i : Fin n) (key : Str) : List Envelope := ((s.linkOf i key).map PeerLink.encoded).getD []

theorem sendQueue_joins {i k : Fin n} {key : Str} {link : PeerLink} (joins : s.Joins locate i key link k) :
    s.sendQueue i key = link.encoded := by
  rw [sendQueue,joins.found]
  rfl

theorem arrive_linkOf {i : Fin n} {env : Envelope} {senderId : Str} {isFromPeer : Bool} {m : Moment}
    (stays : isFromPeer = true ∨ env.header.handlerKey ≠ Keys.setCluster)
    (idle : isFromPeer = true ∨ Broker.Idle env) (key : Str) :
    (s.arrive i env senderId isFromPeer m).state.linkOf i key = (s.linkOf i key).map fun link =>
      { link with encoded := link.encoded ++ (s.broker i).carried env m link } := by
  have routing := Broker.idle_routing senderId (m := m) (b := s.broker i) stays idle
  simp only [linkOf,arrive,absorb,Function.update_self,routing,Routing.forward,List.find?_map]
  rfl

theorem arrive_sendQueue {k : Fin n} {env : Envelope} {senderId : Str} {isFromPeer : Bool} {m : Moment}
    (stays : isFromPeer = true ∨ env.header.handlerKey ≠ Keys.setCluster)
    (idle : isFromPeer = true ∨ Broker.Idle env) (i : Fin n) (key : Str) :
    s.sendQueue i key <+: (s.arrive k env senderId isFromPeer m).state.sendQueue i key := by
  by_cases here : i = k
  · subst here
    rw [sendQueue,sendQueue,arrive_linkOf stays idle]
    cases s.linkOf i key with
    | none => exact List.prefix_refl _
    | some link => exact List.prefix_append _ _
  · have same : (s.arrive k env senderId isFromPeer m).state.linkOf i key = s.linkOf i key := by
      simp [linkOf,arrive,absorb,here]
    rw [sendQueue,sendQueue,same]

/-- A message that is routed goes on every active link with room. -/
theorem arrive_floods {i k : Fin n} {key : Str} {link : PeerLink} {env : Envelope} {senderId : Str} {isFromPeer : Bool}
    {m : Moment} (joins : s.Joins locate i key link k) (active : link.active = true)
    (room : m.room link.key = true) (published : Keys.isReservedKey env.header.handlerKey = false)
    (fresh : ((s.broker i).seen.isDuplicate ((s.broker i).stamp env m).header.messageUuid).2 = false) :
    (s.broker i).stamp env m ∈ (s.arrive i env senderId isFromPeer m).state.sendQueue i key := by
  have stays : env.header.handlerKey ≠ Keys.setCluster := by
    intro swap
    simp [swap,show Keys.isReservedKey Keys.setCluster = true from rfl] at published
  rw [sendQueue,arrive_linkOf (.inr stays) (.inr (Broker.idle_published published)),joins.found]
  simp [Broker.carried,published,Broker.traffic,fresh,active,room]

theorem popEncoded_sendQueue (s : Mesh n) (j : Fin n) (key' : Str) (i : Fin n) (key : Str) :
    (s.setBroker j ((s.broker j).mapLink key' PeerLink.popEncoded)).sendQueue i key =
      if i = j ∧ key = key' then (s.sendQueue i key).tail else s.sendQueue i key := by
  by_cases here : i = j
  · subst here
    have after : (s.setBroker i ((s.broker i).mapLink key' PeerLink.popEncoded)).linkOf i key =
        (s.linkOf i key).map fun link => if link.key = key' then link.popEncoded else link := by
      have same : ((fun link : PeerLink => link.key == key) ∘ fun link : PeerLink =>
          if link.key = key' then link.popEncoded else link) = fun link => link.key == key := by
        funext link
        simp only [Function.comp_apply]
        split <;> rfl
      simp only [linkOf,setBroker,Function.update_self,Broker.mapLink,Routing.mapLink,List.find?_map,same]
    rw [sendQueue,sendQueue,after]
    cases found : s.linkOf i key with
    | none => simp
    | some link =>
      have named : link.key = key := by simpa using List.find?_some found
      by_cases same : key = key' <;> simp [named,same,PeerLink.popEncoded]
  · have same : (s.setBroker j ((s.broker j).mapLink key' PeerLink.popEncoded)).linkOf i key = s.linkOf i key := by
      simp [linkOf,setBroker,here]
    simp [sendQueue,same,here]

theorem Calmly.sendQueue {label : Label n} {outcome : Outcome (Mesh n) (Fin n × Output)}
    (calmly : Calmly locate s label outcome) {i : Fin n} {key : Str} (other : ∀ m, label ≠ .flooded i key m) :
    s.sendQueue i key <+: outcome.state.sendQueue i key := by
  cases calmly with
  | still => exact List.prefix_refl _
  | sends k env senderId m idle stays => exact arrive_sendQueue (.inr stays) (.inr idle) i key
  | @flooded j k key' link env m joins application =>
    have elsewhere : ¬(i = j ∧ key = key') := by
      rintro ⟨rfl,rfl⟩
      exact other m rfl
    have kept := popEncoded_sendQueue s j key' i key
    rw [if_neg elsewhere] at kept
    rw [← kept]
    refine arrive_sendQueue (.inr fun swap => ?_) (.inr (Broker.idle_published application)) i key
    simp [swap,show Keys.isReservedKey Keys.setCluster = true from rfl] at application
  | @inbound j rest env m queued =>
    refine List.IsPrefix.trans ?_ (arrive_sendQueue (.inl rfl) (.inl rfl) i key)
    by_cases here : i = j
    · subst here; simp [Mesh.sendQueue,linkOf,setBroker]
    · simp [Mesh.sendQueue,linkOf,setBroker,here]
  | @answer j k key' link rest env room joins queued inbound grows =>
    by_cases here : i = j
    · subst here; simp [Mesh.sendQueue,linkOf,setBroker]
    · simp [Mesh.sendQueue,linkOf,setBroker,here]

theorem Calmly.inboundQueue {label : Label n} {outcome : Outcome (Mesh n) (Fin n × Output)}
    (calmly : Calmly locate s label outcome) {i : Fin n} (other : ∀ m, label ≠ .inbound i m) :
    (s.broker i).inbound <+: (outcome.state.broker i).inbound := by
  have arrived {start : Mesh n} {k : Fin n} {env : Envelope} {senderId : Str} {isFromPeer : Bool} {m : Moment} :
      ((start.arrive k env senderId isFromPeer m).state.broker i).inbound = (start.broker i).inbound := by
    by_cases here : i = k
    · subst here; simp [arrive,absorb,Broker.processMessage_inbound]
    · simp [arrive,absorb,here]
  cases calmly with
  | still => exact List.prefix_refl _
  | sends k env senderId m idle stays => rw [arrived]
  | @flooded j k key' link env m joins application =>
    rw [arrived]
    by_cases here : i = j
    · subst here; simp [setBroker,Broker.mapLink]
    · simp [setBroker,here]
  | @inbound j rest env m queued =>
    rw [arrived]
    have elsewhere : i ≠ j := by
      rintro rfl
      exact other m rfl
    simp [setBroker,elsewhere]
  | @answer j k key' link rest env room joins queued inbound grows =>
    by_cases here : i = j
    · subst here; simpa [setBroker] using grows
    · simp [setBroker,here]

theorem Calmly.pipeQueue {label : Label n} {outcome : Outcome (Mesh n) (Fin n × Output)} (apart : Apart locate s)
    (calmly : Calmly locate s label outcome) {i k : Fin n} {key : Str} {link : PeerLink}
    (joins : s.Joins locate i key link k) (other : ∀ room, label ≠ .answer i key room) :
    s.pipe k link.linkId <+: outcome.state.pipe k link.linkId := by
  have arrived (start : Mesh n) (same : start.pipe = s.pipe) (j : Fin n) (env : Envelope) (senderId : Str)
      (isFromPeer : Bool) (m : Moment) :
      s.pipe k link.linkId <+: (start.arrive j env senderId isFromPeer m).state.pipe k link.linkId := by
    simp only [arrive,absorb,same]
    split
    next here => exact here ▸ List.prefix_append _ _
    · exact List.prefix_refl _
  cases calmly with
  | still => exact List.prefix_refl _
  | sends k env senderId m idle stays => exact arrived s rfl _ _ _ _ _
  | flooded env m joins application =>
    refine arrived _ ?_ _ _ _ _ _
    rfl
  | inbound env m queued =>
    refine arrived _ ?_ _ _ _ _ _
    rfl
  | @answer j k' key' link' rest env room joins' queued inbound grows =>
    have elsewhere : ¬(k = k' ∧ link.linkId = link'.linkId) := by
      rintro ⟨rfl,same⟩
      obtain ⟨rfl,named⟩ := apart i link (List.mem_of_find?_eq_some joins.found) j link'
        (List.mem_of_find?_eq_some joins'.found) k joins.target joins'.target same
      have first : link.key = key := by simpa using List.find?_some joins.found
      have second : link'.key = key' := by simpa using List.find?_some joins'.found
      exact other room (by rw [← first,named,second])
    simp [elsewhere]

/-! A queue that is served gives up its head, to its receiver. -/

section

variable {i k : Fin n} {key : Str} {link : PeerLink} {env : Envelope} {rest : List Envelope}

theorem step_flooded (joins : s.Joins locate i key link k) (led : .connect ∉ link.control)
    (queued : link.encoded = env :: rest) (m : Moment) : step locate (.flooded i key m) s =
      (s.setBroker i ((s.broker i).mapLink key PeerLink.popEncoded)).arrive k env link.linkId false m := by
  simp [step,joins.found,joins.target,led,queued]

theorem step_answer (joins : s.Joins locate i key link k) (queued : s.pipe k link.linkId = env :: rest)
    (room : Bool) : step locate (.answer i key room) s =
      ⟨{ s.setBroker i ((s.broker i).answered key env room) with
        pipe := fun j identity => if j = k ∧ identity = link.linkId then rest else s.pipe j identity },[]⟩ := by
  simp [step,joins.found,joins.target,queued]

theorem step_inbound (queued : (s.broker i).inbound = env :: rest) (m : Moment) : step locate (.inbound i m) s =
    (s.setBroker i { s.broker i with inbound := rest }).arrive i env (str "PEER") true m := by
  simp [step,queued]

theorem flooded_pops (sound : Sound locate s) (quiet : Quiet locate s) (joins : s.Joins locate i key link k)
    (m : Moment) : (s.sendQueue i key).tail <+: (step locate (.flooded i key m) s).state.sendQueue i key := by
  have listed := List.mem_of_find?_eq_some joins.found
  cases queued : link.encoded with
  | nil => simp [sendQueue_joins joins,queued]
  | cons env rest =>
    have application := ((sound.queued i).queues link listed).forwarded env (queued ▸ List.mem_cons_self)
    rw [step_flooded joins (by simp [quiet i link listed k joins.target]) queued]
    have popped := popEncoded_sendQueue s i key i key
    rw [if_pos ⟨rfl,rfl⟩] at popped
    rw [← popped]
    refine arrive_sendQueue (.inr fun swap => ?_) (.inr (Broker.idle_published application)) i key
    simp [swap,show Keys.isReservedKey Keys.setCluster = true from rfl] at application

theorem answer_pops (joins : s.Joins locate i key link k) (room : Bool) :
    (s.pipe k link.linkId).tail <+: (step locate (.answer i key room) s).state.pipe k link.linkId := by
  cases queued : s.pipe k link.linkId with
  | nil => exact List.nil_prefix
  | cons env rest => simp [step_answer joins queued]

theorem inbound_pops (i : Fin n) (m : Moment) :
    (s.broker i).inbound.tail <+: ((step locate (.inbound i m) s).state.broker i).inbound := by
  cases queued : (s.broker i).inbound with
  | nil => exact List.nil_prefix
  | cons env rest =>
    rw [step_inbound queued]
    simp [arrive,absorb,setBroker,Broker.processMessage_inbound]

/-- An application message that finds room goes to the dialing broker's thread. -/
theorem answer_taken (joins : s.Joins locate i key link k) (queued : s.pipe k link.linkId = env :: rest)
    (application : Keys.isReservedKey env.header.handlerKey = false) :
    env ∈ ((step locate (.answer i key true) s).state.broker i).inbound := by
  have other (reserved : Str) (kind : Keys.isReservedKey reserved = true) : env.header.handlerKey ≠ reserved := by
    rintro rfl
    simp [kind] at application
  rw [step_answer joins queued]
  simp [setBroker,Broker.answered,other Keys.heartbeatAck rfl,other Keys.unlink rfl,other Keys.reset rfl]

end

end Mesh

end Wisp
