import Wisp.MeshOrigin
import Wisp.MeshSessions

/-! Where the envelopes in a mesh's queues come from. Ordinary running puts an
application message in a queue only by routing it, and one message's copies are
told from every other message by their id. -/
namespace Wisp

open Transition

/-- The link is one of these, with nothing new in its queue of traffic. -/
def Kept (base : List PeerLink) (link : PeerLink) : Prop :=
  ∃ old ∈ base, Named link old ∧ link.encoded ⊆ old.encoded

theorem Kept.self {base : List PeerLink} (member : link ∈ base) : Kept base link :=
  ⟨link,member,.refl link,List.Subset.refl _⟩

theorem kept_turning (base : List PeerLink) : Routing.Turning fun r => ∀ link ∈ r.peers, Kept base link :=
  Routing.everyLink_turning _ fun _ _ ⟨old,listed,named,part⟩ =>
    ⟨old,listed,⟨named.key,named.address,named.linkId⟩,part⟩

namespace Broker

variable {env : Envelope} {senderId : Str} {isFromPeer : Bool} {m : Moment} {b : Broker}

/-- What a message adds to a link's queue of traffic is itself, routed. -/
theorem processMessage_encoded (stays : isFromPeer = true ∨ env.header.handlerKey ≠ Keys.setCluster)
    {link : PeerLink} (member : link ∈ (b.processMessage env senderId isFromPeer m).state.peers) :
    ∃ old ∈ b.peers, Named link old ∧ ∀ sent ∈ link.encoded, sent ∈ old.encoded ∨
      .tap sent ∈ (b.processMessage env senderId isFromPeer m).events ∧
        Keys.isReservedKey sent.header.handlerKey = false := by
  have unchanged (kept : Kept b.peers link) : ∃ old ∈ b.peers, Named link old ∧ ∀ sent ∈ link.encoded,
      sent ∈ old.encoded ∨ .tap sent ∈ (b.processMessage env senderId isFromPeer m).events ∧
        Keys.isReservedKey sent.header.handlerKey = false := by
    obtain ⟨old,listed,named,part⟩ := kept
    exact ⟨old,listed,named,fun sent queued => .inl (part queued)⟩
  cases reserved : Keys.isReservedKey env.header.handlerKey with
  | false =>
    have routing := published_routing env senderId isFromPeer m b reserved
    rw [routing] at member
    obtain ⟨old,listed,rfl⟩ := (Routing.mem_forward _ _ _).mp member
    refine ⟨old,listed,⟨rfl,rfl,rfl⟩,fun sent queued => ?_⟩
    rcases List.mem_append.mp queued with before | added
    · exact .inl before
    · refine .inr ⟨?_,traffic_published env m b reserved old sent added⟩
      unfold traffic at added
      split at added
      · cases added
      next fresh =>
        split at added
        · rw [List.mem_singleton.mp added]
          exact routed_tapped reserved (Bool.eq_false_iff.mpr fresh)
        · cases added
  | true =>
    cases isFromPeer with
    | true =>
      rw [(processMessage_peer_routing reserved).1] at member
      exact unchanged (.self member)
    | false =>
      simp only [Bool.false_eq_true,false_or] at stays
      rw [reserved_routing env senderId m b reserved stays] at member
      exact unchanged (turn_turning (kept_turning b.peers) env senderId b.toRouting (fun _ => Kept.self) link member)

/-- The uuid a message is routed under. -/
def stampedUuid (env : Envelope) (m : Moment) : Str :=
  if env.header.messageUuid.isEmpty then m.uuid else env.header.messageUuid

theorem stamp_uuid (env : Envelope) (m : Moment) (b : Broker) :
    (b.stamp env m).header.messageUuid = stampedUuid env m := by
  unfold stamp stampedUuid
  split <;> rfl

theorem stamp_stamped (stamped : env.header.messageUuid ≠ []) (m : Moment) (b : Broker) : b.stamp env m = env := by
  rw [stamp,if_neg (by simpa using stamped)]

end Broker

/-- No message is stamped with this id in the step. -/
def Label.Avoids (id : MessageId) : Label n → Prop
  | .client _ _ env m => dedupId (Broker.stampedUuid env m) ≠ id
  | .flooded _ _ m => dedupId m.uuid ≠ id
  | .inbound _ m => dedupId m.uuid ≠ id
  | _ => True

instance (id : MessageId) (label : Label n) : Decidable (label.Avoids id) :=
  match label with
  | .client _ _ _ _ | .flooded _ _ _ | .inbound _ _ => inferInstanceAs (Decidable (_ ≠ _))
  | .timeout _ _ | .control _ _ _ | .answer _ _ _ | .heartbeat _ _ _ | .dial _ _ _ | .datagram _ _ _ _
  | .expire _ _ | .hangup _ _ | .closing _ _ => isTrue trivial

namespace Mesh

variable {n : Nat} {locate : Str → Option (Fin n)} {s s' : Mesh n}

/-- Nothing was added to any queue of traffic. -/
structure Drained (s s' : Mesh n) : Prop where
  encoded : ∀ i, ∀ link ∈ (s'.broker i).peers, Kept (s.broker i).peers link ∨ link.encoded = []
  pipe : ∀ k identity, s'.pipe k identity ⊆ s.pipe k identity
  inbound : ∀ i, (s'.broker i).inbound ⊆ (s.broker i).inbound

theorem Drained.refl (s : Mesh n) : Drained s s :=
  ⟨fun _ _ member => .inl (.self member),fun _ _ => List.Subset.refl _,fun _ => List.Subset.refl _⟩

theorem Drained.setBroker {i : Fin n} {b : Broker} (links : ∀ link ∈ b.peers, Kept (s.broker i).peers link)
    (inbound : b.inbound ⊆ (s.broker i).inbound) : Drained s (s.setBroker i b) := by
  refine ⟨fun j => ?_,fun _ _ => List.Subset.refl _,fun j => ?_⟩
  · by_cases here : j = i
    · subst here
      simpa [Mesh.setBroker] using fun link member => Or.inl (links link member)
    · simpa [Mesh.setBroker,here] using fun link member => Or.inl (Kept.self member)
  · by_cases here : j = i
    · subst here
      simpa [Mesh.setBroker] using inbound
    · simp [Mesh.setBroker,here]

theorem kept_mapLink {r : Routing} {key : Str} {f : PeerLink → PeerLink}
    (shrinks : ∀ link, Routing.Shrinks link (f link)) : ∀ link ∈ (r.mapLink key f).peers, Kept r.peers link := by
  intro link member
  obtain ⟨old,listed,named,rfl⟩ := named_mapLink shrinks member
  refine ⟨old,listed,named,?_⟩
  split
  · exact (shrinks old).encoded.subset
  · exact List.Subset.refl _

theorem Drained.dialed (drained : Drained s s') (i : Fin n) (key address : Str) :
    Drained s (s'.dialed locate i key address) := by
  rcases dialed_cases s' i key address with same | ⟨-,same⟩
  · rwa [same]
  · rw [same]
    refine ⟨fun j link member => ?_,fun k identity => ?_,fun j => ?_⟩
    · rcases mem_opened.mp member with old | ⟨-,rfl⟩
      · exact drained.encoded j link old
      · exact .inr rfl
    · simp only [opened]
      split
      · exact List.nil_subset _
      · exact drained.pipe k identity
    · by_cases here : j = i
      · subst here
        simpa [opened,Mesh.setBroker] using drained.inbound j
      · simpa [opened,Mesh.setBroker,here] using drained.inbound j

/-- The three ways ordinary running moves envelopes. -/
inductive Moves (locate : Str → Option (Fin n)) (s : Mesh n) : Outcome (Mesh n) (Fin n × Output) → Prop
  | still {s' : Mesh n} (drained : Drained s s') : Moves locate s ⟨s',[]⟩
  | arrives {start : Mesh n} (drained : Drained s start) (k : Fin n) (env : Envelope) (senderId : Str)
      (isFromPeer : Bool) (m : Moment) (stays : isFromPeer = true ∨ env.header.handlerKey ≠ Keys.setCluster) :
      Moves locate s (start.arrive k env senderId isFromPeer m)
  | answers {i k : Fin n} {key : Str} {link : PeerLink} {rest : List Envelope} (env : Envelope) (room : Bool)
      (joins : s.Joins locate i key link k) (queued : s.pipe k link.linkId = env :: rest) :
      Moves locate s ⟨{ s.setBroker i ((s.broker i).answered key env room) with
        pipe := fun j identity => if j = k ∧ identity = link.linkId then rest else s.pipe j identity },[]⟩

theorem step_moves (sound : Sound locate s) {label : Label n} (routine : Routine locate s label) :
    Moves locate s (step locate label s) := by
  have effect := step_effect locate label s
  generalize step locate label s = outcome at effect
  cases effect with
  | stutter => exact .still (.refl s)
  | client env m free => exact .arrives (.refl s) _ env _ _ m (.inr routine)
  | timeout known =>
    refine .still (.setBroker ?_ ?_)
    · exact (kept_turning _).removeClient _ _ fun _ => Kept.self
    · exact List.Subset.refl _
  | control message m joins head =>
    refine .arrives (.setBroker ?_ ?_) _ _ _ _ m ?_
    · exact kept_mapLink PeerLink.popControl_shrinks
    · exact List.Subset.refl _
    · exact .inr (by simpa using message.key_ne_setCluster)
  | @flooded i key link k env m joins led head =>
    have application := ((sound.queued i).queues link (List.mem_of_find?_eq_some joins.found)).forwarded env
      (List.mem_of_mem_head? head)
    refine .arrives (.setBroker ?_ ?_) _ _ _ _ m ?_
    · exact kept_mapLink PeerLink.popEncoded_shrinks
    · exact List.Subset.refl _
    · refine .inr fun swap => ?_
      simp [swap,show Keys.isReservedKey Keys.setCluster = true from rfl] at application
  | answer env room joins queued => exact .answers env room joins queued
  | inbound env m queued =>
    refine .arrives (.setBroker ?_ ?_) _ _ _ _ m (.inl rfl)
    · exact fun _ => Kept.self
    · rw [queued]
      exact List.subset_cons_self _ _
  | heartbeat m joins led =>
    exact .arrives (.refl s) _ _ _ _ m (.inr (by rw [Wire.makeControl_key]; decide))
  | dial => exact .still (.dialed (.refl s) _ _ _)
  | datagram discovery =>
    refine .still (.setBroker ?_ ?_)
    · exact fun _ => Kept.self
    · exact List.Subset.refl _
  | discovered discovery key address =>
    refine .still (.dialed (.setBroker ?_ ?_) _ _ _)
    · exact fun _ => Kept.self
    · exact List.Subset.refl _
  | expire discovery keys => exact routine.elim
  | hangup => exact routine.elim
  | closing message m found target head => simp [sound.closing] at found
  | closed =>
    exact .still ⟨fun _ _ member => .inl (.self member),fun _ _ => List.Subset.refl _,fun _ => List.Subset.refl _⟩

theorem kept_answered (key : Str) (env : Envelope) (room : Bool) (b : Broker) :
    ∀ link ∈ (b.answered key env room).peers, Kept b.peers link := by
  unfold Broker.answered
  split_ifs
  · exact fun _ => Kept.self
  · exact kept_mapLink PeerLink.deactivate_shrinks
  · intro link member
    obtain ⟨old,listed,rfl⟩ := List.mem_map.mp member
    refine ⟨old,listed,?_,?_⟩
    · split <;> exact ⟨rfl,rfl,rfl⟩
    · split <;> exact List.Subset.refl _
  · exact fun _ => Kept.self
  · exact fun _ => Kept.self

section

variable {outcome : Outcome (Mesh n) (Fin n × Output)} (moves : Moves locate s outcome)

include moves

theorem Moves.encoded {i : Fin n} {link : PeerLink} (member : link ∈ (outcome.state.broker i).peers)
    {sent : Envelope} (queued : sent ∈ link.encoded) :
    (∃ old ∈ (s.broker i).peers, Named link old ∧ sent ∈ old.encoded) ∨
      (i,.tap sent) ∈ outcome.events ∧ Keys.isReservedKey sent.header.handlerKey = false := by
  have before {s' : Mesh n} (drained : Drained s s') {link : PeerLink} (member : link ∈ (s'.broker i).peers)
      (queued : sent ∈ link.encoded) : ∃ old ∈ (s.broker i).peers, Named link old ∧ sent ∈ old.encoded := by
    rcases drained.encoded i link member with ⟨old,listed,named,part⟩ | none
    · exact ⟨old,listed,named,part queued⟩
    · simp [none] at queued
  cases moves with
  | still drained => exact .inl (before drained member queued)
  | @arrives start drained k env senderId isFromPeer m stays =>
    by_cases here : i = k
    · subst here
      simp only [arrive,absorb,Function.update_self] at member
      obtain ⟨old,listed,named,queue⟩ := Broker.processMessage_encoded stays member
      rcases queue sent queued with early | ⟨tapped,application⟩
      · obtain ⟨older,listed',named',early'⟩ := before drained listed early
        exact .inl ⟨older,listed',⟨named.key.trans named'.key,named.address.trans named'.address,
          named.linkId.trans named'.linkId⟩,early'⟩
      · exact .inr ⟨List.mem_map.mpr ⟨_,tapped,rfl⟩,application⟩
    · simp only [arrive,absorb,Function.update_of_ne here] at member
      exact .inl (before drained member queued)
  | @answers j k key link' rest env room joins queue =>
    by_cases here : i = j
    · subst here
      simp only [Mesh.setBroker,Function.update_self] at member
      obtain ⟨old,listed,named,part⟩ := kept_answered key env room (s.broker i) link member
      exact .inl ⟨old,listed,named,part queued⟩
    · simp only [Mesh.setBroker,Function.update_of_ne here] at member
      exact .inl ⟨link,member,.refl link,queued⟩

theorem Moves.pipe {k : Fin n} {identity : Str} {sent : Envelope} (queued : sent ∈ outcome.state.pipe k identity) :
    sent ∈ s.pipe k identity ∨ (k,.send identity sent true) ∈ outcome.events := by
  cases moves with
  | still drained => exact .inl (drained.pipe k identity queued)
  | @arrives start drained j env senderId isFromPeer m stays =>
    simp only [arrive,absorb] at queued
    split at queued
    next here =>
      subst here
      rcases List.mem_append.mp queued with early | new
      · exact .inl (drained.pipe k identity early)
      · exact .inr (List.mem_map.mpr ⟨_,mem_sentTo.mp new,rfl⟩)
    · exact .inl (drained.pipe k identity queued)
  | answers env room joins queue =>
    simp only at queued
    split at queued
    next here =>
      obtain ⟨rfl,rfl⟩ := here
      exact .inl (queue ▸ List.mem_cons_of_mem _ queued)
    · exact .inl queued

theorem Moves.sent_piped {k : Fin n} {identity : Str} {sent : Envelope}
    (member : (k,.send identity sent true) ∈ outcome.events) : sent ∈ outcome.state.pipe k identity := by
  cases moves with
  | still drained => cases member
  | @arrives start drained j env senderId isFromPeer m stays =>
    obtain ⟨output,sends,same⟩ := List.mem_map.mp member
    obtain ⟨rfl,rfl⟩ := Prod.mk.inj same
    simpa [arrive,absorb] using Or.inr (mem_sentTo.mpr sends)
  | answers env room joins queue => cases member

theorem Moves.inbound {i : Fin n} {sent : Envelope} (queued : sent ∈ (outcome.state.broker i).inbound) :
    sent ∈ (s.broker i).inbound ∨
      ∃ link ∈ (s.broker i).peers, ∃ k, locate link.address = some k ∧ sent ∈ s.pipe k link.linkId := by
  cases moves with
  | still drained => exact .inl (drained.inbound i queued)
  | @arrives start drained k env senderId isFromPeer m stays =>
    refine .inl (drained.inbound i ?_)
    by_cases here : i = k
    · subst here
      simpa [arrive,absorb,Broker.processMessage_inbound] using queued
    · simpa [arrive,absorb,here] using queued
  | @answers j k key link rest env room joins queue =>
    by_cases here : i = j
    · subst here
      simp only [Mesh.setBroker,Function.update_self] at queued
      have listed := List.mem_of_find?_eq_some joins.found
      have taken : sent ∈ (s.broker i).inbound ∨ sent = env := by
        unfold Broker.answered at queued
        split_ifs at queued
        · exact .inl queued
        · exact .inl queued
        · exact .inl queued
        · simpa using queued
        · exact .inl queued
      refine taken.imp id ?_
      rintro rfl
      exact ⟨link,listed,k,joins.target,queue ▸ List.mem_cons_self⟩
    · simp only [Mesh.setBroker,Function.update_of_ne here] at queued
      exact .inl queued

/-- What is sent of the application's messages was routed. -/
theorem Moves.tapped {k : Fin n} {clientId : Str} {sent : Envelope} {accepted : Bool}
    (member : (k,.send clientId sent accepted) ∈ outcome.events)
    (application : Keys.isReservedKey sent.header.handlerKey = false) : (k,.tap sent) ∈ outcome.events := by
  cases moves with
  | still drained => cases member
  | @arrives start drained j env senderId isFromPeer m stays =>
    obtain ⟨output,shown,same⟩ := List.mem_map.mp member
    obtain ⟨rfl,rfl⟩ := Prod.mk.inj same
    obtain ⟨rfl,published,fresh⟩ := Broker.shown_routed shown (.inr ⟨_,_,rfl⟩) application
    exact List.mem_map.mpr ⟨_,Broker.routed_tapped published fresh,rfl⟩
  | answers env room joins queue => cases member

end

/-- An application message with this id. -/
structure Copy (id : MessageId) (env : Envelope) : Prop where
  application : Keys.isReservedKey env.header.handlerKey = false
  stamped : env.header.messageUuid ≠ []
  same : dedupId env.header.messageUuid = id

/-- Every queued message with the id is as allowed. -/
structure Copies (id : MessageId) (allowed : Envelope → Prop) (s : Mesh n) : Prop where
  encoded : ∀ i, ∀ link ∈ (s.broker i).peers, ∀ env ∈ link.encoded, Copy id env → allowed env
  pipe : ∀ k identity, ∀ env ∈ s.pipe k identity, Copy id env → allowed env
  inbound : ∀ i, ∀ env ∈ (s.broker i).inbound, Copy id env → allowed env

theorem Moves.copies {outcome : Outcome (Mesh n) (Fin n × Output)} {id : MessageId} {allowed : Envelope → Prop}
    (moves : Moves locate s outcome) (copies : Copies id allowed s)
    (routed : ∀ k e, (k,.tap e) ∈ outcome.events → Copy id e → allowed e) : Copies id allowed outcome.state := by
  refine ⟨fun i link member env queued copy => ?_,fun k identity env queued copy => ?_,
    fun i env queued copy => ?_⟩
  · rcases moves.encoded member queued with ⟨old,listed,-,early⟩ | ⟨tapped,-⟩
    · exact copies.encoded i old listed env early copy
    · exact routed i env tapped copy
  · rcases moves.pipe queued with early | sent
    · exact copies.pipe k identity env early copy
    · exact routed k env (moves.tapped sent copy.application) copy
  · rcases moves.inbound queued with early | ⟨link,-,k,-,piped⟩
    · exact copies.inbound i env early copy
    · exact copies.pipe k link.linkId env piped copy

/-- Where a broker has a message from that it routes. -/
inductive Source (locate : Str → Option (Fin n)) (s : Mesh n) (k : Fin n) (e : Envelope) : Label n → Prop
  | published {clientId : Str} {env : Envelope} {m : Moment} (free : ¬s.Linked locate k clientId)
      (same : e = (s.broker k).stamp env m) : Source locate s k e (.client k clientId env m)
  | flooded {i : Fin n} {key : Str} {link : PeerLink} {m : Moment} (joins : s.Joins locate i key link k)
      (head : link.encoded.head? = some e) (stamped : e.header.messageUuid ≠ []) :
      Source locate s k e (.flooded i key m)
  | inbound {rest : List Envelope} {m : Moment} (queued : (s.broker k).inbound = e :: rest)
      (stamped : e.header.messageUuid ≠ []) : Source locate s k e (.inbound k m)

/-- A copy taken from a queue is routed as it was queued. -/
theorem routed_source {label : Label n} {k : Fin n} {e : Envelope}
    (tapped : (k,.tap e) ∈ (step locate label s).events)
    (application : Keys.isReservedKey e.header.handlerKey = false)
    (avoids : label.Avoids (dedupId e.header.messageUuid) ∨ ∃ i clientId env m, label = .client i clientId env m) :
    Source locate s k e label := by
  obtain ⟨start,env,senderId,isFromPeer,m,carries,-,rfl,-,-⟩ := step_shown tapped (.inl rfl) application
  have stamped (drawn : dedupId m.uuid ≠ dedupId ((start.broker k).stamp env m).header.messageUuid) :
      env.header.messageUuid ≠ [] := by
    intro empty
    rw [Broker.stamp_uuid,Broker.stampedUuid,empty] at drawn
    exact drawn rfl
  cases carries with
  | client free => exact .published free rfl
  | flooded joins head =>
    have nonempty := stamped (avoids.resolve_right (by simp))
    rw [Broker.stamp_stamped nonempty]
    exact .flooded joins head nonempty
  | inbound queued =>
    have nonempty := stamped (avoids.resolve_right (by simp))
    rw [Broker.stamp_stamped nonempty]
    exact .inbound queued nonempty

/-- A routed copy is the client's that the step is about, or one that was queued. -/
theorem Source.allowed {label : Label n} {k : Fin n} {e : Envelope} {id : MessageId} {allowed : Envelope → Prop}
    (source : Source locate s k e label) (copies : Copies id allowed s)
    (application : Keys.isReservedKey e.header.handlerKey = false) (same : dedupId e.header.messageUuid = id)
    (own : ∀ clientId env m, label = .client k clientId env m → e = (s.broker k).stamp env m → allowed e) :
    allowed e := by
  cases source with
  | published free stamped => exact own _ _ _ rfl stamped
  | @flooded i key link m joins head stamped =>
    exact copies.encoded i link (List.mem_of_find?_eq_some joins.found) e (List.mem_of_mem_head? head)
      ⟨application,stamped,same⟩
  | inbound queued stamped =>
    exact copies.inbound k e (queued ▸ List.mem_cons_self) ⟨application,stamped,same⟩

/-- An id is accepted only by routing a message with it. -/
theorem accepted_routed (sound : Sound locate s) {label : Label n} {k : Fin n} {id : MessageId}
    (checked : (k,.checked id false) ∈ (step locate label s).events) :
    ∃ e, (k,.tap e) ∈ (step locate label s).events ∧ Keys.isReservedKey e.header.handlerKey = false ∧
      dedupId e.header.messageUuid = id := by
  have trail := step_trail locate (fun i => (sound.valid i).consistent) label
  cases trail with
  | quiet events seen => simp [events] at checked
  | acts j b act trail before after events others =>
    rw [events] at checked ⊢
    obtain ⟨output,member,same⟩ := List.mem_map.mp checked
    obtain ⟨rfl,rfl⟩ := Prod.mk.inj same
    cases trail with
    | silent seen quiet => exact (quiet _ member).elim
    | repeated uuid known seen events => simp [events] at member
    | routed env greeting served links m published fresh seen polite distinct events =>
      rw [events] at member ⊢
      refine ⟨env,by simp,published,?_⟩
      simp only [List.mem_cons,List.mem_append,reduceCtorEq,false_or] at member
      rcases member with same | (greeted | sent) | flooded
      · exact (Output.checked.inj same).1.symm
      · exact (polite _ greeted).elim
      · simp [Moment.sendTo] at sent
      · simp at flooded

/-- The id is nobody's yet. -/
structure Untouched (locate : Str → Option (Fin n)) (id : MessageId) (s : Mesh n) (trace : List (Fin n × Output)) :
    Prop where
  sound : Sound locate s
  none : Copies id (fun _ => False) s
  unaccepted : ∀ k, (k,.checked id false) ∉ trace

theorem run_untouched (initial : Initial s) {id : MessageId} (setup : List (Label n))
    (ordinary : Always (step locate) (fun s label => Routine locate s label ∧ label.Avoids id) setup s) :
    Untouched locate id (run (step locate) setup s).state (run (step locate) setup s).events := by
  have started : Untouched locate id s [] := by
    refine ⟨initial.sound,⟨fun i link member => ?_,fun k identity env member => ?_,fun i env member => ?_⟩,by simp⟩
    · rw [initial.routing i] at member
      cases member
    · rw [initial.pipe] at member
      cases member
    · obtain ⟨_,_,_,new⟩ := initial.fresh i
      rw [new] at member
      cases member
  have all := run_history (step locate) (Untouched locate id) (fun s trace label met untouched => ?_) setup s []
    ordinary started
  · simpa using all
  · obtain ⟨routine,avoids⟩ := met
    have routed (k : Fin n) (e : Envelope) (tapped : (k,.tap e) ∈ (step locate label s).events)
        (application : Keys.isReservedKey e.header.handlerKey = false)
        (same : dedupId e.header.messageUuid = id) : False := by
      refine (routed_source tapped application (.inl (same ▸ avoids))).allowed untouched.none application same ?_
      rintro clientId env m rfl rfl
      exact avoids (by rwa [Broker.stamp_uuid] at same)
    refine ⟨step_sound locate s label routine untouched.sound,
      (step_moves untouched.sound routine).copies untouched.none fun k e tapped copy => ?_,fun k member => ?_⟩
    · exact routed k e tapped copy.application copy.same
    · rcases List.mem_append.mp member with early | now
      · exact untouched.unaccepted k early
      · obtain ⟨e,tapped,application,same⟩ := accepted_routed untouched.sound now
        exact routed k e tapped application same

end Mesh

end Wisp
