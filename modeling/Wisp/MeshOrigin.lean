import Wisp.MeshDedup

/-! Where a broker takes a message to come from. It reaches the broker as a client's
publication, on the ROUTER from a link another broker dialed, or through the inbound
queue of a link the broker dialed itself; only the last is taken to be the mesh. -/
namespace Wisp

open Transition

namespace Label

variable {n : Nat}

/-- `!isFromPeer` as `processMessage` is called. -/
def isLocal : Label n → Bool
  | .inbound _ _ => false
  | _ => true

/-- A message from an ordinary client of broker `k`. -/
def Ordinary (k : Fin n) : Label n → Prop
  | .client i _ _ _ => i = k
  | _ => False

/-- The client leaves the stamp to the broker. -/
def Unstamped : Label n → Prop
  | .client _ _ env _ => env.header.messageUuid = []
  | _ => True

end Label

namespace Mesh

variable {n : Nat} {locate : Str → Option (Fin n)} {s : Mesh n}

/-- Local is what the broker's own clients published, and mesh what links brought in. -/
structure HonoursOrigin (label : Label n) (k : Fin n) (brokerId : Str) (e : Envelope) : Prop where
  classified : label.isLocal = true ↔ e.header.originBrokerId = brokerId
  localScope : scopeAccepts .local label.isLocal = true ↔ label.Ordinary k
  meshScope : scopeAccepts .mesh label.isLocal = true ↔ ¬label.Ordinary k

/-- The ways an application message gets to a broker `k`: the state without it in
its queue, and how the broker is handed it. -/
inductive Carries (locate : Str → Option (Fin n)) (s : Mesh n) (k : Fin n) :
    Label n → Mesh n → Envelope → Str → Bool → Moment → Prop
  | client {clientId : Str} {env : Envelope} {m : Moment} (free : ¬s.Linked locate k clientId) :
      Carries locate s k (.client k clientId env m) s env clientId false m
  | flooded {i : Fin n} {key : Str} {link : PeerLink} {env : Envelope} {m : Moment}
      (joins : s.Joins locate i key link k) (head : link.encoded.head? = some env) :
      Carries locate s k (.flooded i key m)
        (s.setBroker i ((s.broker i).mapLink key PeerLink.popEncoded)) env link.linkId false m
  | inbound {env : Envelope} {rest : List Envelope} {m : Moment} (queued : (s.broker k).inbound = env :: rest) :
      Carries locate s k (.inbound k m) (s.setBroker k { s.broker k with inbound := rest }) env
        (str "PEER") true m

theorem arrive_event {k j : Fin n} {env : Envelope} {senderId : Str} {isFromPeer : Bool} {m : Moment}
    {output : Output} (reported : (j,output) ∈ (s.arrive k env senderId isFromPeer m).events) :
    j = k ∧ output ∈ ((s.broker k).processMessage env senderId isFromPeer m).events := by
  obtain ⟨output,member,same⟩ := List.mem_map.mp reported
  obtain ⟨rfl,rfl⟩ := Prod.mk.inj same
  exact ⟨rfl,member⟩

/-- A step that shows an application message is the arrival of that message. -/
theorem step_shown {label : Label n} {k : Fin n} {output : Output} {e : Envelope}
    (reported : (k,output) ∈ (step locate label s).events) (shows : Broker.Shows e output)
    (application : Keys.isReservedKey e.header.handlerKey = false) :
    ∃ start env senderId isFromPeer m, Carries locate s k label start env senderId isFromPeer m ∧
      step locate label s = start.arrive k env senderId isFromPeer m ∧ e = (start.broker k).stamp env m ∧
      Keys.isReservedKey env.header.handlerKey = false ∧
      ((start.broker k).seen.isDuplicate ((start.broker k).stamp env m).header.messageUuid).2 = false := by
  have effect := step_effect locate label s
  have control {start : Mesh n} {j : Fin n} {env : Envelope} {senderId : Str} {m : Moment}
      (reported : (k,output) ∈ (start.arrive j env senderId false m).events)
      (reserved : Keys.isReservedKey env.header.handlerKey = true) : False := by
    have published := (Broker.shown_routed (arrive_event reported).2 shows application).2.1
    simp [reserved] at published
  have silent (quiet : Broker.Silent output) : False := by
    rcases shows with rfl | ⟨_,_,rfl⟩ <;> simp [Broker.Silent,application] at quiet
  generalize step locate label s = outcome at effect reported ⊢
  cases effect with
  | client env m free =>
    obtain ⟨rfl,routed⟩ := arrive_event reported
    exact ⟨s,env,_,_,m,.client free,rfl,Broker.shown_routed routed shows application⟩
  | flooded env m joins led head =>
    obtain ⟨rfl,routed⟩ := arrive_event reported
    exact ⟨_,env,_,_,m,.flooded joins head,rfl,Broker.shown_routed routed shows application⟩
  | inbound env m queued =>
    obtain ⟨rfl,routed⟩ := arrive_event reported
    exact ⟨_,env,_,_,m,.inbound queued,rfl,Broker.shown_routed routed shows application⟩
  | control message m joins head => exact (control reported (by simp [message.key_reserved])).elim
  | closing message m found target head => exact (control reported (by simp [message.key_reserved])).elim
  | heartbeat m joins led => exact (control reported rfl).elim
  | expire discovery keys =>
    obtain ⟨other,member,same⟩ := List.mem_map.mp reported
    exact (silent ((Prod.mk.inj same).2 ▸ Broker.removePeers_silent _ _ other member)).elim
  | hangup =>
    obtain ⟨other,member,same⟩ := List.mem_map.mp reported
    exact (silent ((Prod.mk.inj same).2 ▸ Broker.removePeer_silent _ _ other member)).elim
  | _ => cases reported

section

variable {k : Fin n} {label : Label n} {start : Mesh n} {env : Envelope} {senderId : Str} {isFromPeer : Bool}
  {m : Moment} (carries : Carries locate s k label start env senderId isFromPeer m)

include carries

/-- Taking the message out of its queue changes nothing that routing it reads. -/
theorem Carries.agrees : (start.broker k).subscriptions = (s.broker k).subscriptions ∧
    (start.broker k).clients = (s.broker k).clients ∧ (start.broker k).brokerId = (s.broker k).brokerId := by
  cases carries with
  | client free => exact ⟨rfl,rfl,rfl⟩
  | @flooded i _ _ _ _ joins head =>
    by_cases same : k = i
    · subst same; simp [setBroker,Broker.mapLink,Routing.mapLink]
    · simp [setBroker,same]
  | inbound queued => simp [setBroker]

/-- Who is sent the message, read off the state before the step. -/
theorem Carries.sends (consistent : (s.broker k).subscriptions.Consistent)
    (published : Keys.isReservedKey env.header.handlerKey = false)
    (fresh : ((start.broker k).seen.isDuplicate ((start.broker k).stamp env m).header.messageUuid).2 = false)
    (clientId : Str) (accepted : Bool) :
    (k,.send clientId ((start.broker k).stamp env m) accepted) ∈ (start.arrive k env senderId isFromPeer m).events ↔
      accepted = m.accepts clientId ((start.broker k).stamp env m) ∧ (isFromPeer = true ∨ clientId ≠ senderId) ∧
        clientId ∈ (s.broker k).clients ∧
        Broker.Wants (s.broker k).subscriptions clientId env.header.topic (!isFromPeer) := by
  obtain ⟨subscriptions,clients,-⟩ := carries.agrees
  rw [← subscriptions] at consistent
  rw [← subscriptions,← clients,← Broker.routed_sends consistent published fresh accepted]
  simp [arrive,absorb]

theorem Carries.isLocal : label.isLocal = !isFromPeer := by
  cases carries <;> rfl

theorem Carries.sender {clientId : Str} (ordinary : ¬s.Linked locate k clientId)
    (other : ∀ env m, label ≠ .client k clientId env m) : isFromPeer = true ∨ clientId ≠ senderId := by
  cases carries with
  | client free =>
    refine .inr ?_
    rintro rfl
    exact other _ _ rfl
  | flooded joins head =>
    refine .inr ?_
    rintro rfl
    exact ordinary (.inl ⟨_,_,List.mem_of_find?_eq_some joins.found,joins.target,rfl⟩)
  | inbound queued => exact .inl rfl

/-- The origin is honoured on a link the broker dialed and lost on one it was dialed on. -/
theorem Carries.honoursOrigin (unstamped : label.Unstamped) :
    HonoursOrigin label k (s.broker k).brokerId ((start.broker k).stamp env m) ↔
      label.Ordinary k ∨ (∃ m, label = .inbound k m) ∧
        ((start.broker k).stamp env m).header.originBrokerId ≠ (s.broker k).brokerId := by
  cases carries with
  | client free =>
    have stamped : ((s.broker k).stamp env m).header.originBrokerId = (s.broker k).brokerId := by
      rw [Broker.stamp,show env.header.messageUuid = [] from unstamped]
      rfl
    refine iff_of_true ⟨by simp [Label.isLocal,stamped],?_,?_⟩ (.inl rfl)
    · simp [Label.isLocal,Label.Ordinary]
    · simp [Label.isLocal,Label.Ordinary]
  | flooded joins head =>
    refine iff_of_false (fun honours => ?_) (by simp [Label.Ordinary])
    have := honours.localScope
    simp [Label.isLocal,Label.Ordinary] at this
  | inbound queued =>
    constructor
    · intro honours
      refine .inr ⟨⟨m,rfl⟩,fun own => ?_⟩
      have := honours.classified.mpr own
      simp [Label.isLocal] at this
    · rintro (ordinary | ⟨-,foreign⟩)
      · simp [Label.Ordinary] at ordinary
      · exact ⟨by simp [Label.isLocal,foreign],by simp [Label.isLocal,Label.Ordinary],
          by simp [Label.isLocal,Label.Ordinary]⟩

end

/-- When the origin scopes are honoured, and that deliveries follow them: an ordinary
client other than the publisher gets the message exactly when one of its subscriptions
takes what the broker holds the origin to be. -/
theorem origin_scope_honoured_iff (locate : Str → Option (Fin n)) (s : Mesh n) (initial : Initial s)
    (schedule : List (Label n)) (label : Label n) (unstamped : label.Unstamped) (k : Fin n) (e : Envelope)
    (application : Keys.isReservedKey e.header.handlerKey = false)
    (routed : (k,.tap e) ∈ (step locate label (run (step locate) schedule s).state).events) :
    (HonoursOrigin label k ((run (step locate) schedule s).state.broker k).brokerId e ↔
      label.Ordinary k ∨ (∃ m, label = .inbound k m) ∧
        e.header.originBrokerId ≠ ((run (step locate) schedule s).state.broker k).brokerId) ∧
    ∀ clientId ∈ ((run (step locate) schedule s).state.broker k).clients,
      ¬(run (step locate) schedule s).state.Linked locate k clientId →
      (∀ env m, label ≠ .client k clientId env m) →
      ((∃ accepted, (k,.send clientId e accepted) ∈
          (step locate label (run (step locate) schedule s).state).events) ↔
        Broker.Wants ((run (step locate) schedule s).state.broker k).subscriptions clientId e.header.topic
          label.isLocal) := by
  have consistent := ((run_accounted locate initial schedule).valid k).consistent
  generalize (run (step locate) schedule s).state = reached at *
  obtain ⟨start,env,senderId,isFromPeer,m,carries,stepped,rfl,published,fresh⟩ := step_shown routed (.inl rfl) application
  refine ⟨carries.honoursOrigin unstamped,fun clientId known ordinary other => ?_⟩
  simp only [stepped,carries.sends consistent published fresh,exists_eq_left,Broker.stamp_topic,known,
    carries.sender ordinary other,carries.isLocal,true_and]

/-- The publication as broker `i` of the pair stamps it. -/
def stampedBy (i : Fin 2) (topic : Str) (number : UInt8) : Envelope :=
  ⟨{ handlerKey := str "news", topic, originBrokerId := pairIds i, messageUuid := List.replicate 15 0 ++ [number] },[]⟩

/-- The first broker dialed the second, and a client of each subscribed: at the second
for what its own clients publish, at the first for what the mesh brings. -/
def scopedSubscribers : List (Label 2) :=
  [.client 0 (str "m") (subscription (str "t") .mesh) (stamping 0),
    .client 1 (str "l") (subscription (str "t") .local) (stamping 0),
    .dial 0 (str "b") (str "b"),.control 0 (str "b") (stamping 0),.control 0 (str "b") (stamping 0)]

/-- A message of the second broker's client comes back over the link the first one dialed. -/
theorem origin_scope_honoured_inbound :
    let reached := (run (step pair) (scopedSubscribers ++
      [.client 1 (str "p") (publication (str "t")) (stamping 1),.answer 0 (str "b") true])
      (start pairIds fun _ => none)).state
    HonoursOrigin (.inbound 0 (stamping 0) : Label 2) 0 (reached.broker 0).brokerId (stampedBy 1 (str "t") 1) :=
  (origin_scope_honoured_iff pair _ (start_initial _ _) _ (.inbound 0 (stamping 0)) trivial 0 (stampedBy 1 (str "t") 1)
    (by decide) (by decide +kernel)).1.mpr (.inr ⟨⟨_,rfl⟩,by decide +kernel⟩)

/-- A message of the first broker's client crosses the link the second one was dialed
on, and a subscriber that asked for local messages only is sent it. -/
theorem local_scope_sent_foreign_message :
    let reached := (run (step pair) (scopedSubscribers ++
      [.client 0 (str "p") (publication (str "t")) (stamping 1)]) (start pairIds fun _ => none)).state
    let label : Label 2 := .flooded 0 (str "b") (stamping 0)
    (1,.send (str "l") (stampedBy 0 (str "t") 1) true) ∈ (step pair label reached).events ∧
      (reached.broker 1).subscriptions.scopeOf (str "l") (str "t") = some .local ∧
      (stampedBy 0 (str "t") 1).header.originBrokerId ≠ (reached.broker 1).brokerId ∧
      ¬HonoursOrigin label 1 (reached.broker 1).brokerId (stampedBy 0 (str "t") 1) := by
  refine ⟨by decide +kernel,by decide +kernel,by decide +kernel,fun honours => ?_⟩
  simpa [Label.isLocal,Label.Ordinary] using honours.localScope

end Mesh

end Wisp
