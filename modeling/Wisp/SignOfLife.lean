import Wisp.BrokerRun

/-! What a message on the ROUTER socket does to its sender's session: when it was last
seen, and whether it is asked to rebuild. -/
namespace Wisp

open Transition

namespace Broker

def lastSeenOf (clientId : Str) (b : Broker) : Option Nat :=
  (b.clients.lookup clientId).map ClientState.lastSeen

@[simp] theorem touch_lastSeen (senderId : Str) (now : Nat) (b : Broker) :
    (b.touch senderId now).lastSeenOf senderId = some now := by
  simp [lastSeenOf,touch]

theorem noteDroppedTo_lastSeen (other clientId : Str) (b : Broker) :
    (b.noteDroppedTo other).lastSeenOf clientId = b.lastSeenOf clientId := by
  unfold noteDroppedTo lastSeenOf
  dsimp only
  split
  · rfl
  next client entry =>
    by_cases same : clientId = other
    · rw [same,AList.lookup_insert,entry]
      rfl
    · rw [AList.lookup_insert_ne same]

theorem deliverToSubscribers_lastSeen (env : Envelope) (senderId : Str) (isFromPeer : Bool) (m : Moment)
    (clientId : Str) (b : Broker) :
    (b.deliverToSubscribers env senderId isFromPeer m).state.lastSeenOf clientId = b.lastSeenOf clientId := by
  refine List.foldlRecOn (motive := fun b' : Broker => b'.lastSeenOf clientId = b.lastSeenOf clientId) _ _ rfl
    fun b' same other _ => ?_
  split
  · exact same
  · rw [noteDroppedTo_lastSeen,same]

/-- The SET_CLUSTER would take effect. -/
def swaps (newCluster : Str) (b : Broker) : Bool :=
  Beacon.isValidClusterName newCluster && b.discovery.isSome && newCluster != b.clusterName

theorem unlinkInboundPeers_lastSeen (m : Moment) (clientId : Str) (b : Broker) :
    (b.unlinkInboundPeers m).state.lastSeenOf clientId =
      if linkPrefix.isPrefixOf clientId then none else b.lastSeenOf clientId := by
  have each (gone : List Str) (b : Broker) :
      (gone.foldl (fun b other => b.removeClient other) b).lastSeenOf clientId =
        if clientId ∈ gone then none else b.lastSeenOf clientId := by
    induction gone generalizing b with
    | nil => rfl
    | cons other rest ih =>
      rw [List.foldl_cons,ih]
      by_cases same : clientId = other
      · subst same
        simp [lastSeenOf,removeClient]
      · simp [same,lastSeenOf,removeClient,AList.lookup_erase_ne same]
  rw [unlinkInboundPeers,each]
  by_cases link : linkPrefix.isPrefixOf clientId = true
  · rw [if_pos link]
    split
    · rfl
    next missing =>
      have unknown : clientId ∉ b.clients := fun member =>
        missing (List.mem_filter.mpr ⟨AList.mem_keys.mp member,link⟩)
      simp [lastSeenOf,AList.lookup_eq_none.mpr unknown]
  · rw [if_neg link,if_neg fun member => link (List.mem_filter.mp member).2]

/-- A swap forgets the inbound links, and so the sender if it is one. -/
theorem handleSetCluster_lastSeen (newCluster : Str) (m : Moment) (clientId : Str) (b : Broker) :
    (b.handleSetCluster newCluster m).state.lastSeenOf clientId =
      if b.swaps newCluster && linkPrefix.isPrefixOf clientId then none else b.lastSeenOf clientId := by
  unfold handleSetCluster swaps
  split
  next invalid => simp_all
  next valid =>
    cases found : b.discovery with
    | none => simp
    | some d =>
      dsimp only
      split
      next same => simp [same]
      next different =>
        have kept (rest : Broker) := (removePeers_sameClients (d.setCluster newCluster).2 rest).clients
        rw [Outcome.andThen_state,lastSeenOf,kept]
        have left := unlinkInboundPeers_lastSeen m clientId { b with clusterName := newCluster }
        simp_all [lastSeenOf]

theorem handleClientMessage_lastSeen (env : Envelope) (senderId : Str) (m : Moment) (b : Broker)
    (remains : env.header.handlerKey ≠ Keys.disconnect) :
    (b.handleClientMessage env senderId m).1.state.lastSeenOf senderId =
      if env.header.handlerKey = Keys.setCluster ∧ b.swaps env.payload = true ∧
        linkPrefix.isPrefixOf senderId = true then none else some m.now := by
  have seen := touch_lastSeen senderId m.now b
  unfold handleClientMessage
  dsimp only
  rw [if_neg remains]
  by_cases swap : env.header.handlerKey = Keys.setCluster
  · have others : Keys.setCluster ≠ Keys.connect ∧ Keys.setCluster ≠ Keys.heartbeat ∧
        Keys.setCluster ≠ Keys.subscribe ∧ Keys.setCluster ≠ Keys.unsubscribe := by decide
    simp only [swap,others,if_false,if_true,Outcome.andThen_state,handleSetCluster_lastSeen,seen,true_and]
    exact if_congr (Bool.and_eq_true_iff) rfl rfl
  · rw [if_neg (not_and_of_not_left _ swap)]
    split_ifs
    · exact seen
    · exact seen
    · rw [lastSeenOf,handleSubscribe_clients]
      exact seen
    · exact seen
    · exact seen

/-- Whether the message is turned away by the loop protection. -/
def repeats (env : Envelope) (m : Moment) (b : Broker) : Bool :=
  !Keys.isReservedKey env.header.handlerKey && (b.seen.isDuplicate (b.stamp env m).header.messageUuid).2

theorem repeated_same {env : Envelope} {m : Moment} {b : Broker} (again : b.repeats env m = true) (senderId : Str) :
    (b.processMessage env senderId false m).state.clients = b.clients ∧
      (b.processMessage env senderId false m).events =
        [.checked (dedupId (b.stamp env m).header.messageUuid) true] := by
  rw [repeats,Bool.and_eq_true,Bool.not_eq_true'] at again
  rw [processMessage_duplicate env senderId false m b again.1 again.2]
  exact ⟨rfl,rfl⟩

theorem heard_lastSeen {env : Envelope} {m : Moment} {b : Broker} (heard : b.repeats env m = false)
    (senderId : Str) (remains : env.header.handlerKey ≠ Keys.disconnect) :
    (b.processMessage env senderId false m).state.lastSeenOf senderId =
      if env.header.handlerKey = Keys.setCluster ∧ b.swaps env.payload = true ∧
        linkPrefix.isPrefixOf senderId = true then none else some m.now := by
  cases reserved : Keys.isReservedKey env.header.handlerKey with
  | true =>
    rw [processMessage_reserved env senderId m b reserved,handleClientMessage_lastSeen _ _ _ _ (by simpa using remains)]
    simp only [stamp_key,stamp_payload]
    rfl
  | false =>
    have fresh : (b.seen.isDuplicate (b.stamp env m).header.messageUuid).2 = false := by
      simpa [repeats,reserved] using heard
    have other : env.header.handlerKey ≠ Keys.setCluster := by
      intro swap
      rw [swap] at reserved
      exact absurd reserved (by decide)
    rw [processMessage_routed env senderId false m b reserved fresh,if_neg (not_and_of_not_left _ other)]
    have delivered := deliverToSubscribers_lastSeen (b.stamp env m) senderId false m senderId
      (b.ready env senderId false m)
    rw [ready,if_neg Bool.false_ne_true,touch_lastSeen] at delivered
    exact delivered

def isResetTo (clientId : Str) : Output → Bool
  | .send identity env _ => identity == clientId && env.header.handlerKey == Keys.reset
  | _ => false

theorem greet_resets (key senderId : Str) (m : Moment) (b : Broker) :
    (b.greet key senderId m).countP (isResetTo senderId) =
      if senderId ∉ b.clients ∧ key ≠ Keys.connect then 1 else 0 := by
  unfold greet
  split
  · simp [isResetTo,Moment.sendTo,Wire.makeControl_key]
  · rfl

/-- No other report of a turn is a RESET. -/
theorem no_resets {events : List Output} (senderId : Str)
    (other : ∀ identity env accepted, .send identity env accepted ∈ events → env.header.handlerKey ≠ Keys.reset) :
    events.countP (isResetTo senderId) = 0 := by
  refine List.countP_eq_zero.mpr fun output member => ?_
  cases output with
  | send identity env accepted => simp [isResetTo,other identity env accepted member]
  | _ => simp [isResetTo]

theorem handleSetCluster_resets (newCluster : Str) (m : Moment) (senderId : Str) (b : Broker) :
    (b.handleSetCluster newCluster m).events.countP (isResetTo senderId) = 0 := by
  refine no_resets senderId fun identity env accepted member => ?_
  rcases handleSetCluster_outputs member with ⟨other,sent⟩ | ⟨link,-,brokerId,closed⟩
  · obtain ⟨-,rfl,-⟩ := Output.send.inj sent
    rw [Wire.makeControl_key]
    decide
  · cases closed

theorem handleClientMessage_resets (env : Envelope) (senderId : Str) (m : Moment) (b : Broker)
    (remains : env.header.handlerKey ≠ Keys.disconnect) :
    (b.handleClientMessage env senderId m).1.events.countP (isResetTo senderId) =
      (b.greet env.header.handlerKey senderId m).countP (isResetTo senderId) := by
  unfold handleClientMessage
  dsimp only
  rw [if_neg remains]
  split_ifs
  · rfl
  · have other : Keys.heartbeatAck ≠ Keys.reset := by decide
    simp [isResetTo,Moment.sendTo,Wire.makeControl_key,other]
  · rfl
  · rfl
  · rw [Outcome.andThen_events,List.countP_append,handleSetCluster_resets]
    rfl
  · rfl

theorem heard_resets {env : Envelope} {m : Moment} {b : Broker} (heard : b.repeats env m = false)
    (senderId : Str) (remains : env.header.handlerKey ≠ Keys.disconnect) :
    (b.processMessage env senderId false m).events.countP (isResetTo senderId) =
      if senderId ∉ b.clients ∧ env.header.handlerKey ≠ Keys.connect then 1 else 0 := by
  rw [← greet_resets env.header.handlerKey senderId m b]
  cases reserved : Keys.isReservedKey env.header.handlerKey with
  | true =>
    have tapped : isResetTo senderId (.tap (b.stamp env m)) = false := rfl
    rw [processMessage_reserved env senderId m b reserved,List.countP_cons_of_neg (by simp [tapped]),
      handleClientMessage_resets _ _ _ _ (by simpa using remains),stamp_key]
    rfl
  | false =>
    have fresh : (b.seen.isDuplicate (b.stamp env m).header.messageUuid).2 = false := by
      simpa [repeats,reserved] using heard
    have routed : ∀ identity sent accepted, .send identity sent accepted ∈ (deliverToSubscribers (b.stamp env m)
        senderId false m (b.ready env senderId false m)).events → sent.header.handlerKey ≠ Keys.reset := by
      intro identity sent accepted member
      obtain ⟨clientId,-,delivered⟩ := List.mem_map.mp member
      obtain ⟨-,rfl,-⟩ := Output.send.inj delivered
      intro same
      rw [← stamp_key env m b,same] at reserved
      exact absurd reserved (by decide)
    rw [processMessage_routed env senderId false m b reserved fresh]
    have flooded (b' : Broker) : (floodPeers (b.stamp env m) m b').events.countP (isResetTo senderId) = 0 :=
      no_resets senderId fun identity sent accepted member => by simp [floodPeers] at member
    simp [isResetTo,flooded,no_resets senderId routed]

/-- The message counted: its sender is a client seen now, and was asked to rebuild if and
only if the broker did not know it and it did not lead with CONNECT. -/
def CountsAsLife (env : Envelope) (senderId : Str) (m : Moment) (b : Broker) : Prop :=
  (b.processMessage env senderId false m).state.lastSeenOf senderId = some m.now ∧
    (b.processMessage env senderId false m).events.countP (isResetTo senderId) =
      if senderId ∉ b.clients ∧ env.header.handlerKey ≠ Keys.connect then 1 else 0

instance (env : Envelope) (senderId : Str) (m : Moment) (b : Broker) : Decidable (b.CountsAsLife env senderId m) :=
  inferInstanceAs (Decidable (_ ∧ _))

theorem repeated_countsAsLife_iff {env : Envelope} {m : Moment} {b : Broker} (again : b.repeats env m = true)
    (senderId : Str) : b.CountsAsLife env senderId m ↔ b.lastSeenOf senderId = some m.now := by
  obtain ⟨clients,events⟩ := repeated_same again senderId
  have same : (b.processMessage env senderId false m).state.lastSeenOf senderId = b.lastSeenOf senderId := by
    rw [lastSeenOf,clients]
    rfl
  rw [CountsAsLife,same,events]
  refine ⟨And.left,fun seen => ⟨seen,?_⟩⟩
  have known : senderId ∈ b.clients := by
    apply AList.lookup_isSome.mp
    cases entry : b.clients.lookup senderId with
    | none => simp [lastSeenOf,entry] at seen
    | some => rfl
  rw [if_neg (not_and_of_not_left _ (not_not.mpr known))]
  rfl

/-- A message counts as a sign of life except when the loop protection turns it away at
a later time than its sender was last seen, and when it is a swap that forgets its own sender. -/
theorem counts_as_life_iff (brokerId clusterName : Str) (discovery : Option Discovery) (activities : List Activity)
    (env : Envelope) (senderId : Str) (m : Moment) (remains : env.header.handlerKey ≠ Keys.disconnect) :
    let b := (run act activities (new brokerId clusterName discovery)).state
    b.CountsAsLife env senderId m ↔
      (Keys.isReservedKey env.header.handlerKey = true ∨
        (b.seen.isDuplicate (b.stamp env m).header.messageUuid).2 = false ∨ b.lastSeenOf senderId = some m.now) ∧
      ¬(env.header.handlerKey = Keys.setCluster ∧ b.swaps env.payload = true ∧
        linkPrefix.isPrefixOf senderId = true) := by
  intro b
  cases again : b.repeats env m with
  | true =>
    rw [repeated_countsAsLife_iff again]
    rw [repeats,Bool.and_eq_true,Bool.not_eq_true'] at again
    have other : env.header.handlerKey ≠ Keys.setCluster := by
      intro swap
      rw [swap] at again
      exact absurd again.1 (by decide)
    simp [again,other]
  | false =>
    rw [CountsAsLife,heard_lastSeen again senderId remains,heard_resets again senderId remains]
    have passes : Keys.isReservedKey env.header.handlerKey = true ∨
        (b.seen.isDuplicate (b.stamp env m).header.messageUuid).2 = false := by
      rwa [repeats,Bool.and_eq_false_iff,Bool.not_eq_false'] at again
    have counted : Keys.isReservedKey env.header.handlerKey = true ∨
        (b.seen.isDuplicate (b.stamp env m).header.messageUuid).2 = false ∨
          b.lastSeenOf senderId = some m.now := passes.elim .inl fun fresh => .inr (.inl fresh)
    simp [counted]

/-- A client that joins. -/
def joinsAs (senderId : Str) : Activity :=
  .operation (.receive senderId (Wire.makeControl Keys.connect senderId []) (.roomy []))

/-- A message on topic t, published with the uuid u. -/
def publicationOf (senderId : Str) : Envelope :=
  ⟨{ handlerKey := str "chat", topic := str "t", messageUuid := str "u", senderId },[]⟩

def momentAt (now : Nat) : Moment := { Moment.roomy [] with now }

theorem counts_as_life_published : (publicationOf (str "c")).header.handlerKey ≠ Keys.disconnect ∧
    (run act [joinsAs (str "c")] (new (str "A") (str "a") none)).state.CountsAsLife
      (publicationOf (str "c")) (str "c") (momentAt 7) :=
  ⟨by decide,(counts_as_life_iff (str "A") (str "a") none [joinsAs (str "c")] (publicationOf (str "c")) (str "c")
    (momentAt 7) (by decide)).mpr ⟨.inr (.inl (by decide +kernel)),by decide +kernel⟩⟩

/-- An identity the broker does not know publishes with a uuid it has seen: no session is
entered and no RESET is sent. A client that does the same is not seen either. -/
theorem repeated_uuid_shows_no_life :
    let b := (run act [joinsAs (str "c"),
      .operation (.receive (str "c") (publicationOf (str "c")) (momentAt 7))]
        (new (str "A") (str "a") none)).state
    let later := (b.processMessage (publicationOf (str "d")) (str "d") false (momentAt 8))
    str "d" ∉ b.clients ∧ str "d" ∉ later.state.clients ∧ later.events.countP (isResetTo (str "d")) = 0 ∧
    ¬b.CountsAsLife (publicationOf (str "d")) (str "d") (momentAt 8) ∧
    ¬b.CountsAsLife (publicationOf (str "c")) (str "c") (momentAt 8) := by
  decide +kernel

end Broker

end Wisp
