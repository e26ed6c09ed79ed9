import Wisp.BrokerLoop

/-! When a client's session ends. Only its own goodbye, a cluster swap or a sweep ends it,
and a sweep no earlier than its timeout after its last sign of life. A silent client goes
with the sweeps, sixteen at a time. -/
namespace Wisp

open Transition

namespace Broker

/-- The message from this sender ends the client's session. -/
def ends (env : Envelope) (senderId clientId : Str) (b : Broker) : Bool :=
  (env.header.handlerKey == Keys.disconnect && clientId == senderId) ||
    (env.header.handlerKey == Keys.setCluster && b.swaps env.payload && linkPrefix.isPrefixOf clientId)

theorem mem_clients_iff (clientId : Str) (b : Broker) : clientId ∈ b.clients ↔ ∃ t, b.lastSeenOf clientId = some t := by
  rw [← AList.lookup_isSome,lastSeenOf,Option.isSome_iff_exists]
  constructor
  · rintro ⟨client,entry⟩
    exact ⟨client.lastSeen,by rw [entry]; rfl⟩
  · rintro ⟨t,seen⟩
    obtain ⟨client,entry,-⟩ := Option.map_eq_some_iff.mp seen
    exact ⟨client,entry⟩

theorem touch_lastSeenOf (senderId : Str) (now : Nat) (clientId : Str) (b : Broker) :
    (b.touch senderId now).lastSeenOf clientId = if clientId = senderId then some now else b.lastSeenOf clientId := by
  split
  next same =>
    subst same
    exact touch_lastSeen clientId now b
  next different =>
    unfold lastSeenOf touch
    rw [AList.lookup_insert_ne different]

theorem removeClient_lastSeen (other clientId : Str) (b : Broker) :
    (b.removeClient other).lastSeenOf clientId = if clientId = other then none else b.lastSeenOf clientId := by
  unfold lastSeenOf removeClient
  split
  next same =>
    subst same
    rw [AList.lookup_erase]
    rfl
  next different => rw [AList.lookup_erase_ne different]

theorem handleClientMessage_seen (env : Envelope) (senderId : Str) (m : Moment) (clientId : Str) (b : Broker) :
    (b.handleClientMessage env senderId m).1.state.lastSeenOf clientId =
      if b.ends env senderId clientId then none
      else if clientId = senderId then some m.now else b.lastSeenOf clientId := by
  have touched := touch_lastSeenOf senderId m.now clientId b
  unfold ends handleClientMessage
  dsimp only
  split
  next leaves =>
    have other : Keys.disconnect ≠ Keys.setCluster := by decide
    rw [removeClient_lastSeen]
    by_cases same : clientId = senderId <;> simp [leaves,same,other]
  next remains =>
    by_cases swap : env.header.handlerKey = Keys.setCluster
    · have others : Keys.setCluster ≠ Keys.disconnect ∧ Keys.setCluster ≠ Keys.connect ∧
          Keys.setCluster ≠ Keys.heartbeat ∧ Keys.setCluster ≠ Keys.subscribe ∧
          Keys.setCluster ≠ Keys.unsubscribe := by decide
      simp only [swap,others,if_false,if_true,Outcome.andThen_state,handleSetCluster_lastSeen,touched]
      simp [others]
      rfl
    · have stays : (env.header.handlerKey == Keys.disconnect) = false := by simpa using remains
      have unswapped : (env.header.handlerKey == Keys.setCluster) = false := by simpa using swap
      rw [stays,unswapped,Bool.false_and,Bool.false_and,Bool.false_and,Bool.or_false,if_neg Bool.false_ne_true,← touched]
      split_ifs
      · rfl
      · rfl
      · rw [lastSeenOf,handleSubscribe_clients]
        rfl
      · rfl
      · rfl

/-- What a message on the ROUTER socket does to any client's session. -/
theorem processMessage_lastSeen (env : Envelope) (senderId : Str) (m : Moment) (clientId : Str) (b : Broker) :
    (b.processMessage env senderId false m).state.lastSeenOf clientId =
      if b.ends env senderId clientId then none
      else if clientId = senderId ∧ b.repeats env m = false then some m.now else b.lastSeenOf clientId := by
  cases reserved : Keys.isReservedKey env.header.handlerKey with
  | true =>
    have heard : b.repeats env m = false := by simp [repeats,reserved]
    rw [processMessage_reserved env senderId m b reserved]
    refine (handleClientMessage_seen (b.stamp env m) senderId m clientId _).trans ?_
    simp only [ends,stamp_key,stamp_payload,heard,and_true]
    rfl
  | false =>
    have routed : b.ends env senderId clientId = false := by
      unfold ends
      have other (key : Str) (control : Keys.isReservedKey key = true) : (env.header.handlerKey == key) = false := by
        rw [beq_eq_false_iff_ne]
        rintro rfl
        exact absurd control (by simp [reserved])
      rw [other _ (by decide),other _ (by decide)]
      rfl
    rw [routed,if_neg Bool.false_ne_true]
    cases repeated : (b.seen.isDuplicate (b.stamp env m).header.messageUuid).2 with
    | true =>
      have again : b.repeats env m = true := by simp [repeats,reserved,repeated]
      rw [if_neg (by simp [again]),lastSeenOf,(repeated_same again senderId).1]
      rfl
    | false =>
      have heard : b.repeats env m = false := by simp [repeats,repeated]
      rw [processMessage_routed env senderId false m b reserved repeated]
      refine (deliverToSubscribers_lastSeen (b.stamp env m) senderId false m clientId _).trans ?_
      refine (touch_lastSeenOf senderId m.now clientId _).trans ?_
      simp only [heard,and_true]
      rfl

/-- What comes over a link touches no client's session. -/
theorem peer_lastSeen (env : Envelope) (senderId : Str) (m : Moment) (clientId : Str) (b : Broker) :
    (b.processMessage env senderId true m).state.lastSeenOf clientId = b.lastSeenOf clientId := by
  cases reserved : Keys.isReservedKey env.header.handlerKey with
  | true =>
    rw [processMessage_peer_reserved env senderId m b reserved]
    rfl
  | false =>
    cases repeated : (b.seen.isDuplicate (b.stamp env m).header.messageUuid).2 with
    | true =>
      rw [processMessage_duplicate env senderId true m b reserved repeated]
      rfl
    | false =>
      rw [processMessage_routed env senderId true m b reserved repeated]
      exact deliverToSubscribers_lastSeen (b.stamp env m) senderId true m clientId _

/-- How many sessions there are. -/
def population (b : Broker) : Nat := b.clients.keys.length

theorem population_le {b b' : Broker} (within : ∀ clientId ∈ b'.clients, clientId ∈ b.clients) :
    b'.population ≤ b.population := by
  apply List.Subperm.length_le
  apply List.Nodup.subperm b'.clients.keys_nodup
  exact fun clientId member => AList.mem_keys.mp (within clientId (AList.mem_keys.mpr member))

theorem population_le_succ {b b' : Broker} (joined : Str)
    (within : ∀ clientId ∈ b'.clients, clientId = joined ∨ clientId ∈ b.clients) : b'.population ≤ b.population + 1 := by
  have subperm : List.Subperm b'.clients.keys (joined :: b.clients.keys) := by
    apply List.Nodup.subperm b'.clients.keys_nodup
    intro clientId member
    rcases within clientId (AList.mem_keys.mpr member) with rfl | known
    · exact List.mem_cons_self
    · exact List.mem_cons_of_mem _ (AList.mem_keys.mp known)
  exact subperm.length_le

end Broker

namespace BrokerLoop

theorem expired_iff (timeout now : Nat) (clientId : Str) (b : Broker) :
    expired timeout now clientId b = true ↔ ∃ t, b.lastSeenOf clientId = some t ∧ t + timeout < now := by
  unfold expired Broker.lastSeenOf
  cases entry : b.clients.lookup clientId with
  | none => simp
  | some client =>
    simp only [decide_eq_true_eq,Option.map_some,Option.some.injEq]
    constructor
    · intro late
      exact ⟨client.lastSeen,rfl,by omega⟩
    · rintro ⟨t,rfl,late⟩
      omega

/-- A sweep takes out the clients it names, and no other. -/
theorem sweep_lastSeen (timeout now : Nat) (order : List Str) (removed : Nat) (clientId : Str) (b : Broker) :
    (sweep timeout now order removed b).state.lastSeenOf clientId =
      if clientId ∈ (sweep timeout now order removed b).events then none else b.lastSeenOf clientId := by
  induction order generalizing removed b with
  | nil => rfl
  | cons first rest ih =>
    unfold sweep
    split
    · split
      · rw [Outcome.andThen_state,Outcome.andThen_events,ih]
        by_cases same : clientId = first
        · simp [same,Broker.removeClient_lastSeen]
        · simp [same,Broker.removeClient_lastSeen]
      · exact ih removed b
    · rfl

/-- Who goes was silent for longer than the timeout. -/
theorem sweep_expired (timeout now : Nat) (order : List Str) (removed : Nat) (b : Broker) :
    ∀ clientId ∈ (sweep timeout now order removed b).events, expired timeout now clientId b = true := by
  induction order generalizing removed b with
  | nil => exact fun _ member => absurd member List.not_mem_nil
  | cons first rest ih =>
    intro clientId member
    unfold sweep at member
    split at member
    · split at member
      next late =>
        rw [Outcome.andThen_events,List.mem_append,List.mem_singleton] at member
        rcases member with rfl | later
        · exact late
        · obtain ⟨t,seen,old⟩ := (expired_iff _ _ _ _).mp (ih _ _ clientId later)
          rw [Broker.removeClient_lastSeen] at seen
          split at seen
          · cases seen
          · exact (expired_iff _ _ _ _).mpr ⟨t,seen,old⟩
      · exact ih removed b clientId member
    · cases member

/-- A silent client that a sweep walks by and leaves is left because the sweep is full. -/
theorem sweep_full {timeout now : Nat} {order : List Str} {removed : Nat} {b : Broker} {clientId : Str}
    (listed : clientId ∈ order) (late : expired timeout now clientId b = true)
    (left : clientId ∉ (sweep timeout now order removed b).events) :
    maxRemovalsPerSweep ≤ removed + (sweep timeout now order removed b).events.length := by
  induction order generalizing removed b with
  | nil => cases listed
  | cons first rest ih =>
    unfold sweep at left ⊢
    split at left
    next room =>
      rw [if_pos room]
      split at left
      next gone =>
        rw [if_pos gone]
        rw [Outcome.andThen_events,List.mem_append,List.mem_singleton,not_or] at left
        have still : expired timeout now clientId (b.removeClient first) = true := by
          obtain ⟨t,seen,old⟩ := (expired_iff _ _ _ _).mp late
          apply (expired_iff _ _ _ _).mpr
          refine ⟨t,?_,old⟩
          rw [Broker.removeClient_lastSeen,if_neg left.1]
          exact seen
        have within := (List.mem_cons.mp listed).resolve_left left.1
        have full := ih within still left.2
        rw [Outcome.andThen_events,List.length_append,List.length_singleton]
        dsimp only at full ⊢
        omega
      next kept =>
        rw [if_neg kept]
        have other : clientId ≠ first := by
          rintro rfl
          exact kept late
        exact ih ((List.mem_cons.mp listed).resolve_left other) late left
    next full =>
      rw [if_neg full]
      dsimp only [List.length_nil]
      omega

theorem removeClient_population {clientId : Str} {b : Broker} (known : clientId ∈ b.clients) :
    (b.removeClient clientId).population + 1 = b.population := by
  have gone : clientId ∉ (b.removeClient clientId).clients := fun member => (AList.mem_erase.mp member).1 rfl
  have listed : List.Perm (clientId :: (b.removeClient clientId).clients.keys) b.clients.keys := by
    apply (List.perm_ext_iff_of_nodup ?_ b.clients.keys_nodup).mpr
    · intro other
      rw [List.mem_cons,← AList.mem_keys,← AList.mem_keys]
      by_cases same : other = clientId
      · simp [same,known]
      · simp [same,Broker.removeClient]
    · exact List.nodup_cons.mpr ⟨fun member => gone (AList.mem_keys.mpr member),AList.keys_nodup _⟩
  exact listed.length_eq

theorem sweep_population (timeout now : Nat) (order : List Str) (removed : Nat) (b : Broker) :
    (sweep timeout now order removed b).state.population + (sweep timeout now order removed b).events.length =
      b.population := by
  induction order generalizing removed b with
  | nil => rfl
  | cons first rest ih =>
    unfold sweep
    split
    · split
      next late =>
        obtain ⟨t,seen,-⟩ := (expired_iff _ _ _ _).mp late
        have fewer := removeClient_population ((b.mem_clients_iff first).mpr ⟨t,seen⟩)
        have rested := ih (removed + 1) (b.removeClient first)
        rw [Outcome.andThen_state,Outcome.andThen_events,List.length_append,List.length_singleton]
        dsimp only at rested ⊢
        omega
      · exact ih removed b
    · rfl

/-- A message of this client is handed to the broker. -/
def Event.isFrom (clientId : Str) : Event → Bool
  | .client identity _ _ => identity == clientId
  | _ => false

/-- A sweep after this instant. -/
def Event.lateSweeps (deadline : Nat) : Event → Nat
  | .sweep now => if deadline < now then 1 else 0
  | _ => 0

def Event.joins : Event → Nat
  | .joined _ => 1
  | _ => 0

def Event.sweeps : Event → Nat
  | .swept _ => 1
  | _ => 0

/-- The step processes a message that ends the client's session. -/
def Departs (config : Config) (clientId : Str) (s : BrokerLoop) (label : Label) : Prop :=
  ∃ identity env bytes, .client identity env bytes ∈ (step config label s).events ∧ s.broker.ends env identity clientId = true

/-- What a step does to one client's session. -/
inductive Turn (config : Config) (clientId : Str) (s : BrokerLoop) (done : Outcome BrokerLoop Event) : Prop
  | same (kept : done.state.broker.lastSeenOf clientId = s.broker.lastSeenOf clientId)
  | heard (kept : done.state.broker.lastSeenOf clientId = some s.clock)
  | departed (identity : Str) (env : Envelope) (bytes : Nat) (reported : .client identity env bytes ∈ done.events)
      (ends : s.broker.ends env identity clientId = true)
  | swept (t : Nat) (seen : s.broker.lastSeenOf clientId = some t)
      (late : t + milliseconds config.clientTimeout < s.clock)

theorem Aside.lastSeen {s s' : BrokerLoop} (same : Aside s s') (clientId : Str) :
    s'.broker.lastSeenOf clientId = s.broker.lastSeenOf clientId := by
  rw [Broker.lastSeenOf,same.clients]
  rfl

theorem noteMalformed_broker (now : Nat) (s : BrokerLoop) :
    (noteMalformed now s).state.broker = s.broker ∧ (noteMalformed now s).state.clock = s.clock := by
  unfold noteMalformed
  dsimp only
  split <;> exact ⟨rfl,rfl⟩

theorem stats_lastSeen (config : Config) (now : Nat) (m : Moment) (clientId : Str) (s : BrokerLoop) :
    (stats config now m s).state.broker.lastSeenOf clientId = s.broker.lastSeenOf clientId := by
  unfold stats
  split
  · refine List.foldlRecOn (motive := fun b : Broker => b.lastSeenOf clientId = s.broker.lastSeenOf clientId) _ _ rfl
      fun b kept other _ => ?_
    split
    · exact kept
    · exact (Broker.noteDroppedTo_lastSeen other clientId b).trans kept
  · rfl

/-- The sweep of a turn of the loop, if one is due, and what it leaves of a session. -/
theorem cleanup_cases (config : Config) (now : Nat) (order : List Str) (s : BrokerLoop) :
    cleanup config now order s = ⟨s,[]⟩ ∨
      cleanup config now order s =
        ⟨{ s with
            broker := (sweep (milliseconds config.clientTimeout) now order 0 s.broker).state, lastCleanup := now },
          .sweep now :: (sweep (milliseconds config.clientTimeout) now order 0 s.broker).events.map .swept⟩ := by
  unfold cleanup
  split
  · exact .inr rfl
  · exact .inl rfl

theorem stats_clock (config : Config) (now : Nat) (m : Moment) (s : BrokerLoop) : (stats config now m s).state.clock = s.clock := by
  unfold stats
  split <;> rfl

theorem Deed.clock {config : Config} {s : BrokerLoop} {done : Outcome BrokerLoop Event} (deed : Deed config s done) :
    done.state.clock = s.clock := by
  cases deed with
  | aside same closed => exact same.clock
  | malformed now same => exact (noteMalformed_broker now _).2.trans same.clock
  | client identity env bytes m same reads => exact same.clock
  | peer env bytes m same => exact same.clock
  | @timers s' order m same walks =>
    rw [Outcome.andThen_state,stats_clock]
    rcases cleanup_cases config s.clock order s' with idle | swept
    · rw [idle]
      exact same.clock
    · rw [swept]
      exact same.clock

theorem step_clock (config : Config) (label : Label) (s : BrokerLoop) :
    (step config label s).state.clock = label.reading.getD s.clock := (step_deed config label s).clock

theorem Deed.turn {config : Config} {s : BrokerLoop} {done : Outcome BrokerLoop Event} (deed : Deed config s done)
    (clientId : Str) : Turn config clientId s done := by
  cases deed with
  | aside same closed => exact .same (same.lastSeen clientId)
  | @malformed s' now same =>
    apply Turn.same
    rw [(noteMalformed_broker now s').1]
    exact same.lastSeen clientId
  | @client s' identity env bytes m same reads unmoved =>
    have after := s'.broker.processMessage_lastSeen env identity m clientId
    rw [unmoved] at after
    have reached : (processClient identity env bytes m s').state.broker = (s.broker.processMessage env identity false m).state := by
      rw [← unmoved]
      rfl
    split at after
    next ending => exact .departed identity env bytes List.mem_cons_self ending
    next =>
      split at after
      · apply Turn.heard
        rw [reached,after,reads]
      · apply Turn.same
        rw [reached,after]
  | @peer s' env bytes m same =>
    exact .same ((s'.broker.peer_lastSeen env (str "PEER") m clientId).trans (same.lastSeen clientId))
  | @timers s' order m same walks =>
    have kept := stats_lastSeen config s.clock m clientId (cleanup config s.clock order s').state
    rcases cleanup_cases config s.clock order s' with idle | swept
    · rw [idle] at kept
      apply Turn.same
      rw [Outcome.andThen_state,idle]
      exact kept.trans (same.lastSeen clientId)
    · have left := sweep_lastSeen (milliseconds config.clientTimeout) s.clock order 0 clientId s'.broker
      split at left
      next gone =>
        obtain ⟨t,seen,late⟩ := (expired_iff _ _ _ _).mp (sweep_expired _ _ _ _ _ clientId gone)
        exact .swept t (same.lastSeen clientId ▸ seen) late
      next =>
        rw [swept] at kept
        apply Turn.same
        rw [Outcome.andThen_state,swept]
        exact kept.trans (left.trans (same.lastSeen clientId))

/-- A session that nothing ends is still there, unless its client was silent for longer
than the timeout when the clock was last read. -/
theorem Turn.stays {config : Config} {clientId : Str} {s : BrokerLoop} {done : Outcome BrokerLoop Event} {t : Nat}
    (turn : Turn config clientId s done) (seen : s.broker.lastSeenOf clientId = some t) (past : t ≤ s.clock)
    (remains : ¬∃ identity env bytes, .client identity env bytes ∈ done.events ∧ s.broker.ends env identity clientId = true)
    (early : s.clock ≤ t + milliseconds config.clientTimeout) :
    ∃ later, t ≤ later ∧ later ≤ s.clock ∧ done.state.broker.lastSeenOf clientId = some later := by
  cases turn with
  | same kept => exact ⟨t,le_rfl,past,kept.trans seen⟩
  | heard kept => exact ⟨s.clock,past,le_rfl,kept⟩
  | departed identity env bytes reported ends => exact absurd ⟨identity,env,bytes,reported,ends⟩ remains
  | swept u other late =>
    obtain rfl := Option.some.inj (other.symm.trans seen)
    omega

theorem run_clock {config : Config} {schedule : List Label} {s : BrokerLoop}
    (timely : Always (step config) OnTime schedule s) : s.clock ≤ (run (step config) schedule s).state.clock := by
  refine run_invariant (step config) (fun s' => s.clock ≤ s'.clock) (fun s' label onTime held => ?_) schedule s timely le_rfl
  rw [step_clock]
  cases reading : label.reading with
  | none => exact held
  | some now => exact le_trans held (onTime now reading)

/-- However the run goes, a client keeps its session for the timeout after its last sign of
life, unless a message ends it: its own DISCONNECT, or a cluster swap if it is a link. -/
theorem session_outlasts_timeout (config : Config) (clientId : Str) (schedule : List Label) (s : BrokerLoop) (t : Nat)
    (seen : s.broker.lastSeenOf clientId = some t) (past : t ≤ s.clock)
    (timely : Always (step config) OnTime schedule s)
    (remains : Always (step config) (fun s label => ¬Departs config clientId s label) schedule s)
    (early : (run (step config) schedule s).state.clock ≤ t + milliseconds config.clientTimeout) :
    ∃ later, t ≤ later ∧ (run (step config) schedule s).state.broker.lastSeenOf clientId = some later := by
  induction schedule generalizing s t with
  | nil => exact ⟨t,le_rfl,seen⟩
  | cons label rest ih =>
    have reached := run_clock timely.2
    have first : s.clock ≤ (s.tick label).clock := by
      cases reading : label.reading with
      | none => simp [tick,reading]
      | some now => simpa [tick,reading] using timely.1 now reading
    have ticked : (step config label s).state.clock = (s.tick label).clock := step_clock config label s
    rw [run] at early ⊢
    obtain ⟨u,newer,within,kept⟩ := ((step_deed config label s).turn clientId).stays seen (le_trans past first)
      remains.1 (by dsimp only at early; omega)
    obtain ⟨later,newest,held⟩ := ih _ u kept (by omega) timely.2 remains.2 (by dsimp only at early; omega)
    exact ⟨later,le_trans newer newest,held⟩

/-- A thread about to look at its timers, with clients last seen when the clock began. -/
def watching (clients : List Str) : BrokerLoop :=
  let b := clients.foldl (fun b clientId => b.touch clientId 0) (Broker.new (str "b") (str "lan") none)
  { start b ⟨.plain,4000,0,fun _ => [],fun _ _ _ _ => ⟨0,0,0⟩⟩ 0 with point := .timers }

/-- A sweep inside the timeout leaves the client. -/
theorem session_outlasts_timeout_swept :
    let config : Config := ⟨.plain,4000,0,fun _ => [],fun _ _ _ _ => ⟨0,0,0⟩⟩
    let schedule : List Label := [.timers (milliseconds 4000) [str "c"] (.roomy [])]
    ∃ later, 0 ≤ later ∧
      (run (step config) schedule (watching [str "c"])).state.broker.lastSeenOf (str "c") = some later := by
  refine session_outlasts_timeout _ (str "c") _ (watching [str "c"]) 0 rfl le_rfl ⟨?_,trivial⟩ ⟨?_,trivial⟩ le_rfl
  · rintro now ⟨⟩
    exact Nat.zero_le _
  · rintro ⟨identity,env,bytes,member,-⟩
    cases member with
    | tail _ rest => cases rest with
      | tail _ last => cases last with
        | tail _ none => cases none

/-- Without a message from it, a client's session is kept as it is or ends. -/
theorem Deed.unheard {config : Config} {s : BrokerLoop} {done : Outcome BrokerLoop Event} (deed : Deed config s done)
    {clientId : Str} (unheard : ∀ event ∈ done.events, event.isFrom clientId = false) :
    done.state.broker.lastSeenOf clientId = s.broker.lastSeenOf clientId ∨
      done.state.broker.lastSeenOf clientId = none := by
  cases deed with
  | aside same closed => exact .inl (same.lastSeen clientId)
  | @malformed s' now same =>
    rw [(noteMalformed_broker now s').1]
    exact .inl (same.lastSeen clientId)
  | @client s' identity env bytes m same =>
    have other : clientId ≠ identity := by
      rintro rfl
      simpa [Event.isFrom] using unheard _ List.mem_cons_self
    have after := s'.broker.processMessage_lastSeen env identity m clientId
    split at after
    · exact .inr after
    · rw [if_neg (not_and_of_not_left _ other)] at after
      exact .inl (after.trans (same.lastSeen clientId))
  | @peer s' env bytes m same =>
    exact .inl ((s'.broker.peer_lastSeen env (str "PEER") m clientId).trans (same.lastSeen clientId))
  | @timers s' order m same walks =>
    have kept := stats_lastSeen config s.clock m clientId (cleanup config s.clock order s').state
    rw [Outcome.andThen_state,kept]
    rcases cleanup_cases config s.clock order s' with idle | swept
    · rw [idle]
      exact .inl (same.lastSeen clientId)
    · have left := sweep_lastSeen (milliseconds config.clientTimeout) s.clock order 0 clientId s'.broker
      rw [swept]
      split at left
      · exact .inr left
      · exact .inl (left.trans (same.lastSeen clientId))

/-- What the sessions of a step come to: nobody enters unreported, and while a silent client
is left there is no late sweep that is not full. -/
structure Attrition (config : Config) (s : BrokerLoop) (done : Outcome BrokerLoop Event) : Prop where
  population : done.state.broker.population + tally Event.sweeps done.events ≤
    s.broker.population + tally Event.joins done.events
  full : ∀ clientId t, s.broker.lastSeenOf clientId = some t → clientId ∈ done.state.broker.clients →
    maxRemovalsPerSweep * tally (Event.lateSweeps (t + milliseconds config.clientTimeout)) done.events ≤
      tally Event.sweeps done.events

theorem Aside.population {s s' : BrokerLoop} (same : Aside s s') : s'.broker.population = s.broker.population := by
  rw [Broker.population,same.clients]
  rfl

/-- A part of the loop without a sweep. -/
theorem Attrition.unswept {config : Config} {s : BrokerLoop} {done : Outcome BrokerLoop Event}
    (population : done.state.broker.population ≤ s.broker.population + tally Event.joins done.events)
    (none : ∀ deadline, tally (Event.lateSweeps deadline) done.events = 0) (nobody : tally Event.sweeps done.events = 0) :
    Attrition config s done := by
  constructor
  · rw [nobody]
    exact population
  · intro clientId t _ _
    rw [none]
    exact Nat.zero_le _

theorem processClient_population (identity : Str) (env : Envelope) (m : Moment) (b : Broker) :
    (b.processMessage env identity false m).state.population ≤ b.population +
      if identity ∉ b.clients ∧ identity ∈ (b.processMessage env identity false m).state.clients then 1 else 0 := by
  have within (clientId : Str) (after : clientId ∈ (b.processMessage env identity false m).state.clients) :
      clientId = identity ∨ clientId ∈ b.clients := by
    obtain ⟨t,seen⟩ := (Broker.mem_clients_iff clientId _).mp after
    rw [Broker.processMessage_lastSeen] at seen
    split at seen
    · cases seen
    · split at seen
      next heard => exact .inl heard.1
      next => exact .inr ((b.mem_clients_iff clientId).mpr ⟨t,seen⟩)
  split
  · exact Broker.population_le_succ identity within
  next old =>
    apply Broker.population_le
    intro clientId after
    rcases within clientId after with rfl | known
    · by_contra unknown
      exact old ⟨unknown,after⟩
    · exact known

theorem cleanup_attrition (config : Config) (now : Nat) {order : List Str} {s : BrokerLoop}
    (walks : order.Perm s.broker.clients.keys) : Attrition config s (cleanup config now order s) := by
  rcases cleanup_cases config now order s with idle | swept
  · rw [idle]
    exact .unswept (Nat.le_add_right _ _) (fun _ => rfl) rfl
  · rw [swept]
    have gone : tally Event.sweeps (.sweep now ::
        (sweep (milliseconds config.clientTimeout) now order 0 s.broker).events.map .swept) =
          (sweep (milliseconds config.clientTimeout) now order 0 s.broker).events.length := by
      have each : ∀ clientId, Event.sweeps (.swept clientId) = if true then 1 else 0 := fun _ => rfl
      rw [tally_cons,tally_countP each,List.countP_true]
      exact Nat.zero_add _
    constructor
    · rw [gone]
      exact (sweep_population _ now order 0 s.broker).le.trans (Nat.le_add_right _ _)
    · intro clientId t seen left
      rw [gone,tally_cons,tally_map_zero _ Event.swept fun _ => rfl,Event.lateSweeps]
      split
      next late =>
        obtain ⟨u,kept⟩ := (Broker.mem_clients_iff clientId _).mp left
        have missed : clientId ∉ (sweep (milliseconds config.clientTimeout) now order 0 s.broker).events := by
          intro member
          rw [sweep_lastSeen,if_pos member] at kept
          cases kept
        have listed := walks.mem_iff.mpr (AList.mem_keys.mp ((s.broker.mem_clients_iff clientId).mpr ⟨t,seen⟩))
        have full := sweep_full listed ((expired_iff _ _ _ _).mpr ⟨t,seen,late⟩) missed
        omega
      next => exact Nat.zero_le _

theorem stats_tally {weight : Event → Nat} (report : ∀ messages bytes, weight (.report messages bytes) = 0)
    (none : ∀ output, weight (.broadcast output) = 0) {config : Config} {now : Nat} {m : Moment} {s : BrokerLoop} :
    tally weight (stats config now m s).events = 0 := by
  unfold stats
  split
  · rw [tally_cons,report,tally_map_zero weight Event.broadcast none]
  · exact tally_nil weight

theorem Deed.attrition {config : Config} {s : BrokerLoop} {done : Outcome BrokerLoop Event} (deed : Deed config s done) :
    Attrition config s done := by
  cases deed with
  | aside same closed =>
    apply Attrition.unswept
    · exact same.population.le.trans (Nat.le_add_right _ _)
    · exact fun deadline => tally_map_zero _ Event.output (fun _ => rfl) _
    · exact tally_map_zero _ Event.output (fun _ => rfl) _
  | @malformed s' now same =>
    apply Attrition.unswept
    · rw [(noteMalformed_broker now s').1]
      exact same.population.le.trans (Nat.le_add_right _ _)
    · intro deadline
      unfold noteMalformed
      dsimp only
      split <;> rfl
    · unfold noteMalformed
      dsimp only
      split <;> rfl
  | @client s' identity env bytes m same =>
    have hidden (weight : Event → Nat) (first : weight (.client identity env bytes) = 0) (none : ∀ output, weight (.output output) = 0) :
        tally weight (processClient identity env bytes m s').events =
          if identity ∉ s'.broker.clients ∧ identity ∈ (s'.broker.processMessage env identity false m).state.clients
            then weight (.joined identity) else 0 := by
      rw [processClient,Outcome.andThen_events,tally_append,tally_cons,first,ofBroker,
        tally_map_zero weight Event.output none,Nat.zero_add,Nat.add_zero]
      split
      · rw [tally_cons,tally_nil,Nat.add_zero]
      · rfl
    apply Attrition.unswept
    · rw [hidden Event.joins rfl fun _ => rfl,← same.population]
      exact processClient_population identity env m s'.broker
    · intro deadline
      rw [hidden _ rfl fun _ => rfl]
      split <;> rfl
    · rw [hidden _ rfl fun _ => rfl]
      split <;> rfl
  | @peer s' env bytes m same =>
    have hidden (weight : Event → Nat) (first : weight (.peer env bytes) = 0) (none : ∀ output, weight (.output output) = 0) :
        tally weight (processPeer env bytes m s').events = 0 := by
      rw [processPeer,Outcome.andThen_events,tally_append,tally_cons,first,ofBroker,
        tally_map_zero weight Event.output none,tally_nil]
    apply Attrition.unswept
    · rw [hidden Event.joins rfl fun _ => rfl,← same.population]
      apply Broker.population_le
      intro clientId after
      rw [Broker.mem_clients_iff] at after ⊢
      obtain ⟨t,seen⟩ := after
      exact ⟨t,(s'.broker.peer_lastSeen env (str "PEER") m clientId).symm.trans seen⟩
    · exact fun deadline => hidden _ rfl fun _ => rfl
    · exact hidden _ rfl fun _ => rfl
  | @timers s' order m same walks =>
    obtain ⟨population,full⟩ := cleanup_attrition config s.clock (same.clients ▸ walks : order.Perm s'.broker.clients.keys)
    have quiet {weight : Event → Nat} (report : ∀ messages bytes, weight (.report messages bytes) = 0)
        (none : ∀ output, weight (.broadcast output) = 0) :
        tally weight ((cleanup config s.clock order s').andThen (stats config s.clock m)).events =
          tally weight (cleanup config s.clock order s').events := by
      rw [Outcome.andThen_events,tally_append,stats_tally report none,Nat.add_zero]
    have kept (clientId : Str) := stats_lastSeen config s.clock m clientId (cleanup config s.clock order s').state
    constructor
    · rw [quiet (fun _ _ => rfl) fun _ => rfl,quiet (fun _ _ => rfl) fun _ => rfl,← same.population]
      refine le_trans (Nat.add_le_add_right (Broker.population_le fun clientId after => ?_) _) population
      rw [Broker.mem_clients_iff] at after ⊢
      rwa [Outcome.andThen_state,kept] at after
    · intro clientId t seen left
      rw [quiet (fun _ _ => rfl) fun _ => rfl,quiet (fun _ _ => rfl) fun _ => rfl]
      refine full clientId t ((same.lastSeen clientId).trans seen) ?_
      rw [Broker.mem_clients_iff] at left ⊢
      rwa [Outcome.andThen_state,kept] at left

/-- A client that is not heard goes with the sweeps: while it is still there, every sweep
past its timeout has removed sixteen others, of those who were there or came since. -/
theorem silent_client_is_swept (config : Config) (clientId : Str) (schedule : List Label) (s : BrokerLoop) (t : Nat)
    (seen : s.broker.lastSeenOf clientId = some t)
    (unheard : ∀ event ∈ (run (step config) schedule s).events, event.isFrom clientId = false)
    (left : clientId ∈ (run (step config) schedule s).state.broker.clients) :
    maxRemovalsPerSweep * tally (Event.lateSweeps (t + milliseconds config.clientTimeout)) (run (step config) schedule s).events +
        (run (step config) schedule s).state.broker.population ≤
      s.broker.population + tally Event.joins (run (step config) schedule s).events := by
  have attrition (label : Label) (s : BrokerLoop) : Attrition config s (step config label s) := by
    obtain ⟨population,full⟩ := (step_deed config label s).attrition
    exact ⟨population,full⟩
  -- a session that ended does not come back without a message from its client
  have history := run_reports (step config) (fun s' trace =>
    s'.broker.population + tally Event.sweeps trace ≤ s.broker.population + tally Event.joins trace ∧
      ((∀ event ∈ trace, event.isFrom clientId = false) → s'.broker.lastSeenOf clientId = none ∨
        s'.broker.lastSeenOf clientId = some t ∧
          maxRemovalsPerSweep * tally (Event.lateSweeps (t + milliseconds config.clientTimeout)) trace ≤
            tally Event.sweeps trace)) ?_ schedule s ⟨le_rfl,fun _ => .inr ⟨seen,le_rfl⟩⟩
  · obtain ⟨present,held⟩ := (Broker.mem_clients_iff clientId _).mp left
    rcases history.2 unheard with gone | ⟨-,full⟩
    · rw [held] at gone
      cases gone
    · have people := history.1
      omega
  · rintro s' trace label ⟨people,silent⟩
    obtain ⟨population,full⟩ := attrition label s'
    refine ⟨by simp only [tally_append]; omega,fun unheard => ?_⟩
    rw [List.forall_mem_append] at unheard
    have kept := (step_deed config label s').unheard unheard.2
    change _ = s'.broker.lastSeenOf clientId ∨ _ at kept
    rcases silent unheard.1 with gone | ⟨held,before⟩
    · left
      rcases kept with same | ended
      · exact same.trans gone
      · exact ended
    · rcases kept with same | ended
      · right
        have present := (Broker.mem_clients_iff clientId _).mpr ⟨t,same.trans held⟩
        have now := full clientId t held present
        refine ⟨same.trans held,?_⟩
        simp only [tally_append,Nat.mul_add]
        omega
      · exact .inl ended

/-- Seventeen silent clients and one sweep: one of them is left. -/
theorem silent_client_is_swept_seventeen :
    let config : Config := ⟨.plain,4000,0,fun _ => [],fun _ _ _ _ => ⟨0,0,0⟩⟩
    let clients : List Str := (List.range 17).map fun n => [UInt8.ofNat n]
    let done := run (step config) [.timers (milliseconds 4001) clients (.roomy [])] (watching clients)
    done.state.broker.population = 1 ∧
      maxRemovalsPerSweep * tally (Event.lateSweeps (0 + milliseconds config.clientTimeout)) done.events +
        done.state.broker.population ≤ (watching clients).broker.population + tally Event.joins done.events := by
  refine ⟨by decide +kernel,silent_client_is_swept _ [16] _ (watching _) 0 ?_ ?_ ?_⟩
  · decide +kernel
  · decide +kernel
  · decide +kernel

end BrokerLoop

end Wisp
