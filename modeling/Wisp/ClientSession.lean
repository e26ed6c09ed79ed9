import Wisp.ConnectionManager
import Wisp.Transition

/-! A client and what its broker keeps of it. Registrations, status changes and RESETs
each take the table's lock for one section and queue what it says message by message;
the queue and the connection keep the order and lose nothing, and the broker may forget
the client at any time. A RESET may be refused by the broker's socket or dropped by the
client's full inbound queue. -/
namespace Wisp

open Transition EditLog AssignLog ClientMessage

structure ClientSession where
  manager : ConnectionManager
  /-- What the section that has the table's lock has still to queue. -/
  pushing : List ClientMessage
  control : List ClientMessage
  wire : List ClientMessage
  broker : ClientRecord
  /-- What the broker has processed of the client since it last forgot it. -/
  heard : List ClientMessage
  /-- RESETs on their way to the processing thread. -/
  resets : Nat

namespace ClientSession

inductive Label where
  | register (key : Str) (owner : Nat) (scope : Origin)
  | unregister (key : Str) (owner : Nat)
  | status (connected : Bool)
  | push
  | send
  /-- A heartbeat or a publication goes out. -/
  | traffic
  /-- Whether the socket takes the RESET, where the turn attempts one. -/
  | receive (taken : Bool)
  | forget
  | reset
  | drop
  deriving DecidableEq, Repr

/-- The worker leads with CONNECT and reports that it is offline. -/
def start (clientId : Str) : ClientSession :=
  { manager := { clientId }, pushing := [], control := [], wire := [.connect], broker := .empty, heard := [], resets := 0 }

/-- A section of the table's lock, with what it is going to queue. -/
def enter (next : ConnectionManager × List Envelope) (s : ClientSession) : Outcome ClientSession ClientMessage :=
  if s.pushing = [] then ⟨{ s with manager := next.1, pushing := next.2.map .read },next.2.map .read⟩ else ⟨s,[]⟩

def step : Label → ClientSession → Outcome ClientSession ClientMessage
  | .register key owner scope, s => s.enter (s.manager.performRegistration key owner scope)
  | .unregister key owner, s => s.enter (s.manager.performUnregistration key owner)
  | .status connected, s => s.enter (s.manager.statusHandler connected)
  | .push, s =>
    match s.pushing with
    | [] => ⟨s,[]⟩
    | message :: rest => ⟨{ s with control := s.control ++ [message], pushing := rest },[]⟩
  | .send, s =>
    match s.control with
    | [] => ⟨s,[]⟩
    | message :: rest => ⟨{ s with control := rest, wire := s.wire ++ [message] },[]⟩
  | .traffic, s => ⟨{ s with wire := s.wire ++ [.other] },[]⟩
  | .receive taken, s =>
    match s.wire with
    | [] => ⟨s,[]⟩
    | message :: rest =>
      ⟨{ s with
          wire := rest
          broker := s.broker.hear message
          heard := s.heard ++ [message]
          resets := s.resets + (s.broker.greets message && taken).toNat },[]⟩
  | .forget, s => ⟨{ s with broker := .empty, heard := [] },[]⟩
  | .reset, s =>
    if s.pushing = [] ∧ 0 < s.resets then
      enter (s.manager,s.manager.resubscribeAll) { s with resets := s.resets - 1 }
    else ⟨s,[]⟩
  | .drop, s => ⟨{ s with resets := s.resets - 1 },[]⟩

/-- The messages that matter to the client's subscriptions or to its session. -/
def controls (log : List ClientMessage) : List ClientMessage := log.filter (· ≠ .other)

@[simp] theorem controls_append (log later : List ClientMessage) :
    controls (log ++ later) = controls log ++ controls later := List.filter_append ..

@[simp] theorem assigns_controls (log : List ClientMessage) : assigns (controls log) = assigns log := by
  induction log with
  | nil => rfl
  | cons message rest ih => cases message <;> simpa [controls,assigns,assign?,List.filterMap_cons] using ih

theorem controls_sent {log : List ClientMessage} (none : ∀ message ∈ log, message ≠ .other) : controls log = log :=
  List.filter_eq_self.mpr fun message member => decide_eq_true (none message member)

/-- All the broker has and will have heard of the client since it last forgot it. -/
def whole (s : ClientSession) : List ClientMessage := controls (s.heard ++ s.wire ++ s.control ++ s.pushing)

/-- What one step does. -/
inductive Effect (s : ClientSession) : Label → ClientSession → List ClientMessage → Prop
  | moves {label : Label} {pushing control wire : List ClientMessage}
      (same : whole { s with pushing, control, wire } = s.whole) :
      Effect s label { s with pushing, control, wire } []
  | enters {label : Label} {manager : ConnectionManager} {sent : List ClientMessage} (free : s.pushing = [])
      (told : s.manager.Section manager sent)
      (grown : manager.registered ⊆ s.manager.registered ∨ ∃ key owner scope, label = .register key owner scope ∧
        manager.registered = insert key s.manager.registered) :
      Effect s label { s with manager, pushing := sent } sent
  | resends (free : s.pushing = []) (pending : 0 < s.resets) :
      Effect s .reset { s with pushing := s.manager.announcement, resets := s.resets - 1 } s.manager.announcement
  | hears {message : ClientMessage} {rest : List ClientMessage} {taken : Bool} (arrives : s.wire = message :: rest) :
      Effect s (.receive taken)
        { s with
          wire := rest
          broker := s.broker.hear message
          heard := s.heard ++ [message]
          resets := s.resets + (s.broker.greets message && taken).toNat } []
  | forgets : Effect s .forget { s with broker := .empty, heard := [] } []
  | drops : Effect s .drop { s with resets := s.resets - 1 } []

theorem Effect.idle {s : ClientSession} {label : Label} : Effect s label s [] := .moves rfl

theorem registered_unregistration (key : Str) (owner : Nat) (c : ConnectionManager) :
    (c.performUnregistration key owner).1.registered ⊆ c.registered := by
  unfold ConnectionManager.performUnregistration
  split
  · exact subset_rfl
  next callbacks here =>
    have member : key ∈ c.registered := ConnectionManager.mem_registered.mpr (AList.lookup_isSome.mp (by simp [here]))
    split
    · rw [ConnectionManager.registered_erase]
      exact Finset.erase_subset _ _
    · rw [ConnectionManager.registered_insert,Finset.insert_eq_of_mem member]

theorem step_effect (label : Label) (s : ClientSession) : Effect s label (step label s).state (step label s).events := by
  have entered {next : ConnectionManager × List Envelope} (told : s.manager.Section next.1 (next.2.map .read))
      (grown : next.1.registered ⊆ s.manager.registered ∨ ∃ key owner scope, label = .register key owner scope ∧
        next.1.registered = insert key s.manager.registered) :
      Effect s label (s.enter next).state (s.enter next).events := by
    unfold enter
    split
    next free => exact .enters free told grown
    · exact .idle
  cases label with
  | register key owner scope =>
    refine entered (ConnectionManager.performRegistration_section key owner scope) (.inr ⟨key,owner,scope,rfl,?_⟩)
    exact ConnectionManager.registered_insert key _
  | unregister key owner =>
    exact entered (ConnectionManager.performUnregistration_section key owner) (.inl (registered_unregistration key owner _))
  | status connected => exact entered (ConnectionManager.statusHandler_section connected) (.inl subset_rfl)
  | push =>
    simp only [step]
    split
    · exact .idle
    next message rest waits => exact .moves (by simp [whole,waits])
  | send =>
    simp only [step]
    split
    · exact .idle
    next message rest waits => exact .moves (by simp [whole,waits])
  | traffic => exact .moves (by simp [whole,controls])
  | receive taken =>
    simp only [step]
    split
    · exact .idle
    next message rest arrives => exact .hears arrives
  | forget => exact .forgets
  | reset =>
    simp only [step]
    split
    next ready =>
      rw [enter,if_pos ready.1]
      exact .resends ready.1 ready.2
    · exact .idle
  | drop => exact .drops

/-- The broker's record is what it has heard, and no goodbye is on its way. -/
structure Tracked (s : ClientSession) : Prop where
  replayed : s.broker = .heard s.heard
  stays : .disconnect ∉ s.whole

theorem start_tracked (clientId : Str) : Tracked (start clientId) := ⟨rfl,by simp [whole,start,controls]⟩

section

variable {s s' : ClientSession} {label : Label} {sent : List ClientMessage}

theorem whole_enters {manager : ConnectionManager} (free : s.pushing = []) (told : s.manager.Section manager sent) :
    whole { s with manager, pushing := sent } = s.whole ++ sent := by
  have plain : controls sent = sent := controls_sent fun message member => (told.listed message member).2.1
  simp [whole,free,plain]

theorem whole_resends (free : s.pushing = []) (resets : Nat) :
    whole { s with pushing := s.manager.announcement, resets } = s.whole ++ s.manager.announcement :=
  whole_enters free ConnectionManager.resubscribeAll_section

theorem whole_hears {message : ClientMessage} {rest : List ClientMessage} (arrives : s.wire = message :: rest)
    (broker : ClientRecord) (resets : Nat) :
    whole { s with wire := rest, broker, heard := s.heard ++ [message], resets } = s.whole := by
  simp [whole,arrives]

theorem whole_forgets : s.whole = controls s.heard ++ whole { s with broker := .empty, heard := [] } := by
  simp [whole]

theorem Tracked.step (tracked : Tracked s) (label : Label) : Tracked (step label s).state := by
  have effect := step_effect label s
  generalize (ClientSession.step label s).state = s',(ClientSession.step label s).events = sent at effect
  cases effect with
  | moves same => exact ⟨tracked.replayed,same ▸ tracked.stays⟩
  | enters free told grown =>
    refine ⟨tracked.replayed,?_⟩
    rw [whole_enters free told,List.mem_append,not_or]
    exact ⟨tracked.stays,fun member => (told.listed _ member).1 rfl⟩
  | resends free pending =>
    refine ⟨tracked.replayed,?_⟩
    rw [whole_resends free,List.mem_append,not_or]
    exact ⟨tracked.stays,fun member => (ConnectionManager.resubscribeAll_section.listed _ member).1 rfl⟩
  | hears arrives =>
    refine ⟨?_,?_⟩
    · rw [ClientRecord.heard_append,tracked.replayed]
    · rw [whole_hears arrives]
      exact tracked.stays
  | forgets =>
    refine ⟨rfl,fun member => tracked.stays ?_⟩
    rw [whole_forgets]
    exact List.mem_append_right _ member
  | drops => exact ⟨tracked.replayed,tracked.stays⟩

/-- The first message after the broker forgot the client draws a RESET, or is a CONNECT
with everything behind it. -/
theorem Tracked.greets (tracked : Tracked s) {message : ClientMessage} {rest : List ClientMessage}
    (fresh : s.heard = []) (arrives : s.wire = message :: rest) :
    s.broker.greets message = true ∨ ∃ later, s.whole = .connect :: later := by
  have record : s.broker = .empty := by
    rw [tracked.replayed,fresh]
    rfl
  have whole : s.whole = controls [message] ++ controls (rest ++ s.control ++ s.pushing) := by
    rw [whole,fresh,arrives,← controls_append]
    rfl
  cases message with
  | connect => exact .inr ⟨_,whole⟩
  | disconnect => exact absurd (whole ▸ List.mem_append_left _ List.mem_cons_self) tracked.stays
  | subscribe | unsubscribe | other => exact .inl (by rw [record]; rfl)

/-- The property holds of what follows each CONNECT of a log. -/
def Rebuilt (property : List ClientMessage → Prop) (log : List ClientMessage) : Prop :=
  ∀ front rest, log = front ++ .connect :: rest → property rest

theorem Rebuilt.shrink {property : List ClientMessage → Prop} {front rest : List ClientMessage}
    (rebuilt : Rebuilt property (front ++ rest)) : Rebuilt property rest :=
  fun more later split => rebuilt (front ++ more) later (by rw [split,List.append_assoc])

theorem Rebuilt.grow {property : List ClientMessage → Prop} {log : List ClientMessage}
    (older : ∀ front rest, log = front ++ .connect :: rest → property (rest ++ sent)) (newer : Rebuilt property sent) :
    Rebuilt property (log ++ sent) := by
  intro front rest split
  rcases List.append_eq_append_iff.mp split with ⟨part,rfl,tail⟩ | ⟨part,rfl,tail⟩
  · exact newer part rest tail
  · cases part with
    | nil => exact newer [] rest tail.symm
    | cons first more =>
      obtain ⟨rfl,rfl⟩ := List.cons.inj tail
      exact older front more rfl

end

/-- Everything arrives, and what is registered is within the broker's limits. -/
def Faultless (s : ClientSession) : Label → Prop
  | .register key _ _ => Routing.TopicFits key ∧ (key ∈ s.manager.registered ∨
      s.manager.registered.card < maxSubscriptionsPerClient)
  | .receive taken => taken = true
  | .drop => False
  | _ => True

instance (s : ClientSession) : ∀ label, Decidable (s.Faultless label)
  | .register key _ _ => inferInstanceAs (Decidable ((key ≠ [] ∧ _) ∧ _))
  | .receive taken => inferInstanceAs (Decidable (taken = true))
  | .drop => inferInstanceAs (Decidable False)
  | .unregister .. | .status _ | .push | .send | .traffic | .forget | .reset => inferInstanceAs (Decidable True)

structure Agreed (s : ClientSession) : Prop extends Tracked s where
  fits : ∀ topic ∈ s.manager.registered, Routing.TopicFits topic
  sent : ∀ topic scope, .subscribe topic scope ∈ s.whole → Routing.TopicFits topic
  few : s.manager.registered.card ≤ maxSubscriptionsPerClient
  /-- Online or not, what is unregistered is withdrawn. -/
  within : subscribed s.whole ⊆ s.manager.registered
  bounded : Bounded maxSubscriptionsPerClient ∅ (edits s.whole)
  rebuilt : s.manager.connected = true → Rebuilt s.manager.Exact s.whole
  current : s.manager.connected = true → s.heard ≠ [] → 0 < s.resets ∨ s.manager.Exact s.whole

theorem start_agreed (clientId : Str) : Agreed (start clientId) := by
  refine ⟨start_tracked clientId,nofun,?_,Nat.zero_le _,Finset.empty_subset _,?_,nofun,nofun⟩
  · intro topic scope member
    cases member with
    | tail _ later => cases later
  · intro front initial
    rw [List.prefix_nil.mp initial]
    exact Nat.zero_le _

section

variable {s s' : ClientSession} {label : Label} {sent : List ClientMessage} (agreed : Agreed s)

include agreed

theorem Agreed.within_suffix {front rest : List ClientMessage} (split : s.whole = front ++ rest) :
    subscribed rest ⊆ s.manager.registered := by
  refine Finset.Subset.trans ?_ agreed.within
  rw [subscribed,subscribed,split,edits_append]
  exact replay_suffix ∅ _ _

/-- What a section does to all but the RESETs. -/
theorem Agreed.grows {manager : ConnectionManager} {pushing : List ClientMessage} {resets : Nat}
    (tracked : Tracked { s with manager, pushing, resets })
    (whole : whole { s with manager, pushing, resets } = s.whole ++ sent) (told : s.manager.Section manager sent)
    (fits : ∀ topic ∈ manager.registered, Routing.TopicFits topic)
    (few : manager.registered.card ≤ maxSubscriptionsPerClient)
    (current : manager.connected = true → s.heard ≠ [] → 0 < resets ∨ manager.Exact (s.whole ++ sent)) :
    Agreed { s with manager, pushing, resets } := by
  refine ⟨tracked,fits,?_,few,?_,?_,?_,?_⟩
  · rw [whole]
    intro topic scope member
    rcases List.mem_append.mp member with old | new
    · exact agreed.sent topic scope old
    · exact fits topic ((told.listed _ new).2.2 topic scope rfl)
  · rw [whole,subscribed_append]
    exact told.within _ agreed.within
  · rw [whole,edits_append]
    refine agreed.bounded.append fun front initial => ?_
    rcases told.gradual _ agreed.within front initial with old | new
    · exact (Finset.card_le_card old).trans agreed.few
    · exact (Finset.card_le_card new).trans few
  · intro online
    rw [whole]
    refine Rebuilt.grow (fun front rest split => ?_) told.rebuilt
    refine told.exact online rest ?_ fun before => agreed.rebuilt before front rest split
    exact @Agreed.within_suffix s agreed (front ++ [.connect]) rest (by simp [split])
  · rw [whole]
    exact current

theorem Agreed.limits {manager : ConnectionManager}
    (grown : manager.registered ⊆ s.manager.registered ∨ ∃ key owner scope, label = .register key owner scope ∧
      manager.registered = insert key s.manager.registered) (faultless : s.Faultless label) :
    (∀ topic ∈ manager.registered, Routing.TopicFits topic) ∧
      manager.registered.card ≤ maxSubscriptionsPerClient := by
  rcases grown with fewer | ⟨key,owner,scope,rfl,grown⟩
  · exact ⟨fun topic member => agreed.fits topic (fewer member),(Finset.card_le_card fewer).trans agreed.few⟩
  · obtain ⟨fits,room⟩ := faultless
    rw [grown]
    refine ⟨fun topic member => ?_,?_⟩
    · rcases Finset.mem_insert.mp member with rfl | old
      · exact fits
      · exact agreed.fits topic old
    · rcases room with old | room
      · rw [Finset.insert_eq_of_mem old]
        exact agreed.few
      · exact (Finset.card_insert_le _ _).trans room

theorem Agreed.step (faultless : s.Faultless label) : Agreed (step label s).state := by
  have effect := step_effect label s
  have tracked := agreed.toTracked.step label
  generalize (ClientSession.step label s).state = s',(ClientSession.step label s).events = sent at effect tracked
  cases effect with
  | moves same =>
    refine ⟨tracked,agreed.fits,?_,agreed.few,?_,?_,?_,?_⟩
    · rw [same]; exact agreed.sent
    · rw [same]; exact agreed.within
    · rw [same]; exact agreed.bounded
    · rw [same]; exact agreed.rebuilt
    · rw [same]; exact agreed.current
  | enters free told grown =>
    obtain ⟨fits,few⟩ := agreed.limits grown faultless
    refine agreed.grows tracked (whole_enters free told) told fits few fun online some => ?_
    by_cases before : s.manager.connected = true
    · exact (agreed.current before some).imp_right fun exact => told.exact online _ agreed.within fun _ => exact
    · exact .inr (told.exact online _ agreed.within fun online => absurd online before)
  | resends free pending =>
    refine agreed.grows tracked (whole_resends free _) ConnectionManager.resubscribeAll_section agreed.fits agreed.few
      fun _ _ => .inr ?_
    exact ConnectionManager.exact_announcement agreed.within
  | @hears message rest taken arrives =>
    have whole := whole_hears arrives (s.broker.hear message) (s.resets + (s.broker.greets message && taken).toNat)
    refine ⟨tracked,agreed.fits,?_,agreed.few,?_,?_,?_,?_⟩
    · rw [whole]; exact agreed.sent
    · rw [whole]; exact agreed.within
    · rw [whole]; exact agreed.bounded
    · rw [whole]; exact agreed.rebuilt
    · intro online _
      rw [whole]
      by_cases fresh : s.heard = []
      · rcases agreed.toTracked.greets fresh arrives with greets | ⟨later,led⟩
        · have taken : taken = true := faultless
          exact .inl (by simp [greets,taken])
        · refine .inr fun topic => ?_
          rw [led]
          exact agreed.rebuilt online [] later led topic
      · exact (agreed.current online fresh).imp_left fun pending => Nat.add_pos_left pending _
  | forgets =>
    have split := @whole_forgets s
    refine ⟨tracked,agreed.fits,fun topic scope member => ?_,agreed.few,agreed.within_suffix split,?_,?_,?_⟩
    · refine agreed.sent topic scope ?_
      rw [split]
      exact List.mem_append_right _ member
    · have bounded := agreed.bounded
      rw [split,edits_append] at bounded
      exact bounded.shrink
    · intro online
      have rebuilt := agreed.rebuilt online
      rw [split] at rebuilt
      exact rebuilt.shrink
    · exact fun _ some => absurd rfl some
  | drops => exact faultless.elim

end

/-- Every control message is processed and no RESET is to come. -/
def Quiet (s : ClientSession) : Prop :=
  s.pushing = [] ∧ s.control = [] ∧ (∀ message ∈ s.wire, message = .other) ∧ s.resets = 0

instance (s : ClientSession) : Decidable s.Quiet := inferInstanceAs (Decidable (_ ∧ _))

/-- In every run, once the client is online and its messages are processed, a broker that
knows it holds its table: each topic with the union of its callbacks' scopes. -/
theorem subscriptions_agree (clientId : Str) (schedule : List Label)
    (faultless : Always step Faultless schedule (start clientId)) :
    let s := (run step schedule (start clientId)).state
    s.manager.connected = true → s.Quiet → s.heard ≠ [] →
      ∀ topic, s.broker.topics.lookup topic = (s.manager.handlers.lookup topic).map CallbackList.unionScope := by
  intro s online quiet known topic
  obtain ⟨pushed,sent,processed,settled⟩ := quiet
  have agreed : Agreed s := run_invariant step Agreed (fun s label faultless agreed => agreed.step faultless) schedule
    (start clientId) faultless (start_agreed clientId)
  have whole : s.whole = controls s.heard := by
    have silent : controls s.wire = [] := List.filter_eq_nil_iff.mpr fun message member => by simp [processed message member]
    simp [ClientSession.whole,pushed,sent,silent]
  have exact := (agreed.current online known).resolve_left (by omega)
  have same : edits s.heard = edits s.whole := by rw [whole,edits,edits,assigns_controls]
  have here {message : ClientMessage} (member : message ∈ s.heard) (control : message ≠ .other) : message ∈ s.whole := by
    rw [whole]
    exact List.mem_filter.mpr ⟨member,decide_eq_true control⟩
  rw [agreed.replayed,ClientRecord.heard_lookup (fun leaves => agreed.stays (here leaves (by rintro ⟨⟩)))
    (fun topic scope member => agreed.sent topic scope (here member (by rintro ⟨⟩))) (same ▸ agreed.bounded),
    ← assigns_controls,← whole]
  exact exact topic

/-- Two callbacks for one topic, a forgetful broker, and a topic registered before the
RESET is handled. -/
def forgottenOnce : List Label :=
  [.receive true,.traffic,.receive true,.status true,.push,.send,.receive true,
    .register (str "a") 1 .local,.push,.register (str "a") 2 .mesh,.push,.send,.send,.receive true,.receive true,
    .forget,.traffic,.receive true,.register (str "b") 1 .local,.push,.send,.receive true,
    .unregister (str "a") 2,.push,.reset,.push,.push,.send,.send,.send,.receive true,.receive true,.receive true]

theorem subscriptions_agree_forgottenOnce :
    let s := (run step forgottenOnce (start (str "c"))).state
    (s.manager.connected = true ∧ s.Quiet ∧ s.heard ≠ []) ∧
      s.broker.topics.lookup (str "a") = (s.manager.handlers.lookup (str "a")).map CallbackList.unionScope ∧
      s.broker.topics.lookup (str "a") = some .local := by
  refine ⟨by decide +kernel,?_,by decide +kernel⟩
  exact subscriptions_agree (str "c") forgottenOnce (by decide +kernel) (by decide +kernel) (by decide +kernel)
    (by decide +kernel) (str "a")

/-- Nothing is registered, or the client said CONNECT since the broker last forgot it: the
broker has processed that or it is on its way. -/
def Greeted (s : ClientSession) : Prop := s.manager.registered = ∅ ∨ .connect ∈ s.whole

instance (s : ClientSession) : Decidable s.Greeted := inferInstanceAs (Decidable (_ ∨ _))

/-- A RESET is refused or dropped only then. -/
def Spared (s : ClientSession) : Label → Prop
  | .receive false => ∀ message ∈ s.wire.head?, s.broker.greets message = true → s.Greeted
  | .drop => 0 < s.resets → s.Greeted
  | _ => True

instance (s : ClientSession) : ∀ label, Decidable (s.Spared label)
  | .receive false => inferInstanceAs (Decidable (∀ message ∈ s.wire.head?, _ → _))
  | .drop => inferInstanceAs (Decidable (0 < s.resets → s.Greeted))
  | .receive true | .register .. | .unregister .. | .status _ | .push | .send | .traffic | .forget | .reset =>
    inferInstanceAs (Decidable True)

/-- What the client has announced and not withdrawn. -/
structure Remembered (s : ClientSession) (trace : List ClientMessage) : Prop extends Tracked s where
  within : subscribed trace ⊆ s.manager.registered
  rebuilt : Rebuilt (subscribed trace ⊆ subscribed ·) s.whole
  current : s.heard ≠ [] → 0 < s.resets ∨ subscribed trace ⊆ subscribed s.whole

theorem start_remembered (clientId : Str) : Remembered (start clientId) [] :=
  ⟨start_tracked clientId,Finset.empty_subset _,fun _ _ _ => Finset.empty_subset _,nofun⟩

theorem subscribed_mono {log more : List ClientMessage} (sent : List ClientMessage)
    (subset : subscribed log ⊆ subscribed more) : subscribed (log ++ sent) ⊆ subscribed (more ++ sent) := by
  rw [subscribed_append,subscribed_append]
  exact replay_mono _ subset

section

variable {s : ClientSession} {label : Label} {trace : List ClientMessage} (remembered : Remembered s trace)

include remembered

theorem Remembered.rebuilt_more {manager : ConnectionManager} {sent : List ClientMessage}
    (told : s.manager.Section manager sent) :
    subscribed (trace ++ sent) ⊆ manager.registered ∧
      Rebuilt (subscribed (trace ++ sent) ⊆ subscribed ·) (s.whole ++ sent) := by
  have within : subscribed (trace ++ sent) ⊆ manager.registered := by
    rw [subscribed_append]
    exact told.within _ remembered.within
  refine ⟨within,Rebuilt.grow (fun front rest split => ?_) fun front rest split => ?_⟩
  · exact subscribed_mono sent (remembered.rebuilt front rest split)
  · rw [(told.rebuilt front rest split).subscribed]
    exact within

/-- Behind a CONNECT the status handler announces the whole table. -/
theorem Remembered.greeted (greeted : s.Greeted) : subscribed trace ⊆ subscribed s.whole := by
  rcases greeted with none | connects
  · have nothing := remembered.within
    rw [none] at nothing
    exact nothing.trans (Finset.empty_subset _)
  · obtain ⟨front,rest,split⟩ := List.append_of_mem connects
    have announced : subscribed trace ⊆ subscribed rest := remembered.rebuilt front rest split
    rw [split,subscribed_append]
    apply announced.trans
    exact replay_mono (edits rest) (Finset.empty_subset _)

theorem Remembered.step (spared : s.Spared label) :
    Remembered (step label s).state (trace ++ (step label s).events) := by
  have effect := step_effect label s
  have tracked := remembered.toTracked.step label
  generalize (ClientSession.step label s).state = s',(ClientSession.step label s).events = sent at effect tracked
  cases effect with
  | moves same =>
    rw [List.append_nil]
    refine ⟨tracked,remembered.within,?_,?_⟩
    · rw [same]; exact remembered.rebuilt
    · rw [same]; exact remembered.current
  | enters free told grown =>
    obtain ⟨within,rebuilt⟩ := remembered.rebuilt_more told
    rw [← whole_enters free told] at rebuilt
    refine ⟨tracked,within,rebuilt,fun some => (remembered.current some).imp_right fun restored => ?_⟩
    rw [whole_enters free told]
    exact subscribed_mono _ restored
  | resends free pending =>
    obtain ⟨within,rebuilt⟩ := remembered.rebuilt_more ConnectionManager.resubscribeAll_section
    rw [← whole_resends free (s.resets - 1)] at rebuilt
    refine ⟨tracked,within,rebuilt,fun _ => .inr (within.trans ?_)⟩
    have all := (@ConnectionManager.exact_announcement s.manager [] (Finset.empty_subset _)).subscribed
    rw [whole_resends free,← all]
    exact subscribed_mono _ (Finset.empty_subset _)
  | @hears message rest taken arrives =>
    have whole := whole_hears arrives (s.broker.hear message) (s.resets + (s.broker.greets message && taken).toNat)
    rw [List.append_nil]
    refine ⟨tracked,remembered.within,?_,fun _ => ?_⟩
    · rw [whole]; exact remembered.rebuilt
    · rw [whole]
      by_cases fresh : s.heard = []
      · rcases remembered.toTracked.greets fresh arrives with greets | ⟨later,led⟩
        · cases taken with
          | true => exact .inl (by simp [greets])
          | false => exact .inr (remembered.greeted (spared message (by simp [arrives]) greets))
        · refine .inr ?_
          rw [led]
          exact remembered.rebuilt [] later led
      · exact (remembered.current fresh).imp_left fun pending => Nat.add_pos_left pending _
  | forgets =>
    have rebuilt := remembered.rebuilt
    rw [whole_forgets] at rebuilt
    rw [List.append_nil]
    exact ⟨tracked,remembered.within,rebuilt.shrink,fun some => absurd rfl some⟩
  | drops =>
    rw [List.append_nil]
    refine ⟨tracked,remembered.within,remembered.rebuilt,fun some => .inr ?_⟩
    exact (remembered.current some).elim (fun pending => remembered.greeted (spared pending)) id

end

/-- In every run that loses a RESET only of a client with nothing registered or behind its
CONNECT, a broker that knows the client has or will have what the client announced to it, or
a RESET is on its way, or the client's next message draws one. -/
theorem lost_reset_spared (clientId : Str) (schedule : List Label)
    (spared : Always step Spared schedule (start clientId)) :
    let r := run step schedule (start clientId)
    r.state.broker.known = true → subscribed r.events ⊆ subscribed r.state.whole ∨ 0 < r.state.resets ∨
      ∀ message, message ≠ .connect → message ≠ .disconnect → r.state.broker.greets message = true := by
  intro r known
  have remembered : Remembered r.state ([] ++ r.events) :=
    run_history step Remembered (fun s trace label spared remembered => remembered.step spared) schedule
      (start clientId) [] spared (start_remembered clientId)
  rw [List.nil_append] at remembered
  have heard : r.state.heard ≠ [] := by
    intro none
    rw [remembered.replayed,none] at known
    cases known
  exact (remembered.current heard).symm.imp_right .inl

/-- A client with one topic is forgotten twice while it reports itself online again: the first
RESET is dropped by its queue, the second refused by the socket. -/
def resetsLost : List Label :=
  [.receive true,.traffic,.receive true,.status true,.push,.send,.receive true,
    .register (str "t") 1 .any,.push,.send,.receive true,
    .forget,.traffic,.traffic,.status false,.status true,.push,.push,.receive true,.drop,.forget,.receive false]

theorem lost_reset_spared_resetsLost :
    let earlier := (run step (resetsLost.take 19) (start (str "c"))).state
    let last := (run step resetsLost.dropLast (start (str "c"))).state
    let r := run step resetsLost (start (str "c"))
    (earlier.resets = 1 ∧ last.resets = 0 ∧ last.wire.head? = some .other ∧ last.broker.greets .other = true) ∧
    (r.state.broker.known = true ∧ r.state.resets = 0 ∧ str "t" ∈ subscribed r.events) ∧
    (subscribed r.events ⊆ subscribed r.state.whole ∨ 0 < r.state.resets ∨
      ∀ message, message ≠ .connect → message ≠ .disconnect → r.state.broker.greets message = true) :=
  ⟨by decide +kernel,by decide +kernel,lost_reset_spared (str "c") resetsLost (by decide +kernel) (by decide +kernel)⟩

/-- The broker forgets a client with one topic, and the RESET that its next heartbeat
draws is refused. -/
def resetRefused : List Label :=
  [.receive true,.traffic,.receive true,.status true,.push,.send,.receive true,
    .register (str "t") 1 .any,.push,.send,.receive true,.forget,.traffic,.receive false]

/-- The broker knows the client and holds nothing for it; nothing is on its way in either
direction, and no later message of the client draws a RESET. -/
theorem lost_reset_loses_session :
    let r := run step resetRefused (start (str "c"))
    r.state.broker.known = true ∧ r.state.Quiet ∧ r.state.wire = [] ∧
      str "t" ∈ subscribed r.events ∧ str "t" ∈ r.state.manager.handlers ∧ r.state.broker.held = ∅ ∧
      ¬(subscribed r.events ⊆ subscribed r.state.whole ∨ 0 < r.state.resets ∨
        ∀ message, message ≠ .connect → message ≠ .disconnect → r.state.broker.greets message = true) := by
  refine ⟨by decide +kernel,by decide +kernel,by decide +kernel,by decide +kernel,by decide +kernel,
    by decide +kernel,?_⟩
  rintro (restored | pending | drawn)
  · exact absurd restored (by decide +kernel)
  · exact absurd pending (by decide +kernel)
  · exact absurd (drawn .other nofun nofun) (by decide +kernel)

end ClientSession

end Wisp
