import Wisp.AssignLog
import Wisp.ClientRecord

/-! The client's table of callbacks. Each function is one section of the table's lock: it
changes the table and queues control messages, and no other section runs in between.
`Section` says what the queued messages make of a broker that takes them in turn. -/
namespace Wisp

open EditLog AssignLog

namespace ClientMessage

/-- What a message makes of the sender's subscriptions; a goodbye is not meant here. -/
def assign? : ClientMessage → Option (Assign Str Origin)
  | .subscribe topic scope => some ⟨topic,some scope⟩
  | .unsubscribe topic => some ⟨topic,none⟩
  | _ => none

def assigns (log : List ClientMessage) : List (Assign Str Origin) := log.filterMap assign?

def edits (log : List ClientMessage) : List (Edit Str) := (assigns log).map Assign.edit

/-- The topics subscribed and not withdrawn by the end of a log. -/
def subscribed (log : List ClientMessage) : Finset Str := replay ∅ (edits log)

@[simp] theorem assigns_append (log later : List ClientMessage) : assigns (log ++ later) = assigns log ++ assigns later :=
  List.filterMap_append

@[simp] theorem edits_append (log later : List ClientMessage) : edits (log ++ later) = edits log ++ edits later := by
  simp [edits]

theorem subscribed_append (log later : List ClientMessage) :
    subscribed (log ++ later) = replay (subscribed log) (edits later) := by
  simp [subscribed]

theorem settle_subscribed (log : List ClientMessage) (topic : Str) :
    (settle none (assigns log) topic).isSome = true ↔ topic ∈ subscribed log :=
  settle_isSome none (assigns log) topic (by simp)

end ClientMessage

namespace ClientRecord

open ClientMessage

/-- What a broker that had nothing makes of a client's messages. -/
def heard (log : List ClientMessage) : ClientRecord := log.foldl (fun r message => r.hear message) .empty

theorem heard_append (log : List ClientMessage) (message : ClientMessage) :
    heard (log ++ [message]) = (heard log).hear message := by
  simp [heard]

theorem hear_lookup {r : ClientRecord} {message : ClientMessage} (stays : message ≠ .disconnect)
    (room : ∀ topic scope, message = .subscribe topic scope → r.accepts topic = true) (topic : Str) :
    (r.hear message).topics.lookup topic = settle (r.topics.lookup topic) (assigns [message]) topic := by
  cases message with
  | connect | other => rfl
  | disconnect => exact absurd rfl stays
  | subscribe key scope =>
    rw [hear,if_pos (room key scope rfl),lookup_subscribe]
    simp [assigns,assign?,eq_comm]
  | unsubscribe key =>
    rw [hear,SubscriptionRegistry.lookup_erase_topic]
    simp [assigns,assign?,eq_comm]

/-- As long as the log stays within the broker's limits, its record is the log replayed. -/
theorem heard_lookup {log : List ClientMessage} (stays : .disconnect ∉ log)
    (fits : ∀ topic scope, .subscribe topic scope ∈ log → Routing.TopicFits topic)
    (bounded : Bounded maxSubscriptionsPerClient ∅ (edits log)) (topic : Str) :
    (heard log).topics.lookup topic = settle none (assigns log) topic := by
  induction log using List.reverseRecOn generalizing topic with
  | nil => rfl
  | append_singleton log message ih =>
    rw [edits_append] at bounded
    have before := ih (fun member => stays (List.mem_append_left _ member))
      (fun topic scope member => fits topic scope (List.mem_append_left _ member)) bounded.earlier
    rw [heard_append,assigns_append,settle_append,← before]
    refine hear_lookup (fun same => stays (by simp [same])) (fun key scope same => ?_) topic
    have fit := fits key scope (by simp [same])
    have held : (heard log).held = subscribed log := by
      ext other
      rw [mem_held,← AList.lookup_isSome,before,settle_subscribed]
    have limit := bounded (edits log ++ edits [message]) (List.prefix_refl _)
    rw [replay_append,show replay ∅ (edits log) = (heard log).held from held.symm,same] at limit
    have room : (heard log).canSubscribe key = true := by
      simp only [canSubscribe,Bool.or_eq_true,decide_eq_true_eq,← held_card,← mem_held]
      by_cases member : key ∈ (heard log).held
      · exact .inl member
      · have grown : (insert key (heard log).held).card ≤ maxSubscriptionsPerClient := limit
        rw [Finset.card_insert_of_notMem member] at grown
        exact .inr grown
    simp [accepts,fit.1,fit.2,room]

end ClientRecord

structure CallbackEntry where
  /-- The address the callback was registered under. -/
  owner : Nat
  scope : Origin
  deriving DecidableEq, Repr

/-- A topic stays in the table as long as it has a callback. -/
structure CallbackList where
  entries : List CallbackEntry
  nonempty : entries ≠ []
  deriving DecidableEq

namespace CallbackList

def unionScope (callbacks : CallbackList) : Origin :=
  Origin.ofBits (callbacks.entries.foldl (fun bits entry => bits ||| entry.scope.bits) 0)

def push (callbacks : Option CallbackList) (entry : CallbackEntry) : CallbackList :=
  ⟨callbacks.elim [] entries ++ [entry],by simp⟩

/-- What is left without one owner's callbacks. -/
def without (owner : Nat) (callbacks : CallbackList) : Option CallbackList :=
  let next := callbacks.entries.filter (·.owner ≠ owner)
  if gone : next = [] then none else some ⟨next,gone⟩

theorem without_none {owner : Nat} {callbacks : CallbackList} (gone : callbacks.without owner = none)
    {entry : CallbackEntry} (member : entry ∈ callbacks.entries) : entry.owner = owner := by
  unfold without at gone
  dsimp only at gone
  split at gone
  next none => simpa using List.filter_eq_nil_iff.mp none entry member
  · cases gone

theorem without_some {owner : Nat} {callbacks next : CallbackList} (left : callbacks.without owner = some next) :
    next.entries = callbacks.entries.filter (·.owner ≠ owner) := by
  unfold without at left
  dsimp only at left
  split at left
  · cases left
  · rw [← Option.some.inj left]

theorem bits_widen (left right : Origin) : ∃ scope : Origin, left.bits ||| right.bits = scope.bits ∧
    ∀ isLocal, scopeAccepts scope isLocal = (scopeAccepts left isLocal || scopeAccepts right isLocal) := by
  cases left <;> cases right <;> first
    | exact ⟨.local,by decide⟩
    | exact ⟨.mesh,by decide⟩
    | exact ⟨.any,by decide⟩

theorem bits_union (entries : List CallbackEntry) (start : Origin) :
    ∃ scope : Origin, entries.foldl (fun bits entry => bits ||| entry.scope.bits) start.bits = scope.bits ∧
      ∀ isLocal, scopeAccepts scope isLocal =
        (scopeAccepts start isLocal || entries.any fun entry => scopeAccepts entry.scope isLocal) := by
  induction entries generalizing start with
  | nil => exact ⟨start,rfl,by simp⟩
  | cons entry rest ih =>
    obtain ⟨wider,bits,widened⟩ := bits_widen start entry.scope
    obtain ⟨scope,total,accepts⟩ := ih wider
    refine ⟨scope,by rw [List.foldl_cons,bits,total],fun isLocal => ?_⟩
    rw [accepts,widened,List.any_cons,Bool.or_assoc]

/-- The broker is asked for what some callback wants, and for no more. -/
theorem unionScope_accepts (callbacks : CallbackList) (isLocal : Bool) :
    scopeAccepts callbacks.unionScope isLocal =
      callbacks.entries.any fun entry => scopeAccepts entry.scope isLocal := by
  obtain ⟨entries,nonempty⟩ := callbacks
  cases entries with
  | nil => exact absurd rfl nonempty
  | cons entry rest =>
    obtain ⟨scope,bits,accepts⟩ := bits_union rest entry.scope
    have first : (0 : UInt8) ||| entry.scope.bits = entry.scope.bits := UInt8.zero_or
    have back : Origin.ofBits scope.bits = scope := by cases scope <;> decide
    rw [unionScope,List.foldl_cons,first,bits,back,accepts,List.any_cons]

end CallbackList

abbrev Handlers := AList fun _ : Str => CallbackList

structure ConnectionManager where
  clientId : Str
  handlers : Handlers := ∅
  connected : Bool := false

namespace ConnectionManager

open CallbackList ClientMessage

def createControlEnvelope (controlKey topic : Str) (c : ConnectionManager) : Envelope :=
  Wire.makeControl controlKey c.clientId topic

def createSubscribeEnvelope (key : Str) (c : ConnectionManager) : Envelope :=
  { Wire.makeControl Keys.subscribe c.clientId key with
    payload := (c.handlers.lookup key).elim [] fun callbacks => encodeSubscribeScope callbacks.unionScope }

def performRegistration (key : Str) (owner : Nat) (scope : Origin) (c : ConnectionManager) :
    ConnectionManager × List Envelope :=
  let c := { c with handlers := c.handlers.insert key (push (c.handlers.lookup key) ⟨owner,scope⟩) }
  (c,if c.connected then [c.createSubscribeEnvelope key] else [])

def performUnregistration (key : Str) (owner : Nat) (c : ConnectionManager) : ConnectionManager × List Envelope :=
  match c.handlers.lookup key with
  | none => (c,[])
  | some callbacks =>
    match callbacks.without owner with
    -- unlike SUBSCRIBE, sent while offline too
    | none => ({ c with handlers := c.handlers.erase key },[c.createControlEnvelope Keys.unsubscribe key])
    | some next =>
      let c := { c with handlers := c.handlers.insert key next }
      (c,if c.connected = true ∧ next.unionScope ≠ callbacks.unionScope then [c.createSubscribeEnvelope key] else [])

def resubscribeAll (c : ConnectionManager) : List Envelope := c.handlers.keys.map c.createSubscribeEnvelope

def statusHandler (connected : Bool) (c : ConnectionManager) : ConnectionManager × List Envelope :=
  let c := { c with connected }
  (c,if connected then c.createControlEnvelope Keys.connect [] :: c.resubscribeAll else [])

/-- What the broker should hold for the client. -/
def wanted (c : ConnectionManager) (topic : Str) : Option Origin := (c.handlers.lookup topic).map unionScope

def registered (c : ConnectionManager) : Finset Str := c.handlers.keys.toFinset

variable {c : ConnectionManager}

theorem mem_registered {topic : Str} : topic ∈ c.registered ↔ topic ∈ c.handlers := by
  rw [registered,List.mem_toFinset,AList.mem_keys]

theorem wanted_isSome {topic : Str} : (c.wanted topic).isSome = true ↔ topic ∈ c.registered := by
  rw [wanted,Option.isSome_map,AList.lookup_isSome,mem_registered]

theorem wanted_insert (key topic : Str) (callbacks : CallbackList) :
    wanted { c with handlers := c.handlers.insert key callbacks } topic =
      if key = topic then some callbacks.unionScope else c.wanted topic := by
  unfold wanted
  split
  next same => rw [same,AList.lookup_insert]; rfl
  next other => rw [AList.lookup_insert_ne (Ne.symm other)]

theorem registered_insert (key : Str) (callbacks : CallbackList) :
    registered { c with handlers := c.handlers.insert key callbacks } = insert key c.registered := by
  ext topic
  rw [mem_registered,AList.mem_insert,Finset.mem_insert,mem_registered]

theorem wanted_erase (key topic : Str) : wanted { c with handlers := c.handlers.erase key } topic =
    if key = topic then none else c.wanted topic := by
  unfold wanted
  split
  next same => rw [same,AList.lookup_erase]; rfl
  next other => rw [AList.lookup_erase_ne (Ne.symm other)]

theorem registered_erase (key : Str) :
    registered { c with handlers := c.handlers.erase key } = c.registered.erase key := by
  ext topic
  rw [mem_registered,AList.mem_erase,Finset.mem_erase,mem_registered]

theorem read_subscribe {key : Str} {scope : Origin} (wants : c.wanted key = some scope) :
    ClientMessage.read (c.createSubscribeEnvelope key) = .subscribe key scope := by
  obtain ⟨callbacks,here,rfl⟩ := Option.map_eq_some_iff.mp wants
  have payload : decodeSubscribeScope (c.createSubscribeEnvelope key).payload = callbacks.unionScope := by
    rw [createSubscribeEnvelope,here]
    exact decode_encode_scope _
  have read : ClientMessage.read (c.createSubscribeEnvelope key) =
      .subscribe key (decodeSubscribeScope (c.createSubscribeEnvelope key).payload) := rfl
  rw [read,payload]

/-- A SUBSCRIBE for each topic of the table, as the broker reads them. -/
def announcement (c : ConnectionManager) : List ClientMessage := c.resubscribeAll.map .read

theorem mem_announcement {message : ClientMessage} (member : message ∈ c.announcement) :
    ∃ topic scope, message = .subscribe topic scope ∧ topic ∈ c.registered := by
  simp only [announcement,resubscribeAll,List.map_map,List.mem_map,Function.comp_apply] at member
  obtain ⟨topic,here,rfl⟩ := member
  obtain ⟨scope,wants⟩ := Option.isSome_iff_exists.mp (wanted_isSome.mpr (mem_registered.mpr here))
  exact ⟨topic,scope,read_subscribe wants,mem_registered.mpr here⟩

theorem assigns_announcement : assigns c.announcement = c.handlers.keys.map fun topic => ⟨topic,c.wanted topic⟩ := by
  simp only [announcement,resubscribeAll,assigns,List.map_map,List.filterMap_map]
  rw [← List.filterMap_eq_map]
  refine List.filterMap_congr fun topic member => ?_
  obtain ⟨scope,wants⟩ := Option.isSome_iff_exists.mp (wanted_isSome.mpr (mem_registered.mpr (AList.mem_keys.mp member)))
  simp [read_subscribe wants,assign?,wants]

/-- The log makes the client's table of a broker that had nothing. -/
def Exact (c : ConnectionManager) (log : List ClientMessage) : Prop :=
  ∀ topic, settle none (assigns log) topic = c.wanted topic

theorem Exact.subscribed {log : List ClientMessage} (exact : c.Exact log) : subscribed log = c.registered := by
  ext topic
  rw [← settle_subscribed,exact topic,wanted_isSome]

/-- Behind a log that subscribes to nothing else, the whole table makes it exact. -/
theorem exact_announcement {log : List ClientMessage} (within : ClientMessage.subscribed log ⊆ c.registered) :
    c.Exact (log ++ c.announcement) := by
  intro topic
  rw [assigns_append,settle_append,assigns_announcement,settle_map]
  split
  · rfl
  next absent =>
    have unwanted : topic ∉ c.registered := fun member => absent (List.mem_toFinset.mp member)
    have none : (c.wanted topic).isSome = false := Bool.eq_false_iff.mpr fun some => unwanted (wanted_isSome.mp some)
    have gone : (settle Option.none (assigns log) topic).isSome = false :=
      Bool.eq_false_iff.mpr fun some => unwanted (within ((settle_subscribed log topic).mp some))
    rw [Option.isSome_eq_false_iff,Option.isNone_iff_eq_none] at none gone
    rw [none,gone]

/-- What a section queues, as the broker reads it, for the table it leaves. -/
structure Section (c c' : ConnectionManager) (sent : List ClientMessage) : Prop where
  listed : ∀ message ∈ sent, message ≠ .disconnect ∧ message ≠ .other ∧
    ∀ topic scope, message = .subscribe topic scope → topic ∈ c'.registered
  within : ∀ held, held ⊆ c.registered → replay held (edits sent) ⊆ c'.registered
  /-- On the way nothing is held that neither table has. -/
  gradual : ∀ held, held ⊆ c.registered → ∀ front, front <+: edits sent →
    replay held front ⊆ c.registered ∨ replay held front ⊆ c'.registered
  exact : c'.connected = true → ∀ log, ClientMessage.subscribed log ⊆ c.registered →
    (c.connected = true → c.Exact log) → c'.Exact (log ++ sent)
  rebuilt : ∀ front rest, sent = front ++ .connect :: rest → c'.Exact rest

theorem Section.silent {c' : ConnectionManager} (grows : c.registered ⊆ c'.registered)
    (same : c'.connected = true → c.connected = true ∧ c'.wanted = c.wanted) : Section c c' [] := by
  refine ⟨nofun,fun held within => within.trans grows,fun held within front initial => ?_,
    fun online log _ exact topic => ?_,fun front rest split => by simp at split⟩
  · rw [List.prefix_nil.mp initial]
    exact .inl within
  · obtain ⟨before,wanted⟩ := same online
    rw [List.append_nil,exact before topic,wanted]

/-- A section that says one thing of one topic. -/
theorem Section.single {c' : ConnectionManager} {message : ClientMessage} {assign : Assign Str Origin}
    (tells : message.assign? = some assign) (connected : c'.connected = c.connected)
    (wanted : ∀ topic, c'.wanted topic = if assign.key = topic then assign.value else c.wanted topic) :
    Section c c' [message] := by
  have edited : edits [message] = [assign.edit] := by simp [edits,assigns,tells]
  have within (held : Finset Str) (start : held ⊆ c.registered) : assign.edit.apply held ⊆ c'.registered := by
    intro topic member
    rw [← wanted_isSome,wanted]
    by_cases here : assign.key = topic
    · cases given : assign.value <;> simp_all [Assign.edit,Edit.apply]
    · have other : topic ≠ assign.key := fun same => here same.symm
      have held : topic ∈ held := by
        cases given : assign.value <;> simpa [Assign.edit,Edit.apply,given,other] using member
      rw [if_neg here,wanted_isSome]
      exact start held
  refine ⟨fun sent member => ?_,?_,?_,?_,?_⟩
  · rw [List.mem_singleton.mp member]
    refine ⟨?_,?_,?_⟩
    · rintro rfl
      cases tells
    · rintro rfl
      cases tells
    · rintro topic scope rfl
      obtain rfl := Option.some.inj tells
      rw [← wanted_isSome,wanted]
      simp
  · rw [edited]
    exact within
  · intro held start front initial
    rw [edited] at initial
    rcases List.prefix_cons_iff.mp initial with rfl | ⟨rest,rfl,none⟩
    · exact .inl start
    · rw [List.prefix_nil.mp none]
      exact .inr (within held start)
  · intro online log _ exact topic
    have before : settle none (assigns log) topic = c.wanted topic := exact (connected ▸ online) topic
    rw [assigns_append,settle_append,before,wanted]
    simp [assigns,tells]
  · intro front rest split
    cases front with
    | nil =>
      obtain rfl := (List.cons.inj split).1
      cases tells
    | cons first more => simp at split

theorem performRegistration_section (key : Str) (owner : Nat) (scope : Origin) :
    Section c (c.performRegistration key owner scope).1 ((c.performRegistration key owner scope).2.map .read) := by
  unfold performRegistration
  dsimp only
  split
  next online =>
    rw [List.map_singleton,read_subscribe (by rw [wanted_insert,if_pos rfl])]
    exact .single rfl rfl fun topic => wanted_insert key topic _
  next offline =>
    refine .silent ?_ fun online => absurd online offline
    rw [registered_insert]
    exact Finset.subset_insert _ _

theorem performUnregistration_section (key : Str) (owner : Nat) :
    Section c (c.performUnregistration key owner).1 ((c.performUnregistration key owner).2.map .read) := by
  unfold performUnregistration
  split
  next absent => exact .silent subset_rfl fun online => ⟨online,rfl⟩
  next callbacks here =>
    split
    next =>
      have withdrawn : Section c { c with handlers := c.handlers.erase key } [.unsubscribe key] :=
        .single rfl rfl fun topic => wanted_erase key topic
      exact withdrawn
    next next left =>
      dsimp only
      split
      next narrows =>
        rw [List.map_singleton,read_subscribe (by rw [wanted_insert,if_pos rfl])]
        exact .single rfl rfl fun topic => wanted_insert key topic _
      next quiet =>
        refine .silent ?_ fun online => ⟨online,funext fun topic => ?_⟩
        · rw [registered_insert]
          exact Finset.subset_insert _ _
        · have kept : next.unionScope = callbacks.unionScope := by
            by_contra changed
            exact quiet ⟨online,changed⟩
          rw [wanted_insert]
          split
          next same => rw [← same,kept,wanted,here]; rfl
          · rfl

/-- Whoever sends the whole table, with CONNECT ahead of it or without. -/
theorem Section.announces {c' : ConnectionManager} {greeting : List ClientMessage} (same : c'.handlers = c.handlers)
    (greets : greeting = [] ∨ greeting = [.connect]) : Section c c' (greeting ++ c'.announcement) := by
  have table : c'.registered = c.registered := by rw [registered,same]; rfl
  have bare : assigns greeting = [] := by rcases greets with rfl | rfl <;> rfl
  have edited : edits (greeting ++ c'.announcement) = edits c'.announcement := by simp [edits,bare]
  have adds (held : Finset Str) (start : held ⊆ c.registered) {front : List (Edit Str)}
      (initial : front <+: edits c'.announcement) : replay held front ⊆ c'.registered := by
    refine replay_subset front (table ▸ start) fun topic member => ?_
    have listed := initial.subset member
    rw [edits,assigns_announcement,List.map_map,List.mem_map] at listed
    obtain ⟨key,here,edit⟩ := listed
    have found : key = topic := by
      simp only [Function.comp_apply,Assign.edit] at edit
      split at edit
      · exact Edit.add.inj edit
      · cases edit
    exact List.mem_toFinset.mpr (found ▸ here)
  have unled : .connect ∉ c'.announcement := by
    intro member
    obtain ⟨topic,scope,same,_⟩ := mem_announcement member
    cases same
  refine ⟨fun message member => ?_,?_,?_,?_,?_⟩
  · rcases List.mem_append.mp member with led | told
    · rcases greets with rfl | rfl
      · cases led
      · simp [List.mem_singleton.mp led]
    · obtain ⟨topic,scope,rfl,here⟩ := mem_announcement told
      simpa using here
  · intro held start
    rw [edited]
    exact adds held start (List.prefix_refl _)
  · intro held start front initial
    rw [edited] at initial
    exact .inr (adds held start initial)
  · intro _ log within _ topic
    have exact := @exact_announcement c' log (table ▸ within) topic
    simpa [bare] using exact
  · intro front rest split
    have alone : rest = c'.announcement := by
      rcases greets with rfl | rfl
      · rw [List.nil_append] at split
        exact absurd (split ▸ List.mem_append_right _ List.mem_cons_self) unled
      · cases front with
        | nil => exact (List.cons.inj split).2.symm
        | cons first more =>
          have later : c'.announcement = more ++ .connect :: rest := (List.cons.inj split).2
          exact absurd (later ▸ List.mem_append_right _ List.mem_cons_self) unled
    rw [alone]
    exact @exact_announcement c' [] (Finset.empty_subset _)

theorem statusHandler_section (connected : Bool) :
    Section c (c.statusHandler connected).1 ((c.statusHandler connected).2.map .read) := by
  cases connected with
  | true => exact @Section.announces c _ [.connect] rfl (.inr rfl)
  | false => exact .silent subset_rfl nofun

theorem resubscribeAll_section : Section c c c.announcement :=
  @Section.announces c c [] rfl (.inl rfl)

theorem resubscribeAll_control : ∀ env ∈ c.resubscribeAll, Keys.isControlMessage env.header.handlerKey = true := by
  intro env member
  obtain ⟨topic,_,rfl⟩ := List.mem_map.mp member
  rfl

theorem statusHandler_control (connected : Bool) :
    ∀ env ∈ (c.statusHandler connected).2, Keys.isControlMessage env.header.handlerKey = true := by
  intro env member
  cases connected with
  | false => cases member
  | true =>
    rcases List.mem_cons.mp member with rfl | told
    · rfl
    · exact @resubscribeAll_control { c with connected := true } env told

/-- A registration queues one control message at most. -/
theorem performRegistration_control (key : Str) (owner : Nat) (scope : Origin) :
    (c.performRegistration key owner scope).2.length ≤ 1 ∧
      ∀ env ∈ (c.performRegistration key owner scope).2, Keys.isControlMessage env.header.handlerKey = true := by
  unfold performRegistration
  dsimp only
  split
  · exact ⟨le_rfl,fun env member => by rw [List.mem_singleton.mp member]; rfl⟩
  · exact ⟨Nat.zero_le _,nofun⟩

theorem performUnregistration_control (key : Str) (owner : Nat) :
    (c.performUnregistration key owner).1.connected = c.connected ∧
    (c.performUnregistration key owner).2.length ≤ 1 ∧
      ∀ env ∈ (c.performUnregistration key owner).2, Keys.isControlMessage env.header.handlerKey = true := by
  unfold performUnregistration
  split
  · exact ⟨rfl,Nat.zero_le _,nofun⟩
  · split
    · exact ⟨rfl,le_rfl,fun env member => by rw [List.mem_singleton.mp member]; rfl⟩
    · dsimp only
      split
      · exact ⟨rfl,le_rfl,fun env member => by rw [List.mem_singleton.mp member]; rfl⟩
      · exact ⟨rfl,Nat.zero_le _,nofun⟩

/-- An owner has a callback for the topic. -/
def Registered (c : ConnectionManager) (topic : Str) (owner : Nat) : Prop :=
  ∃ callbacks, c.handlers.lookup topic = some callbacks ∧ ∃ entry ∈ callbacks.entries, entry.owner = owner

theorem Registered.listed {topic : Str} {owner : Nat} (registered : c.Registered topic owner) :
    topic ∈ c.handlers.keys := by
  obtain ⟨callbacks,here,_⟩ := registered
  exact AList.mem_keys.mp (AList.lookup_isSome.mp (by simp [here]))

theorem performRegistration_registered (key : Str) (owner : Nat) (scope : Origin) :
    (c.performRegistration key owner scope).1.Registered key owner :=
  ⟨_,AList.lookup_insert _,_,List.mem_append_right _ List.mem_cons_self,rfl⟩

section

variable {topic : Str} {owner : Nat} (registered : c.Registered topic owner)

include registered

theorem Registered.replaced {key : Str} {next : CallbackList}
    (kept : ∀ callbacks, key = topic → c.handlers.lookup topic = some callbacks →
      ∀ entry ∈ callbacks.entries, entry.owner = owner → entry ∈ next.entries) :
    Registered { c with handlers := c.handlers.insert key next } topic owner := by
  obtain ⟨callbacks,here,entry,member,own⟩ := registered
  by_cases same : key = topic
  · refine ⟨next,?_,entry,kept callbacks same here entry member own,own⟩
    rw [same,AList.lookup_insert]
  · refine ⟨callbacks,?_,entry,member,own⟩
    rw [AList.lookup_insert_ne (Ne.symm same),here]

theorem Registered.registers (key : Str) (other : Nat) (scope : Origin) :
    (c.performRegistration key other scope).1.Registered topic owner := by
  refine registered.replaced fun callbacks same here entry member _ => ?_
  rw [same,here]
  exact List.mem_append_left _ member

theorem Registered.unregisters (key : Str) {other : Nat} (different : owner ≠ other) :
    (c.performUnregistration key other).1.Registered topic owner := by
  unfold performUnregistration
  split
  · exact registered
  next callbacks here =>
    have same {found : CallbackList} (same : key = topic) (lookup : c.handlers.lookup topic = some found) :
        found = callbacks := Option.some.inj (lookup.symm.trans (same ▸ here))
    split
    next gone =>
      obtain ⟨found,lookup,entry,member,own⟩ := registered
      have elsewhere : key ≠ topic := by
        intro equal
        rw [same equal lookup] at member
        exact different (own.symm.trans (without_none gone member))
      exact ⟨found,by rw [AList.lookup_erase_ne (Ne.symm elsewhere),lookup],entry,member,own⟩
    next next left =>
      refine registered.replaced fun found equal lookup entry member own => ?_
      rw [without_some left,← same equal lookup]
      exact List.mem_filter.mpr ⟨member,decide_eq_true (own ▸ different)⟩

end

end ConnectionManager

end Wisp
