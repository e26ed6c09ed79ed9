import Wisp.EditLog
import Wisp.MessageKeys

/-! What a broker wants from its peers, and what it tells its links about it. A
link is a client of the remote, so the SUBSCRIBE and UNSUBSCRIBE messages queued on
it, replayed over what the remote held for it, are the remote's view of the
interest. `Mirrored` is the relation between the two. -/
namespace Wisp

open EditLog

/-- What a broker queues on a peer link besides forwarded traffic. -/
inductive Control where
  | connect
  | subscribe (topic : Str)
  | unsubscribe (topic : Str)
  | disconnect (brokerId : Str)
  deriving DecidableEq, Repr

namespace Control

def envelope (linkId : Str) : Control → Envelope
  | .connect => Wire.makeControl Keys.connect linkId []
  | .subscribe topic => Wire.makeControl Keys.subscribe linkId topic
  | .unsubscribe topic => Wire.makeControl Keys.unsubscribe linkId topic
  | .disconnect brokerId => Wire.makeControl Keys.disconnect brokerId []

def key : Control → Str
  | .connect => Keys.connect
  | .subscribe _ => Keys.subscribe
  | .unsubscribe _ => Keys.unsubscribe
  | .disconnect _ => Keys.disconnect

@[simp] theorem envelope_key (linkId : Str) (message : Control) :
    (message.envelope linkId).header.handlerKey = message.key := by
  cases message <;> rfl

theorem key_reserved (message : Control) : Keys.isReservedKey message.key = true := by
  cases message <;> rfl

theorem key_ne_setCluster (message : Control) : message.key ≠ Keys.setCluster := by
  cases message <;> simp only [key] <;> decide

theorem key_disconnect {message : Control} (leaves : message.key = Keys.disconnect) :
    ∃ brokerId, message = .disconnect brokerId := by
  cases message with
  | disconnect brokerId => exact ⟨brokerId,rfl⟩
  | _ => exact absurd leaves (by simp only [key]; decide)

theorem key_subscribe {message : Control} (adds : message.key = Keys.subscribe) :
    ∃ topic, message = .subscribe topic := by
  cases message with
  | subscribe topic => exact ⟨topic,rfl⟩
  | _ => exact absurd adds (by simp only [key]; decide)

def edit? : Control → Option (Edit Str)
  | .subscribe topic => some (.add topic)
  | .unsubscribe topic => some (.drop topic)
  | _ => none

def edits (log : List Control) : List (Edit Str) := log.filterMap edit?

@[simp] theorem edits_nil : edits [] = [] := rfl

@[simp] theorem edits_append (log more : List Control) : edits (log ++ more) = edits log ++ edits more :=
  List.filterMap_append

@[simp] theorem edits_connect (log : List Control) : edits (.connect :: log) = edits log := rfl

@[simp] theorem edits_subscribe (topic : Str) (log : List Control) :
    edits (.subscribe topic :: log) = .add topic :: edits log := rfl

@[simp] theorem edits_unsubscribe (topic : Str) (log : List Control) :
    edits (.unsubscribe topic :: log) = .drop topic :: edits log := rfl

@[simp] theorem edits_subscribes (topics : List Str) :
    edits (topics.map .subscribe) = topics.map .add := by
  induction topics with
  | nil => rfl
  | cons topic rest ih => rw [List.map_cons,edits_subscribe,ih,List.map_cons]

end Control

def maxInterestTopics : Nat := 1000

/-- `m_interest` with its two flags. A `std::set` is a list without repetition:
nothing depends on its order. -/
structure Interest where
  topics : List Str
  saturated : Bool
  wildcard : Bool
  distinct : topics.Nodup
  propagatable : ∀ topic ∈ topics, isPropagatableTopic topic = true
  bounded : topics.length ≤ maxInterestTopics + saturated.toNat

namespace Interest

def empty : Interest := ⟨[],false,false,by simp,by simp,by simp⟩

/-- The links of a wide broker take everything. -/
def wide (interest : Interest) : Bool := interest.saturated || interest.wildcard

def add (interest : Interest) (topic : Str) (wanted : isPropagatableTopic topic = true)
    (fresh : ¬(interest.saturated = true ∨ topic ∈ interest.topics)) : Interest where
  topics := topic :: interest.topics
  saturated := decide (interest.topics.length + 1 > maxInterestTopics)
  wildcard := interest.wildcard
  distinct := List.nodup_cons.mpr ⟨fun member => fresh (.inr member),interest.distinct⟩
  propagatable := by
    rintro other (_ | ⟨_,member⟩)
    · exact wanted
    · exact interest.propagatable other member
  bounded := by
    have room := interest.bounded
    rw [Bool.eq_false_iff.mpr fun full => fresh (.inl full)] at room
    by_cases full : interest.topics.length + 1 > maxInterestTopics
    · simpa [full] using room
    · simpa [full] using Nat.le_of_not_lt full

def erase (interest : Interest) (topic : Str) : Interest where
  topics := interest.topics.erase topic
  saturated := interest.saturated
  wildcard := interest.wildcard
  distinct := interest.distinct.erase topic
  propagatable := fun other member => interest.propagatable other (List.mem_of_mem_erase member)
  bounded := List.length_erase_le.trans interest.bounded

/-- The new interest and what is queued on every link. -/
def noteTopicSubscribed (topic : Str) (interest : Interest) : Interest × List Control :=
  if topic = Keys.wildcardTopic then
    if interest.wildcard then (interest,[])
    else ({ interest with wildcard := true },[.subscribe Keys.wildcardTopic])
  else if wanted : isPropagatableTopic topic = true then
    if fresh : interest.saturated = true ∨ topic ∈ interest.topics then (interest,[])
    else
      let next := interest.add topic wanted fresh
      (next,[.subscribe (if next.saturated then Keys.wildcardTopic else topic)])
  else (interest,[])

def noteTopicUnsubscribed (topic : Str) (interest : Interest) : Interest × List Control :=
  if topic = Keys.wildcardTopic then
    if interest.wildcard then
      ({ interest with wildcard := false },
        if interest.saturated then []
        else .unsubscribe Keys.wildcardTopic :: interest.topics.map .subscribe)
    else (interest,[])
  else if isPropagatableTopic topic = true then
    if interest.saturated = true ∨ topic ∉ interest.topics then (interest,[])
    else (interest.erase topic,[.unsubscribe topic])
  else (interest,[])

/-- `wantedBefore` is the answer from before the registry was touched. -/
def noteMeshInterestChange (topic : Str) (wantedBefore wantedNow : Bool) (interest : Interest) :
    Interest × List Control :=
  if wantedNow = wantedBefore then (interest,[])
  else if wantedNow then interest.noteTopicSubscribed topic
  else interest.noteTopicUnsubscribed topic

/-- The full set, since a new or reset link starts from nothing. -/
def sendInterestTo (interest : Interest) : List Control :=
  if interest.wide then [.subscribe Keys.wildcardTopic] else interest.topics.map .subscribe

/-- What `m_interest` and the wildcard flag can hold. -/
def Filter (filter : Str) : Prop := filter = Keys.wildcardTopic ∨ isPropagatableTopic filter = true

/-- A link asks for nothing else. -/
def Tells (messages : List Control) : Prop := ∀ topic, .subscribe topic ∈ messages → Filter topic

theorem Tells.append {first later : List Control} (told : Tells first) (telling : Tells later) :
    Tells (first ++ later) := fun topic member =>
  (List.mem_append.mp member).elim (told topic) (telling topic)

theorem topics_tell (interest : Interest) : Tells (interest.topics.map .subscribe) := by
  intro topic member
  obtain ⟨wanted,listed,same⟩ := List.mem_map.mp member
  exact .inr (Control.subscribe.inj same ▸ interest.propagatable wanted listed)

theorem sendInterestTo_tells (interest : Interest) : Tells interest.sendInterestTo := by
  unfold sendInterestTo
  split
  · intro topic member
    exact .inl (Control.subscribe.inj (List.mem_singleton.mp member))
  · exact interest.topics_tell

theorem noteMeshInterestChange_tells (topic : Str) (before now : Bool) (interest : Interest) :
    Tells (interest.noteMeshInterestChange topic before now).2 := by
  unfold noteMeshInterestChange noteTopicSubscribed noteTopicUnsubscribed
  intro told member
  split_ifs at member with same wanted wild flag propagatable fresh wild' flag' full propagatable' absent
  · cases member
  · cases member
  · exact .inl (Control.subscribe.inj (List.mem_singleton.mp member))
  · cases member
  · rw [Control.subscribe.inj (List.mem_singleton.mp member)]
    split
    · exact .inl rfl
    · exact .inr propagatable
  · cases member
  · cases member
  · exact interest.topics_tell told ((List.mem_cons.mp member).resolve_left (by rintro ⟨⟩))
  · cases member
  · cases member
  · cases List.mem_singleton.mp member
  · cases member

/-- The largest set a link can come to hold at its remote. -/
def reach (interest : Interest) : Finset Str := insert Keys.wildcardTopic interest.topics.toFinset

theorem wildcard_not_mem (interest : Interest) : Keys.wildcardTopic ∉ interest.topics := by
  intro member
  simpa [wildcard_not_propagatable] using interest.propagatable _ member

theorem reach_card (interest : Interest) : interest.reach.card ≤ maxInterestTopics + 2 := by
  have count := List.toFinset_card_of_nodup interest.distinct
  have room := interest.bounded
  have flag := Bool.toNat_le interest.saturated
  have grown := Finset.card_insert_le Keys.wildcardTopic interest.topics.toFinset
  unfold reach
  omega

/-- A link's remote, holding `base` for it and with `log` still to process, ends up
with what the broker wants: the wildcard when wide, the exact set otherwise. -/
structure Mirrored (interest : Interest) (base : Finset Str) (log : List Control) : Prop where
  wide : interest.wide = true → Keys.wildcardTopic ∈ replay base (Control.edits log)
  narrow : interest.wide = false → replay base (Control.edits log) = interest.topics.toFinset
  within : replay base (Control.edits log) ⊆ interest.reach
  small : Bounded (maxInterestTopics + 2) base (Control.edits log)

variable {interest next : Interest} {base : Finset Str} {log more : List Control}

/-- Queueing topics the next interest reaches keeps every moment of the replay small. -/
theorem Mirrored.extend (mirrored : Mirrored interest base log)
    (kept : replay base (Control.edits log) ⊆ next.reach)
    (named : ∀ topic, .add topic ∈ Control.edits more → topic ∈ next.reach)
    (wide : next.wide = true → Keys.wildcardTopic ∈ replay base (Control.edits (log ++ more)))
    (narrow : next.wide = false → replay base (Control.edits (log ++ more)) = next.topics.toFinset) :
    Mirrored next base (log ++ more) := by
  have part : ∀ front, front <+: Control.edits more →
      replay (replay base (Control.edits log)) front ⊆ next.reach := fun front initial =>
    replay_subset front kept fun topic member => named topic (initial.subset member)
  refine ⟨wide,narrow,?_,?_⟩
  · rw [Control.edits_append,replay_append]
    exact part _ (List.prefix_refl _)
  · rw [Control.edits_append]
    exact mirrored.small.append fun front initial =>
      (Finset.card_le_card (part front initial)).trans next.reach_card

theorem sendInterestTo_named (interest : Interest) :
    ∀ topic, .add topic ∈ Control.edits interest.sendInterestTo → topic ∈ interest.reach := by
  intro topic member
  unfold sendInterestTo at member
  split at member
  · simp_all [reach]
  · simp_all [reach]

/-- The remote forgot the link with `rest` still to come, and was answered with the full set. -/
theorem Mirrored.restart {front rest : List Control} (mirrored : Mirrored interest base (front ++ rest)) :
    Mirrored interest ∅ (rest ++ interest.sendInterestTo) := by
  have part : replay ∅ (Control.edits rest) ⊆ replay base (Control.edits (front ++ rest)) := by
    rw [Control.edits_append]
    exact replay_suffix base _ _
  have small : Bounded (maxInterestTopics + 2) ∅ (Control.edits rest) :=
    Bounded.shrink (by simpa using mirrored.small)
  refine ⟨?_,?_,?_,?_⟩
  · intro wide
    simp [sendInterestTo,wide,Edit.apply]
  · intro narrow
    rw [mirrored.narrow narrow] at part
    simp only [sendInterestTo,narrow,Bool.false_eq_true,↓reduceIte,Control.edits_append,
      Control.edits_subscribes,replay_append,replay_adds]
    exact Finset.union_eq_right.mpr part
  · rw [Control.edits_append,replay_append]
    exact replay_subset _ (part.trans mirrored.within) (sendInterestTo_named interest)
  · rw [Control.edits_append]
    refine small.append fun more initial => ?_
    refine (Finset.card_le_card ?_).trans interest.reach_card
    exact replay_subset more (part.trans mirrored.within) fun topic member =>
      sendInterestTo_named interest topic (initial.subset member)

theorem opened (interest : Interest) : Mirrored interest ∅ (.connect :: interest.sendInterestTo) := by
  refine ⟨?_,?_,?_,?_⟩
  · intro wide
    simp [sendInterestTo,wide,Edit.apply]
  · intro narrow
    simp [sendInterestTo,narrow,replay_adds]
  · exact replay_subset _ (Finset.empty_subset _) (sendInterestTo_named interest)
  · intro front initial
    refine (Finset.card_le_card ?_).trans interest.reach_card
    exact replay_subset front (Finset.empty_subset _) fun topic member =>
      sendInterestTo_named interest topic (initial.subset member)

theorem Mirrored.tail {control : Control} (mirrored : Mirrored interest base (control :: log)) :
    Mirrored interest (replay base (Control.edits [control])) log := by
  have parts : Control.edits (control :: log) = Control.edits [control] ++ Control.edits log :=
    Control.edits_append [control] log
  obtain ⟨wide,narrow,within,small⟩ := mirrored
  simp only [parts,replay_append] at wide narrow within
  refine ⟨wide,narrow,within,?_⟩
  cases control <;> first | exact small | exact small.tail

theorem Mirrored.unchanged (mirrored : Mirrored interest base log) : Mirrored interest base (log ++ []) := by
  rwa [List.append_nil]

theorem Mirrored.added (mirrored : Mirrored interest base log) {topic : Str}
    (wanted : isPropagatableTopic topic = true)
    (fresh : ¬(interest.saturated = true ∨ topic ∈ interest.topics)) :
    Mirrored (interest.add topic wanted fresh) base
      (log ++ [.subscribe (if (interest.add topic wanted fresh).saturated then Keys.wildcardTopic else topic)]) := by
  have narrowed : interest.wide = interest.wildcard := by
    simp [Interest.wide,Bool.eq_false_iff.mpr fun full => fresh (.inl full)]
  have topics : (interest.add topic wanted fresh).topics = topic :: interest.topics := rfl
  have grown : interest.reach ⊆ (interest.add topic wanted fresh).reach := by
    rw [reach,reach,topics,List.toFinset_cons]
    exact Finset.insert_subset_insert _ (Finset.subset_insert _ _)
  refine mirrored.extend (mirrored.within.trans grown) ?_ ?_ ?_
  · intro other member
    split at member <;> simp_all [reach]
  · intro wide
    by_cases full : (interest.add topic wanted fresh).saturated = true
    · simp [full,Edit.apply]
    · have off : interest.wildcard = true := (Bool.or_eq_true_iff.mp wide).resolve_left full
      have held := mirrored.wide (narrowed.trans off)
      simp [full,Edit.apply,held]
  · intro narrow
    obtain ⟨full,off⟩ := Bool.or_eq_false_iff.mp narrow
    have same := mirrored.narrow (narrowed.trans off)
    simp [full,Edit.apply,same,topics]

/-- Telling every link what `noteTopicSubscribed` queues keeps it in step. -/
theorem Mirrored.subscribed (mirrored : Mirrored interest base log) (topic : Str) :
    Mirrored (interest.noteTopicSubscribed topic).1 base
      (log ++ (interest.noteTopicSubscribed topic).2) := by
  unfold noteTopicSubscribed
  split
  · split
    · exact mirrored.unchanged
    · refine mirrored.extend mirrored.within ?_ ?_ ?_
      · simp [reach]
      · simp [Edit.apply]
      · simp [Interest.wide]
  · split
    next wanted =>
      split
      · exact mirrored.unchanged
      next fresh => exact mirrored.added wanted fresh
    · exact mirrored.unchanged

/-- The last wildcard subscriber went: the links are told the individual topics. -/
theorem Mirrored.narrowed (mirrored : Mirrored interest base log) (unsaturated : interest.saturated = false) :
    Mirrored { interest with wildcard := false } base
      (log ++ .unsubscribe Keys.wildcardTopic :: interest.topics.map .subscribe) := by
  refine mirrored.extend mirrored.within ?_ ?_ ?_
  · intro topic member
    simp_all [reach]
  · simp [Interest.wide,unsaturated]
  · intro _
    have part : (replay base (Control.edits log)).erase Keys.wildcardTopic ⊆ interest.topics.toFinset :=
      Finset.subset_insert_iff.mp mirrored.within
    simpa [Edit.apply,replay_adds] using Finset.union_eq_right.mpr part

theorem Mirrored.erased (mirrored : Mirrored interest base log) {topic : Str}
    (wanted : isPropagatableTopic topic = true) :
    Mirrored (interest.erase topic) base (log ++ [.unsubscribe topic]) := by
  have rest : (interest.erase topic).topics.toFinset = interest.topics.toFinset.erase topic := by
    ext other
    simp [erase,interest.distinct.mem_erase_iff]
  have other := (propagatable_ne_wildcard wanted).symm
  have part : (replay base (Control.edits log)).erase topic ⊆ (interest.erase topic).reach := by
    rw [reach,rest,← Finset.erase_insert_of_ne other]
    exact Finset.erase_subset_erase topic mirrored.within
  refine ⟨?_,?_,?_,?_⟩
  · intro wide
    simpa [Edit.apply,other] using mirrored.wide wide
  · intro narrow
    simp [Edit.apply,mirrored.narrow narrow,rest]
  · simpa [Edit.apply] using part
  · rw [Control.edits_append]
    refine mirrored.small.append fun front initial => ?_
    rcases List.prefix_cons_iff.mp initial with rfl | ⟨tail,rfl,ended⟩
    · exact mirrored.small _ (List.prefix_refl _)
    · rw [List.prefix_nil.mp ended]
      exact (Finset.card_le_card part).trans (interest.erase topic).reach_card

theorem Mirrored.unsubscribed (mirrored : Mirrored interest base log) (topic : Str) :
    Mirrored (interest.noteTopicUnsubscribed topic).1 base
      (log ++ (interest.noteTopicUnsubscribed topic).2) := by
  unfold noteTopicUnsubscribed
  split
  · split
    next =>
      split
      next full =>
        refine mirrored.extend mirrored.within (by simp) ?_ (by simp [Interest.wide,full])
        intro _
        simpa using mirrored.wide (by simp [Interest.wide,full])
      next remains => exact mirrored.narrowed (Bool.eq_false_iff.mpr remains)
    · exact mirrored.unchanged
  · split
    next wanted =>
      split
      · exact mirrored.unchanged
      · exact mirrored.erased wanted
    · exact mirrored.unchanged

theorem Mirrored.changed (mirrored : Mirrored interest base log) (topic : Str) (before now : Bool) :
    Mirrored (interest.noteMeshInterestChange topic before now).1 base
      (log ++ (interest.noteMeshInterestChange topic before now).2) := by
  unfold noteMeshInterestChange
  split
  · exact mirrored.unchanged
  · split
    · exact mirrored.subscribed topic
    · exact mirrored.unsubscribed topic

/-- The interest is that of a broker some of whose subscribers want these topics from the mesh. -/
structure Tracks (interest : Interest) (wants : Str → Prop) : Prop where
  wildcard : interest.wildcard = true ↔ wants Keys.wildcardTopic
  topics : interest.saturated = false →
    ∀ topic, topic ∈ interest.topics ↔ isPropagatableTopic topic = true ∧ wants topic

theorem Tracks.congr {wants wants' : Str → Prop} (tracks : Tracks interest wants)
    (same : ∀ topic, wants' topic ↔ wants topic) : Tracks interest wants' :=
  ⟨tracks.wildcard.trans (same _).symm,fun unsaturated topic => by rw [same,tracks.topics unsaturated topic]⟩

theorem Tracks.subscribed {wants : Str → Prop} (tracks : Tracks interest wants) (topic : Str) :
    Tracks (interest.noteTopicSubscribed topic).1 (fun t => t = topic ∨ wants t) := by
  unfold noteTopicSubscribed
  split
  next wild =>
    subst wild
    have kept : interest.saturated = false → ∀ t, t ∈ interest.topics ↔
        isPropagatableTopic t = true ∧ (t = Keys.wildcardTopic ∨ wants t) := by
      intro unsaturated t
      rw [tracks.topics unsaturated t]
      refine and_congr_right fun wanted => ?_
      simp [propagatable_ne_wildcard wanted]
    split
    next already => exact ⟨by simp [already],kept⟩
    next => exact ⟨by simp,kept⟩
  next named =>
    have wildcard : interest.wildcard = true ↔ Keys.wildcardTopic = topic ∨ wants Keys.wildcardTopic := by
      simp [tracks.wildcard,Ne.symm named]
    split
    next wanted =>
      split
      next known =>
        refine ⟨wildcard,fun unsaturated t => ?_⟩
        have member := known.resolve_left (Bool.eq_false_iff.mp unsaturated)
        have held := (tracks.topics unsaturated topic).mp member
        rw [tracks.topics unsaturated t]
        by_cases same : t = topic
        · subst same; simp [held]
        · simp [same]
      next fresh =>
        have unsaturated : interest.saturated = false := Bool.eq_false_iff.mpr fun full => fresh (.inl full)
        refine ⟨wildcard,fun _ t => ?_⟩
        have listed : t ∈ (interest.add topic wanted fresh).topics ↔ t = topic ∨ t ∈ interest.topics :=
          List.mem_cons
        rw [listed,tracks.topics unsaturated t]
        by_cases same : t = topic
        · subst same; simp [wanted]
        · simp [same]
    next unwanted =>
      refine ⟨wildcard,fun unsaturated t => ?_⟩
      rw [tracks.topics unsaturated t]
      by_cases same : t = topic
      · subst same; simp [unwanted]
      · simp [same]

theorem Tracks.unsubscribed {wants : Str → Prop} (tracks : Tracks interest wants) (topic : Str) :
    Tracks (interest.noteTopicUnsubscribed topic).1 (fun t => t ≠ topic ∧ wants t) := by
  unfold noteTopicUnsubscribed
  split
  next wild =>
    subst wild
    have kept : interest.saturated = false → ∀ t, t ∈ interest.topics ↔
        isPropagatableTopic t = true ∧ (t ≠ Keys.wildcardTopic ∧ wants t) := by
      intro unsaturated t
      rw [tracks.topics unsaturated t]
      refine and_congr_right fun wanted => ?_
      simp [propagatable_ne_wildcard wanted]
    split
    next => exact ⟨by simp,kept⟩
    next off => exact ⟨by simp [off],kept⟩
  next named =>
    have wildcard : interest.wildcard = true ↔ Keys.wildcardTopic ≠ topic ∧ wants Keys.wildcardTopic := by
      simp [tracks.wildcard,Ne.symm named]
    split
    next wanted =>
      split
      next absent =>
        refine ⟨wildcard,fun unsaturated t => ?_⟩
        have missing := absent.resolve_left (Bool.eq_false_iff.mp unsaturated)
        rw [tracks.topics unsaturated] at missing
        rw [tracks.topics unsaturated t]
        by_cases same : t = topic
        · subst same; simpa [wanted] using missing
        · simp [same]
      next =>
        refine ⟨wildcard,fun unsaturated t => ?_⟩
        have listed : t ∈ (interest.erase topic).topics ↔ t ≠ topic ∧ t ∈ interest.topics :=
          interest.distinct.mem_erase_iff
        rw [listed,tracks.topics unsaturated t,and_left_comm]
    next unwanted =>
      refine ⟨wildcard,fun unsaturated t => ?_⟩
      rw [tracks.topics unsaturated t]
      by_cases same : t = topic
      · subst same; simp [unwanted]
      · simp [same]

/-- One topic's answer changed from `before` to `now`; the rest stand. -/
theorem Tracks.changed {wants : Str → Prop} (tracks : Tracks interest wants) (topic : Str)
    (before now : Bool) (was : wants topic ↔ before = true) :
    Tracks (interest.noteMeshInterestChange topic before now).1
      (fun t => if t = topic then now = true else wants t) := by
  unfold noteMeshInterestChange
  split
  next same =>
    refine tracks.congr fun t => ?_
    by_cases here : t = topic
    · subst here; simp [was,same]
    · simp [here]
  next =>
    split
    next wanted =>
      refine (tracks.subscribed topic).congr fun t => ?_
      by_cases here : t = topic <;> simp [here,wanted]
    next unwanted =>
      refine (tracks.unsubscribed topic).congr fun t => ?_
      by_cases here : t = topic <;> simp [here,unwanted]

end Interest

end Wisp
