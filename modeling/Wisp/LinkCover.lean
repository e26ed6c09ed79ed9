import Wisp.LinkReset

/-! No interest is lost to a RESET while the remote takes what the link sends. A
re-send only adds, and what it adds is read in one section, so it covers the interest
of that moment; a withdrawal queued ahead of it takes nothing that is still wanted. -/
namespace Wisp

open Transition EditLog Routing

namespace Interest

variable {interest : Interest} {held : Finset Str} {pending : List Control}

theorem Covered.mono (covered : interest.Covered held) {more : Finset Str} (subset : held ⊆ more) :
    interest.Covered more :=
  covered.imp (subset ·) fun ⟨narrow,topics⟩ => ⟨narrow,fun topic listed => subset (topics topic listed)⟩

/-- An update takes nothing that is still wanted, wherever it is picked up. -/
theorem Covered.updating (covered : interest.Covered held) (updating : interest.Updating pending) :
    interest.Covered (replay held (Control.edits pending)) := by
  have added {whole : List Control} (suffix : pending <:+ whole) (adds : Adds (Control.edits whole)) :
      interest.Covered (replay held (Control.edits pending)) := by
    refine covered.mono (subset_replay_adds (fun edit member => adds edit ?_) held)
    exact (suffix.filterMap _).subset member
  obtain ⟨whole,update,suffix⟩ := updating
  cases update with
  | none => exact added suffix (adds_subscribes [])
  | add topic => exact added suffix (adds_subscribes [topic])
  | drop propagatable gone =>
    rcases List.suffix_cons_iff.mp suffix with rfl | rest
    · exact covered.dropped propagatable gone
    · exact added rest (adds_subscribes [])
  | narrow narrow =>
    rcases List.suffix_cons_iff.mp suffix with rfl | rest
    · exact covered_narrowed held narrow
    · exact added rest (adds_subscribes _)

theorem covered_resent (interest : Interest) (held : Finset Str) :
    interest.Covered (replay held (Control.edits interest.sendInterestTo)) := by
  unfold sendInterestTo
  split
  · exact .inl (Finset.mem_insert_self _ _)
  next narrow =>
    refine .inr ⟨by simpa using narrow,fun topic listed => ?_⟩
    rw [Control.edits_subscribes,replay_adds]
    exact Finset.mem_union_right _ (List.mem_toFinset.mpr listed)

end Interest

namespace Resending

/-- The remote is not at its subscription limit when a new topic of the link arrives. -/
def Roomy (s : Resending) : Label → Prop
  | .receive => ∀ topic ∈ (s.wire.head?.bind LinkFrame.control?).bind Control.added?, s.remote.canSubscribe topic = true
  | _ => True

instance (s : Resending) (label : Label) : Decidable (s.Roomy label) :=
  match label with
  | .receive => inferInstanceAs (Decidable (∀ _ ∈ _, _))
  | .subscribed _ | .unsubscribed _ | .push | .send | .traffic | .forget | .reset | .resend => isTrue trivial

/-- The remote will end up with everything wanted, or be asked for it. -/
structure Promised (s : Resending) : Prop extends Orderly s where
  covered : 0 < s.resets ∨ (s.remote.known = false ∧ .control .connect ∉ s.wire) ∨
    s.interest.Covered (replay s.remote.held (Control.edits (s.log ++ s.resending ++ s.pending)))

theorem start_promised {interest : Interest} (fits : ∀ topic ∈ interest.topics, TopicFits topic) :
    Promised (start interest) := by
  refine ⟨start_orderly fits,.inr (.inr ?_)⟩
  simpa [start,log] using interest.covered_resent ∅

section

variable {s : Resending} (promised : Promised s)

include promised

/-- A step that leaves the remote alone, and its view of what is to come no smaller. -/
theorem Promised.keep {s' : Resending} (orderly : Orderly s') (interest : s'.interest = s.interest)
    (remote : s'.remote = s.remote) (resets : s'.resets = s.resets)
    (connect : .control .connect ∈ s'.wire → .control .connect ∈ s.wire)
    (more : replay s.remote.held (Control.edits (s.log ++ s.resending ++ s.pending)) ⊆
      replay s.remote.held (Control.edits (s'.log ++ s'.resending ++ s'.pending))) : Promised s' := by
  refine ⟨orderly,?_⟩
  rw [interest,remote,resets]
  exact promised.covered.imp_right (Or.imp (And.imp_right fun absent member => absent (connect member))
    fun covered => covered.mono more)

/-- An interest section, from the moment the last update is pushed. -/
theorem Promised.changed (idle : s.pending = []) {interest : Interest} {pending : List Control}
    (orderly : Orderly { s with interest, pending })
    (later : ∀ held, s.interest.Covered held → interest.Covered (replay held (Control.edits pending))) :
    Promised { s with interest, pending } := by
  refine ⟨orderly,promised.covered.imp_right (Or.imp_right fun covered => ?_)⟩
  rw [idle,List.append_nil] at covered
  have next := later _ covered
  rwa [← replay_append,← Control.edits_append] at next

theorem Promised.receive {frame : LinkFrame} {rest : List LinkFrame} (listed : s.wire = frame :: rest)
    (roomy : s.Roomy .receive) : Promised { s with
      wire := rest
      remote := s.remote.hear frame.message
      resets := s.resets + (s.remote.greets frame.message).toNat } := by
  refine ⟨promised.toOrderly.acts (.receive listed),?_⟩
  unfold Roomy at roomy
  have sendable (message : Control) (same : frame = .control message) : message = .connect ∨ message.Pushed :=
    promised.framed message (by simp [listed,same])
  rcases promised.covered with asked | ⟨unknown,unled⟩ | covered
  · exact .inl (Nat.lt_add_right _ asked)
  · left
    rw [listed] at unled
    have drawn := greets_frame unknown sendable fun same => unled (by simp [same])
    simp [drawn]
  · refine .inr (.inr ?_)
    rw [held_hear s.remote frame sendable fun topic same => roomy topic (by rw [listed,same]; exact rfl)]
    have parts : s.log = LinkFrame.controls [frame] ++ (LinkFrame.controls rest ++ s.control) := by
      rw [← List.append_assoc,← LinkFrame.controls_append,log,listed]
      rfl
    rw [parts] at covered
    simpa only [log,Control.edits_append,replay_append] using covered

theorem Promised.acts {label : Label} {s' : Resending} (acts : Acts s label s') (roomy : s.Roomy label) :
    Promised s' := by
  have orderly := promised.toOrderly.acts acts
  cases acts with
  | idles => exact promised
  | receive listed => exact promised.receive listed roomy
  | @subscribed topic free fits => exact promised.changed free orderly fun held covered => covered.subscribed topic
  | @unsubscribed topic free => exact promised.changed free orderly fun held covered => covered.unsubscribed topic
  | @push message rest listed =>
    refine promised.keep orderly rfl rfl rfl id ?_
    have parts : Control.edits (message :: rest) = Control.edits [message] ++ Control.edits rest :=
      Control.edits_append [message] rest
    simp only [log,listed,Control.edits_append,replay_append,parts]
    exact replay_mono _ (replay_ahead_of_adds _ promised.adds _)
  | send listed outside =>
    refine promised.keep orderly rfl rfl rfl (fun member => ?_) (by simp [log,listed])
    rcases List.mem_append.mp member with old | new
    · exact old
    · have same := List.mem_singleton.mp new
      cases same
      exact (connect_unpushed (promised.queued _ (by simp [listed]))).elim
  | traffic outside => exact promised.keep orderly rfl rfl rfl (by simp) (by simp [log])
  | forget =>
    by_cases led : .control .connect ∈ s.wire
    · rwa [← promised.unheard led]
    · exact ⟨orderly,.inr (.inl ⟨rfl,led⟩)⟩
  | reset outside greeted =>
    refine ⟨orderly,.inr (.inr ?_)⟩
    simp only [Control.edits_append,replay_append]
    exact (s.interest.covered_resent _).updating promised.updating
  | resend listed => exact promised.keep orderly rfl rfl rfl id (by simp [log,listed])

end

/-- In every interleaving in which the remote stays below its limit, once everything
queued is processed the remote of a known link covers every topic still wanted. -/
theorem resend_loses_nothing (interest : Interest) (fits : ∀ topic ∈ interest.topics, TopicFits topic)
    (schedule : List Label) (roomy : Always step Roomy schedule (start interest))
    (quiet : (run step schedule (start interest)).state.Quiet)
    (known : (run step schedule (start interest)).state.remote.known = true) :
    ∀ topic, topic ∈ (run step schedule (start interest)).state.interest.topics ∨
        (run step schedule (start interest)).state.interest.wide = true →
      topic ∈ (run step schedule (start interest)).state.remote.topics ∨
        Keys.wildcardTopic ∈ (run step schedule (start interest)).state.remote.topics := by
  have promised := run_invariant step Promised (fun s label roomy promised => promised.acts (act_acts s label) roomy) schedule
    (start interest) roomy (start_promised fits)
  generalize (run step schedule (start interest)).state = reached at *
  obtain ⟨pending,resending,control,wire,resets⟩ := quiet
  have covered : reached.interest.Covered reached.remote.held := by
    rcases promised.covered with asked | ⟨unknown,_⟩ | covered
    · omega
    · simp [known] at unknown
    · simpa [log,pending,resending,control,wire] using covered
  intro topic wanted
  rw [← ClientRecord.mem_held,← ClientRecord.mem_held]
  rcases covered with every | ⟨narrow,topics⟩
  · exact .inr every
  · exact .inl (topics topic (wanted.resolve_right (by simp [narrow])))

/-- A subscription falls between the callback's snapshot and its push. -/
def wantedMeanwhile : List Label := forgotten ++ [.subscribed (str "u"),.push,.resend] ++ settle

theorem resend_loses_nothing_meanwhile :
    str "u" ∈ (run step wantedMeanwhile (start .empty)).state.interest.topics ∧
      (str "u" ∈ (run step wantedMeanwhile (start .empty)).state.remote.topics ∨
        Keys.wildcardTopic ∈ (run step wantedMeanwhile (start .empty)).state.remote.topics) := by
  have wanted : str "u" ∈ (run step wantedMeanwhile (start .empty)).state.interest.topics := by decide +kernel
  refine ⟨wanted,?_⟩
  exact resend_loses_nothing .empty (by simp [Interest.empty]) wantedMeanwhile (by decide +kernel) (by decide +kernel)
    (by decide +kernel) (str "u") (.inl wanted)

/-! The limit of the remote is within reach of a run. Topics that a re-send brings back
after their withdrawal stay with the remote, and every RESET that is handled late can
leave as many of them as an unsaturated interest holds. -/

/-- Nothing is queued anywhere and the remote knows the link. -/
def calm (interest : Interest) (topics : TopicMap) (resets : Nat) : Resending :=
  ⟨interest,[],[],[],[],⟨true,topics⟩,resets⟩

/-- A subscriber asks for a topic, and the remote hears of it. -/
def offer (topic : Str) : List Label := [.subscribed topic,.push,.send,.receive]

/-- The topic is withdrawn just before the callback pushes it. -/
def betray (topic : Str) : List Label := [.unsubscribed topic,.push,.resend]

def drain (control : List Control) : List Label := control.flatMap fun _ => [.send,.receive]

def stale (topics : List Str) : List Control := topics.flatMap fun topic => [.unsubscribe topic,.subscribe topic]

/-- The topics are wanted, a RESET is handled, and all of them are withdrawn meanwhile. -/
def round (topics : List Str) : List Label :=
  topics.flatMap offer ++ [.reset] ++ topics.reverse.flatMap betray ++ drain (stale topics.reverse)

/-- A topic that a link may ask for. -/
def Plain (topic : Str) : Prop := isPropagatableTopic topic = true ∧ TopicFits topic

section

variable {interest : Interest} {topics : TopicMap} {topic : Str} (resets : Nat)

theorem run_offer (topics : TopicMap) (plain : Plain topic) (narrow : interest.wide = false) (fresh : topic ∉ interest.topics)
    (few : interest.topics.length < maxInterestTopics) :
    ∃ later : Interest, later.topics = topic :: interest.topics ∧ later.wide = false ∧
      (run step (offer topic) (calm interest topics resets)).state =
        { calm later topics resets with remote := (ClientRecord.mk true topics).hear (.subscribe topic .any) } := by
  obtain ⟨propagatable,nonempty,short⟩ := plain
  obtain ⟨unsaturated,off⟩ := Bool.or_eq_false_iff.mp narrow
  have new : ¬(interest.saturated = true ∨ topic ∈ interest.topics) := by simp [unsaturated,fresh]
  have room : (interest.add topic propagatable new).saturated = false := by
    simpa [Interest.add] using Nat.succ_le_of_lt few
  refine ⟨interest.add topic propagatable new,rfl,?_,?_⟩
  · simp only [Interest.wide,room,Bool.false_or]
    exact off
  · have named := propagatable_ne_wildcard propagatable
    have noted : interest.noteTopicSubscribed topic = (interest.add topic propagatable new,[.subscribe topic]) := by
      simp [Interest.noteTopicSubscribed,named,propagatable,new,room]
    simp [offer,run,step,act,calm,nonempty,short,noted,LinkFrame.message,ClientRecord.greets]

theorem keys_erase {topic : Str} (held : topic ∈ topics) : (topics.erase topic).keys.length + 1 = topics.keys.length := by
  have before := ClientRecord.held_card ⟨true,topics⟩
  have after := ClientRecord.held_card ((ClientRecord.mk true topics).hear (.unsubscribe topic))
  rw [ClientRecord.held_unsubscribe] at after
  have one := Finset.card_erase_add_one (ClientRecord.mem_held (r := ⟨true,topics⟩) |>.mpr held)
  rw [after,before] at one
  exact one

theorem keys_subscribe (topic : Str) (topics : TopicMap) :
    (ClientRecord.subscribe topic .any topics).keys.length ≤ topics.keys.length + 1 := by
  rw [← ClientRecord.held_card ⟨true,_⟩,← ClientRecord.held_card ⟨true,topics⟩]
  refine (Finset.card_le_card fun t member => ?_).trans (Finset.card_insert_le topic _)
  rw [ClientRecord.mem_held] at member
  rw [Finset.mem_insert,ClientRecord.mem_held]
  exact (ClientRecord.mem_subscribe topics topic t .any).mp member

theorem hear_subscribe (topics : TopicMap) (fits : TopicFits topic) (room : topics.keys.length < maxSubscriptionsPerClient) :
    (ClientRecord.mk true topics).hear (.subscribe topic .any) = ⟨true,ClientRecord.subscribe topic .any topics⟩ := by
  simp [ClientRecord.hear,ClientRecord.accepts,ClientRecord.canSubscribe,fits.1,fits.2,room]

theorem run_offers (asked : List Str) (plain : ∀ topic ∈ asked, Plain topic) (distinct : asked.Nodup)
    (fresh : ∀ topic ∈ asked, topic ∉ interest.topics) (narrow : interest.wide = false)
    (few : interest.topics.length + asked.length ≤ maxInterestTopics)
    (room : topics.keys.length + asked.length ≤ maxSubscriptionsPerClient) :
    ∃ (later : Interest) (held : TopicMap), later.topics = asked.reverse ++ interest.topics ∧ later.wide = false ∧
      held.keys.length ≤ topics.keys.length + asked.length ∧ (∀ topic, topic ∈ held ↔ topic ∈ asked ∨ topic ∈ topics) ∧
      (run step (asked.flatMap offer) (calm interest topics resets)).state = calm later held resets := by
  induction asked generalizing interest topics with
  | nil => exact ⟨interest,topics,rfl,narrow,le_rfl,by simp,rfl⟩
  | cons topic rest ih =>
    obtain ⟨other,distinct⟩ := List.nodup_cons.mp distinct
    rw [List.length_cons] at few room
    obtain ⟨next,listed,narrow,first⟩ := run_offer resets topics
      (plain topic List.mem_cons_self) narrow (fresh topic List.mem_cons_self) (by omega)
    have accepted := hear_subscribe topics (plain topic List.mem_cons_self).2 (by omega)
    have grown := keys_subscribe topic topics
    obtain ⟨later,held,all,still,bound,members,reached⟩ := @ih next
      (ClientRecord.subscribe topic .any topics) (fun t member => plain t (List.mem_cons_of_mem _ member))
      distinct (fun t member => by
        rw [listed]
        rintro (_ | ⟨_,old⟩)
        · exact other member
        · exact fresh t (List.mem_cons_of_mem _ member) old) narrow (by rw [listed,List.length_cons]; omega) (by omega)
    refine ⟨later,held,by simp [all,listed],still,by rw [List.length_cons]; omega,fun t => ?_,?_⟩
    · rw [members,ClientRecord.mem_subscribe,List.mem_cons]
      tauto
    · rw [List.flatMap_cons,run_append_state,first,accepted]
      exact reached

theorem run_betrayals (asked : List Str) (plain : ∀ topic ∈ asked, Plain topic) (narrow : interest.wide = false)
    (listed : interest.topics = asked) (control : List Control) (remote : ClientRecord) :
    ∃ later : Interest, later.topics = [] ∧ later.wide = false ∧
      (run step (asked.flatMap betray) ⟨interest,[],asked.map .subscribe,control,[],remote,resets⟩).state =
        ⟨later,[],[],control ++ stale asked,[],remote,resets⟩ := by
  induction asked generalizing interest control with
  | nil => exact ⟨interest,listed,narrow,by simp [stale]⟩
  | cons topic rest ih =>
    obtain ⟨unsaturated,off⟩ := Bool.or_eq_false_iff.mp narrow
    have propagatable := (plain topic List.mem_cons_self).1
    have named := propagatable_ne_wildcard propagatable
    have noted : interest.noteTopicUnsubscribed topic = (interest.erase topic,[.unsubscribe topic]) := by
      simp [Interest.noteTopicUnsubscribed,named,propagatable,unsaturated,listed]
    obtain ⟨later,none,still,reached⟩ := @ih (interest.erase topic)
      (fun t member => plain t (List.mem_cons_of_mem _ member)) narrow (by simp [Interest.erase,listed])
      (control ++ [.unsubscribe topic,.subscribe topic])
    refine ⟨later,none,still,?_⟩
    rw [List.flatMap_cons,run_append_state]
    have first : (run step (betray topic) ⟨interest,[],(topic :: rest).map .subscribe,control,[],remote,resets⟩).state =
        ⟨interest.erase topic,[],rest.map .subscribe,control ++ [.unsubscribe topic,.subscribe topic],[],remote,resets⟩ := by
      simp [betray,run,step,act,noted]
    rw [first]
    simpa [stale] using reached

theorem run_drain (interest : Interest) (asked : List Str) (plain : ∀ topic ∈ asked, Plain topic) (old : ∀ topic ∈ asked, topic ∈ topics)
    (room : topics.keys.length ≤ maxSubscriptionsPerClient) :
    ∃ held : TopicMap, held.keys.length ≤ topics.keys.length ∧ (∀ topic, topic ∈ held ↔ topic ∈ topics) ∧
      (run step (drain (stale asked)) ⟨interest,[],[],stale asked,[],⟨true,topics⟩,resets⟩).state =
        calm interest held resets := by
  induction asked generalizing topics with
  | nil => exact ⟨topics,le_rfl,by simp,rfl⟩
  | cons topic rest ih =>
    have member := old topic List.mem_cons_self
    have shrunk := keys_erase member
    have grown := keys_subscribe topic (topics.erase topic)
    have same (t : Str) : t ∈ ClientRecord.subscribe topic .any (topics.erase topic) ↔ t ∈ topics := by
      rw [ClientRecord.mem_subscribe,AList.mem_erase]
      by_cases here : t = topic <;> simp [here,member]
    obtain ⟨held,bound,members,reached⟩ := @ih (ClientRecord.subscribe topic .any (topics.erase topic))
      (fun t member => plain t (List.mem_cons_of_mem _ member))
      (fun t later => (same t).mpr (old t (List.mem_cons_of_mem _ later))) (by omega)
    refine ⟨held,by omega,fun t => (members t).trans (same t),?_⟩
    have accepted := hear_subscribe (topics.erase topic) (plain topic List.mem_cons_self).2 (by omega)
    have first : (run step [.send,.receive,.send,.receive]
        ⟨interest,[],[],stale (topic :: rest),[],⟨true,topics⟩,resets⟩).state =
        ⟨interest,[],[],stale rest,[],⟨true,ClientRecord.subscribe topic .any (topics.erase topic)⟩,resets⟩ := by
      rw [← accepted]
      simp [run,step,act,stale,LinkFrame.message,ClientRecord.greets,ClientRecord.hear]
    have parts : drain (stale (topic :: rest)) = [.send,.receive,.send,.receive] ++ drain (stale rest) := rfl
    rw [parts,run_append_state,first]
    exact reached

/-- A round leaves the remote with all of its topics and the broker with none. -/
theorem run_round (asked : List Str) (plain : ∀ topic ∈ asked, Plain topic) (distinct : asked.Nodup)
    (none : interest.topics = []) (narrow : interest.wide = false) (few : asked.length ≤ maxInterestTopics)
    (room : topics.keys.length + asked.length ≤ maxSubscriptionsPerClient) :
    ∃ (later : Interest) (held : TopicMap), later.topics = [] ∧ later.wide = false ∧
      (∀ topic, topic ∈ held ↔ topic ∈ asked ∨ topic ∈ topics) ∧
      (run step (round asked) (calm interest topics (resets + 1))).state = calm later held resets := by
  obtain ⟨wanting,known,listed,narrow,bound,members,offered⟩ := run_offers (resets + 1) asked plain distinct
    (fun t _ => by simp [none]) narrow (by simpa [none] using few) room
  rw [none,List.append_nil] at listed
  have back (t : Str) (member : t ∈ asked.reverse) : Plain t := plain t (List.mem_reverse.mp member)
  have snapshot : (run step [.reset] (calm wanting known (resets + 1))).state =
      ⟨wanting,[],asked.reverse.map .subscribe,[],[],⟨true,known⟩,resets⟩ := by
    simp [run,step,act,calm,Interest.sendInterestTo,narrow,listed]
  obtain ⟨later,gone,still,withdrawn⟩ := run_betrayals resets asked.reverse back narrow listed [] ⟨true,known⟩
  obtain ⟨held,_,same,drained⟩ := run_drain resets later asked.reverse back
    (fun t member => (members t).mpr (.inl (List.mem_reverse.mp member))) (by omega)
  refine ⟨later,held,gone,still,fun t => (same t).trans (members t),?_⟩
  rw [round,run_append_state,run_append_state,run_append_state,offered,snapshot,withdrawn]
  exact drained

end

def topicAt (i : Nat) : Str := [97,UInt8.ofNat (i / 256),UInt8.ofNat (i % 256)]

theorem topicAt_plain (i : Nat) : Plain (topicAt i) := by
  refine ⟨?_,by simp [topicAt],by simp [topicAt,maxTopicLengthBytes]⟩
  have named : topicAt i ≠ Keys.wildcardTopic := by
    intro same
    simpa [topicAt,Keys.wildcardTopic,str] using congrArg List.length same
  simp [isPropagatableTopic,named]
  simp [topicAt,Keys.isReservedKey]

theorem topicAt_injective {i j : Nat} (small : i < 65536) (other : j < 65536) (same : topicAt i = topicAt j) : i = j := by
  simp only [topicAt,List.cons.injEq,and_true,true_and] at same
  have high := congrArg UInt8.toNat same.1
  have low := congrArg UInt8.toNat same.2
  simp only [UInt8.toNat_ofNat'] at high low
  omega

/-- The topics of a round, as many as an interest holds before it saturates. -/
def batch (n : Nat) : List Str := (List.range maxInterestTopics).map fun i => topicAt (maxInterestTopics * n + i)

def rounds : Nat → List Label
  | 0 => []
  | n + 1 => rounds n ++ round (batch n)

theorem mem_batch (n : Nat) (topic : Str) : topic ∈ batch n ∨ (∃ i < maxInterestTopics * n, topic = topicAt i) ↔
    ∃ i < maxInterestTopics * (n + 1), topic = topicAt i := by
  simp only [batch,List.mem_map,List.mem_range]
  constructor
  · rintro (⟨i,small,rfl⟩ | ⟨i,small,rfl⟩)
    · exact ⟨_,by rw [Nat.mul_succ]; omega,rfl⟩
    · exact ⟨i,by rw [Nat.mul_succ]; omega,rfl⟩
  · rintro ⟨i,small,rfl⟩
    rw [Nat.mul_succ] at small
    by_cases early : i < maxInterestTopics * n
    · exact .inr ⟨i,early,rfl⟩
    · exact .inl ⟨i - maxInterestTopics * n,by omega,by congr 1; omega⟩

theorem batch_nodup {n : Nat} (within : n < 10) : (batch n).Nodup := by
  refine List.Nodup.map_on (fun i small j other same => ?_) List.nodup_range
  rw [List.mem_range] at small other
  simp only [maxInterestTopics] at small other same
  have := topicAt_injective (by omega) (by omega) same
  omega

theorem keys_topicAt {held : TopicMap} {count : Nat} (small : count ≤ 65536)
    (members : ∀ topic, topic ∈ held ↔ ∃ i < count, topic = topicAt i) : held.keys.length = count := by
  rw [← ClientRecord.held_card ⟨true,held⟩]
  have image : (ClientRecord.mk true held).held = (Finset.range count).image topicAt := by
    ext topic
    rw [ClientRecord.mem_held,members,Finset.mem_image]
    simp only [Finset.mem_range,eq_comm]
  rw [image,Finset.card_image_of_injOn,Finset.card_range]
  intro i inside j other same
  exact topicAt_injective (by have := Finset.mem_range.mp inside; omega) (by have := Finset.mem_range.mp other; omega) same

theorem run_rounds (n : Nat) (within : n ≤ 10) : ∃ (later : Interest) (held : TopicMap), later.topics = [] ∧
    later.wide = false ∧ (∀ topic, topic ∈ held ↔ ∃ i < maxInterestTopics * n, topic = topicAt i) ∧
    (run step (rounds n) (calm .empty ∅ 10)).state = calm later held (10 - n) := by
  induction n with
  | zero => exact ⟨.empty,∅,rfl,rfl,by simp,rfl⟩
  | succ n ih =>
    obtain ⟨interest,topics,none,narrow,members,reached⟩ := ih (by omega)
    have count := keys_topicAt (by simp only [maxInterestTopics]; omega) members
    have length : (batch n).length = maxInterestTopics := by simp [batch]
    have plain (topic : Str) (member : topic ∈ batch n) : Plain topic := by
      obtain ⟨i,_,rfl⟩ := List.mem_map.mp member
      exact topicAt_plain _
    obtain ⟨later,held,gone,still,grown,ended⟩ := run_round (10 - (n + 1)) (batch n) plain (batch_nodup (by omega)) none
      narrow length.le (by rw [count,length]; simp only [maxInterestTopics,maxSubscriptionsPerClient]; omega)
    refine ⟨later,held,gone,still,fun topic => ?_,?_⟩
    · rw [grown,members]
      exact mem_batch n topic
    · rw [rounds,run_append_state,reached,show 10 - n = 10 - (n + 1) + 1 by omega,ended]

/-- The remote loses the link ten times, and a message of the link reaches it in between. -/
def forgets : List Label := .receive :: (List.replicate 10 [.forget,.traffic,.receive]).flatten

def overrun : List Label := forgets ++ rounds 10 ++ offer (topicAt 10000)

/-- The remote is full of topics that were withdrawn, and refuses the one that is wanted. -/
theorem resend_loses_topic :
    (run step overrun (start .empty)).state.Quiet ∧ (run step overrun (start .empty)).state.remote.known = true ∧
      topicAt 10000 ∈ (run step overrun (start .empty)).state.interest.topics ∧
      topicAt 10000 ∉ (run step overrun (start .empty)).state.remote.topics ∧
      Keys.wildcardTopic ∉ (run step overrun (start .empty)).state.remote.topics := by
  have begun : (run step forgets (start .empty)).state = calm .empty ∅ 10 := rfl
  obtain ⟨interest,topics,none,narrow,members,reached⟩ := run_rounds 10 le_rfl
  have plain := topicAt_plain 10000
  obtain ⟨later,listed,_,offered⟩ := run_offer 0 topics plain narrow (by simp [none]) (by simp [none,maxInterestTopics])
  have absent : topicAt 10000 ∉ topics := by
    rw [members]
    rintro ⟨i,small,same⟩
    simp only [maxInterestTopics] at small
    have := topicAt_injective (by omega) (by omega) same
    omega
  have every : Keys.wildcardTopic ∉ topics := by
    rw [members]
    rintro ⟨i,_,same⟩
    exact propagatable_ne_wildcard (topicAt_plain i).1 same.symm
  have full := keys_topicAt (by simp [maxInterestTopics]) members
  have refused : (ClientRecord.mk true topics).hear (.subscribe (topicAt 10000) .any) = ⟨true,topics⟩ := by
    simp [ClientRecord.hear,ClientRecord.accepts,ClientRecord.canSubscribe,absent,full,maxInterestTopics,maxSubscriptionsPerClient]
  have ended : (run step overrun (start .empty)).state = calm later topics 0 := by
    rw [overrun,run_append_state,run_append_state,begun,reached,offered,refused]
    rfl
  rw [ended]
  exact ⟨⟨rfl,rfl,rfl,rfl,rfl⟩,rfl,by simp [calm,listed],absent,every⟩

end Resending

end Wisp
