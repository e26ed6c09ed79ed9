import Wisp.MeshDelivery

/-! Which clients a publication is sent to, and that each of them gets it once. -/
namespace Wisp

open Transition Relation

namespace Mesh

variable {n : Nat}

namespace Publication

variable (p : Publication n)

theorem sent_iff_reaches {k : Fin n} {clientId : Str} (subscriber : p.Subscriber k clientId)
    (other : k ≠ p.broker ∨ clientId ≠ p.clientId) :
    (∃ t, (k,.send clientId p.message true) ∈ p.reports t) ↔ p.Reaches k := by
  constructor
  · rintro ⟨t,sent⟩
    exact ⟨t,(p.moves t).tapped sent p.message_copy.application⟩
  · rintro ⟨t,tapped⟩
    exact ⟨t,p.subscriber_sent subscriber other tapped⟩

/-- A subscriber at another broker gets the message exactly when a route leads there. -/
theorem delivered_iff_route (p : Publication n) (k : Fin n) (clientId : Str) (elsewhere : k ≠ p.broker)
    (subscriber : p.Subscriber k clientId) :
    (∃ t, (k,.send clientId p.message true) ∈ p.reports t) ↔
      Route p.locate p.settled p.env.header.topic p.broker k :=
  (p.sent_iff_reaches subscriber (.inl elsewhere)).trans (p.reaches_iff k)

end Publication

/-- Every queue of the mesh, one after the other. -/
def queues (s : Mesh n) : List (Label n) :=
  (List.finRange n).flatMap fun i => .inbound i (stamping 0) :: (s.broker i).peers.flatMap fun link =>
    [.flooded i link.key (stamping 0),.answer i link.key true]

theorem mem_queues {s : Mesh n} {label : Label n} : label ∈ s.queues ↔ ∃ i, label = .inbound i (stamping 0) ∨
    ∃ link ∈ (s.broker i).peers, label = .flooded i link.key (stamping 0) ∨ label = .answer i link.key true := by
  simp [queues]

/-- With every queue empty there is nothing to serve. -/
theorem step_drained {locate : Str → Option (Fin n)} {s base : Mesh n}
    (inbound : ∀ i, (s.broker i).inbound = [])
    (links : ∀ i, ∀ link ∈ (s.broker i).peers, link.encoded = [] ∧
      ∀ k, locate link.address = some k → s.pipe k link.linkId = [])
    {label : Label n} (member : label ∈ base.queues) : step locate label s = ⟨s,[]⟩ := by
  obtain ⟨i,rfl | ⟨listed,-,rfl | rfl⟩⟩ := mem_queues.mp member
  · simp [step,inbound i]
  · simp only [step]
    split
    · rfl
    next link found => simp [(links i link (List.mem_of_find?_eq_some found)).1]
  · simp only [step]
    split
    · rfl
    next link found =>
      split
      · rfl
      next k located => rw [(links i link (List.mem_of_find?_eq_some found)).2 k located]

theorem stamping_roomy (number : UInt8) : (stamping number).Roomy := ⟨fun _ _ => rfl,fun _ => rfl⟩

/-- The publication after which the mesh serves its queues in turn, for ever. -/
def Publication.inTurn (locate : Str → Option (Fin n)) (initial : Mesh n) (setup : List (Label n)) (broker : Fin n)
    (clientId : Str) (env : Envelope) (number : UInt8) (fresh : Initial initial)
    (ordinary : Always (step locate) (fun s label => Routine locate s label ∧
      label.Avoids (dedupId (Broker.stampedUuid env (stamping number)))) setup initial)
    (quiet : Quiet locate (run (step locate) setup initial).state)
    (free : ¬(run (step locate) setup initial).state.Linked locate broker clientId)
    (application : Keys.isReservedKey env.header.handlerKey = false)
    (stamped : Broker.stampedUuid env (stamping number) ≠ [])
    (distinct : dedupId (stamping 0).uuid ≠ dedupId (Broker.stampedUuid env (stamping number))) : Publication n :=
  let served := (run (step locate) setup initial).state.queues
  have taken (i : Fin n) : .inbound i (stamping 0) ∈ served := mem_queues.mpr ⟨i,.inl rfl⟩
  have turn (t : Nat) : rounds (.client broker clientId env (stamping number)) served (t + 1) ∈ served :=
    rounds_later _ (List.length_pos_of_mem (taken broker)) t
  { locate, initial, setup, broker, clientId, env, fresh, ordinary, quiet, free, application, stamped
    m := stamping number
    schedule := rounds (.client broker clientId env (stamping number)) served
    published := rfl
    calm t := by
      obtain ⟨i,same | ⟨link,-,same | same⟩⟩ := mem_queues.mp (turn t) <;> rw [same] <;> trivial
    distinct t := by
      obtain ⟨i,same | ⟨link,-,same | same⟩⟩ := mem_queues.mp (turn t) <;> rw [same]
      · exact distinct
      · exact distinct
      · trivial
    roomy t := by
      cases t with
      | zero => exact stamping_roomy number
      | succ t =>
        obtain ⟨i,same | ⟨link,-,same | same⟩⟩ := mem_queues.mp (turn t) <;> rw [same]
        · exact stamping_roomy 0
        · exact stamping_roomy 0
        · rfl
    floods i link member t := by
      have listed : .flooded i link.key (stamping 0) ∈ served := mem_queues.mpr ⟨i,.inr ⟨link,member,.inl rfl⟩⟩
      obtain ⟨later,order,label⟩ := rounds_fair (.client broker clientId env (stamping number)) listed t
      exact ⟨later,order,_,label⟩
    answers i link member t := by
      have listed : .answer i link.key true ∈ served := mem_queues.mpr ⟨i,.inr ⟨link,member,.inr rfl⟩⟩
      obtain ⟨later,order,label⟩ := rounds_fair (.client broker clientId env (stamping number)) listed t
      exact ⟨later,order,_,label⟩
    takes i t := by
      obtain ⟨later,order,label⟩ := rounds_fair (.client broker clientId env (stamping number)) (taken i) t
      exact ⟨later,order,_,label⟩ }

/-- The second broker's client publishes what a client of the first, which dialed, subscribed to. -/
def publishedAcross : Publication 2 :=
  .inTurn pair (start pairIds fun _ => none) subscribedAcross 1 (str "p") (publication (str "t")) 1 (start_initial _ _)
    (by decide +kernel) (by decide +kernel) (by decide +kernel) (by decide) (by decide) (by decide +kernel)

theorem publishedAcross_subscriber : publishedAcross.Subscriber 0 (str "c") :=
  ⟨by decide +kernel,.inl (by decide +kernel)⟩

theorem delivered_across_pair : ∃ t, (0,.send (str "c") publishedAcross.message true) ∈ publishedAcross.reports t := by
  refine (publishedAcross.delivered_iff_route 0 (str "c") (by decide) publishedAcross_subscriber).mpr (.single (.inr ?_))
  exact ⟨by decide +kernel,.inl (by decide +kernel)⟩

/-- Three brokers in a row, reached at `a`, `b` and `c`. -/
def row : Str → Option (Fin 3) := fun address =>
  if address = str "a" then some 0 else if address = str "b" then some 1 else if address = str "c" then some 2 else none

def rowIds : Fin 3 → Str
  | 0 => str "AAAAAAAA"
  | 1 => str "BBBBBBBB"
  | 2 => str "CCCCCCCC"

/-- The one in the middle dialed both ends, and a client of the first subscribed. -/
def dialedOutwards : List (Label 3) :=
  [.client 0 (str "c") (subscription (str "t") .any) (stamping 0),.dial 1 (str "a") (str "a"),
    .dial 1 (str "c") (str "c"),.control 1 (str "a") (stamping 0),.control 1 (str "c") (stamping 0)]

/-- A client of the last publishes. -/
def publishedOutward : Publication 3 :=
  .inTurn row (start rowIds fun _ => none) dialedOutwards 2 (str "p") (publication (str "t")) 1 (start_initial _ _)
    (by decide +kernel) (by decide +kernel) (by decide +kernel) (by decide) (by decide) (by decide +kernel)

/-- Neither end tells the middle what it wants, so the middle never hears of the message. -/
theorem undelivered_between_dialed_ends :
    (∀ i k, ReflTransGen (fun i k => Dials row publishedOutward.settled i k ∨ Dials row publishedOutward.settled k i)
      i k) ∧ isPropagatableTopic publishedOutward.env.header.topic = true ∧
      publishedOutward.Subscriber 0 (str "c") ∧ publishedOutward.broker ≠ 0 ∧
      ¬∃ t, (0,.send (str "c") publishedOutward.message true) ∈ publishedOutward.reports t := by
  have subscriber : publishedOutward.Subscriber 0 (str "c") := ⟨by decide +kernel,.inl (by decide +kernel)⟩
  have middle : ∀ i, i = 1 ∨ Dials row publishedOutward.settled 1 i := by decide +kernel
  have stuck : ∀ k, ¬Hop row publishedOutward.settled (str "t") 2 k := by
    unfold Hop Interest.Wants
    decide +kernel
  refine ⟨fun i k => ?_,by decide,subscriber,by decide,fun sent => ?_⟩
  · refine ReflTransGen.trans (b := 1) ?_ ?_
    · rcases middle i with rfl | dials
      · exact .refl
      · exact .single (.inr dials)
    · rcases middle k with rfl | dials
      · exact .refl
      · exact .single (.inl dials)
  · have route := (publishedOutward.reaches_iff 0).mp
      ((publishedOutward.sent_iff_reaches subscriber (.inl (by decide))).mp sent)
    rcases ReflTransGen.cases_head route with same | ⟨k,hop,-⟩
    · exact absurd same (by decide)
    · exact stuck k hop

namespace Publication

variable (p : Publication n)

/-- Everything reported since the mesh started. -/
def trace (t : Nat) : List (Fin n × Output) :=
  (run (step p.locate) p.setup p.initial).events ++ (runFor (step p.locate) p.schedule p.settled t).events

theorem trace_accounted (t : Nat) : Accounted (p.state t) (p.trace t) := by
  have accounted := run_accounted p.locate p.fresh (p.setup ++ (List.range t).map p.schedule)
  rwa [run_append] at accounted

theorem trace_succ (t : Nat) : p.trace (t + 1) = p.trace t ++ p.reports t := by
  rw [trace,runFor_succ,Outcome.andThen_events,← List.append_assoc]
  rfl

theorem reports_traced {t later : Nat} (order : t < later) {event : Fin n × Output} (reported : event ∈ p.reports t) :
    event ∈ p.trace later := by
  induction later, order using Nat.le_induction with
  | base =>
    rw [trace_succ]
    exact List.mem_append_right _ reported
  | succ later _ ih =>
    rw [trace_succ]
    exact List.mem_append_left _ ih

/-- Two brokers of which the smaller uuid dialed the other: by the link's flood, or
back along it by the subscriber's own interest. -/
theorem full_mesh_route (uuid : Fin n → Str) (distinct : Function.Injective uuid)
    (full : ∀ i j, uuid i < uuid j → Dials p.locate p.settled i j)
    (propagatable : isPropagatableTopic p.env.header.topic = true) {k : Fin n} {clientId : Str}
    (subscriber : p.Subscriber k clientId) : Route p.locate p.settled p.env.header.topic p.broker k := by
  have wants : (p.settled.broker k).interest.Wants p.env.header.topic := by
    have named {filter : Str} (kind : Interest.Filter filter)
        (matching : filter = Keys.wildcardTopic ∨ filter = p.env.header.topic)
        (held : (p.settled.broker k).subscriptions.scopeOf clientId filter = some .any) :
        (p.settled.broker k).interest.Wants p.env.header.topic :=
      (p.start.sound.subscriber_named kind held (scopeAccepts_any _)).elim (fun named => named.wants matching)
        fun full => .inr (.inr full)
    rcases subscriber.holds with held | held
    · exact named (.inr propagatable) (.inr rfl) held
    · exact named (.inl rfl) (.inl rfl) held
  have either : uuid p.broker < uuid k ∨ uuid p.broker = uuid k ∨ uuid k < uuid p.broker :=
    Std.Trichotomous.rel_or_eq_or_rel_swap
  rcases either with dials | same | dialed
  · exact .single (.inl (full _ _ dials))
  · rw [distinct same]
    exact .refl
  · exact .single (.inr ⟨full _ _ dialed,wants⟩)

/-- Exactly once: at some time every subscriber but the publisher has the message,
and it never gets a second one. -/
theorem delivered_exactly_once (p : Publication n) (uuid : Fin n → Str) (distinct : Function.Injective uuid)
    (full : ∀ i j, uuid i < uuid j → Dials p.locate p.settled i j)
    (propagatable : isPropagatableTopic p.env.header.topic = true)
    (within : ∀ t i, WithinWindow p.messageId (outputsOf i (p.trace t)))
    (k : Fin n) (clientId : Str) (other : k ≠ p.broker ∨ clientId ≠ p.clientId)
    (subscriber : p.Subscriber k clientId) :
    ∃ t, (k,.send clientId p.message true) ∈ p.reports t ∧ ∀ later, t < later →
      (outputsOf k (p.trace later)).countP (Output.reaches p.messageId clientId) = 1 := by
  obtain ⟨t,sent⟩ := (p.sent_iff_reaches subscriber other).mpr
    (p.route_reaches (p.full_mesh_route uuid distinct full propagatable subscriber))
  refine ⟨t,sent,fun later order => Nat.le_antisymm ?_ ?_⟩
  · have recorded := (p.trace_accounted later).recorded k
    exact (recorded.served p.messageId clientId).trans (recorded.accepted_once (within later k))
  · refine List.countP_pos_iff.mpr ⟨_,mem_outputsOf.mpr (p.reports_traced order sent),?_⟩
    simp [Output.reaches,p.message_copy.application,p.message_copy.same]

end Publication

/-- Seven steps see the message through the pair. -/
theorem publishedAcross_drained (t : Nat) : publishedAcross.state (7 + t) = publishedAcross.state 7 ∧
    publishedAcross.trace (7 + t) = publishedAcross.trace 7 := by
  induction t with
  | zero => exact ⟨rfl,rfl⟩
  | succ t ih =>
    have member : publishedAcross.schedule (7 + t) ∈ publishedAcross.settled.queues := by
      rw [show 7 + t = 6 + t + 1 by omega]
      exact rounds_later _ (by decide +kernel) (6 + t)
    have still : step publishedAcross.locate (publishedAcross.schedule (7 + t)) (publishedAcross.state 7) =
        ⟨publishedAcross.state 7,[]⟩ := step_drained (by decide +kernel) (by decide +kernel) member
    rw [← ih.1] at still
    rw [← Nat.add_assoc,Publication.state_succ,Publication.trace_succ,Publication.reports,still,ih.2]
    exact ⟨ih.1,List.append_nil _⟩

theorem delivered_exactly_once_across_pair :
    ∃ t, (0,.send (str "c") publishedAcross.message true) ∈ publishedAcross.reports t ∧ ∀ later, t < later →
      (outputsOf 0 (publishedAcross.trace later)).countP (Output.reaches publishedAcross.messageId (str "c")) = 1 := by
  have ascending : ∀ i j, pairIds i < pairIds j → Dials publishedAcross.locate publishedAcross.settled i j := by
    decide +kernel
  have short : ∀ t : Fin 8, ∀ i, (outputsOf i (publishedAcross.trace t)).length ≤ maxHistorySize := by
    decide +kernel
  refine publishedAcross.delivered_exactly_once pairIds ?_ ascending (by decide) (fun t i => ?_) 0 (str "c")
    (.inl (by decide)) publishedAcross_subscriber
  · unfold Function.Injective
    decide
  · refine withinWindow_short ?_
    rcases Nat.lt_or_ge t 8 with early | late
    · exact short ⟨t,early⟩ i
    · obtain ⟨more,rfl⟩ := Nat.exists_eq_add_of_le (show 7 ≤ t by omega)
      rw [(publishedAcross_drained more).2]
      exact short 7 i

end Mesh

end Wisp
