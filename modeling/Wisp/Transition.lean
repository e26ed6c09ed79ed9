import Mathlib.Data.List.Basic
import Mathlib.Data.List.GetD
import Mathlib.Data.Set.Finite.Lemmas
import Mathlib.Order.Monotone.Basic

/-! Executions of a labelled step function that also reports what it did. A label
that is not enabled is expected to stutter, so every list of labels is a schedule
and a statement about all schedules covers every interleaving. -/
namespace Transition

structure Outcome (σ ε : Type) where
  state : σ
  events : List ε

/-- Continue from the state reached, reporting what both parts did. -/
def Outcome.andThen (first : Outcome σ ε) (next : σ → Outcome σ ε) : Outcome σ ε :=
  ⟨(next first.state).state,first.events ++ (next first.state).events⟩

@[simp] theorem Outcome.andThen_state (first : Outcome σ ε) (next : σ → Outcome σ ε) :
    (first.andThen next).state = (next first.state).state := rfl

@[simp] theorem Outcome.andThen_events (first : Outcome σ ε) (next : σ → Outcome σ ε) :
    (first.andThen next).events = first.events ++ (next first.state).events := rfl

theorem Outcome.foldl_andThen_state (next : α → σ → Outcome σ ε) (xs : List α) (done : Outcome σ ε) :
    (xs.foldl (fun done x => done.andThen (next x)) done).state =
      xs.foldl (fun s x => (next x s).state) done.state :=
  (List.foldl_hom Outcome.state fun _ _ => rfl).symm

variable {σ ℓ ε : Type} (step : ℓ → σ → Outcome σ ε)

def run : List ℓ → σ → Outcome σ ε
  | [], s => ⟨s,[]⟩
  | label :: rest, s =>
    ⟨(run rest (step label s).state).state,
      (step label s).events ++ (run rest (step label s).state).events⟩

/-- The condition is judged in the state each label is scheduled in. -/
def Always (condition : σ → ℓ → Prop) : List ℓ → σ → Prop
  | [], _ => True
  | label :: rest, s => condition s label ∧ Always condition rest (step label s).state

instance decidableAlways (condition : σ → ℓ → Prop) [∀ s label, Decidable (condition s label)] :
    ∀ schedule s, Decidable (Always step condition schedule s)
  | [], _ => isTrue trivial
  | label :: rest, s =>
    have := decidableAlways condition rest (step label s).state
    inferInstanceAs (Decidable (condition s label ∧ _))

@[simp] theorem run_nil (s : σ) : run step [] s = ⟨s,[]⟩ := rfl

@[simp] theorem always_nil (condition : σ → ℓ → Prop) (s : σ) : Always step condition [] s := trivial

theorem run_append (first later : List ℓ) (s : σ) :
    run step (first ++ later) s =
      ⟨(run step later (run step first s).state).state,
        (run step first s).events ++ (run step later (run step first s).state).events⟩ := by
  induction first generalizing s with
  | nil => simp
  | cons label rest ih => simp only [List.cons_append,run,ih,List.append_assoc]

theorem run_append_state (first later : List ℓ) (s : σ) :
    (run step (first ++ later) s).state = (run step later (run step first s).state).state := by
  rw [run_append]

theorem run_snoc (schedule : List ℓ) (label : ℓ) (s : σ) :
    run step (schedule ++ [label]) s =
      ⟨(step label (run step schedule s).state).state,
        (run step schedule s).events ++ (step label (run step schedule s).state).events⟩ := by
  simp [run_append,run]

theorem Always.of_forall {condition : σ → ℓ → Prop} (met : ∀ s label, condition s label)
    (schedule : List ℓ) (s : σ) : Always step condition schedule s := by
  induction schedule generalizing s with
  | nil => trivial
  | cons label rest ih => exact ⟨met s label,ih _⟩

theorem Always.of_labels {condition : ℓ → Prop} {schedule : List ℓ} (met : ∀ label ∈ schedule, condition label)
    (s : σ) : Always step (fun _ label => condition label) schedule s := by
  induction schedule generalizing s with
  | nil => trivial
  | cons label rest ih =>
    rw [List.forall_mem_cons] at met
    exact ⟨met.1,ih met.2 _⟩

theorem always_append {condition : σ → ℓ → Prop} (first later : List ℓ) (s : σ) :
    Always step condition (first ++ later) s ↔
      Always step condition first s ∧ Always step condition later (run step first s).state := by
  induction first generalizing s with
  | nil => simp
  | cons label rest ih => simp only [List.cons_append,Always,run,ih,and_assoc]

/-- Two machines that answer alike from related states, and stay related, answer alike
along any schedule whose condition the second machine's run meets. -/
theorem run_simulates {τ : Type} (abstractStep : ℓ → τ → Outcome τ ε) {condition : τ → ℓ → Prop}
    (related : σ → τ → Prop)
    (simulates : ∀ s t label, condition t label → related s t →
      related (step label s).state (abstractStep label t).state ∧
        (step label s).events = (abstractStep label t).events)
    (schedule : List ℓ) (s : σ) (t : τ) (always : Always abstractStep condition schedule t)
    (initial : related s t) :
    related (run step schedule s).state (run abstractStep schedule t).state ∧
      (run step schedule s).events = (run abstractStep schedule t).events := by
  induction schedule generalizing s t with
  | nil => exact ⟨initial,rfl⟩
  | cons label rest ih =>
    obtain ⟨next,answers⟩ := simulates s t label always.1 initial
    obtain ⟨reached,later⟩ := ih _ _ always.2 next
    exact ⟨reached,by rw [run,run,answers,later]⟩

/-- A property of the state together with everything reported so far, carried along a run. -/
theorem run_history {condition : σ → ℓ → Prop} (property : σ → List ε → Prop)
    (preserved : ∀ s trace label, condition s label → property s trace →
      property (step label s).state (trace ++ (step label s).events))
    (schedule : List ℓ) (s : σ) (trace : List ε)
    (always : Always step condition schedule s) (initial : property s trace) :
    property (run step schedule s).state (trace ++ (run step schedule s).events) := by
  induction schedule generalizing s trace with
  | nil => simpa using initial
  | cons label rest ih =>
    have next := ih _ _ always.2 (preserved s trace label always.1 initial)
    simpa [run] using next

/-- An invariant of each step that meets the condition is an invariant of the run. -/
theorem run_invariant {condition : σ → ℓ → Prop} (invariant : σ → Prop)
    (preserved : ∀ s label, condition s label → invariant s → invariant (step label s).state)
    (schedule : List ℓ) (s : σ) (always : Always step condition schedule s)
    (initial : invariant s) : invariant (run step schedule s).state :=
  run_history step (fun s _ => invariant s) (fun s _ label met holds => preserved s label met holds)
    schedule s [] always initial

/-- What every step preserves together with what it reports, every run does. -/
theorem run_reports (property : σ → List ε → Prop)
    (preserved : ∀ s trace label, property s trace → property (step label s).state (trace ++ (step label s).events))
    (schedule : List ℓ) (s : σ) (initial : property s []) :
    property (run step schedule s).state (run step schedule s).events :=
  run_history step property (fun s trace label (_ : True) => preserved s trace label) schedule s []
    (Always.of_forall step (fun _ _ => trivial) schedule s) initial

theorem run_preserves (invariant : σ → Prop) (preserved : ∀ s label, invariant s → invariant (step label s).state)
    (schedule : List ℓ) (s : σ) (initial : invariant s) : invariant (run step schedule s).state :=
  run_reports step (fun s _ => invariant s) (fun s _ label => preserved s label) schedule s initial

/-- A condition that decides each step decides the run: the property holds in every state
reached just when every step meets the condition. -/
theorem run_holds_iff {condition : σ → ℓ → Prop} (invariant property : σ → Prop)
    (preserved : ∀ s label, invariant s → invariant (step label s).state)
    (decides : ∀ s label, invariant s → property s → (property (step label s).state ↔ condition s label))
    (schedule : List ℓ) (s : σ) (initial : invariant s) (holds : property s) :
    (∀ front, front <+: schedule → property (run step front s).state) ↔ Always step condition schedule s := by
  induction schedule generalizing s with
  | nil =>
    refine ⟨fun _ => trivial,fun _ front within => ?_⟩
    rw [List.prefix_nil.mp within]
    exact holds
  | cons label rest ih =>
    constructor
    · intro every
      have next := every [label] (List.prefix_append [label] rest)
      refine ⟨(decides s label initial holds).mp next,(ih _ (preserved s label initial) next).mp fun front within => ?_⟩
      exact every (label :: front) ((List.prefix_cons_inj label).mpr within)
    · rintro ⟨met,later⟩ front within
      have next := (decides s label initial holds).mpr met
      rcases List.prefix_cons_iff.mp within with rfl | ⟨tail,rfl,shorter⟩
      · exact holds
      · exact (ih _ (preserved s label initial) next).mpr later tail shorter

/-- The first `count` steps of an endless schedule. -/
def runFor (schedule : Nat → ℓ) (s : σ) (count : Nat) : Outcome σ ε :=
  run step ((List.range count).map schedule) s

theorem runFor_succ (schedule : Nat → ℓ) (s : σ) (count : Nat) :
    runFor step schedule s (count + 1) =
      (runFor step schedule s count).andThen (step (schedule count)) := by
  rw [runFor,List.range_succ,List.map_append,List.map_singleton,run_snoc]
  rfl

theorem runFor_event {schedule : Nat → ℓ} {s : σ} {event : ε} {count : Nat}
    (member : event ∈ (runFor step schedule s count).events) :
    ∃ t, t < count ∧ event ∈ (step (schedule t) (runFor step schedule s t).state).events := by
  induction count with
  | zero => cases member
  | succ count ih =>
    rw [runFor_succ,Outcome.andThen_events,List.mem_append] at member
    rcases member with early | now
    · obtain ⟨t,before,reported⟩ := ih early
      exact ⟨t,by omega,reported⟩
    · exact ⟨count,by omega,now⟩

/-- One label first, and then the labels of a cycle in turn. -/
def rounds (first : ℓ) (cycle : List ℓ) : Nat → ℓ
  | 0 => first
  | t + 1 => cycle.getD (t % cycle.length) first

theorem rounds_fair (first : ℓ) {cycle : List ℓ} {label : ℓ} (member : label ∈ cycle) (t : Nat) :
    ∃ later, t ≤ later ∧ rounds first cycle later = label := by
  obtain ⟨place,within,rfl⟩ := List.mem_iff_getElem.mp member
  refine ⟨t * cycle.length + place + 1,?_,?_⟩
  · have := Nat.le_mul_of_pos_right t (Nat.zero_lt_of_lt within)
    omega
  · rw [rounds,Nat.add_comm (t * cycle.length),Nat.add_mul_mod_self_right,Nat.mod_eq_of_lt within,
      List.getD_eq_getElem _ _ within]

theorem rounds_later (first : ℓ) {cycle : List ℓ} (nonempty : 0 < cycle.length) (t : Nat) :
    rounds first cycle (t + 1) ∈ cycle := by
  have within := Nat.mod_lt t nonempty
  rw [rounds,List.getD_eq_getElem _ _ within]
  exact List.getElem_mem within

variable {step}

/-- A report made only in steps that also report a cause, of which there are
boundedly many, is made boundedly often along the whole endless run. -/
theorem bounded_reports {schedule : Nat → ℓ} {s : σ} (cause report : ε → Bool) (most : Nat)
    (few : ∀ count, (runFor step schedule s count).events.countP cause ≤ most)
    (only : ∀ count, ((step (schedule count) (runFor step schedule s count).state).events.countP cause = 0 →
      (step (schedule count) (runFor step schedule s count).state).events.countP report = 0)) :
    ∃ bound, ∀ count, (runFor step schedule s count).events.countP report ≤ bound := by
  let causes := fun count => (runFor step schedule s count).events.countP cause
  let reports := fun count => (runFor step schedule s count).events.countP report
  have grows (p : ε → Bool) (count : Nat) : (runFor step schedule s (count + 1)).events.countP p =
      (runFor step schedule s count).events.countP p +
        (step (schedule count) (runFor step schedule s count).state).events.countP p := by
    rw [runFor_succ,Outcome.andThen_events,List.countP_append]
  have rising : Monotone reports := monotone_nat_of_le_succ fun count => by
    simp only [reports,grows]; omega
  -- the causes stop growing at some step, and from there on so do the reports
  obtain ⟨last,maximal⟩ : ∃ last, ∀ count, causes count ≤ causes last := by
    obtain ⟨top,⟨last,rfl⟩,maximal⟩ := Set.exists_max_image (Set.range causes) id
      ((Set.finite_le_nat most).subset (by rintro _ ⟨count,rfl⟩; exact few count)) ⟨causes 0,0,rfl⟩
    exact ⟨last,fun count => maximal _ ⟨count,rfl⟩⟩
  have settled (more : Nat) : causes (last + more) = causes last ∧ reports (last + more) = reports last := by
    induction more with
    | zero => exact ⟨rfl,rfl⟩
    | succ more ih =>
      have bound := maximal (last + more + 1)
      have first := grows cause (last + more)
      have second := grows report (last + more)
      have same := ih.1
      simp only [causes,reports] at *
      have none := only (last + more) (by omega)
      exact ⟨by rw [← Nat.add_assoc]; omega,by rw [← Nat.add_assoc]; omega⟩
  refine ⟨reports last,fun count => ?_⟩
  rcases Nat.le_total count last with early | late
  · exact rising early
  · obtain ⟨more,rfl⟩ := Nat.exists_eq_add_of_le late
    exact (settled more).2.le

end Transition
