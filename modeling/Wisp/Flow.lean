import Wisp.Transition

/-! What a machine takes in against what it gives out, what it has left to do, and what the
last thing shown was. -/
namespace Transition

variable {σ ℓ ε α : Type} (step : ℓ → σ → Outcome σ ε)

/-- The sum of what each event stands for. -/
def tally (weight : ε → Nat) : List ε → Nat
  | [] => 0
  | event :: events => weight event + tally weight events

variable (weight : ε → Nat)

@[simp] theorem tally_nil : tally weight [] = 0 := rfl

@[simp] theorem tally_cons (event : ε) (events : List ε) :
    tally weight (event :: events) = weight event + tally weight events := rfl

@[simp] theorem tally_append (first later : List ε) :
    tally weight (first ++ later) = tally weight first + tally weight later := by
  induction first with
  | nil => exact (Nat.zero_add _).symm
  | cons event rest ih => rw [List.cons_append,tally_cons,ih,tally_cons,Nat.add_assoc]

theorem tally_map (f : α → ε) (items : List α) : tally weight (items.map f) = tally (fun item => weight (f item)) items := by
  induction items with
  | nil => rfl
  | cons item rest ih => rw [List.map_cons,tally_cons,ih,tally_cons]

theorem tally_zero {weight : ε → Nat} {events : List ε} (none : ∀ event ∈ events, weight event = 0) :
    tally weight events = 0 := by
  induction events with
  | nil => rfl
  | cons event rest ih =>
    rw [List.forall_mem_cons] at none
    rw [tally_cons,none.1,ih none.2]

theorem tally_map_zero (f : α → ε) (hidden : ∀ item, weight (f item) = 0) (items : List α) :
    tally weight (items.map f) = 0 := by
  rw [tally_map]
  exact tally_zero fun item _ => hidden item

theorem tally_congr {weight weight' : ε → Nat} {items : List ε} (same : ∀ item ∈ items, weight' item = weight item) :
    tally weight' items = tally weight items := by
  induction items with
  | nil => rfl
  | cons item rest ih =>
    rw [List.forall_mem_cons] at same
    rw [tally_cons,tally_cons,same.1,ih same.2]

/-- The sum when the weight of one item changes. -/
theorem tally_update (weight weight' : ε → Nat) {item : ε} {items : List ε} (nodup : items.Nodup) (member : item ∈ items)
    (others : ∀ other, other ≠ item → weight' other = weight other) :
    tally weight' items + weight item = tally weight items + weight' item := by
  induction items with
  | nil => cases member
  | cons first rest ih =>
    obtain ⟨apart,nodup⟩ := List.nodup_cons.mp nodup
    rw [tally_cons,tally_cons]
    rcases List.mem_cons.mp member with rfl | later
    · have same : tally weight' rest = tally weight rest :=
        tally_congr fun other within => others other (by rintro rfl; exact apart within)
      omega
    · have before := ih nodup later
      have unchanged := others first (by rintro rfl; exact apart later)
      omega

/-- What weighs one or nothing is counted. -/
theorem tally_countP {weight : ε → Nat} {f : α → ε} {p : α → Bool} (counts : ∀ item, weight (f item) = if p item then 1 else 0)
    (items : List α) : tally weight (items.map f) = items.countP p := by
  induction items with
  | nil => rfl
  | cons item rest ih =>
    rw [List.map_cons,tally_cons,counts,ih,List.countP_cons,Nat.add_comm]

/-- A counter that each step raises by what it reports as received and lowers by what it
reports as handed on. -/
theorem run_balance (value : σ → Nat) (received handed : ε → Nat)
    (balance : ∀ s label, value s + tally received (step label s).events =
      value (step label s).state + tally handed (step label s).events)
    (schedule : List ℓ) (s : σ) :
    value s + tally received (run step schedule s).events =
      value (run step schedule s).state + tally handed (run step schedule s).events := by
  induction schedule generalizing s with
  | nil => rfl
  | cons label rest ih =>
    have first := balance s label
    have later := ih (step label s).state
    simp only [run,tally_append]
    omega

/-- A counter that each step meeting the condition raises by what it reports. -/
theorem run_counts {condition : σ → ℓ → Prop} (value : σ → Nat)
    (counts : ∀ s label, condition s label → value (step label s).state = value s + tally weight (step label s).events)
    (schedule : List ℓ) (s : σ) (always : Always step condition schedule s) :
    value (run step schedule s).state = value s + tally weight (run step schedule s).events := by
  refine run_history step (fun s' trace => value s' = value s + tally weight trace) ?_ schedule s [] always rfl
  intro s' trace label met before
  rw [counts s' label met,before,tally_append,Nat.add_assoc]

section Rank

variable (moves : σ → ℓ → Bool)

/-- How many steps of a schedule are moves. -/
def moved : List ℓ → σ → Nat
  | [],_ => 0
  | label :: rest,s => (if moves s label then 1 else 0) + moved rest (step label s).state

variable {allowed : ℓ → Prop} (invariant : σ → Prop) (rank : σ → Nat)

/-- A rank that the allowed steps never raise, and that each move lowers, bounds the moves. -/
theorem run_ranked
    (lowers : ∀ s label, allowed label → invariant s → invariant (step label s).state ∧
      rank (step label s).state + (if moves s label then 1 else 0) ≤ rank s)
    (schedule : List ℓ) (s : σ) (only : ∀ label ∈ schedule, allowed label) (initial : invariant s) :
    rank (run step schedule s).state + moved step moves schedule s ≤ rank s := by
  induction schedule generalizing s with
  | nil => exact Nat.le_refl _
  | cons label rest ih =>
    rw [List.forall_mem_cons] at only
    obtain ⟨next,less⟩ := lowers s label only.1 initial
    have later := ih (step label s).state only.2 next
    simp only [run,moved]
    omega

/-- And some schedule of allowed steps ends where nothing moves. -/
theorem run_rests
    (lowers : ∀ s label, allowed label → invariant s → invariant (step label s).state ∧
      rank (step label s).state + (if moves s label then 1 else 0) ≤ rank s)
    (possible : ∀ s label, moves s label = true → allowed label) (s : σ) (initial : invariant s) :
    ∃ later, (∀ label ∈ later, allowed label) ∧ ∀ label, moves (run step later s).state label = false := by
  induction bound : rank s using Nat.strong_induction_on generalizing s with
  | h bound ih =>
    subst bound
    by_cases rests : ∀ label, moves s label = false
    · exact ⟨[],List.forall_mem_nil _,rests⟩
    · push Not at rests
      obtain ⟨label,goes⟩ := rests
      rw [ne_eq,Bool.not_eq_false] at goes
      obtain ⟨next,less⟩ := lowers s label (possible s label goes) initial
      rw [if_pos goes] at less
      obtain ⟨later,only,ends⟩ := ih _ (by omega) (step label s).state next rfl
      exact ⟨label :: later,List.forall_mem_cons.mpr ⟨possible s label goes,only⟩,ends⟩

end Rank

section Shown

variable (shows carries : ε → Option α)

/-- Whatever an event carries is what was shown last. -/
def Shown : Option α → List ε → Prop
  | _,[] => True
  | last,event :: rest => (∀ x, carries event = some x → last = some x) ∧ Shown ((shows event).or last) rest

variable {shows carries} {last : Option α} {events : List ε}

theorem Shown.earlier (shown : Shown shows carries last events) {earlier : Option α} (less : last = none ∨ last = earlier) :
    Shown shows carries earlier events := by
  induction events generalizing last earlier with
  | nil => trivial
  | cons event rest ih =>
    refine ⟨fun x carried => ?_,ih shown.2 ?_⟩
    · have seen := shown.1 x carried
      rcases less with rfl | rfl
      · cases seen
      · exact seen
    · cases shows event with
      | none => exact less
      | some x => exact .inr rfl

theorem Shown.append {later : List ε} (shown : Shown shows carries last events) (after : Shown shows carries none later) :
    Shown shows carries last (events ++ later) := by
  induction events generalizing last with
  | nil => exact after.earlier (.inl rfl)
  | cons event rest ih => exact ⟨shown.1,ih shown.2⟩

theorem shown_of_forall
    (same : ∀ event ∈ events, shows event = none ∧ ∀ x, carries event = some x → last = some x) :
    Shown shows carries last events := by
  induction events with
  | nil => trivial
  | cons event rest ih =>
    rw [List.forall_mem_cons] at same
    refine ⟨same.1.2,?_⟩
    rw [same.1.1]
    exact ih same.2

theorem Shown.map {ε' : Type} {f : ε' → ε} {items : List ε'}
    (shown : Shown (fun item => shows (f item)) (fun item => carries (f item)) last items) :
    Shown shows carries last (items.map f) := by
  induction items generalizing last with
  | nil => trivial
  | cons item rest ih => exact ⟨shown.1,ih shown.2⟩

/-- What carries something comes after it was shown, and nothing else was shown in between. -/
theorem Shown.split {before after : List ε} {event : ε} {x : α} (shown : Shown shows carries last (before ++ event :: after))
    (carried : carries event = some x) :
    (∃ earlier showing later, before = earlier ++ showing :: later ∧ shows showing = some x ∧
      ∀ other ∈ later, shows other = none) ∨ last = some x ∧ ∀ other ∈ before, shows other = none := by
  induction before generalizing last with
  | nil => exact .inr ⟨shown.1 x carried,List.forall_mem_nil _⟩
  | cons first rest ih =>
    rcases ih shown.2 with ⟨earlier,showing,later,rfl,seen,quiet⟩ | ⟨seen,quiet⟩
    · exact .inl ⟨first :: earlier,showing,later,rfl,seen,quiet⟩
    · cases here : shows first with
      | none =>
        rw [here] at seen
        exact .inr ⟨seen,List.forall_mem_cons.mpr ⟨here,quiet⟩⟩
      | some y =>
        rw [here] at seen
        exact .inl ⟨[],first,rest,rfl,here.trans seen,quiet⟩

end Shown

end Transition
