import Mathlib.Data.List.Infix
import Mathlib.Data.Nat.Find

/-! A queue over endless time. It grows at its end, and loses its head whenever it
is served. Served again and again, it brings every element to its head. -/
namespace FairQueue

variable {α : Type} {queue : Nat → List α} {serve : Nat → Prop}

theorem next_service (fair : ∀ t, ∃ later, t ≤ later ∧ serve later) (t : Nat) :
    ∃ later, t ≤ later ∧ serve later ∧ ∀ u, t ≤ u → u < later → ¬serve u := by
  classical
  refine ⟨Nat.find (fair t),(Nat.find_spec (fair t)).1,(Nat.find_spec (fair t)).2,fun u late early serves => ?_⟩
  exact Nat.find_min (fair t) early ⟨late,serves⟩

/-- Between two services the queue only grows. -/
theorem waits (keeps : ∀ t, ¬serve t → queue t <+: queue (t + 1)) {t later : Nat} (order : t ≤ later)
    (idle : ∀ u, t ≤ u → u < later → ¬serve u) : queue t <+: queue later := by
  induction later, order using Nat.le_induction with
  | base => exact List.prefix_refl _
  | succ later order ih =>
    exact (ih fun u late early => idle u late (by omega)).trans (keeps later (idle later order (by omega)))

theorem keeps_place {first later : List α} (grows : first <+: later) {position : Nat} {x : α}
    (place : first[position]? = some x) : later[position]? = some x := by
  obtain ⟨more,rfl⟩ := grows
  rw [List.getElem?_append_left (List.getElem?_eq_some_iff.mp place).1,place]

variable (queue serve) in
theorem served (keeps : ∀ t, ¬serve t → queue t <+: queue (t + 1))
    (pops : ∀ t, serve t → (queue t).tail <+: queue (t + 1)) (fair : ∀ t, ∃ later, t ≤ later ∧ serve later)
    {x : α} {t : Nat} (member : x ∈ queue t) : ∃ later, t ≤ later ∧ serve later ∧ (queue later).head? = some x := by
  obtain ⟨position,place⟩ := List.mem_iff_getElem?.mp member
  clear member
  -- each service brings the element one place nearer to the head
  induction position generalizing t with
  | zero =>
    obtain ⟨later,order,serves,idle⟩ := next_service fair t
    refine ⟨later,order,serves,?_⟩
    rw [List.head?_eq_getElem?]
    exact keeps_place (waits keeps order idle) place
  | succ position ih =>
    obtain ⟨later,order,serves,idle⟩ := next_service fair t
    have still := keeps_place (waits keeps order idle) place
    rw [← List.getElem?_tail] at still
    obtain ⟨last,after,rest⟩ := ih (keeps_place (pops later serves) still)
    exact ⟨last,by omega,rest⟩

end FairQueue
