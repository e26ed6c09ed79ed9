import Mathlib.Data.List.Basic
import Mathlib.Tactic.Common

/-! Moments that keep a pace: each comes within a period of the one before. Any stretch of a
few periods then holds that many of them, one right after the other. -/
namespace Pace

/-- From `t` on, no two moments are more than a period apart. -/
def Paced (period : Nat) : Nat → List Nat → Prop
  | _,[] => True
  | t,u :: rest => t ≤ u ∧ u ≤ t + period ∧ Paced period u rest

/-- The last moment, or `t` before the first. -/
def latest : Nat → List Nat → Nat
  | t,[] => t
  | _,u :: rest => latest u rest

variable {period t u now : Nat} {times : List Nat}

theorem latest_snoc (t : Nat) (times : List Nat) (u : Nat) : latest t (times ++ [u]) = u := by
  induction times generalizing t with
  | nil => rfl
  | cons first rest ih => exact ih first

theorem paced_snoc (paced : Paced period t times) (later : latest t times ≤ u) (within : u ≤ latest t times + period) :
    Paced period t (times ++ [u]) := by
  induction times generalizing t with
  | nil => exact ⟨later,within,trivial⟩
  | cons first rest ih => exact ⟨paced.1,paced.2.1,ih paced.2.2 later within⟩

/-- The next few moments come one period after the other. -/
theorem paced_take (paced : Paced period t times) (running : now ≤ latest t times + period) (count : Nat)
    (early : t + count * period < now) :
    (times.take count).length = count ∧ ∀ v ∈ times.take count, t ≤ v ∧ v ≤ t + count * period := by
  induction count generalizing t times with
  | zero => simp
  | succ count ih =>
    rw [Nat.succ_mul] at early ⊢
    cases times with
    | nil =>
      change now ≤ t + period at running
      omega
    | cons first rest =>
      obtain ⟨later,within,steady⟩ := paced
      obtain ⟨whole,near⟩ := ih steady running (by omega)
      refine ⟨by rw [List.take_succ_cons,List.length_cons,whole],?_⟩
      rw [List.take_succ_cons,List.forall_mem_cons]
      refine ⟨by omega,fun v member => ?_⟩
      have := near v member
      omega

/-- A stretch of `count` periods that is over holds `count` moments in a row. -/
theorem paced_window (paced : Paced period t times) (running : now ≤ latest t times + period) (begun : t ≤ u)
    (count : Nat) (early : u + count * period < now) :
    ∃ m, ((times.drop m).take count).length = count ∧
      ∀ v ∈ (times.drop m).take count, u < v ∧ v ≤ u + count * period := by
  induction times generalizing t with
  | nil =>
    -- nothing has come yet, so the stretch is shorter than one period
    change now ≤ t + period at running
    cases count with
    | zero => exact ⟨0,by simp⟩
    | succ count =>
      rw [Nat.succ_mul] at early
      omega
  | cons first rest ih =>
    obtain ⟨later,within,steady⟩ := paced
    by_cases passed : first ≤ u
    · obtain ⟨m,found⟩ := ih steady running passed
      exact ⟨m + 1,found⟩
    · cases count with
      | zero => exact ⟨0,by simp⟩
      | succ count =>
        rw [Nat.succ_mul] at early
        obtain ⟨whole,near⟩ := paced_take steady running count (by omega)
        refine ⟨0,?_,?_⟩
        · rw [List.drop_zero,List.take_succ_cons,List.length_cons,whole]
        · rw [List.drop_zero,List.take_succ_cons,List.forall_mem_cons,Nat.succ_mul]
          refine ⟨by omega,fun v member => ?_⟩
          have := near v member
          omega

/-- The last `count` moments that are more than `delay` ago are not much longer ago. -/
theorem paced_recent (paced : Paced period t times) (running : now ≤ latest t times + period) (delay count : Nat)
    (elapsed : t + (delay + count * period) < now) :
    ∃ m, ((times.drop m).take count).length = count ∧
      ∀ v ∈ (times.drop m).take count, v + delay < now ∧ now ≤ v + (delay + count * period) := by
  obtain ⟨m,whole,near⟩ := paced_window paced running (u := now - (delay + count * period) - 1) (by omega) count (by omega)
  refine ⟨m,whole,fun v member => ?_⟩
  have := near v member
  omega

end Pace
