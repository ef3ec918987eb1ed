import Kiln.Lib.Transition

/-!
# Behaviors

The infinite runs of a system, and what leads to what along one. A condition that holds until another does, and
doesn't hold forever, leads to it.
-/

namespace Kiln.Lib

/-- `run` starts in an initial state and goes on by steps. -/
structure System.Behavior {σ ε : Type*} (S : System σ ε) (run : Nat → σ) : Prop where
  starts : S.init (run 0)
  steps : ∀ n, ∃ e, S.step (run n) e (run (n + 1))

/-- Whenever `P` holds, `Q` does by then or later. -/
def LeadsTo {σ : Type*} (run : Nat → σ) (P Q : σ → Prop) : Prop :=
  ∀ n, P (run n) → ∃ m, n ≤ m ∧ Q (run m)

namespace LeadsTo

variable {σ : Type*} {run : Nat → σ} {P Q R : σ → Prop}

theorem of_imp (h : ∀ n, P (run n) → Q (run n)) : LeadsTo run P Q :=
  fun n holds => ⟨n, Nat.le_refl n, h n holds⟩

theorem trans (first : LeadsTo run P Q) (second : LeadsTo run Q R) : LeadsTo run P R := by
  intro n holds
  obtain ⟨m, later, between⟩ := first n holds
  obtain ⟨k, later', last⟩ := second m between
  exact ⟨k, Nat.le_trans later later', last⟩

theorem or (left : LeadsTo run P R) (right : LeadsTo run Q R) : LeadsTo run (fun s => P s ∨ Q s) R := by
  intro n holds
  rcases holds with first | second
  · exact left n first
  · exact right n second

theorem exists_ {ι : Type*} {P : ι → σ → Prop} (each : ∀ i, LeadsTo run (P i) Q) :
    LeadsTo run (fun s => ∃ i, P i s) Q := by
  intro n holds
  obtain ⟨i, its⟩ := holds
  exact each i n its

end LeadsTo

namespace System.Behavior

variable {σ ε : Type*} {S : System σ ε} {run : Nat → σ} {P Q : σ → Prop}

theorem reachable (behaves : S.Behavior run) (n : Nat) : S.Reachable (run n) := by
  induction n with
  | zero => exact .init behaves.starts
  | succ n ih =>
    obtain ⟨e, step⟩ := behaves.steps n
    exact ih.step step

theorem leadsTo (behaves : S.Behavior run) (until_ : ∀ s e s', S.Reachable s → P s → S.step s e s' → P s' ∨ Q s')
    (ends : LeadsTo run P fun s => ¬ P s) : LeadsTo run P Q := by
  intro n holds
  obtain ⟨m, later, past⟩ := ends n holds
  have along : ∀ k, P (run (n + k)) ∨ ∃ j ≤ k, Q (run (n + j)) := by
    intro k
    induction k with
    | zero => exact .inl holds
    | succ k ih =>
      rcases ih with still | ⟨j, before, done⟩
      · obtain ⟨e, step⟩ := behaves.steps (n + k)
        rcases until_ _ e _ (behaves.reachable _) still step with still' | done
        · exact .inl still'
        · exact .inr ⟨k + 1, Nat.le_refl _, done⟩
      · exact .inr ⟨j, Nat.le_succ_of_le before, done⟩
  rcases along (m - n) with still | ⟨j, -, done⟩
  · rw [Nat.add_sub_cancel' later] at still
    exact absurd still past
  · exact ⟨n + j, Nat.le_add_right n j, done⟩

theorem stays (behaves : S.Behavior run) (step : ∀ s e s', S.Reachable s → P s → S.step s e s' → P s') {n m : Nat}
    (later : n ≤ m) (holds : P (run n)) : P (run m) := by
  induction later with
  | refl => exact holds
  | step _ ih =>
    obtain ⟨e, taken⟩ := behaves.steps _
    exact step _ e _ (behaves.reachable _) ih taken

end System.Behavior

end Kiln.Lib
