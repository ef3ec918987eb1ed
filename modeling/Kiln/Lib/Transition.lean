import Mathlib

/-!
# Labelled transition systems

The runs of a system given by its initial states and a labelled step relation. An invariant
is proved once for the initial states and once for a step; the rules below carry it to every
reachable state, along every run, and along the runs whose steps all meet a condition.
-/

namespace Kiln.Lib

/-- A labelled transition system over states `σ` and labels `ε`. -/
structure System (σ : Type*) (ε : Type*) where
  init : σ → Prop
  step : σ → ε → σ → Prop

namespace System

variable {σ ε : Type*}

/-- The system of a partial step function: a label is enabled where it gives a state. -/
def ofFunction (init : σ → Prop) (next : σ → ε → Option σ) : System σ ε :=
  ⟨init, fun s e s' => next s e = some s'⟩

@[simp] theorem ofFunction_step {init : σ → Prop} {next : σ → ε → Option σ} {s s' : σ} {e : ε} :
    (ofFunction init next).step s e s' ↔ next s e = some s' := Iff.rfl

/-- `S.Run s es s'`: the labels `es`, oldest first, lead from `s` to `s'`. -/
inductive Run (S : System σ ε) : σ → List ε → σ → Prop
  | nil (s : σ) : Run S s [] s
  | snoc {s m s' : σ} {es : List ε} {e : ε} : Run S s es m → S.step m e s' → Run S s (es ++ [e]) s'

/-- A state some run from an initial state ends in. -/
def Reachable (S : System σ ε) (s : σ) : Prop :=
  ∃ s₀ es, S.init s₀ ∧ S.Run s₀ es s

/-- The same system with only the steps that meet `guard`, a condition on the state before the step and its label. -/
def restrict (S : System σ ε) (guard : σ → ε → Prop) : System σ ε :=
  ⟨S.init, fun s e s' => guard s e ∧ S.step s e s'⟩

variable {S : System σ ε}

theorem Run.single {s s' : σ} {e : ε} (h : S.step s e s') : S.Run s [e] s' :=
  .snoc (.nil s) h

theorem Run.append {s m s' : σ} {es fs : List ε} (h : S.Run s es m) (k : S.Run m fs s') : S.Run s (es ++ fs) s' := by
  induction k with
  | nil => simpa using h
  | snoc _ hstep ih =>
    rw [← List.append_assoc]
    exact .snoc ih hstep

theorem Run.cons {s m s' : σ} {e : ε} {es : List ε} (h : S.step s e m) (k : S.Run m es s') :
    S.Run s (e :: es) s' :=
  (Run.single h).append k

theorem Reachable.init {s : σ} (h : S.init s) : S.Reachable s :=
  ⟨s, [], h, .nil s⟩

theorem Reachable.step {s s' : σ} {e : ε} (h : S.Reachable s) (k : S.step s e s') :
    S.Reachable s' := by
  obtain ⟨s₀, es, hinit, hrun⟩ := h
  exact ⟨s₀, es ++ [e], hinit, .snoc hrun k⟩

theorem Reachable.run {s s' : σ} {es : List ε} (h : S.Reachable s) (k : S.Run s es s') :
    S.Reachable s' := by
  obtain ⟨s₀, fs, hinit, hrun⟩ := h
  exact ⟨s₀, fs ++ es, hinit, hrun.append k⟩

/-- What holds at first and is kept by every step holds in every reachable state. -/
theorem Reachable.invariant {I : σ → Prop} (hinit : ∀ s, S.init s → I s)
    (hstep : ∀ s e s', I s → S.step s e s' → I s') {s : σ} (h : S.Reachable s) : I s := by
  obtain ⟨s₀, es, h₀, hrun⟩ := h
  induction hrun with
  | nil => exact hinit _ h₀
  | snoc _ hs ih => exact hstep _ _ _ ih hs

/-- The invariant rule over an invariant already known of every reachable state. -/
theorem Reachable.strengthen {I J : σ → Prop} (hI : ∀ s, S.Reachable s → I s) (hinit : ∀ s, S.init s → J s)
    (hstep : ∀ s e s', I s → J s → S.step s e s' → J s') {s : σ} (h : S.Reachable s) : J s := by
  obtain ⟨s₀, es, h₀, hrun⟩ := h
  induction hrun with
  | nil => exact hinit _ h₀
  | snoc hbefore hs ih => exact hstep _ _ _ (hI _ ⟨_, _, h₀, hbefore⟩) ih hs

theorem Run.relates {I : σ → Prop} {R : σ → σ → Prop} (hI : ∀ s, S.Reachable s → I s) (hrefl : ∀ s, R s s)
    (hstep : ∀ r s e s', I s → R r s → S.step s e s' → R r s')
    {s s' : σ} {es : List ε} (hs : S.Reachable s) (h : S.Run s es s') : R s s' := by
  induction h with
  | nil => exact hrefl _
  | snoc hbefore hlast ih => exact hstep _ _ _ _ (hI _ (hs.run hbefore)) ih hlast

theorem restrict_run {guard : σ → ε → Prop} {s s' : σ} {es : List ε}
    (h : (S.restrict guard).Run s es s') : S.Run s es s' := by
  induction h with
  | nil => exact .nil _
  | snoc _ hs ih => exact .snoc ih hs.2

/-- A guarded run is a run. -/
theorem restrict_reachable {guard : σ → ε → Prop} {s : σ} (h : (S.restrict guard).Reachable s) : S.Reachable s := by
  obtain ⟨s₀, es, h₀, hrun⟩ := h
  exact ⟨s₀, es, h₀, restrict_run hrun⟩

end System

/-- A run whose labels meet a condition that doesn't look at the state. -/
theorem System.Run.restrict_of_forall {σ ε : Type*} {S : System σ ε} {guard : σ → ε → Prop}
    {s s' : σ} {es : List ε} (run : S.Run s es s') (met : ∀ e ∈ es, ∀ s, guard s e) :
    (S.restrict guard).Run s es s' := by
  induction run with
  | nil => exact .nil _
  | snoc _ step ih =>
    refine .snoc (ih fun e member => met e (List.mem_append_left _ member)) ⟨?_, step⟩
    exact met _ (List.mem_append_right _ List.mem_cons_self) _

/-- Runs a list of labels through a partial step function, for concrete runs. -/
def runAll {σ ε : Type*} (next : σ → ε → Option σ) : σ → List ε → Option σ
  | s, [] => some s
  | s, e :: es => (next s e).bind (runAll next · es)

theorem System.run_of_runAll {σ ε : Type*} {init : σ → Prop} {next : σ → ε → Option σ} {s s' : σ}
    {es : List ε} (h : runAll next s es = some s') : (System.ofFunction init next).Run s es s' := by
  induction es generalizing s with
  | nil =>
    obtain rfl : s = s' := by simpa [runAll] using h
    exact .nil s
  | cons e es ih =>
    simp only [runAll, Option.bind_eq_some_iff] at h
    obtain ⟨m, hstep, hrest⟩ := h
    exact .cons hstep (ih hrest)

/-- The state a concrete run of labels ends in is reachable. -/
theorem System.reachable_of_runAll {σ ε : Type*} (init : σ → Prop) (next : σ → ε → Option σ)
    {s : σ} (h : init s) (es : List ε) (ran : (runAll next s es).isSome = true) :
    (System.ofFunction init next).Reachable ((runAll next s es).get ran) :=
  ⟨s, es, h, System.run_of_runAll (Option.some_get ran).symm⟩

/-- A concrete run of labels that all meet a condition. -/
theorem System.run_of_guardedRunAll {σ ε : Type*} {init : σ → Prop} {next : σ → ε → Option σ}
    {guard : σ → ε → Prop} [∀ s e, Decidable (guard s e)] {s s' : σ} {es : List ε}
    (h : runAll (fun s e => if guard s e then next s e else none) s es = some s') :
    ((System.ofFunction init next).restrict guard).Run s es s' := by
  induction es generalizing s with
  | nil =>
    obtain rfl : s = s' := by simpa [runAll] using h
    exact .nil s
  | cons e es ih =>
    simp only [runAll, Option.bind_eq_some_iff] at h
    obtain ⟨m, hstep, hrest⟩ := h
    split at hstep
    · exact .cons ⟨‹_›, hstep⟩ (ih hrest)
    · cases hstep

/-- The state a concrete run of labels that all meet a condition ends in is reachable by such runs. -/
theorem System.reachable_of_guardedRunAll {σ ε : Type*} (init : σ → Prop)
    (next : σ → ε → Option σ) (guard : σ → ε → Prop) [∀ s e, Decidable (guard s e)] {s : σ}
    (h : init s) (es : List ε)
    (ran : (runAll (fun s e => if guard s e then next s e else none) s es).isSome = true) :
    ((System.ofFunction init next).restrict guard).Reachable
      ((runAll (fun s e => if guard s e then next s e else none) s es).get ran) :=
  ⟨s, es, h, System.run_of_guardedRunAll (Option.some_get ran).symm⟩

end Kiln.Lib
