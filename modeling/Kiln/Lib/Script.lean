import Kiln.Lib.Transition

/-!
# Work that may be cut off

A script is a list of atomic steps on a state, planned from the state as it is found. Its run may
be cut off before any step, by a step that fails or by a crash, which a restart follows; then more
work is planned from what is left. A step may turn into further steps, read from the state it meets.

To show that a property holds whatever is cut off, `Script.Safe` is shown of each plan: every state
it passes has the property, no step of it is refused, and the state it ends in is as it should be.
-/

namespace Kiln.Lib

/-- What work there is to do: the steps that are left, what it reports once it ends, and the state
    it was planned from. -/
structure Work (σ ι ρ : Type*) where
  rest : List ι
  report : ρ
  began : σ
  deriving DecidableEq, Repr

/-- A state with the work under way on it. -/
structure Worksite (σ ι ρ : Type*) where
  state : σ
  work : Option (Work σ ι ρ) := none
  deriving DecidableEq, Repr

/-- What may happen: work is planned, a step of it is made, which may be its end, a step of it fails, or all of it stops
and starts again. -/
inductive WorkEvent (β : Type*) where
  | plan (order : β)
  | step
  | fail
  | crash
  deriving DecidableEq, Repr

/-- The steps of a kind of work, how it is planned and what a restart leaves of a state. -/
structure Script (σ ι ρ β : Type*) where
  step : σ → ι → Option (σ × List ι)
  plan : σ → β → Option (List ι × ρ)
  restart : σ → σ

namespace Script

variable {σ ι ρ β : Type*}

/-- One event. -/
def next (script : Script σ ι ρ β) (site : Worksite σ ι ρ) : WorkEvent β → Option (Worksite σ ι ρ)
  | .plan order =>
      match site.work with
      | some _ => none
      | none =>
          (script.plan site.state order).map fun planned =>
            { site with work := some ⟨planned.1, planned.2, site.state⟩ }
  | .step =>
      match site.work with
      | none => none
      | some work =>
          match work.rest with
          | [] => some { site with work := none }
          | step :: rest =>
              (script.step site.state step).map fun made =>
                ⟨made.1, some { work with rest := made.2 ++ rest }⟩
  | .fail => site.work.map fun _ => { site with work := none }
  | .crash => some ⟨script.restart site.state, none⟩

/-- The runs from some worksites. -/
def system (script : Script σ ι ρ β) (init : Worksite σ ι ρ → Prop) :
    System (Worksite σ ι ρ) (WorkEvent β) :=
  .ofFunction init script.next

/-- Steps that keep a property at each point, none of them refused, and end as they should. -/
inductive Safe (script : Script σ ι ρ β) (kept ends : σ → Prop) : σ → List ι → Prop
  | done {s : σ} : kept s → ends s → Safe script kept ends s []
  | step {s s' : σ} {i : ι} {more rest : List ι} : kept s → script.step s i = some (s', more) →
      Safe script kept ends s' (more ++ rest) → Safe script kept ends s (i :: rest)

variable {script : Script σ ι ρ β} {kept ends : σ → Prop}

variable {s : σ}

theorem Safe.holds {steps : List ι} (safe : script.Safe kept ends s steps) : kept s := by
  cases safe with
  | done held _ => exact held
  | step held _ _ => exact held

/-- A step that adds none. -/
theorem Safe.next {s' : σ} {i : ι} {rest : List ι} (held : kept s)
    (made : script.step s i = some (s', [])) (safe : script.Safe kept ends s' rest) :
    script.Safe kept ends s (i :: rest) :=
  .step held made safe

/-- The state is as it should be, and so is what work is left. -/
def Sound (script : Script σ ι ρ β) (kept : σ → Prop) (ends : σ → ρ → σ → Prop) (site : Worksite σ ι ρ) : Prop :=
  kept site.state ∧ ∀ work ∈ site.work, script.Safe kept (ends work.began work.report) site.state work.rest

variable {site : Worksite σ ι ρ}

theorem sound_of_reachable {init : Worksite σ ι ρ → Prop} {ends : σ → ρ → σ → Prop}
    (starts : ∀ site, init site → script.Sound kept ends site)
    (plans : ∀ s order steps report, kept s → script.plan s order = some (steps, report) →
      script.Safe kept (ends s report) s steps)
    (restarts : ∀ s, kept s → kept (script.restart s)) (reached : (script.system init).Reachable site) :
    script.Sound kept ends site := by
  refine System.Reachable.invariant starts ?_ reached
  intro site event after sound step
  cases event with
  | plan order =>
    simp only [system, System.ofFunction_step, Script.next] at step
    split at step
    · cases step
    · obtain ⟨⟨steps, report⟩, planned, rfl⟩ := Option.map_eq_some_iff.mp step
      refine ⟨sound.1, fun work member => ?_⟩
      cases member
      exact plans site.state order steps report sound.1 planned
  | step =>
    simp only [system, System.ofFunction_step, Script.next] at step
    split at step
    · cases step
    rename_i work under
    split at step
    · cases step
      exact ⟨sound.1, fun _ member => by simp at member⟩
    rename_i i rest left
    obtain ⟨⟨s', more⟩, made, rfl⟩ := Option.map_eq_some_iff.mp step
    have safe := sound.2 work under
    rw [left] at safe
    cases safe with
    | step _ made' safe =>
      cases made.symm.trans made'
      refine ⟨safe.holds, fun work' member => ?_⟩
      cases member
      exact safe
  | fail =>
    obtain ⟨work, -, rfl⟩ := Option.map_eq_some_iff.mp step
    exact ⟨sound.1, fun _ member => by simp at member⟩
  | crash =>
    cases step
    exact ⟨restarts _ sound.1, fun _ member => by simp at member⟩

variable {work : Work σ ι ρ}

/-- What has run to its end ends as it should. -/
theorem ends_of_sound {ends : σ → ρ → σ → Prop} (sound : script.Sound kept ends site)
    (under : site.work = some work) (finished : work.rest = []) :
    ends work.began work.report site.state := by
  have safe := sound.2 work under
  rw [finished] at safe
  cases safe with
  | done _ ended => exact ended

theorem step_of_sound {ends : σ → ρ → σ → Prop} (sound : script.Sound kept ends site) (under : site.work = some work) :
    (script.next site .step).isSome = true := by
  have safe := sound.2 work under
  rw [Script.next, under]
  dsimp only
  cases left : work.rest with
  | nil => rfl
  | cons i rest =>
    rw [left] at safe
    cases safe with
    | step _ made _ => simp [made]

/-! ## What depends on the steps that are left -/

/-- Steps at each point of which something holds of the state and the steps that are left, none of them refused. -/
inductive Along (script : Script σ ι ρ β) (held : σ → List ι → Prop) : σ → List ι → Prop
  | done {s : σ} : held s [] → Along script held s []
  | step {s s' : σ} {i : ι} {more rest : List ι} : held s (i :: rest) →
      script.step s i = some (s', more) → Along script held s' (more ++ rest) →
      Along script held s (i :: rest)

variable {held : σ → List ι → Prop}

theorem Along.holds {steps : List ι} (along : script.Along held s steps) :
    held s steps := by
  cases along with
  | done holds => exact holds
  | step holds _ _ => exact holds

/-- A step that adds none. -/
theorem Along.next {s' : σ} {i : ι} {rest : List ι} (holds : held s (i :: rest))
    (made : script.step s i = some (s', [])) (along : script.Along held s' rest) :
    script.Along held s (i :: rest) :=
  .step holds made along

/-- With no work under way the state is as it should be, and work under way keeps what it has to. -/
structure Upheld (script : Script σ ι ρ β) (idle : σ → Prop) (held : σ → ρ → σ → List ι → Prop)
    (site : Worksite σ ι ρ) : Prop where
  rests : site.work = none → idle site.state
  works : ∀ work ∈ site.work, script.Along (held work.began work.report) site.state work.rest

theorem upheld_of_reachable {init : Worksite σ ι ρ → Prop}
    {allowed : Worksite σ ι ρ → WorkEvent β → Prop} {idle : σ → Prop}
    {held : σ → ρ → σ → List ι → Prop}
    (starts : ∀ site, init site → script.Upheld idle held site)
    (plans : ∀ s order steps report, idle s → script.plan s order = some (steps, report) →
      script.Along (held s report) s steps)
    (ends : ∀ s report s', held s report s' [] → idle s')
    (fails : ∀ (site : Worksite σ ι ρ) work, site.work = some work →
      held work.began work.report site.state work.rest → allowed site .fail → idle site.state)
    (rests : ∀ s, idle s → idle (script.restart s))
    (crashes : ∀ began report s steps, held began report s steps → idle (script.restart s)) (reached : ((script.system init).restrict allowed).Reachable site) :
    script.Upheld idle held site := by
  refine System.Reachable.invariant starts ?_ reached
  rintro site event after upheld ⟨allows, step⟩
  cases event with
  | plan order =>
    simp only [system, System.ofFunction_step, Script.next] at step
    split at step
    · cases step
    · rename_i free
      obtain ⟨⟨steps, report⟩, planned, rfl⟩ := Option.map_eq_some_iff.mp step
      refine ⟨fun there => (by cases there), fun work under => ?_⟩
      cases under
      exact plans site.state order steps report (upheld.rests free) planned
  | step =>
    simp only [system, System.ofFunction_step, Script.next] at step
    split at step
    · cases step
    rename_i work under
    have along := upheld.works work under
    split at step
    · rename_i finished
      cases step
      rw [finished] at along
      exact ⟨fun _ => ends _ _ _ along.holds, fun _ there => by cases there⟩
    rename_i i rest left
    obtain ⟨⟨s', more⟩, made, rfl⟩ := Option.map_eq_some_iff.mp step
    rw [left] at along
    cases along with
    | step _ made' along =>
      cases made.symm.trans made'
      refine ⟨fun there => (by cases there), fun work' there => ?_⟩
      cases there
      exact along
  | fail =>
    obtain ⟨work, under, rfl⟩ := Option.map_eq_some_iff.mp step
    have holds := (upheld.works work under).holds
    exact ⟨fun _ => fails site work under holds allows, fun _ there => by cases there⟩
  | crash =>
    cases step
    refine ⟨fun _ => ?_, fun _ there => by cases there⟩
    cases under : site.work with
    | none => exact rests _ (upheld.rests under)
    | some work => exact crashes _ _ _ _ (upheld.works work under).holds

theorem step_of_upheld {idle : σ → Prop} {held : σ → ρ → σ → List ι → Prop}
    (upheld : script.Upheld idle held site) (under : site.work = some work) :
    (script.next site .step).isSome = true := by
  have along := upheld.works work under
  rw [Script.next, under]
  dsimp only
  cases left : work.rest with
  | nil => rfl
  | cons i rest =>
    rw [left] at along
    cases along with
    | step _ made _ => simp [made]

end Script

end Kiln.Lib
