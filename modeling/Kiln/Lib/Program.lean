import Kiln.Lib.Transition

/-!
# Programs of calls

A program returns a value, or makes a call to the world and goes on with its answer. What a call may
answer and make of the world's state is a relation, so that a call may fail, before it was applied
or after. Between the calls the world may move by itself, as far as a relation says.

`Program.Safe` is shown of a program to know that a property holds at every point of its runs, and
another one of what it returns. The rules below show it piece by piece.
-/

namespace Kiln.Lib

/-- A program that makes calls `ι` and returns an `α`. -/
inductive Program (ι : Type*) (answer : ι → Type*) (α : Type*) where
  | done (value : α)
  | call (i : ι) (rest : answer i → Program ι answer α)

namespace Program

variable {ι α β γ ε σ : Type*} {answer : ι → Type*}

/-- The program that goes on with what another one returns. -/
def bind : Program ι answer α → (α → Program ι answer β) → Program ι answer β
  | .done value, next => next value
  | .call i rest, next => .call i fun reply => (rest reply).bind next

/-- The program of one call. -/
def ask (i : ι) : Program ι answer (answer i) := .call i .done

@[simp] theorem done_bind (value : α) (next : α → Program ι answer β) :
    (Program.done value).bind next = next value := rfl

@[simp] theorem call_bind (i : ι) (rest : answer i → Program ι answer α) (next : α → Program ι answer β) :
    (Program.call i rest).bind next = .call i fun reply => (rest reply).bind next := rfl

@[simp] theorem ask_bind (i : ι) (next : answer i → Program ι answer β) : (ask i).bind next = .call i next := rfl

/-- The program that goes on where another one succeeds. -/
def andThen (program : Program ι answer (Except ε α)) (next : α → Program ι answer (Except ε β)) :
    Program ι answer (Except ε β) :=
  program.bind fun
    | .ok value => next value
    | .error cause => .done (.error cause)

/-- The program that goes on with the causes of failures. -/
def orElse (program : Program ι answer (Except ε α)) (next : ε → Program ι answer (Except ε α)) :
    Program ι answer (Except ε α) :=
  program.bind fun
    | .ok value => .done (.ok value)
    | .error cause => next cause

/-- Runs a program for each member, as long as they succeed. -/
def forEach (program : α → Program ι answer (Except ε Unit)) : List α → Program ι answer (Except ε Unit)
  | [] => .done (.ok ())
  | member :: rest => (program member).andThen fun _ => forEach program rest

/-! ## Runs -/

/-- What the calls may answer and make of the state, and what the world may make of it by itself. -/
structure World (σ : Type*) (ι : Type*) (answer : ι → Type*) where
  call : σ → (i : ι) → answer i → σ → Prop
  moves : σ → σ → Prop
  refl : ∀ s, moves s s
  trans : ∀ {s t u}, moves s t → moves t u → moves s u

/-- A step of a run: the world moves, or the program makes its next call. -/
inductive Step (world : World σ ι answer) :
    Program ι answer α × σ → Program ι answer α × σ → Prop
  | moves {program : Program ι answer α} {s s' : σ} : world.moves s s' → Step world (program, s) (program, s')
  | call {i : ι} {rest : answer i → Program ι answer α} {reply : answer i} {s s' : σ} :
      world.call s i reply s' → Step world (.call i rest, s) (rest reply, s')

/-- The runs of a program from a state, stopped at any point. -/
def runs (world : World σ ι answer) (program : Program ι answer α) (s : σ) : System (Program ι answer α × σ) Unit where
  init := (· = (program, s))
  step before _ after := Step world before after

/-- Whatever the calls that may be answered answer, the program only makes calls that are allowed, and returns what
meets `post`. -/
def Only (allowed : ι → Prop) (may : (i : ι) → answer i → Prop) (post : α → Prop) : Program ι answer α → Prop
  | .done value => post value
  | .call i rest => allowed i ∧ ∀ reply, may i reply → Only allowed may post (rest reply)

section Only
variable {allowed : ι → Prop} {may : (i : ι) → answer i → Prop} {post : α → Prop} {program : Program ι answer α}

theorem Only.bind {next : α → Program ι answer β} {post' : β → Prop} (first : Only allowed may post program)
    (second : ∀ value, post value → Only allowed may post' (next value)) :
    Only allowed may post' (program.bind next) := by
  induction program with
  | done value => exact second value first
  | call i rest ih => exact ⟨first.1, fun reply may => ih reply (first.2 reply may)⟩

theorem Only.andThen {program : Program ι answer (Except ε α)} {next : α → Program ι answer (Except ε β)}
    {post : Except ε α → Prop} {post' : Except ε β → Prop} (first : Only allowed may post program)
    (second : ∀ value, post (.ok value) → Only allowed may post' (next value))
    (failed : ∀ cause, post (.error cause) → post' (.error cause)) :
    Only allowed may post' (program.andThen next) := by
  refine first.bind fun result holds => ?_
  cases result with
  | ok value => exact second value holds
  | error cause => exact failed cause holds

theorem Only.forEach {each : α → Program ι answer (Except ε Unit)} {members : List α}
    (step : ∀ member, Only allowed may (fun _ => True) (each member)) :
    Only allowed may (fun _ => True) (Program.forEach each members) := by
  induction members with
  | nil => trivial
  | cons member rest ih => exact (step member).andThen (fun _ _ => ih) fun _ _ => trivial

end Only

/-- Runs a program with given outcomes of its calls, for concrete runs. -/
def play (program : Program ι answer α) (s : σ) : List (σ → (i : ι) → answer i × σ) → Program ι answer α × σ
  | [] => (program, s)
  | outcome :: rest =>
    match program with
    | .done value => (.done value, s)
    | .call i next => play (next (outcome s i).1) (outcome s i).2 rest

theorem reachable_of_play {world : World σ ι answer} {program : Program ι answer α} {s : σ}
    {outcomes : List (σ → (i : ι) → answer i × σ)}
    (may : ∀ outcome ∈ outcomes, ∀ s i, world.call s i (outcome s i).1 (outcome s i).2) :
    (runs world program s).Reachable (play program s outcomes) := by
  suffices all : ∀ (c : Program ι answer α × σ), (runs world program s).Reachable c →
      (runs world program s).Reachable (play c.1 c.2 outcomes) from all (program, s) (System.Reachable.init rfl)
  intro c
  induction outcomes generalizing c with
  | nil =>
    rw [play]
    exact fun reached => reached
  | cons outcome rest ih =>
    intro reached
    rcases c with ⟨_ | ⟨i, next⟩, t⟩
    · rw [play]
      exact reached
    · rw [play]
      refine ih (fun other member => may other (List.mem_cons_of_mem _ member))
        (next (outcome t i).1, (outcome t i).2) ?_
      exact reached.step (S := runs world program s) (e := ()) (.call (may outcome List.mem_cons_self t i))

/-! ## Safety -/

/-- Whatever the world does, `kept` holds at every point of the program's runs, and `ends` of what it returns. -/
def Safe (world : World σ ι answer) (kept : σ → Prop) (ends : α → σ → Prop) : Program ι answer α → σ → Prop
  | .done value, s => ∀ t, world.moves s t → kept t ∧ ends value t
  | .call i rest, s => ∀ t, world.moves s t → kept t ∧
      ∀ reply u, world.call t i reply u → Safe world kept ends (rest reply) u

variable {world : World σ ι answer} {kept : σ → Prop} {ends : α → σ → Prop} {s s' : σ} {program : Program ι answer α}

theorem Safe.holds (safe : Safe world kept ends program s) : kept s := by
  cases program with
  | done value => exact (safe s (world.refl s)).1
  | call i rest => exact (safe s (world.refl s)).1

theorem Safe.returned {value : α} (safe : Safe world kept ends (.done value) s) : ends value s :=
  (safe s (world.refl s)).2

theorem Safe.moves (safe : Safe world kept ends program s) (moves : world.moves s s') :
    Safe world kept ends program s' := by
  cases program with
  | done value => exact fun t further => safe t (world.trans moves further)
  | call i rest => exact fun t further => safe t (world.trans moves further)

theorem safe_of_reachable {reached : Program ι answer α × σ}
    (safe : Safe world kept ends program s) (run : (runs world program s).Reachable reached) :
    Safe world kept ends reached.1 reached.2 := by
  refine System.Reachable.invariant (I := fun c => Safe world kept ends c.1 c.2) ?_ ?_ run
  · rintro c rfl
    exact safe
  · intro before _ after safe step
    cases step with
    | moves moves => exact safe.moves moves
    | call made => exact (safe _ (world.refl _)).2 _ _ made

theorem Safe.mono {kept' : σ → Prop} {ends' : α → σ → Prop}
    (safe : Safe world kept ends program s) (keeps : ∀ s, kept s → kept' s)
    (implies : ∀ value s, kept s → ends value s → ends' value s) :
    Safe world kept' ends' program s := by
  induction program generalizing s with
  | done value =>
    intro t moves
    have holds := safe t moves
    exact ⟨keeps t holds.1, implies value t holds.1 holds.2⟩
  | call i rest ih =>
    intro t moves
    have holds := safe t moves
    exact ⟨keeps t holds.1, fun reply u made => ih reply (holds.2 reply u made)⟩

theorem Safe.bind {next : α → Program ι answer β} {ends : β → σ → Prop}
    (safe : Safe world kept (fun value s => Safe world kept ends (next value) s) program s) :
    Safe world kept ends (program.bind next) s := by
  induction program generalizing s with
  | done value => exact Safe.returned safe
  | call i rest ih =>
    intro t moves
    have holds := safe t moves
    exact ⟨holds.1, fun reply u made => ih reply (holds.2 reply u made)⟩

/-! ## Preconditions and postconditions

Where the world moves by itself no further than a view of its states shows, what is said of the view
is not undone between two calls. -/

variable {τ : Type*} {view : σ → τ}

/-- The world whose own moves are those that a view doesn't show. -/
def World.ofView (view : σ → τ) (call : σ → (i : ι) → answer i → σ → Prop) : World σ ι answer where
  call
  moves s t := view t = view s
  refl _ := rfl
  trans first second := second.trans first

/-- From a state that meets `pre`, the program keeps `kept` at every point, and ends in `post`. -/
def Meets (view : σ → τ) (calls : σ → (i : ι) → answer i → σ → Prop) (kept : τ → Prop)
    (pre : τ → Prop) (program : Program ι answer α) (post : α → τ → Prop) : Prop :=
  ∀ s, kept (view s) → pre (view s) →
    Safe (World.ofView view calls) (fun s => kept (view s)) (fun value s => post value (view s)) program s

variable {calls : σ → (i : ι) → answer i → σ → Prop} {held pre pre' : τ → Prop} {post post' : α → τ → Prop}

theorem Meets.done {value : α} (holds : ∀ v, held v → pre v → post value v) :
    Meets view calls held pre (.done value) post := by
  intro s keeps is t same
  have same' : view t = view s := same
  show held (view t) ∧ post value (view t)
  rw [same']
  exact ⟨keeps, holds _ keeps is⟩

theorem Meets.call {i : ι} {rest : answer i → Program ι answer α} (mid : answer i → τ → Prop)
    (made : ∀ s reply t, held (view s) → pre (view s) → calls s i reply t → held (view t) ∧ mid reply (view t))
    (next : ∀ reply, Meets view calls held (mid reply) (rest reply) post) :
    Meets view calls held pre (.call i rest) post := by
  intro s keeps is t same
  have same' : view t = view s := same
  rw [← same'] at keeps is
  refine ⟨keeps, fun reply u step => ?_⟩
  have after := made t reply u keeps is step
  exact next reply u after.1 after.2

theorem Meets.bind {next : α → Program ι answer β} {post' : β → τ → Prop}
    (first : Meets view calls held pre program post)
    (second : ∀ value, Meets view calls held (post value) (next value) post') :
    Meets view calls held pre (program.bind next) post' := by
  intro s keeps is
  refine Safe.bind ((first s keeps is).mono (fun _ holds => holds) ?_)
  exact fun value s keeps is => second value s keeps is

theorem Meets.weaken (meets : Meets view calls held pre program post) (before : ∀ v, pre' v → pre v)
    (after : ∀ value v, held v → post value v → post' value v) :
    Meets view calls held pre' program post' := by
  intro s keeps is
  refine (meets s keeps (before _ is)).mono (fun _ holds => holds) ?_
  exact fun value s keeps is => after value _ keeps is

/-- A stronger precondition. -/
theorem Meets.from (pre : τ → Prop) (meets : Meets view calls held pre program post)
    (before : ∀ v, held v → pre' v → pre v) : Meets view calls held pre' program post :=
  fun s keeps is => meets s keeps (before _ keeps is)

theorem Meets.andThen {program : Program ι answer (Except ε α)}
    {next : α → Program ι answer (Except ε β)} {post : Except ε α → τ → Prop}
    {post' : Except ε β → τ → Prop} (first : Meets view calls held pre program post)
    (second : ∀ value, Meets view calls held (post (.ok value)) (next value) post')
    (failed : ∀ cause v, held v → post (.error cause) v → post' (.error cause) v) :
    Meets view calls held pre (program.andThen next) post' := by
  refine first.bind fun result => ?_
  cases result with
  | ok value => exact second value
  | error cause => exact Meets.done fun v keeps is => failed cause v keeps is

/-- What holds with a result: one thing where it succeeded, and another where it failed. -/
def onResult (ok : α → τ → Prop) (error : ε → τ → Prop) : Except ε α → τ → Prop
  | .ok value, v => ok value v
  | .error cause, v => error cause v

/-- Members are gone through by what each of them keeps. -/
theorem Meets.forEach {each : α → Program ι answer (Except ε Unit)} {failed : τ → Prop}
    {members : List α} (step : ∀ member, Meets view calls held pre (each member)
      (onResult (fun _ => pre) fun _ => failed)) :
    Meets view calls held pre (Program.forEach each members) (onResult (fun _ => pre) fun _ => failed) := by
  induction members with
  | nil => exact Meets.done fun _ _ is => is
  | cons member rest ih => exact (step member).andThen (fun _ => ih) fun _ _ _ is => is

end Program

end Kiln.Lib
