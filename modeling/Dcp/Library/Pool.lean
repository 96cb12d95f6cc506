import Dcp.Library.Prog

/-!
Pools of programs that take their steps on one state in any order, and rely-guarantee
reasoning about them. The world is the state together with the trace of the events emitted so
far, each with its thread. A protocol has an invariant of the world and, for each thread, what
its steps guarantee; a thread relies on what the steps of the others guarantee.
-/

namespace Library

/-- A shared state and what happened to it. -/
structure World (ι σ ε : Type) where
  state : σ
  trace : List (ι × ε)

namespace World
variable {ι σ ε : Type}

def after (w : World ι σ ε) (i : ι) (update : σ → σ) (emit : σ → List ε) : World ι σ ε :=
  ⟨update w.state, w.trace ++ (emit w.state).map (i, ·)⟩

section
variable [DecidableEq ι]

def eventsOf (w : World ι σ ε) (i : ι) : List ε := (w.trace.filter fun e => e.1 = i).map Prod.snd

theorem mem_eventsOf_iff {w : World ι σ ε} {i : ι} {e : ε} :
    e ∈ w.eventsOf i ↔ (i, e) ∈ w.trace := by
  simp only [eventsOf, List.mem_map, List.mem_filter, decide_eq_true_eq, Prod.exists,
    exists_eq_right]

theorem eventsOf_after (w : World ι σ ε) (i : ι) (update : σ → σ) (emit : σ → List ε) :
    (w.after i update emit).eventsOf i = w.eventsOf i ++ emit w.state := by
  simp [eventsOf, after, List.filter_map, Function.comp_def]

theorem eventsOf_after_of_ne (w : World ι σ ε) {i j : ι} (h : j ≠ i) (update : σ → σ)
    (emit : σ → List ε) : (w.after j update emit).eventsOf i = w.eventsOf i := by
  simp [eventsOf, after, List.filter_map, Function.comp_def, h]

end

end World

structure Pool (ι σ ε err α : Type) where
  world : World ι σ ε
  prog : ι → Prog σ ε err α

namespace Pool
variable {ι σ ε err α : Type} [DecidableEq ι]

/-- The next step of a thread; a thread that has ended does nothing. -/
def step (pool : Pool ι σ ε err α) (i : ι) : Pool ι σ ε err α :=
  match pool.prog i with
  | .done _ => pool
  | .step update emit next =>
      ⟨pool.world.after i update emit, Function.update pool.prog i (next pool.world.state)⟩

def run (pool : Pool ι σ ε err α) (schedule : List ι) : Pool ι σ ε err α :=
  schedule.foldl step pool

theorem step_done {pool : Pool ι σ ε err α} {i : ι} {result : Except err α}
    (h : pool.prog i = .done result) : pool.step i = pool := by
  simp [step, h]

theorem step_step {pool : Pool ι σ ε err α} {i : ι} {update : σ → σ} {emit : σ → List ε}
    {next : σ → Prog σ ε err α} (h : pool.prog i = .step update emit next) :
    pool.step i =
      ⟨pool.world.after i update emit, Function.update pool.prog i (next pool.world.state)⟩ := by
  simp [step, h]

theorem yields_step {post : Except err α → List ε → Prop} {pool : Pool ι σ ε err α} {i : ι}
    (h : (pool.prog i).Yields fun result events => post result (pool.world.eventsOf i ++ events))
    (j : ι) : ((pool.step j).prog i).Yields fun result events =>
      post result ((pool.step j).world.eventsOf i ++ events) := by
  cases hprog : pool.prog j with
  | done result => rwa [step_done hprog]
  | step update emit next =>
      rw [step_step hprog]
      by_cases hj : j = i
      · subst hj
        rw [hprog] at h
        have hnext : (next pool.world.state).Yields fun result events =>
            post result (pool.world.eventsOf j ++ (emit pool.world.state ++ events)) :=
          h pool.world.state
        simpa [World.eventsOf_after, List.append_assoc] using hnext
      · rw [World.eventsOf_after_of_ne _ hj]
        simpa [Function.update_of_ne (Ne.symm hj)] using h

theorem yields_run {post : Except err α → List ε → Prop} {pool : Pool ι σ ε err α} {i : ι}
    (h : (pool.prog i).Yields fun result events => post result (pool.world.eventsOf i ++ events))
    (schedule : List ι) : ((pool.run schedule).prog i).Yields fun result events =>
      post result ((pool.run schedule).world.eventsOf i ++ events) := by
  induction schedule generalizing pool with
  | nil => exact h
  | cons j rest ih => exact ih (yields_step h j)

theorem post_of_done {post : Except err α → List ε → Prop} {pool : Pool ι σ ε err α} {i : ι}
    (h : (pool.prog i).Yields post) (hfresh : pool.world.eventsOf i = []) {schedule : List ι}
    {result : Except err α} (hdone : (pool.run schedule).prog i = .done result) :
    post result ((pool.run schedule).world.eventsOf i) := by
  have hstart : (pool.prog i).Yields fun result events =>
      post result (pool.world.eventsOf i ++ events) := by
    rw [hfresh]
    exact h
  have hyields := yields_run hstart schedule
  rw [hdone] at hyields
  simpa [Prog.Yields] using hyields

theorem trace_step (pool : Pool ι σ ε err α) (i : ι) :
    pool.world.trace <+: (pool.step i).world.trace := by
  cases hprog : pool.prog i with
  | done result => rw [step_done hprog]
  | step update emit next =>
      rw [step_step hprog]
      exact List.prefix_append _ _

theorem trace_run (pool : Pool ι σ ε err α) (schedule : List ι) :
    pool.world.trace <+: (pool.run schedule).world.trace := by
  induction schedule generalizing pool with
  | nil => exact List.prefix_rfl
  | cons i rest ih => exact (trace_step pool i).trans (ih _)

end Pool

/-- What is kept at all times, and what the steps of each thread guarantee. -/
structure Protocol (ι σ ε : Type) where
  inv : World ι σ ε → Prop
  guar : ι → World ι σ ε → World ι σ ε → Prop

namespace Protocol
variable {ι σ ε err err' α β : Type} (P : Protocol ι σ ε)

def Others (i : ι) (w w' : World ι σ ε) : Prop := P.inv w ∧ P.inv w' ∧ ∃ j, j ≠ i ∧ P.guar j w w'

/-- What the other threads may have done in the meantime. -/
def Rely (i : ι) : World ι σ ε → World ι σ ε → Prop := Relation.ReflTransGen (P.Others i)

/-- The rest of a thread keeps the invariant and its guarantee and ends in `post`, from the
world it was last in. -/
def Meets (i : ι) (post : Except err α → World ι σ ε → Prop) :
    Prog σ ε err α → World ι σ ε → Prop
  | .done result, w => post result w
  | .step update emit next, w => ∀ w', P.Rely i w w' → P.inv w' →
      P.inv (w'.after i update emit) ∧ P.guar i w' (w'.after i update emit) ∧
        Meets i post (next w'.state) (w'.after i update emit)

section
variable {P} {i : ι} {w : World ι σ ε}

theorem Meets.andThen {p : Prog σ ε err α} {k : Except err α → Prog σ ε err' β}
    {post : Except err α → World ι σ ε → Prop} {post' : Except err' β → World ι σ ε → Prop}
    (hp : P.Meets i post p w) (hk : ∀ result w, post result w → P.Meets i post' (k result) w) :
    P.Meets i post' (p.andThen k) w := by
  induction p generalizing w with
  | done result => exact hk result w hp
  | step update emit next ih =>
      intro w' hrely hinv
      obtain ⟨hafter, hguar, hnext⟩ := hp w' hrely hinv
      exact ⟨hafter, hguar, ih w'.state hnext⟩

theorem Meets.mono {p : Prog σ ε err α} {post post' : Except err α → World ι σ ε → Prop}
    (hp : P.Meets i post p w) (hpost : ∀ result w, post result w → post' result w) :
    P.Meets i post' p w := by
  induction p generalizing w with
  | done result => exact hpost result w hp
  | step update emit next ih =>
      intro w' hrely hinv
      obtain ⟨hafter, hguar, hnext⟩ := hp w' hrely hinv
      exact ⟨hafter, hguar, ih w'.state hnext⟩

/-- A value is handed to the continuation; an error ends the thread. -/
theorem Meets.bind {p : Prog σ ε err α} {k : α → Prog σ ε err β}
    {known : α → World ι σ ε → Prop} {post : Except err β → World ι σ ε → Prop}
    (hp : P.Meets i (fun result w => match result with
      | .ok a => known a w
      | .error e => post (.error e) w) p w)
    (hk : ∀ a w, known a w → P.Meets i post (k a) w) : P.Meets i post (p >>= k) w := by
  refine hp.andThen ?_
  intro result w hresult
  cases result with
  | ok a => exact hk a w hresult
  | error e => exact hresult

/-- A property of the world that no step of any thread destroys. -/
def Stable (P : Protocol ι σ ε) (known : World ι σ ε → Prop) : Prop :=
  ∀ i w w', P.inv w → P.inv w' → P.guar i w w' → known w → known w'

theorem Stable.rely {known : World ι σ ε → Prop} (h : P.Stable known) {w' : World ι σ ε}
    (hrely : P.Rely i w w') (hw : known w) : known w' := by
  induction hrely with
  | refl => exact hw
  | tail _ hstep ih =>
      obtain ⟨hinv, hinv', j, -, hguar⟩ := hstep
      exact h j _ _ hinv hinv' hguar ih

/-- What is stable and known at the start of a thread is known at its end. -/
theorem Meets.keep {p : Prog σ ε err α} {post : Except err α → World ι σ ε → Prop}
    {known : World ι σ ε → Prop} (hstable : P.Stable known) (hp : P.Meets i post p w)
    (hw : known w) : P.Meets i (fun result w => post result w ∧ known w) p w := by
  induction p generalizing w with
  | done result => exact ⟨hp, hw⟩
  | step update emit next ih =>
      intro w' hrely hinv
      obtain ⟨hafter, hguar, hnext⟩ := hp w' hrely hinv
      have hw' := hstable i _ _ hinv hafter hguar (hstable.rely hrely hw)
      exact ⟨hafter, hguar, ih w'.state hnext hw'⟩

/-- A program whose every step is harmless meets the protocol. -/
theorem Meets.of_ensures {p : Prog σ ε err α} {ok : σ → σ → List ε → Prop}
    {post : Except err α → Prop} (hp : p.Ensures ok post)
    (hok : ∀ (w : World ι σ ε) update emit, ok w.state (update w.state) (emit w.state) →
      P.inv w → P.inv (w.after i update emit) ∧ P.guar i w (w.after i update emit))
    (w : World ι σ ε) : P.Meets i (fun result _ => post result) p w := by
  induction p generalizing w with
  | done result => exact hp
  | step update emit next ih =>
      intro w' _ hinv
      obtain ⟨hstep, hnext⟩ := hp w'.state
      obtain ⟨hafter, hguar⟩ := hok w' update emit hstep hinv
      exact ⟨hafter, hguar, ih w'.state hnext _⟩

end

/-- The invariant holds and each thread meets the protocol from the world it was last in. -/
structure Holds (post : ι → Except err α → World ι σ ε → Prop) (pool : Pool ι σ ε err α) :
    Prop where
  inv : P.inv pool.world
  meets : ∀ i, ∃ w, P.Rely i w pool.world ∧ P.Meets i (post i) (pool.prog i) w

section
variable {P} {post : ι → Except err α → World ι σ ε → Prop} {pool : Pool ι σ ε err α}

theorem Holds.of_start (hinv : P.inv pool.world)
    (hmeets : ∀ i, P.Meets i (post i) (pool.prog i) pool.world) : P.Holds post pool :=
  ⟨hinv, fun i => ⟨pool.world, .refl, hmeets i⟩⟩

variable [DecidableEq ι]

theorem Holds.step (h : P.Holds post pool) (i : ι) :
    P.Holds post (pool.step i) ∧
      ((pool.step i).world = pool.world ∨ P.guar i pool.world (pool.step i).world) := by
  cases hprog : pool.prog i with
  | done result =>
      rw [Pool.step_done hprog]
      exact ⟨h, .inl rfl⟩
  | step update emit next =>
      obtain ⟨w, hrely, hmeets⟩ := h.meets i
      rw [hprog] at hmeets
      obtain ⟨hafter, hguar, hnext⟩ := hmeets pool.world hrely h.inv
      rw [Pool.step_step hprog]
      refine ⟨⟨hafter, ?_⟩, .inr hguar⟩
      intro j
      by_cases hj : j = i
      · subst hj
        refine ⟨_, .refl, ?_⟩
        simpa using hnext
      · obtain ⟨w, hrely, hmeets⟩ := h.meets j
        refine ⟨w, hrely.tail ⟨h.inv, hafter, i, Ne.symm hj, hguar⟩, ?_⟩
        simpa [Function.update_of_ne hj] using hmeets

theorem Holds.run (h : P.Holds post pool) (schedule : List ι) :
    P.Holds post (pool.run schedule) := by
  induction schedule generalizing pool with
  | nil => exact h
  | cons i rest ih => exact ih (h.step i).1

end
end Protocol
end Library
