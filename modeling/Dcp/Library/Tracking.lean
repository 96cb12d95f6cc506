import Dcp.Library.Pool

/-!
Programs that an automaton follows step by step. The automaton remembers what the state and the
events do not show, such as how far a thread has come. In a pool each thread has an automaton of its
own, and what the moves keep of the world, of all automata and of what an observer has seen of the
steps so far holds after every run.
-/

namespace Library

namespace Prog
variable {σ ε err err' α β τ : Type} {move : τ → σ → σ → List ε → τ → Prop}

/-- Every step is a move from where the automaton is, which ends where `post` says. -/
def Tracks (move : τ → σ → σ → List ε → τ → Prop) (post : Except err α → τ → Prop) :
    Prog σ ε err α → τ → Prop
  | done result, t => post result t
  | step update emit next, t =>
      ∀ s, ∃ t', move t s (update s) (emit s) t' ∧ (next s).Tracks move post t'

theorem Tracks.andThen {p : Prog σ ε err α} {k : Except err α → Prog σ ε err' β}
    {post : Except err α → τ → Prop} {post' : Except err' β → τ → Prop} {t : τ}
    (hp : p.Tracks move post t)
    (hk : ∀ result t, post result t → (k result).Tracks move post' t) :
    (p.andThen k).Tracks move post' t := by
  induction p generalizing t with
  | done result => exact hk result t hp
  | step update emit next ih =>
      intro s
      obtain ⟨t', hmove, hnext⟩ := hp s
      exact ⟨t', hmove, ih s hnext⟩

theorem Tracks.of_ensures {p : Prog σ ε err α} {ok : σ → σ → List ε → Prop}
    {post : Except err α → Prop} {t : τ} (hp : p.Ensures ok post)
    (hstay : ∀ s s' events, ok s s' events → move t s s' events t) :
    p.Tracks move (fun result t' => post result ∧ t' = t) t := by
  induction p with
  | done result => exact ⟨hp, rfl⟩
  | step update emit next ih =>
      intro s
      obtain ⟨hstep, hnext⟩ := hp s
      exact ⟨t, hstay _ _ _ hstep, ih s hnext⟩

theorem Tracks.mono {p : Prog σ ε err α} {post post' : Except err α → τ → Prop} {t : τ}
    (hp : p.Tracks move post t) (hpost : ∀ result t, post result t → post' result t) :
    p.Tracks move post' t := by
  induction p generalizing t with
  | done result => exact hpost result t hp
  | step update emit next ih =>
      intro s
      obtain ⟨t', hmove, hnext⟩ := hp s
      exact ⟨t', hmove, ih s hnext⟩

/-- A first part during which the automaton stays where it is; an error ends the program. -/
theorem Tracks.seq {p : Prog σ ε err α} {k : α → Prog σ ε err β} {ok : σ → σ → List ε → Prop}
    {post : Except err β → τ → Prop} {t : τ} (hp : p.Ensures ok fun _ => True)
    (hstay : ∀ s s' events, ok s s' events → move t s s' events t)
    (herror : ∀ e, post (.error e) t) (hk : ∀ a, (k a).Tracks move post t) :
    (p >>= k).Tracks move post t := by
  refine (Tracks.of_ensures hp hstay).andThen ?_
  intro result t' hend
  obtain ⟨-, rfl⟩ := hend
  cases result with
  | ok a => exact hk a
  | error e => exact herror e

theorem tracks_act {update : σ → σ} {emit : σ → List ε} {result : σ → Except err α}
    {k : α → Prog σ ε err β} {post : Except err β → τ → Prop} {t : τ}
    (h : ∀ s, ∃ t', move t s (update s) (emit s) t' ∧
      (onOk k (result s)).Tracks move post t') :
    (act update emit result >>= k).Tracks move post t :=
  h

end Prog

namespace Pool
variable {ι σ ε err α τ β : Type} [DecidableEq ι] {move : ι → τ → σ → σ → List ε → τ → Prop}
  {see : ι → σ → σ → List β} {inv : List β → World ι σ ε → (ι → τ) → Prop}
  {post : ι → Except err α → τ → Prop} {pool : Pool ι σ ε err α} {places : ι → τ} {seen : List β}

/-- What an observer sees of the steps of a run, who looks at the thread and at the states before
and after it. -/
def observed (see : ι → σ → σ → List β) (pool : Pool ι σ ε err α) : List ι → List β
  | [] => []
  | i :: rest =>
      see i pool.world.state (pool.step i).world.state ++ (pool.step i).observed see rest

theorem tracked_step (hprog : ∀ i, (pool.prog i).Tracks (move i) (post i) (places i))
    (hinv : inv seen pool.world places) (hstill : ∀ i s, see i s s = [])
    (hmoves : ∀ seen w places i place update emit, inv seen w places →
      move i (places i) w.state (update w.state) (emit w.state) place →
        inv (seen ++ see i w.state (update w.state)) (w.after i update emit)
          (Function.update places i place)) (i : ι) :
    ∃ places', inv (seen ++ see i pool.world.state (pool.step i).world.state)
        (pool.step i).world places' ∧
      ∀ j, ((pool.step i).prog j).Tracks (move j) (post j) (places' j) := by
  cases hi : pool.prog i with
  | done result =>
      rw [step_done hi, hstill, List.append_nil]
      exact ⟨places, hinv, hprog⟩
  | step update emit next =>
      have htracks := hprog i
      rw [hi] at htracks
      obtain ⟨place, hmove, hnext⟩ := htracks pool.world.state
      rw [step_step hi]
      refine ⟨_, hmoves _ _ _ _ _ _ _ hinv hmove, fun j => ?_⟩
      by_cases hj : j = i
      · subst hj
        simpa using hnext
      · simpa [Function.update_of_ne hj] using hprog j

/-- What every move keeps holds after a run, with the automata where the run has brought them and
all that was seen of it. -/
theorem tracked (hprog : ∀ i, (pool.prog i).Tracks (move i) (post i) (places i))
    (hinv : inv seen pool.world places) (hstill : ∀ i s, see i s s = [])
    (hmoves : ∀ seen w places i place update emit, inv seen w places →
      move i (places i) w.state (update w.state) (emit w.state) place →
        inv (seen ++ see i w.state (update w.state)) (w.after i update emit)
          (Function.update places i place)) (schedule : List ι) :
    ∃ places', inv (seen ++ pool.observed see schedule) (pool.run schedule).world places' ∧
      ∀ j, ((pool.run schedule).prog j).Tracks (move j) (post j) (places' j) := by
  induction schedule generalizing pool places seen with
  | nil =>
      refine ⟨places, ?_, hprog⟩
      rw [observed, List.append_nil]
      exact hinv
  | cons i rest ih =>
      obtain ⟨places', hinv', hprog'⟩ := tracked_step hprog hinv hstill hmoves i
      rw [observed, ← List.append_assoc]
      exact ih hprog' hinv'

end Pool
end Library
