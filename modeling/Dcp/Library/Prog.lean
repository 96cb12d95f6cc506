import Mathlib.Logic.Relation
import Mathlib.Tactic

/-!
Programs that share a state. A program is a tree of atomic steps: each reads the state,
changes it, emits events and continues with a program that depends on the state it read.
Between two steps of a program the state may change in any way. A program ends with a value
or an error; the sequencing of programs hands an error on.
-/

namespace Library

inductive Prog (σ ε err α : Type)
  | done (result : Except err α)
  | step (update : σ → σ) (emit : σ → List ε) (next : σ → Prog σ ε err α)

namespace Prog
variable {σ ε err err' α β γ : Type}

/-- Continue with what the program ends with, be it a value or an error. -/
def andThen : Prog σ ε err α → (Except err α → Prog σ ε err' β) → Prog σ ε err' β
  | done result, k => k result
  | step update emit next, k => step update emit fun s => (next s).andThen k

/-- Continue with the value; an error ends the whole. -/
def onOk (k : α → Prog σ ε err β) : Except err α → Prog σ ε err β
  | .ok a => k a
  | .error e => done (.error e)

instance : Monad (Prog σ ε err) where
  pure a := done (.ok a)
  bind p k := p.andThen (onOk k)

theorem bind_def (p : Prog σ ε err α) (k : α → Prog σ ε err β) :
    (p >>= k) = p.andThen (onOk k) := rfl

theorem andThen_assoc {errA errB : Type} (p : Prog σ ε err α)
    (k : Except err α → Prog σ ε errA β) (l : Except errA β → Prog σ ε errB γ) :
    (p.andThen k).andThen l = p.andThen fun result => (k result).andThen l := by
  induction p with
  | done result => rfl
  | step update emit next ih =>
      simp only [andThen]
      exact congrArg _ (funext ih)

theorem bind_assoc (p : Prog σ ε err α) (k : α → Prog σ ε err β) (l : β → Prog σ ε err γ) :
    (p >>= k) >>= l = p >>= fun a => k a >>= l := by
  rw [bind_def, bind_def, andThen_assoc, bind_def]
  refine congrArg p.andThen (funext fun result => ?_)
  cases result with
  | ok a => rfl
  | error e => rfl

/-- End with the value or the error of a computation that needs no state. -/
def lift (result : Except err α) : Prog σ ε err α := done result

def fail (e : err) : Prog σ ε err α := done (.error e)

/-- One atomic step with a result. -/
def act (update : σ → σ) (emit : σ → List ε) (result : σ → Except err α) : Prog σ ε err α :=
  step update emit fun s => done (result s)

def read (f : σ → α) : Prog σ ε err α := act id (fun _ => []) fun s => .ok (f s)

def write (update : σ → σ) : Prog σ ε err Unit := act update (fun _ => []) fun _ => .ok ()

def emit (event : ε) : Prog σ ε err Unit := act id (fun _ => [event]) fun _ => .ok ()

/-- The program on its own: its result, the state it leaves and the events it emits. -/
def run : Prog σ ε err α → σ → Except err α × σ × List ε
  | done result, s => (result, s, [])
  | step update emit next, s =>
      let (result, s', events) := (next s).run (update s)
      (result, s', emit s ++ events)

/-- A result that the program can end with when the state changes between its steps. -/
inductive MayReturn : Prog σ ε err α → Except err α → Prop
  | done (result : Except err α) : MayReturn (done result) result
  | step {update : σ → σ} {emit : σ → List ε} {next : σ → Prog σ ε err α}
      {result : Except err α} (s : σ) (h : MayReturn (next s) result) :
      MayReturn (step update emit next) result

theorem mayReturn_run (p : Prog σ ε err α) (s : σ) : p.MayReturn (p.run s).1 := by
  induction p generalizing s with
  | done result => exact .done result
  | step update emit next ih => exact .step s (ih s (update s))

/-- Every step meets `ok`, which relates the state before, the state after and the events,
and every result meets `post`. -/
def Ensures (ok : σ → σ → List ε → Prop) (post : Except err α → Prop) : Prog σ ε err α → Prop
  | done result => post result
  | step update emit next => ∀ s, ok s (update s) (emit s) ∧ (next s).Ensures ok post

section
variable {ok : σ → σ → List ε → Prop} {post : Except err α → Prop} {post' : Except err' β → Prop}

theorem Ensures.mono {p : Prog σ ε err α} {ok' : σ → σ → List ε → Prop}
    {post' : Except err α → Prop} (h : p.Ensures ok post)
    (hok : ∀ s s' events, ok s s' events → ok' s s' events)
    (hpost : ∀ result, post result → post' result) : p.Ensures ok' post' := by
  induction p with
  | done result => exact hpost result h
  | step update emit next ih =>
      intro s
      exact ⟨hok _ _ _ (h s).1, ih s (h s).2⟩

theorem Ensures.andThen {p : Prog σ ε err α} {k : Except err α → Prog σ ε err' β}
    (hp : p.Ensures ok post) (hk : ∀ result, post result → (k result).Ensures ok post') :
    (p.andThen k).Ensures ok post' := by
  induction p with
  | done result => exact hk result hp
  | step update emit next ih =>
      intro s
      exact ⟨(hp s).1, ih s (hp s).2⟩

/-- A continuation that needs nothing of the value. -/
theorem Ensures.seq {p : Prog σ ε err α} {k : α → Prog σ ε err β} {post' : Except err β → Prop}
    (hp : p.Ensures ok fun _ => True) (herror : ∀ e, post' (.error e))
    (hk : ∀ a, (k a).Ensures ok post') : (p >>= k).Ensures ok post' :=
  hp.andThen fun result _ => match result with
    | .ok a => hk a
    | .error e => herror e

theorem ensures_any (p : Prog σ ε err α) : p.Ensures (fun _ _ _ => True) fun _ => True := by
  induction p with
  | done result => trivial
  | step update emit next ih => exact fun s => ⟨trivial, ih s⟩

theorem Ensures.of_mayReturn {p : Prog σ ε err α} (h : p.Ensures ok post)
    {result : Except err α} (hresult : p.MayReturn result) : post result := by
  induction hresult with
  | done result => exact h
  | step s _ ih => exact ih (h s).2

theorem ensures_act {update : σ → σ} {emit : σ → List ε} {result : σ → Except err α}
    (hok : ∀ s, ok s (update s) (emit s)) (hpost : ∀ s, post (result s)) :
    (act update emit result).Ensures ok post :=
  fun s => ⟨hok s, hpost s⟩

end

/-- Whatever the state does between the steps, the result and the events meet `post`. -/
def Yields : (Except err α → List ε → Prop) → Prog σ ε err α → Prop
  | post, done result => post result []
  | post, step _ emit next =>
      ∀ s, (next s).Yields fun result events => post result (emit s ++ events)

section
variable {post : Except err α → List ε → Prop} {post' : Except err' β → List ε → Prop}

theorem Yields.mono {p : Prog σ ε err α} {post' : Except err α → List ε → Prop}
    (h : p.Yields post) (hpost : ∀ result events, post result events → post' result events) :
    p.Yields post' := by
  induction p generalizing post post' with
  | done result => exact hpost result [] h
  | step update emit next ih => exact fun s => ih s (h s) fun _ _ => hpost _ _

theorem Yields.andThen {p : Prog σ ε err α} {k : Except err α → Prog σ ε err' β}
    (hp : p.Yields post) (hk : ∀ result events, post result events →
      (k result).Yields fun result' events' => post' result' (events ++ events')) :
    (p.andThen k).Yields post' := by
  induction p generalizing post post' with
  | done result => exact hk result [] hp
  | step update emit next ih =>
      intro s
      refine ih s (hp s) ?_
      intro result events hpost
      refine (hk result _ hpost).mono ?_
      intro result' events' h
      rwa [List.append_assoc] at h

theorem yields_any (p : Prog σ ε err α) : p.Yields fun _ _ => True := by
  induction p with
  | done result => trivial
  | step update emit next ih => exact fun s => ih s

theorem Yields.run {p : Prog σ ε err α} (h : p.Yields post) (s : σ) :
    post (p.run s).1 (p.run s).2.2 := by
  induction p generalizing post s with
  | done result => exact h
  | step update emit next ih => exact ih s (h s) (update s)

theorem Yields.of_mayReturn {p : Prog σ ε err α} (h : p.Yields post) {result : Except err α}
    (hresult : p.MayReturn result) : ∃ events, post result events := by
  induction hresult generalizing post with
  | done result => exact ⟨[], h⟩
  | @step _ emit _ _ s _ ih =>
      obtain ⟨events, hpost⟩ := ih (h s)
      exact ⟨emit s ++ events, hpost⟩

/-- A program whose steps emit nothing. -/
theorem Ensures.yields {p : Prog σ ε err α} {post : Except err α → Prop}
    (h : p.Ensures (fun _ _ events => events = []) post) :
    p.Yields fun result events => events = [] ∧ post result := by
  induction p with
  | done result => exact ⟨rfl, h⟩
  | step update emit next ih =>
      intro s
      obtain ⟨hemit, hnext⟩ := h s
      refine (ih s hnext).mono ?_
      intro result events hpost
      simpa [hemit] using hpost

/-- What holds of the events of each step holds of all events. -/
theorem Ensures.yields_all {p : Prog σ ε err α} {ok : ε → Prop} {post : Except err α → Prop}
    (h : p.Ensures (fun _ _ events => ∀ event ∈ events, ok event) post) :
    p.Yields fun result events => (∀ event ∈ events, ok event) ∧ post result := by
  induction p with
  | done result => exact ⟨fun _ hmem => absurd hmem List.not_mem_nil, h⟩
  | step update emit next ih =>
      intro s
      obtain ⟨hemit, hnext⟩ := h s
      refine (ih s hnext).mono ?_
      rintro result events ⟨hevents, hpost⟩
      exact ⟨List.forall_mem_append.mpr ⟨hemit, hevents⟩, hpost⟩

end

/-- A continuation runs from the state and the result the first program leaves. -/
theorem run_andThen (p : Prog σ ε err α) (k : Except err α → Prog σ ε err' β) (s : σ) :
    (p.andThen k).run s =
      (((k (p.run s).1).run (p.run s).2.1).1, ((k (p.run s).1).run (p.run s).2.1).2.1,
        (p.run s).2.2 ++ ((k (p.run s).1).run (p.run s).2.1).2.2) := by
  induction p generalizing s with
  | done result => rfl
  | step update emit next ih => simp [Prog.andThen, Prog.run, ih, List.append_assoc]

theorem run_lift_state (result : Except err α) (s : σ) :
    ((lift result : Prog σ ε err α).run s).2.1 = s := rfl

theorem run_read_state (f : σ → α) (s : σ) : ((read f : Prog σ ε err α).run s).2.1 = s := rfl

/-- A sequence that ends with a value got one from its first part. -/
theorem run_bind_eq_ok {p : Prog σ ε err α} {k : α → Prog σ ε err β} {s : σ} {b : β}
    (h : ((p >>= k).run s).1 = .ok b) :
    ∃ a, (p.run s).1 = .ok a ∧ ((k a).run (p.run s).2.1).1 = .ok b := by
  rw [bind_def, run_andThen] at h
  cases hp : (p.run s).1 with
  | ok a =>
      rw [hp] at h
      exact ⟨a, rfl, h⟩
  | error e =>
      rw [hp] at h
      cases h

/-- What the steps of a program keep, it keeps when it runs on its own. -/
theorem Ensures.run_keeps {γ : Type} {f : σ → γ} {p : Prog σ ε err α}
    {ok : σ → σ → List ε → Prop} {post : Except err α → Prop} (h : p.Ensures ok post)
    (hok : ∀ s s' events, ok s s' events → f s' = f s) (s : σ) : f (p.run s).2.1 = f s := by
  induction p generalizing s with
  | done result => rfl
  | step update emit next ih => exact (ih s (h s).2 (update s)).trans (hok _ _ _ (h s).1)

theorem Ensures.run_invariant {p : Prog σ ε err α} {ok : σ → σ → List ε → Prop}
    {post : Except err α → Prop} (h : p.Ensures ok post) {inv : σ → Prop}
    (hok : ∀ s s' events, ok s s' events → inv s → inv s') {s : σ} (hs : inv s) :
    inv (p.run s).2.1 := by
  induction p generalizing s with
  | done result => exact hs
  | step update emit next ih => exact ih s (h s).2 (hok _ _ _ (h s).1 hs)

/-- What holds of a program on its own, run from a state that meets `pre`. -/
def Runs (pre : σ → Prop) (post : Except err α → σ → List ε → Prop) (p : Prog σ ε err α) : Prop :=
  ∀ s, pre s → post (p.run s).1 (p.run s).2.1 (p.run s).2.2

theorem Runs.andThen {p : Prog σ ε err α} {k : Except err α → Prog σ ε err' β} {pre : σ → Prop}
    {mid : Except err α → σ → List ε → Prop} {post : Except err' β → σ → List ε → Prop}
    (hp : p.Runs pre mid) (hk : ∀ result events, (k result).Runs (mid result · events)
      fun result' s events' => post result' s (events ++ events')) :
    (p.andThen k).Runs pre post := by
  intro s hs
  rw [run_andThen]
  exact hk _ _ _ (hp s hs)

theorem Ensures.runs {p : Prog σ ε err α} {ok : σ → σ → List ε → Prop}
    {post : Except err α → Prop} (h : p.Ensures ok post) {pre : σ → Prop} :
    p.Runs pre fun result _ _ => post result :=
  fun s _ => h.of_mayReturn (p.mayReturn_run s)

/-- From related states two programs run to related results and states and emit the same
events. -/
def Alike (R : σ → σ → Prop) (rel : Except err α → Except err' β → Prop)
    (p : Prog σ ε err α) (q : Prog σ ε err' β) : Prop :=
  ∀ s s', R s s' → rel (p.run s).1 (q.run s').1 ∧ R (p.run s).2.1 (q.run s').2.1 ∧
    (p.run s).2.2 = (q.run s').2.2

section
variable {R : σ → σ → Prop}

theorem alike_done {result : Except err α} {result' : Except err' β}
    {rel : Except err α → Except err' β → Prop} (h : rel result result') :
    (done result : Prog σ ε err α).Alike R rel (done result' : Prog σ ε err' β) :=
  fun _ _ hs => ⟨h, hs, rfl⟩

theorem Alike.mono {p : Prog σ ε err α} {q : Prog σ ε err' β}
    {rel rel' : Except err α → Except err' β → Prop} (h : p.Alike R rel q)
    (hrel : ∀ result result', rel result result' → rel' result result') : p.Alike R rel' q :=
  fun s s' hs => ⟨hrel _ _ (h s s' hs).1, (h s s' hs).2⟩

theorem Alike.andThen {α' β' errA errB : Type} {p : Prog σ ε err α} {q : Prog σ ε err' β}
    {k : Except err α → Prog σ ε errA α'} {l : Except err' β → Prog σ ε errB β'}
    {rel : Except err α → Except err' β → Prop} {rel' : Except errA α' → Except errB β' → Prop}
    (h : p.Alike R rel q)
    (hk : ∀ result result', rel result result' → (k result).Alike R rel' (l result')) :
    (p.andThen k).Alike R rel' (q.andThen l) := by
  intro s s' hs
  obtain ⟨hresult, hnext, hevents⟩ := h s s' hs
  obtain ⟨hresult', hend, hevents'⟩ := hk _ _ hresult _ _ hnext
  rw [run_andThen, run_andThen]
  exact ⟨hresult', hend, by rw [hevents, hevents']⟩

/-- A program that keeps `pre` runs like itself from every state that meets `pre`. -/
theorem Alike.refl {pre : σ → Prop} {p : Prog σ ε err α}
    (hp : p.Ensures (fun s s' _ => pre s → pre s') fun _ => True) :
    p.Alike (fun s s' => s = s' ∧ pre s) (· = ·) p := by
  intro s s' hs
  obtain ⟨rfl, hs⟩ := hs
  refine ⟨rfl, ⟨rfl, ?_⟩, rfl⟩
  induction p generalizing s with
  | done result => exact hs
  | step update emit next ih => exact ih s (hp s).2 (update s) ((hp s).1 hs)

end
end Prog
end Library
