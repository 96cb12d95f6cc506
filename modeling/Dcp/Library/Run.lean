import Mathlib.Tactic

/-!
Runs of a deterministic system: a step function folded over a list of inputs. The rules
lift what one step preserves to what a whole run preserves, where a run may be required
to meet a condition at each step in the state the step is taken from.
-/

namespace Library
variable {σ α β : Type*}

def EveryStep (step : σ → α → σ) (ok : σ → α → Prop) : σ → List α → Prop
  | _, [] => True
  | s, a :: rest => ok s a ∧ EveryStep step ok (step s a) rest

def EveryStep.decide {step : σ → α → σ} {ok : σ → α → Prop} [∀ s a, Decidable (ok s a)] :
    (s : σ) → (inputs : List α) → Decidable (EveryStep step ok s inputs)
  | _, [] => .isTrue trivial
  | s, a :: rest =>
      have : Decidable (EveryStep step ok (step s a) rest) := EveryStep.decide (step s a) rest
      inferInstanceAs (Decidable (ok s a ∧ EveryStep step ok (step s a) rest))

instance {step : σ → α → σ} {ok : σ → α → Prop} [∀ s a, Decidable (ok s a)] (s : σ)
    (inputs : List α) : Decidable (EveryStep step ok s inputs) :=
  EveryStep.decide s inputs

theorem EveryStep.invariant {step : σ → α → σ} {ok : σ → α → Prop} {inv : σ → Prop}
    (hstep : ∀ s a, inv s → ok s a → inv (step s a)) {s : σ} {inputs : List α}
    (hrun : EveryStep step ok s inputs) (hs : inv s) : inv (inputs.foldl step s) := by
  induction inputs generalizing s with
  | nil => exact hs
  | cons a rest ih => exact ih hrun.2 (hstep s a hs hrun.1)

theorem EveryStep.imp {step : σ → α → σ} {ok ok' : σ → α → Prop} {inv : σ → Prop}
    (hstep : ∀ s a, inv s → ok s a → ok' s a ∧ inv (step s a)) {s : σ} {inputs : List α}
    (hrun : EveryStep step ok s inputs) (hs : inv s) : EveryStep step ok' s inputs := by
  induction inputs generalizing s with
  | nil => trivial
  | cons a rest ih =>
      obtain ⟨hhere, hnext⟩ := hstep s a hs hrun.1
      exact ⟨hhere, ih hrun.2 hnext⟩

/-- Steps that keep an invariant meet two conditions alike, if those are equivalent in it. -/
theorem EveryStep.iff_of_invariant {step : σ → α → σ} {ok ok' : σ → α → Prop} {inv : σ → Prop}
    (hiff : ∀ s a, inv s → (ok s a ↔ ok' s a))
    (hstep : ∀ s a, inv s → ok' s a → inv (step s a)) {s : σ} (hs : inv s) (inputs : List α) :
    EveryStep step ok s inputs ↔ EveryStep step ok' s inputs := by
  constructor
  · intro hrun
    refine EveryStep.imp (fun s a hs ha => ?_) hrun hs
    have hok := (hiff s a hs).mp ha
    exact ⟨hok, hstep s a hs hok⟩
  · intro hrun
    refine EveryStep.imp (fun s a hs ha => ?_) hrun hs
    exact ⟨(hiff s a hs).mpr ha, hstep s a hs ha⟩

theorem EveryStep.with_inputs {step : σ → α → σ} {ok : σ → α → Prop} {p : α → Prop} {s : σ}
    {inputs : List α} (hrun : EveryStep step ok s inputs) (h : ∀ a ∈ inputs, p a) :
    EveryStep step (fun s a => p a ∧ ok s a) s inputs := by
  induction inputs generalizing s with
  | nil => trivial
  | cons a rest ih =>
      exact ⟨⟨h a List.mem_cons_self, hrun.1⟩,
        ih hrun.2 fun b hb => h b (List.mem_cons_of_mem _ hb)⟩

theorem EveryStep.append_left {step : σ → α → σ} {ok : σ → α → Prop} {s : σ}
    {front back : List α} (h : EveryStep step ok s (front ++ back)) :
    EveryStep step ok s front := by
  induction front generalizing s with
  | nil => trivial
  | cons a rest ih => exact ⟨h.1, ih h.2⟩

theorem everyStep_of_prefixes {step : σ → α → σ} {p : σ → Prop} {s : σ} {inputs : List α}
    (h : ∀ front, front <+: inputs → p (front.foldl step s)) :
    EveryStep step (fun s a => p (step s a)) s inputs := by
  induction inputs generalizing s with
  | nil => trivial
  | cons a rest ih =>
      refine ⟨h [a] ((List.prefix_append [a] rest)), ih fun front hfront => ?_⟩
      exact h (a :: front) ((List.prefix_cons_inj a).mpr hfront)

theorem invariant_foldl {step : σ → α → σ} {inv : σ → Prop}
    (hstep : ∀ s a, inv s → inv (step s a)) {s : σ} (hs : inv s) (inputs : List α) :
    inv (inputs.foldl step s) := by
  induction inputs generalizing s with
  | nil => exact hs
  | cons a rest ih => exact ih (hstep s a hs)

/-- What makes a measure drop happens finitely often when nothing raises the measure. -/
theorem exists_last_of_measure {p : Nat → Prop} (measure : Nat → Nat)
    (hle : ∀ n, measure (n + 1) ≤ measure n) (hlt : ∀ n, p n → measure (n + 1) < measure n) :
    ∃ last, ∀ n ≥ last, ¬ p n := by
  have hanti : Antitone measure := antitone_nat_of_succ_le hle
  suffices h : ∀ bound first, measure first ≤ bound → ∃ last, ∀ n ≥ last, ¬ p n from
    h (measure 0) 0 (Nat.le_refl _)
  intro bound
  induction bound with
  | zero =>
      intro first hfirst
      refine ⟨first, fun n hn hp => ?_⟩
      have hdrop := hlt n hp
      have hsmall := hanti hn
      omega
  | succ bound ih =>
      intro first hfirst
      by_cases hmore : ∃ n ≥ first, p n
      · obtain ⟨n, hn, hp⟩ := hmore
        have hdrop := hlt n hp
        have hsmall := hanti hn
        exact ih (n + 1) (by omega)
      · exact ⟨first, fun n hn hp => hmore ⟨n, hn, hp⟩⟩

/-- Some input of the run meets a condition on what came before it and on itself. -/
def Happened (p : List α → α → Prop) (inputs : List α) : Prop :=
  ∃ before a rest, inputs = before ++ a :: rest ∧ p before a

theorem happened_concat {p : List α → α → Prop} {inputs : List α} {a : α} :
    Happened p (inputs ++ [a]) ↔ Happened p inputs ∨ p inputs a := by
  constructor
  · rintro ⟨before, b, rest, heq, hb⟩
    obtain rfl | ⟨rest, c, rfl⟩ := rest.eq_nil_or_concat
    · obtain ⟨rfl, hsingle⟩ := List.append_inj' heq rfl
      exact .inr (List.singleton_inj.mp hsingle ▸ hb)
    · rw [List.concat_eq_append, ← List.cons_append, ← List.append_assoc] at heq
      exact .inl ⟨before, b, rest, (List.append_inj' heq rfl).1, hb⟩
  · rintro (⟨before, b, rest, rfl, hb⟩ | ha)
    · exact ⟨before, b, rest ++ [a], List.append_assoc _ _ _, hb⟩
    · exact ⟨inputs, a, [], rfl, ha⟩

theorem flag_iff_happened {step : σ → α → σ} {flag : σ → Prop} {raises : σ → α → Prop} {s : σ}
    (hs : ¬ flag s) (hstep : ∀ s a, flag (step s a) ↔ flag s ∨ raises s a) (inputs : List α) :
    flag (inputs.foldl step s) ↔ Happened (fun before => raises (before.foldl step s)) inputs := by
  induction inputs using List.reverseRecOn with
  | nil =>
      refine iff_of_false hs ?_
      rintro ⟨before, a, rest, heq, -⟩
      exact absurd heq (by simp)
  | append_singleton inputs a ih =>
      rw [List.foldl_append, List.foldl_cons, List.foldl_nil, hstep, ih, happened_concat]

/-- Along the run `f` stays as it is, or it changes in one step only, which meets `change` in the
state it is taken from. -/
def ChangesOnce (step : σ → α → σ) (f : σ → β) (change : σ → α → Prop) (s : σ)
    (inputs : List α) : Prop :=
  (∀ front, front <+: inputs → f (front.foldl step s) = f s) ∨
    ∃ before a after, inputs = before ++ a :: after ∧
      (∀ front, front <+: before → f (front.foldl step s) = f s) ∧ change (before.foldl step s) a ∧
      ∀ front, front <+: after →
        f (front.foldl step (step (before.foldl step s) a)) = f (step (before.foldl step s) a)

theorem stays_of_steps {step : σ → α → σ} {f : σ → β} {inv : σ → Prop}
    (hinv : ∀ s a, inv s → inv (step s a)) (hsame : ∀ s a, inv s → f (step s a) = f s) {s : σ}
    (hs : inv s) (inputs : List α) : f (inputs.foldl step s) = f s := by
  induction inputs generalizing s with
  | nil => rfl
  | cons a rest ih => exact (ih (hinv s a hs)).trans (hsame s a hs)

/-- If `f` only changes in a step that ends something, and not after that, it changes once. -/
theorem changesOnce_of_steps {step : σ → α → σ} {f : σ → β} {change : σ → α → Prop}
    {inv : σ → Prop} (ended : σ → Prop) (hinv : ∀ s a, inv s → inv (step s a))
    (hend : ∀ s a, inv s → ended s → ended (step s a) ∧ f (step s a) = f s)
    (hstep : ∀ s a, inv s → ¬ ended s →
      f (step s a) = f s ∧ ¬ ended (step s a) ∨ ended (step s a) ∧ change s a)
    {s : σ} (hs : inv s) (hnot : ¬ ended s) (inputs : List α) :
    ChangesOnce step f change s inputs := by
  induction inputs generalizing s with
  | nil =>
      left
      intro front hfront
      rw [List.prefix_nil.mp hfront]
      rfl
  | cons a rest ih =>
      obtain ⟨hsame, hnot'⟩ | ⟨hend', hchange⟩ := hstep s a hs hnot
      · have hcons : ∀ before, (∀ front, front <+: before →
            f (front.foldl step (step s a)) = f (step s a)) →
            ∀ front, front <+: a :: before → f (front.foldl step s) = f s := by
          intro before hbefore front hfront
          obtain rfl | ⟨rest', rfl, hrest⟩ := List.prefix_cons_iff.mp hfront
          · rfl
          · exact (hbefore rest' hrest).trans hsame
        obtain hstays | ⟨before, a', after, rfl, hbefore, hchange, hafter⟩ := ih (hinv s a hs) hnot'
        · exact .inl (hcons rest hstays)
        · exact .inr ⟨a :: before, a', after, rfl, hcons before hbefore, hchange, hafter⟩
      · refine .inr ⟨[], a, rest, rfl, ?_, hchange, ?_⟩
        · intro front hfront
          rw [List.prefix_nil.mp hfront]
          rfl
        · intro front _
          have hended : ∀ s a, inv s ∧ ended s → inv (step s a) ∧ ended (step s a) :=
            fun s a hs => ⟨hinv s a hs.1, (hend s a hs.1 hs.2).1⟩
          exact stays_of_steps hended (fun s a hs => (hend s a hs.1 hs.2).2)
            ⟨hinv s a hs, hend'⟩ front

/-- What the steps of a run answer, one after the other, and the state behind them. -/
def answers (step : σ → α → β × σ) : σ → List α → List β × σ
  | s, [] => ([], s)
  | s, a :: rest =>
      let (b, s) := step s a
      let (bs, s) := answers step s rest
      (b :: bs, s)

theorem answers_append (step : σ → α → β × σ) (s : σ) (front back : List α) :
    answers step s (front ++ back) =
      ((answers step s front).1 ++ (answers step (answers step s front).2 back).1,
        (answers step (answers step s front).2 back).2) := by
  induction front generalizing s with
  | nil => rfl
  | cons a front ih => simp only [List.cons_append, answers, ih]

theorem length_answers (step : σ → α → β × σ) (s : σ) (inputs : List α) :
    (answers step s inputs).1.length = inputs.length := by
  induction inputs generalizing s with
  | nil => rfl
  | cons a rest ih => simp only [answers, List.length_cons, ih]

/-- Systems whose related states answer alike and stay related answer every run alike. -/
theorem answers_eq_of_related {τ : Type*} {step : σ → α → β × σ} {step' : τ → α → β × τ}
    {related : σ → τ → Prop}
    (hstep : ∀ s t a, related s t →
      (step s a).1 = (step' t a).1 ∧ related (step s a).2 (step' t a).2)
    {s : σ} {t : τ} (h : related s t) (inputs : List α) :
    (answers step s inputs).1 = (answers step' t inputs).1 ∧
      related (answers step s inputs).2 (answers step' t inputs).2 := by
  induction inputs generalizing s t with
  | nil => exact ⟨rfl, h⟩
  | cons a rest ih =>
      obtain ⟨hanswer, hnext⟩ := hstep s t a h
      obtain ⟨hanswers, hend⟩ := ih hnext
      exact ⟨congrArg₂ List.cons hanswer hanswers, hend⟩

end Library
