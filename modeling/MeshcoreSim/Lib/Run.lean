import Mathlib.Data.List.Basic

/-!
Runs of a state machine whose steps are chosen by events and emit observations.

A machine is a partial function `step : σ → ε → Option (σ × List ο)`: in a state,
an event is either not enabled or leads to one next state and a list of
observations. A `Run` collects the observations of a finite sequence of steps; the
parameter `ok` restricts which steps the run may take.

* `Run.invariant` — the induction rule: what holds at the start and is kept by
  every admitted step holds of every run.
* `exec` and `Run.of_exec` — the executable form: replaying a list of events gives
  a run.
* `exec_erase` — erasure: if forgetting a part of the state commutes with the steps, it
  commutes with whole executions.
-/

namespace MeshcoreSim.Lib

variable {σ τ ε ο π : Type}

/-- `Run step ok s₀ s tr`: some admitted steps lead from `s₀` to `s` and emit `tr`. -/
inductive Run (step : σ → ε → Option (σ × List ο)) (ok : σ → ε → Prop) (s₀ : σ) :
    σ → List ο → Prop
  | start : Run step ok s₀ s₀ []
  | next {s s' : σ} {tr out : List ο} {e : ε} : Run step ok s₀ s tr → ok s e →
      step s e = some (s', out) → Run step ok s₀ s' (tr ++ out)

/-- Every event is admitted. -/
def anyStep : σ → ε → Prop := fun _ _ => True

instance (s : σ) (e : ε) : Decidable (anyStep s e) := inferInstanceAs (Decidable True)

variable {step : σ → ε → Option (σ × List ο)} {ok : σ → ε → Prop} {s₀ s : σ} {tr : List ο}

/-- The induction rule: a relation between the state and the observations so far
that holds at the start and is kept by every admitted step holds of every run. -/
theorem Run.invariant {I : σ → List ο → Prop} (run : Run step ok s₀ s tr) (start : I s₀ [])
    (kept : ∀ s tr e s' out, Run step ok s₀ s tr → I s tr → ok s e →
      step s e = some (s', out) → I s' (tr ++ out)) : I s tr := by
  induction run with
  | start => exact start
  | next before admitted stepped ih => exact kept _ _ _ _ _ before ih admitted stepped

/-- A run of fewer admitted steps is a run of more. -/
theorem Run.mono {ok' : σ → ε → Prop} (weaker : ∀ s e, ok s e → ok' s e)
    (run : Run step ok s₀ s tr) : Run step ok' s₀ s tr := by
  induction run with
  | start => exact .start
  | next _ admitted stepped ih => exact .next ih (weaker _ _ admitted) stepped

/-- Two runs in a row are one run. -/
theorem Run.trans {s' : σ} {tr' : List ο} (first : Run step ok s₀ s tr)
    (second : Run step ok s s' tr') : Run step ok s₀ s' (tr ++ tr') := by
  induction second with
  | start => simpa using first
  | next _ admitted stepped ih =>
      rw [← List.append_assoc]
      exact .next ih admitted stepped

/-- Where an observation is not in a first part of a trace, that part comes before it. -/
theorem split_after {before after first rest : List ο} {o : ο}
    (whole : before ++ o :: after = first ++ rest) (later : o ∉ first) :
    ∃ between, before = first ++ between ∧ rest = between ++ o :: after := by
  rcases List.append_eq_append_iff.mp whole with ⟨tail, rfl, eq⟩ | ⟨between, eq, rest⟩
  · cases tail with
    | nil => exact ⟨[], by simp, by simpa using eq.symm⟩
    | cons o' tail =>
        obtain ⟨rfl, -⟩ : o = o' ∧ after = tail ++ rest := by simpa using eq
        exact absurd (List.mem_append_right _ List.mem_cons_self) later
  · exact ⟨between, eq, rest⟩

/-- A run splits at the step that made one of its observations. -/
theorem Run.split {before after : List ο} {o : ο}
    (run : Run step ok s₀ s (before ++ o :: after)) :
    ∃ s₁ tr₁ e s₂ out₁ out₂ tr₂, Run step ok s₀ s₁ tr₁ ∧ ok s₁ e ∧
      step s₁ e = some (s₂, out₁ ++ o :: out₂) ∧ Run step ok s₂ s tr₂ ∧
      before = tr₁ ++ out₁ ∧ after = out₂ ++ tr₂ := by
  generalize whole : before ++ o :: after = tr at run
  induction run generalizing after with
  | start => simp at whole
  | @next s' s'' tr out e prior admitted stepped ih =>
      rcases List.append_eq_append_iff.mp whole with ⟨rest, rfl, tail⟩ | ⟨rest, rfl, tail⟩
      · -- The observation is made by an earlier step, or is the first one of the last step.
        cases rest with
        | nil =>
            obtain rfl : out = o :: after := by simpa using tail.symm
            exact ⟨s', before, e, s'', [], after, [], by simpa using prior, admitted, stepped,
              .start, by simp, by simp⟩
        | cons o' rest =>
            obtain ⟨rfl, rfl⟩ : o = o' ∧ after = rest ++ out := by simpa using tail
            obtain ⟨s₁, tr₁, e₁, s₂, out₁, out₂, tr₂, first, adm, st, last, pre, post⟩ := ih rfl
            exact ⟨s₁, tr₁, e₁, s₂, out₁, out₂, tr₂ ++ out, first, adm, st,
              last.next admitted stepped, pre, by simp [post]⟩
      · exact ⟨s', tr, e, s'', rest, after, [], prior, admitted, tail ▸ stepped, .start, rfl,
          by simp⟩

/-- The step that made an observation of a run. -/
theorem Run.exists_step {o : ο} (run : Run step ok s₀ s tr) (seen : o ∈ tr) :
    ∃ s₁ tr₁ e s₂ out, Run step ok s₀ s₁ tr₁ ∧ ok s₁ e ∧ step s₁ e = some (s₂, out) ∧
      o ∈ out := by
  obtain ⟨before, after, rfl⟩ := List.append_of_mem seen
  obtain ⟨s₁, tr₁, e, s₂, out₁, out₂, -, first, admitted, stepped, -⟩ := run.split
  exact ⟨s₁, tr₁, e, s₂, _, first, admitted, stepped, by simp⟩

/-- Replay a list of events, collecting the observations. -/
def exec (step : σ → ε → Option (σ × List ο)) : σ → List ε → Option (σ × List ο)
  | s, [] => some (s, [])
  | s, e :: es =>
      match step s e with
      | none => none
      | some (s', out) => (exec step s' es).map fun r => (r.1, out ++ r.2)

/-- Admit only the events that pass a check. -/
def restrict (step : σ → ε → Option (σ × List ο)) (ok : σ → ε → Prop)
    [∀ s e, Decidable (ok s e)] : σ → ε → Option (σ × List ο) :=
  fun s e => if ok s e then step s e else none

theorem restrict_eq_some [∀ s e, Decidable (ok s e)] {e : ε} {r : σ × List ο} :
    restrict step ok s e = some r ↔ ok s e ∧ step s e = some r := by
  unfold restrict
  split <;> simp_all

/-- A replay from a state of a run continues the run. -/
theorem Run.exec_append [∀ s e, Decidable (ok s e)] {es : List ε} {s' : σ} {tr' : List ο}
    (run : Run step ok s₀ s tr) (replay : exec (restrict step ok) s es = some (s', tr')) :
    Run step ok s₀ s' (tr ++ tr') := by
  induction es generalizing s tr tr' with
  | nil =>
      obtain ⟨rfl, rfl⟩ : s = s' ∧ [] = tr' := by simpa [exec] using replay
      simpa using run
  | cons e es ih =>
      simp only [exec] at replay
      cases stepped : restrict step ok s e with
      | none => simp [stepped] at replay
      | some r =>
          obtain ⟨s₁, out⟩ := r
          obtain ⟨admitted, st⟩ := restrict_eq_some.mp stepped
          simp only [stepped, Option.map_eq_some_iff] at replay
          obtain ⟨⟨s₂, rest⟩, tail, eq⟩ := replay
          obtain ⟨rfl, rfl⟩ : s₂ = s' ∧ out ++ rest = tr' := by simpa using eq
          simpa using ih (run.next admitted st) tail

/-- A replay of admitted events is a run. -/
theorem Run.of_exec [∀ s e, Decidable (ok s e)] {es : List ε}
    (replay : exec (restrict step ok) s₀ es = some (s, tr)) : Run step ok s₀ s tr := by
  simpa using Run.exec_append .start replay

/-- A replay is a run. -/
theorem Run.of_exec_step {es : List ε} (replay : exec step s₀ es = some (s, tr)) :
    Run step anyStep s₀ s tr := by
  have whole : restrict step anyStep = step := by
    funext s e
    simp [restrict, anyStep]
  exact .of_exec (whole.symm ▸ replay)

/-- A check that a replay passes is passed by a run. -/
theorem Run.of_exec_any [∀ s e, Decidable (ok s e)] {es : List ε} {check : σ × List ο → Bool}
    (passes : (exec (restrict step ok) s₀ es).any check = true) :
    ∃ s tr, Run step ok s₀ s tr ∧ check (s, tr) = true := by
  obtain ⟨⟨s, tr⟩, replay, checked⟩ := (Option.any_eq_true _ _).mp passes
  exact ⟨s, tr, .of_exec replay, checked⟩

/-- What is left of a result when a part of the state and some observations are forgotten. -/
def eraseWith (h : σ → τ) (f : ο → Option π) (r : σ × List ο) : τ × List π :=
  (h r.1, r.2.filterMap f)

/-- Erasure over whole executions: where states that differ only in what is forgotten take
steps that differ only in what is forgotten, so do whole replays. -/
theorem exec_erase {h : σ → τ} {f : ο → Option π}
    (lockstep : ∀ s t e, h s = h t →
      (step s e).map (eraseWith h f) = (step t e).map (eraseWith h f))
    {es : List ε} {s t : σ} (alike : h s = h t) :
    (exec step s es).map (eraseWith h f) = (exec step t es).map (eraseWith h f) := by
  induction es generalizing s t with
  | nil => simp [exec, eraseWith, alike]
  | cons e es ih =>
      have erased := lockstep s t e alike
      simp only [exec]
      cases left : step s e with
      | none =>
          cases right : step t e with
          | none => rfl
          | some r => simp [left, right] at erased
      | some r =>
          obtain ⟨s', out⟩ := r
          cases right : step t e with
          | none => simp [left, right] at erased
          | some r =>
              obtain ⟨t', out'⟩ := r
              simp only [left, right, Option.map_some, eraseWith, Option.some.injEq,
                Prod.mk.injEq] at erased
              have rest := ih erased.1
              simp only [Option.map_map, Function.comp_def, eraseWith,
                List.filterMap_append, erased.2]
              cases first : exec step s' es with
              | none =>
                  cases second : exec step t' es with
                  | none => rfl
                  | some r => simp [first, second] at rest
              | some r =>
                  cases second : exec step t' es with
                  | none => simp [first, second] at rest
                  | some r' =>
                      simp only [first, second, Option.map_some, eraseWith, Option.some.injEq,
                        Prod.mk.injEq] at rest
                      simp [rest.1, rest.2]

end MeshcoreSim.Lib
