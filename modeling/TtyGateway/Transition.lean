import Mathlib.Logic.Basic
import Mathlib.Tactic.TypeStar

namespace Transition

variable {σ ℓ : Type*}

/-- A labelled transition system with one initial state. -/
structure System (σ ℓ : Type*) where
  init : σ
  Step : σ → ℓ → σ → Prop

/-- The system of an executable step function: a label is disabled where the function fails. -/
def machine (init : σ) (f : σ → ℓ → Option σ) : System σ ℓ :=
  ⟨init, fun s l s' => f s l = some s'⟩

/-- States reached by runs every step of which is taken where `C` admits it. -/
inductive Reach (sys : System σ ℓ) (C : σ → ℓ → Prop) : σ → Prop
  | init : Reach sys C sys.init
  | step {s l s'} : Reach sys C s → C s l → sys.Step s l s' → Reach sys C s'

/-- Reached by any run at all. -/
abbrev Reachable (sys : System σ ℓ) : σ → Prop := Reach sys (fun _ _ => True)

/-- The invariant rule: the step case may use that its source state was reached. -/
theorem Reach.invariant {sys : System σ ℓ} {C : σ → ℓ → Prop} {P : σ → Prop}
    (start : P sys.init)
    (keep : ∀ s l s', Reach sys C s → P s → C s l → sys.Step s l s' → P s')
    {s : σ} (h : Reach sys C s) : P s := by
  induction h with
  | init => exact start
  | step hr hc hs ih => exact keep _ _ _ hr ih hc hs

theorem Reach.reachable {sys : System σ ℓ} {C : σ → ℓ → Prop} {s : σ} (h : Reach sys C s) :
    Reachable sys s := by
  induction h with
  | init => exact .init
  | step _ _ hs ih => exact ih.step trivial hs

/-- The state a list of labels leads to, if every one of them is enabled in its turn. -/
def exec (f : σ → ℓ → Option σ) : σ → List ℓ → Option σ
  | s, [] => some s
  | s, l :: ls => (f s l).bind (exec f · ls)

/-- `exec`, stopping also where `C` does not admit the next step. -/
def execWhere (f : σ → ℓ → Option σ) (C : σ → ℓ → Prop) [∀ s l, Decidable (C s l)] :
    σ → List ℓ → Option σ :=
  exec (fun s l => if C s l then f s l else none)

theorem exec_keeps {f : σ → ℓ → Option σ} {P : σ → Prop}
    (keep : ∀ s l s', P s → f s l = some s' → P s') {ls : List ℓ} {s s' : σ}
    (hs : P s) (h : exec f s ls = some s') : P s' := by
  induction ls generalizing s with
  | nil => cases Option.some.inj h; exact hs
  | cons l ls ih =>
    obtain ⟨t, ht, hrest⟩ := Option.bind_eq_some_iff.mp h
    exact ih (keep s l t hs ht) hrest

/-- `exec_keeps` for what is said of a state and the labels that led to it. -/
theorem exec_trace {f : σ → ℓ → Option σ} {P : List ℓ → σ → Prop} {s s' : σ} {ls : List ℓ}
    (start : P [] s) (keep : ∀ ms t l t', P ms t → f t l = some t' → P (ms ++ [l]) t')
    (h : exec f s ls = some s') : P ls s' := by
  have run : ∀ ls ms t, P ms t → exec f t ls = some s' → P (ms ++ ls) s' := by
    intro ls
    induction ls with
    | nil =>
      intro ms t hp ht
      cases Option.some.inj ht
      simpa using hp
    | cons l ls ih =>
      intro ms t hp ht
      obtain ⟨u, hu, hrest⟩ := Option.bind_eq_some_iff.mp ht
      simpa using ih (ms ++ [l]) u (keep ms t l u hp hu) hrest
  simpa using run ls [] s start h

theorem exec_append {f : σ → ℓ → Option σ} {s t : σ} {ls ms : List ℓ}
    (h : exec f s ls = some t) : exec f s (ls ++ ms) = exec f t ms := by
  induction ls generalizing s with
  | nil =>
    cases Option.some.inj h
    rfl
  | cons k ls ih =>
    obtain ⟨r, hr, hrest⟩ := Option.bind_eq_some_iff.mp h
    rw [List.cons_append, exec, hr]
    exact ih hrest

theorem exec_concat {f : σ → ℓ → Option σ} {s t u : σ} {ls : List ℓ} {l : ℓ}
    (h : exec f s ls = some t) (hl : f t l = some u) : exec f s (ls ++ [l]) = some u := by
  rw [exec_append h]
  simp [exec, hl]

theorem Reach.exists_exec {init : σ} {f : σ → ℓ → Option σ} {C : σ → ℓ → Prop} {s : σ}
    (h : Reach (machine init f) C s) : ∃ ls, exec f init ls = some s := by
  induction h with
  | init => exact ⟨[], rfl⟩
  | step _ _ hs ih =>
    obtain ⟨ls, run⟩ := ih
    exact ⟨_, exec_concat run hs⟩

/-- What a run gives off, by what each step does. -/
def emitted {β : Type*} (f : σ → ℓ → Option σ) (w : σ → ℓ → List β) : σ → List ℓ → List β
  | _, [] => []
  | s, l :: ls => w s l ++ (f s l).elim [] (emitted f w · ls)

section Emitted

variable {β : Type*} {f : σ → ℓ → Option σ} {w : σ → ℓ → List β} {s t : σ} {ls : List ℓ} {l : ℓ}
  {b : β}

theorem emitted_concat (h : exec f s ls = some t) :
    emitted f w s (ls ++ [l]) = emitted f w s ls ++ w t l := by
  induction ls generalizing s with
  | nil =>
    cases Option.some.inj h
    cases hl : f t l <;> simp [emitted, hl]
  | cons k ls ih =>
    obtain ⟨u, hu, hrest⟩ := Option.bind_eq_some_iff.mp h
    simp only [List.cons_append, emitted, hu, Option.elim_some]
    rw [ih hrest, List.append_assoc]

theorem mem_emitted : b ∈ emitted f w s ls ↔ ∃ before l after t,
    ls = before ++ l :: after ∧ exec f s before = some t ∧ b ∈ w t l := by
  induction ls generalizing s with
  | nil => simp [emitted]
  | cons k ls ih =>
    rw [emitted, List.mem_append]
    constructor
    · rintro (hb | hb)
      · exact ⟨[], k, ls, s, rfl, rfl, hb⟩
      · cases hk : f s k with
        | none => simp [hk] at hb
        | some u =>
          rw [hk, Option.elim_some] at hb
          obtain ⟨before, l, after, t, rfl, run, ht⟩ := ih.mp hb
          exact ⟨k :: before, l, after, t, rfl, by rw [exec, hk]; exact run, ht⟩
    · rintro ⟨before, l, after, t, he, run, hb⟩
      cases before with
      | nil =>
        cases Option.some.inj run
        obtain ⟨rfl, -⟩ := List.cons.inj he
        exact Or.inl hb
      | cons m before =>
        obtain ⟨rfl, rfl⟩ := List.cons.inj he
        obtain ⟨u, hu, run⟩ := Option.bind_eq_some_iff.mp run
        rw [hu, Option.elim_some]
        exact Or.inr (ih.mpr ⟨before, l, after, t, rfl, run, hb⟩)

end Emitted

theorem reach_execWhere {init : σ} {f : σ → ℓ → Option σ} {C : σ → ℓ → Prop}
    [∀ s l, Decidable (C s l)] {ls : List ℓ} {s s' : σ}
    (hs : Reach (machine init f) C s) (h : execWhere f C s ls = some s') :
    Reach (machine init f) C s' := by
  refine exec_keeps (fun t l t' ht hstep => ?_) hs h
  split at hstep
  next hc => exact ht.step hc hstep
  next => simp at hstep

theorem reachable_exec {init : σ} {f : σ → ℓ → Option σ} {ls : List ℓ} {s s' : σ}
    (hs : Reachable (machine init f) s) (h : exec f s ls = some s') :
    Reachable (machine init f) s' :=
  exec_keeps (fun _ _ _ ht hstep => ht.step trivial hstep) hs h

theorem exists_exec {f : σ → ℓ → Option σ} {s : σ} {ls : List ℓ} {p : σ → Prop} [DecidablePred p]
    (h : (exec f s ls).any (fun t => p t) = true) : ∃ t, exec f s ls = some t ∧ p t := by
  obtain ⟨t, ht, hp⟩ := (Option.any_eq_true _ _).mp h
  exact ⟨t, ht, of_decide_eq_true hp⟩

/-- A run from the initial state that ends where `p` holds is a reachable state with `p`. -/
theorem exists_reachable_of_exec (init : σ) (f : σ → ℓ → Option σ) (ls : List ℓ) (p : σ → Prop)
    [DecidablePred p] (h : (exec f init ls).any (fun s => p s) = true) :
    ∃ s, Reachable (machine init f) s ∧ p s := by
  obtain ⟨s, hs, hp⟩ := exists_exec h
  exact ⟨s, reachable_exec .init hs, hp⟩

theorem exists_reach_of_execWhere (init : σ) (f : σ → ℓ → Option σ) (C : σ → ℓ → Prop)
    [∀ s l, Decidable (C s l)] (ls : List ℓ) (p : σ → Prop) [DecidablePred p]
    (h : (execWhere f C init ls).any (fun s => p s) = true) :
    ∃ s, Reach (machine init f) C s ∧ p s := by
  obtain ⟨s, hs, hp⟩ := exists_exec h
  exact ⟨s, reach_execWhere .init hs, hp⟩

/-- Some run from `s` all of whose labels are in `A` leads to a state with `Q`. -/
def Leads (f : σ → ℓ → Option σ) (A : ℓ → Prop) (Q : σ → Prop) (s : σ) : Prop :=
  ∃ ls s', (∀ l ∈ ls, A l) ∧ exec f s ls = some s' ∧ Q s'

section Leads

variable {f : σ → ℓ → Option σ} {A : ℓ → Prop} {P Q : σ → Prop} {s t : σ} {l : ℓ}

theorem Leads.here (h : Q s) : Leads f A Q s := ⟨[], s, by simp, rfl, h⟩

theorem Leads.step (ha : A l) (hs : f s l = some t) (h : Leads f A Q t) : Leads f A Q s := by
  obtain ⟨ls, u, hall, run, hu⟩ := h
  refine ⟨l :: ls, u, ?_, ?_, hu⟩
  · intro m hm
    rcases List.mem_cons.mp hm with rfl | hm
    · exact ha
    · exact hall m hm
  · rw [exec, hs]
    exact run

theorem Leads.trans (h : Leads f A P s) (next : ∀ t, P t → Leads f A Q t) : Leads f A Q s := by
  obtain ⟨ls, t, hall, run, ht⟩ := h
  obtain ⟨ms, u, hall', run', hu⟩ := next t ht
  refine ⟨ls ++ ms, u, ?_, ?_, hu⟩
  · intro m hm
    exact (List.mem_append.mp hm).elim (hall m) (hall' m)
  · rw [exec_append run]
    exact run'

/-- A goal that no state has with `I` is not reached from one, where the admitted labels keep `I`. -/
theorem not_leads {I : σ → Prop} (keep : ∀ s l t, I s → A l → f s l = some t → I t)
    (never : ∀ s, I s → ¬Q s) (hs : I s) : ¬Leads f A Q s := by
  rintro ⟨ls, t, hall, run, ht⟩
  induction ls generalizing s with
  | nil =>
    cases Option.some.inj run
    exact never _ hs ht
  | cons l ls ih =>
    obtain ⟨u, hu, hrest⟩ := Option.bind_eq_some_iff.mp run
    exact ih (keep s l u hs (hall l (by simp)) hu) (fun m hm => hall m (by simp [hm])) hrest

end Leads

end Transition
