import Mathlib.Data.List.Induction
import UnitLedger.Proofs.Concurrent.Frame

/-!
  UnitLedger.Proofs.Concurrent.Step — the events of a run, one by one.

  `Step` lists what an event can do to the system: nothing, the arrival of a call, or the move of an
  unfinished one. `step_step`: every event is a step. An invariant of runs is shown by cases on the
  step, and `run_induction` makes it hold in every state of every run.
-/

namespace UnitLedger.Concurrent

open Memory (Party World Tables)
open Store (Op)

theorem Stage.answer?_eq_some {σ : Stage} {a : Answer} :
    σ.answer? = some a ↔ σ = .finished a := by
  cases σ <;> simp [Stage.answer?]

theorem Stage.start_ne_resetting {fundId entryId : Uuid} {now : Instant} {call : Call}
    (h : call ≠ .reset) : Stage.start fundId entryId now call ≠ .resetting := by
  intro hreset
  cases call with
  | reset => exact h rfl
  | createFund name total owner =>
    simp only [Stage.start] at hreset
    repeat' split at hreset
    all_goals cases hreset
  | transfer request =>
    simp only [Stage.start] at hreset
    split at hreset <;> cases hreset
  | getOwnership fund owner =>
    simp only [Stage.start] at hreset
    split at hreset <;> cases hreset
  | _ => cases hreset

theorem DistinctIds.mono {fresh : Nat → Uuid} {m n : Nat} (h : DistinctIds fresh n) (hmn : m ≤ n) :
    DistinctIds fresh m :=
  fun i hi j hj => h i (by omega) j (by omega)

def Caller.Finished (c : Caller Stage) : Prop := ∃ a, c.progress = .finished a

theorem Caller.finished_iff {c : Caller Stage} :
    c.Finished ↔ (stages.answer? c.progress).isSome = true := by
  rw [Option.isSome_iff_exists]
  exact exists_congr fun a => Stage.answer?_eq_some.symm

def Caller.moved (c : Caller Stage) (σ : Stage) (answered : Option Op) : Caller Stage :=
  { c with asked := c.asked ++ answered.toList, progress := σ }

def Caller.arriving (w : World) (c : Call) (now : Instant) : Caller Stage where
  call := c
  fundId := w.fresh w.used
  entryId := w.fresh (w.used + 1)
  progress := Stage.start (w.fresh w.used) (w.fresh (w.used + 1)) now c

namespace System

variable {s s' : System Stage} {e : Event} {p q : Party} {c : Caller Stage} {now : Instant}

theorem answer?_eq_some {a : Answer} : s.answer? stages p = some a ↔
    ∃ c, s.caller p = some c ∧ c.progress = .finished a := by
  rw [answer?, Option.bind_eq_some_iff]
  exact exists_congr fun c => and_congr_right fun _ => Stage.answer?_eq_some

/-- The world with the two ids of an arriving call drawn. -/
def arrived (w : World) : World := { w with used := w.used + 2 }

theorem arrive_caller_self (call : Call) :
    (s.arrive stages p call now).caller p = some (.arriving s.world call now) :=
  Function.update_self p _ _

theorem arrive_caller_ne (call : Call) (h : q ≠ p) :
    (s.arrive stages p call now).caller q = s.caller q :=
  Function.update_of_ne h _ _

theorem arrive_caller {call : Call} {d : Caller Stage}
    (h : (s.arrive stages p call now).caller q = some d) :
    (q = p ∧ d = .arriving s.world call now) ∨ (q ≠ p ∧ s.caller q = some d) := by
  by_cases hq : q = p
  · subst hq
    rw [arrive_caller_self] at h
    exact Or.inl ⟨rfl, (Option.some.inj h).symm⟩
  · rw [arrive_caller_ne call hq] at h
    exact Or.inr ⟨hq, h⟩

def moved (s : System Stage) (p : Party) (c : Caller Stage) (w : World) (σ : Stage)
    (answered : Option Op) : System Stage :=
  s.keep stages p c ⟨w, σ, answered⟩

section Moved

variable {w : World} {σ : Stage} {answered : Option Op}

theorem moved_world :
    (s.moved p c w σ answered).world = if σ.answer?.isSome then w.closeTx p else w := rfl

@[simp] theorem moved_caller_self :
    (s.moved p c w σ answered).caller p = some (c.moved σ answered) := by
  simp [moved, keep, Caller.moved]

theorem moved_caller_ne (h : q ≠ p) : (s.moved p c w σ answered).caller q = s.caller q := by
  simp [moved, keep, Function.update_of_ne h]

@[simp] theorem moved_tables : (s.moved p c w σ answered).world.tables = w.tables := by
  rw [moved_world]
  split <;> rfl

@[simp] theorem moved_used : (s.moved p c w σ answered).world.used = w.used := by
  rw [moved_world]
  split <;> rfl

@[simp] theorem moved_fresh : (s.moved p c w σ answered).world.fresh = w.fresh := by
  rw [moved_world]
  split <;> rfl

/-- Whoever is a caller after a move was one before, at the same stage unless it is the one that
moved. -/
theorem moved_caller {d : Caller Stage} (h : (s.moved p c w σ answered).caller q = some d) :
    (q = p ∧ d = c.moved σ answered) ∨ (q ≠ p ∧ s.caller q = some d) := by
  by_cases hq : q = p
  · subst hq
    rw [moved_caller_self] at h
    exact Or.inl ⟨rfl, (Option.some.inj h).symm⟩
  · rw [moved_caller_ne hq] at h
    exact Or.inr ⟨hq, h⟩

theorem moved_frame (h : World.Frame p s.world w) :
    World.Frame p s.world (s.moved p c w σ answered).world := by
  rw [moved_world]
  split
  · exact h.trans .closeTx
  · exact h

end Moved

inductive Step (s : System Stage) : Event → System Stage → Prop where
  | ignored {e : Event} : Step s e s
  | arrives {p : Party} {call : Call} {now : Instant} (new : s.caller p = none) :
      Step s (.call p call now) (s.arrive stages p call now)
  | moves {p : Party} {now : Instant} {c : Caller Stage} {w : World} {σ : Stage}
      {answered : Option Op} (caller : s.caller p = some c) (unfinished : ¬ c.Finished)
      (move : Stage.Move s.world p now c.progress w σ answered) :
      Step s (.turn p now) (s.moved p c w σ answered)

theorem step_step (s : System Stage) (e : Event) : s.Step e (s.step stages e) := by
  cases e with
  | call p c now =>
    simp only [step]
    cases h : s.caller p with
    | some d => exact .ignored
    | none => exact .arrives h
  | turn p now =>
    simp only [step]
    cases h : s.caller p with
    | none => exact .ignored
    | some c =>
      dsimp only
      split
      · exact .ignored
      · rename_i hunfinished
        rw [← Caller.finished_iff] at hunfinished
        exact .moves h hunfinished (Stage.turn_move c.progress)

theorem step_used (h : s.Step e s') : s.world.used ≤ s'.world.used := by
  cases h with
  | ignored => exact Nat.le_refl _
  | arrives =>
    show s.world.used ≤ s.world.used + 2
    omega
  | moves _ _ move => exact (moved_frame move.frame).used

theorem step_fresh (h : s.Step e s') : s'.world.fresh = s.world.fresh := by
  cases h with
  | ignored | arrives => rfl
  | moves _ _ move => exact (moved_frame move.frame).fresh

theorem run_append (s : System Stage) (es : List Event) (e : Event) :
    s.run stages (es ++ [e]) = (s.run stages es).step stages e := by
  simp [run, List.foldl_append]

theorem run_cons (s : System Stage) (e : Event) (es : List Event) :
    s.run stages (e :: es) = (s.step stages e).run stages es := rfl

theorem run_run (s : System Stage) (es es' : List Event) :
    s.run stages (es ++ es') = (s.run stages es).run stages es' := by
  simp [run, List.foldl_append]

theorem used_le_run (s : System Stage) (es : List Event) :
    s.world.used ≤ (s.run stages es).world.used := by
  induction es generalizing s with
  | nil => exact Nat.le_refl _
  | cons e es ih => exact Nat.le_trans (step_used (step_step s e)) (ih _)

/-- Ids that are distinct through a run are so through a part of it. -/
theorem distinct_part {fresh : Nat → Uuid} {es rest : List Event}
    (h : DistinctIds fresh (s.run stages (es ++ rest)).world.used) :
    DistinctIds fresh (s.run stages es).world.used := by
  rw [run_run] at h
  exact h.mono (used_le_run _ rest)

theorem run_fresh (s : System Stage) (es : List Event) :
    (s.run stages es).world.fresh = s.world.fresh := by
  induction es generalizing s with
  | nil => rfl
  | cons e es ih => rw [run_cons, ih, step_fresh (step_step s e)]

/-- What holds at the start and is kept by every step holds of every run, of its events and the state
that they lead to. -/
theorem run_history {s₀ : System Stage} {P : List Event → System Stage → Prop} (hopen : P [] s₀)
    (hstep : ∀ es e s', P es (s₀.run stages es) → (s₀.run stages es).Step e s' → P (es ++ [e]) s')
    (es : List Event) : P es (s₀.run stages es) := by
  induction es using List.reverseRecOn with
  | nil => exact hopen
  | append_singleton es e ih =>
    rw [run_append]
    exact hstep es e _ ih (step_step _ e)

/-- The events of others leave a caller where it stands. -/
theorem step_caller_ne (hs : s.Step e s') (hne : q ≠ e.party) : s'.caller q = s.caller q := by
  cases hs with
  | ignored => rfl
  | arrives => exact arrive_caller_ne _ hne
  | moves => exact moved_caller_ne hne

/-- Who was answered stays where they are. -/
theorem caller_finished {d : Caller Stage} (hd : s.caller q = some d)
    (hfinished : d.Finished) (hs : s.Step e s') : s'.caller q = some d := by
  by_cases hq : q = e.party
  · cases hs with
    | ignored => exact hd
    | arrives new =>
      rw [hq] at hd
      cases new.symm.trans hd
    | moves caller unfinished =>
      rw [hq] at hd
      cases caller.symm.trans hd
      exact absurd hfinished unfinished
  · rw [step_caller_ne hs hq, hd]

theorem finished_run {d : Caller Stage} (hd : s.caller q = some d) (hfinished : d.Finished)
    (es : List Event) : (s.run stages es).caller q = some d := by
  refine run_history (P := fun _ s' => s'.caller q = some d) hd ?_ es
  intro es e s' ih hs
  exact caller_finished ih hfinished hs

/-- A caller keeps its call and its ids. -/
theorem caller_keeps (hc : s.caller p = some c) (es : List Event) :
    ∃ d, (s.run stages es).caller p = some d ∧ d.call = c.call ∧ d.fundId = c.fundId := by
  refine run_history (P := fun _ s' => ∃ d, s'.caller p = some d ∧ d.call = c.call ∧
    d.fundId = c.fundId) ⟨c, hc, rfl, rfl⟩ ?_ es
  intro es e s' ⟨d, hd, hsame⟩ hs
  cases hs with
  | ignored => exact ⟨d, hd, hsame⟩
  | @arrives q call now new =>
    refine ⟨d, ?_, hsame⟩
    rw [arrive_caller_ne call (fun hpq => by rw [hpq, new] at hd; cases hd)]
    exact hd
  | @moves q now c' w σ answered caller unfinished move =>
    by_cases hpq : p = q
    · subst hpq
      rw [hd] at caller
      cases caller
      exact ⟨_, moved_caller_self, hsame⟩
    · exact ⟨d, by rw [moved_caller_ne hpq]; exact hd, hsame⟩

theorem caller_stays (hc : s.caller p = some c) (es : List Event) :
    ∃ d, (s.run stages es).caller p = some d ∧ d.call = c.call := by
  obtain ⟨d, hd, hcall, -⟩ := caller_keeps hc es
  exact ⟨d, hd, hcall⟩

/-- Where a party has no event, it stays what it was. -/
theorem run_caller_ne (s : System Stage) {es : List Event} (h : ∀ e ∈ es, e.party ≠ q) :
    (s.run stages es).caller q = s.caller q := by
  induction es generalizing s with
  | nil => rfl
  | cons e es ih =>
    rw [run_cons, ih _ fun e' he' => h e' (List.mem_cons_of_mem _ he')]
    exact step_caller_ne (step_step s e) (Ne.symm (h e List.mem_cons_self))

/-- The same of the states of a run, as long as the ids that the run draws are distinct. -/
theorem run_induction {fresh : Nat → Uuid} {tables : Tables} {I : System Stage → Prop}
    (hopen : I (opened fresh tables))
    (hstep : ∀ s e s', I s → s.Step e s' → DistinctIds s'.world.fresh s'.world.used → I s')
    (es : List Event) (hids : DistinctIds fresh ((opened fresh tables).run stages es).world.used) :
    I ((opened fresh tables).run stages es) := by
  refine run_history (P := fun _ s => DistinctIds fresh s.world.used → I s) (fun _ => hopen) ?_ es
    hids
  intro es e s' ih hs hids
  refine hstep _ e s' (ih (hids.mono (step_used hs))) hs ?_
  rw [step_fresh hs, run_fresh]
  exact hids

/-- Without a reset among its calls, a run has none under way. -/
theorem run_noReset {fresh : Nat → Uuid} {tables : Tables} (es : List Event) (h : NoReset es) :
    ∀ p c, ((opened fresh tables).run stages es).caller p = some c → c.progress ≠ .resetting := by
  refine run_history (P := fun es s => NoReset es → ∀ p c, s.caller p = some c →
    c.progress ≠ .resetting) ?_ ?_ es h
  · intro _ p c hc
    cases hc
  · intro es e s' ih hs h
    have ih := ih fun p now hmem => h p now (List.mem_append_left _ hmem)
    cases hs with
    | ignored => exact ih
    | @arrives p call now new =>
      intro q d hd
      rcases arrive_caller hd with ⟨-, rfl⟩ | ⟨-, hd⟩
      · refine Stage.start_ne_resetting ?_
        rintro rfl
        exact h p now (by simp)
      · exact ih q d hd
    | @moves p now c w σ answered caller unfinished move =>
      intro q d hd
      rcases moved_caller hd with ⟨-, rfl⟩ | ⟨-, hd⟩
      · exact move.not_resetting
      · exact ih q d hd

end System

end UnitLedger.Concurrent
