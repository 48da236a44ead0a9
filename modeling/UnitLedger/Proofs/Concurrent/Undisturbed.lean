import UnitLedger.Proofs.Concurrent.Alone

/-!
  UnitLedger.Proofs.Concurrent.Undisturbed — a call that has the next turns to itself.

  From a state that others have left behind, a call arrives and only its own turns follow. `Reaches` says
  of a stage that so many turns bring an answer, at whatever times they come, and what is then known of
  the answer and the rows; it is shown stage by stage, the last one first. `Reaches.run` and
  `Reaches.answers` bring it to the turns of a run.
-/

namespace UnitLedger.Concurrent

open Memory (Party World Tables)

/-- The party's next `n` turns, if nobody else has one, bring an answer of which `Q` holds, together
with the rows and the number of ids drawn then. -/
inductive Reaches (p : Party) (Q : Answer → Tables → Nat → Prop) : Nat → World → Stage → Prop where
  | finished {n w a} (done : Q a w.tables w.used) : Reaches p Q n w (.finished a)
  | turn {n w σ}
      (rest : ∀ now, Reaches p Q n (σ.turn w p now).world (σ.turn w p now).progress) :
      Reaches p Q (n + 1) w σ

variable {p : Party} {Q : Answer → Tables → Nat → Prop} {n : Nat} {w : World} {σ : Stage}

/-- Turns to spare do no harm. -/
theorem Reaches.mono {m : Nat} (h : Reaches p Q n w σ) (hnm : n ≤ m) : Reaches p Q m w σ := by
  induction h generalizing m with
  | finished done => exact .finished done
  | turn rest ih =>
    cases m with
    | zero => omega
    | succ m => exact .turn fun now => ih now (Nat.le_of_succ_le_succ hnm)

theorem Reaches.imp {Q' : Answer → Tables → Nat → Prop} (h : Reaches p Q n w σ)
    (hQ : ∀ a t m, Q a t m → Q' a t m) : Reaches p Q' n w σ := by
  induction h with
  | finished done => exact .finished (hQ _ _ _ done)
  | turn rest ih => exact .turn ih

/-- A finished call has no turns. -/
theorem System.run_turns_finished {s : System Stage} {c : Caller Stage} (hc : s.caller p = some c)
    (hfinished : c.Finished) (turns : List Instant) :
    s.run stages (turns.map (Event.turn p)) = s := by
  induction turns with
  | nil => rfl
  | cons now turns ih =>
    have hstep : s.step stages (.turn p now) = s := by
      simp [System.step, hc, Caller.finished_iff.mp hfinished]
    rw [List.map_cons, System.run_cons, hstep, ih]

/-- After turns of a run the call is answered as was said, or it had too few of them. -/
theorem Reaches.run (h : Reaches p Q n w σ) {s : System Stage} {c : Caller Stage}
    (hc : s.caller p = some c) (hσ : c.progress = σ) (hw : σ.answer? = none → s.world = w)
    (htables : s.world.tables = w.tables) (hused : s.world.used = w.used) (turns : List Instant) :
    (∃ a, (s.run stages (turns.map (Event.turn p))).answer? stages p = some a ∧
      Q a (s.run stages (turns.map (Event.turn p))).world.tables
        (s.run stages (turns.map (Event.turn p))).world.used) ∨
    ((s.run stages (turns.map (Event.turn p))).answer? stages p = none ∧ turns.length < n) := by
  induction h generalizing s c turns with
  | @finished n w a done =>
    left
    rw [System.run_turns_finished hc ⟨a, hσ⟩, htables, hused]
    exact ⟨a, System.answer?_eq_some.mpr ⟨c, hc, hσ⟩, done⟩
  | @turn n w σ rest ih =>
    cases hans : σ.answer? with
    | some a =>
      obtain rfl := Stage.answer?_eq_some.mp hans
      have hrest := ih ⟨0⟩ hc hσ (fun hnone => by cases hnone) htables hused turns
      exact hrest.imp_right fun ⟨hnone, hshort⟩ => ⟨hnone, by omega⟩
    | none =>
      cases turns with
      | nil =>
        right
        refine ⟨?_, Nat.succ_pos n⟩
        show (s.caller p).bind (fun c => c.progress.answer?) = none
        rw [hc, Option.bind_some, hσ, hans]
      | cons now turns =>
        obtain rfl := hw hans
        subst hσ
        rw [List.map_cons, System.run_cons, System.step_turn hc hans]
        have hrest := ih now (s := s.keep stages p c (c.progress.turn s.world p now))
          (Function.update_self p _ _) rfl System.keep_world System.moved_tables System.moved_used
          turns
        exact hrest.imp_right fun ⟨hnone, hshort⟩ => ⟨hnone, by simp; omega⟩

/-- What a call that arrives in a state of a run comes to with the next turns. -/
theorem Reaches.answers {fresh : Nat → Uuid} {es : List Event} {call : Call} {now : Instant}
    {s s' : System Stage} (hs : s = (System.opened fresh {}).run stages es)
    (hnew : s.caller p = none)
    (h : Reaches p Q n (System.arrived s.world)
      (Stage.start (fresh s.world.used) (fresh (s.world.used + 1)) now call))
    (turns : List Instant)
    (hs' : s' = (System.opened fresh {}).run stages
      (es ++ .call p call now :: turns.map (Event.turn p))) :
    (∃ a, s'.answer? stages p = some a ∧ Q a s'.world.tables s'.world.used) ∨
      (s'.answer? stages p = none ∧ turns.length < n) := by
  have hfresh : s.world.fresh = fresh := by
    rw [hs, System.run_fresh]
    rfl
  have hstep : s.step stages (.call p call now) = s.arrive stages p call now := by
    simp [System.step, hnew]
  rw [System.run_run, ← hs, System.run_cons, hstep] at hs'
  subst hs'
  have hstart : (Caller.arriving s.world call now).progress =
      Stage.start (fresh s.world.used) (fresh (s.world.used + 1)) now call := by
    rw [Caller.arriving, hfresh]
  exact h.run (System.arrive_caller_self call) hstart (fun _ => rfl) rfl rfl turns

end UnitLedger.Concurrent
