import UnitLedger.Proofs.Concurrent.Alone

/-!
  UnitLedger.Proofs.Concurrent.Creation — how many turns the creation of a fund takes.

  A creation has at most four operations, none of which waits: it opens its transaction, writes the fund
  and the entry, and commits, or it rolls back after the first write that is refused. So whatever others
  do in between, it has its answer once it has had four turns after it arrived (`creation_answered`).
-/

namespace UnitLedger.Concurrent

open Memory (Party World)
open Store (Op)

def Event.isTurnOf (p : Party) : Event → Bool
  | turn q _ => q == p
  | call _ _ _ => false

/-- The most turns that a creation at this stage takes to its answer. -/
def Stage.creationTurns : Stage → Nat
  | openingFund _ _ => 4
  | insertingFund _ _ => 3
  | insertingEntry _ _ => 2
  | committingFund _ _ | undoingFund _ _ _ => 1
  | _ => 0

variable {s : System Stage} {p : Party} {c d : Caller Stage}

theorem Stage.creationTurns_le (σ : Stage) : σ.creationTurns ≤ 4 := by
  cases σ <;> simp [creationTurns]

/-- Every turn of a creation brings it nearer to its answer. -/
theorem Stage.Move.creationTurns {w w' : World} {now : Instant} {σ σ' : Stage} {answered : Option Op}
    (move : Stage.Move w p now σ w' σ' answered) : σ'.creationTurns ≤ σ.creationTurns - 1 := by
  cases move with
  | openFund | insertFund | refuseFund | insertEntry | refuseEntry =>
    simp [Stage.creationTurns]
  | _ => exact Nat.zero_le _

/-- An event takes one turn from the creation if it is its own, and none if it is not. -/
theorem creationTurns_step (hc : s.caller p = some c) (e : Event)
    (hd : (s.step stages e).caller p = some d) :
    d.progress.creationTurns ≤ c.progress.creationTurns - (if e.isTurnOf p then 1 else 0) := by
  by_cases hp : p = e.party
  · cases e with
    | call q call now =>
      obtain rfl : p = q := hp
      have hsame : s.step stages (.call p call now) = s := by simp [System.step, hc]
      rw [hsame, hc] at hd
      cases hd
      exact Nat.le_refl _
    | turn q now =>
      obtain rfl : p = q := hp
      rw [show Event.isTurnOf p (.turn p now) = true from beq_self_eq_true p, if_pos rfl]
      cases hans : c.progress.answer? with
      | some a =>
        have hfinished : c.Finished := ⟨a, Stage.answer?_eq_some.mp hans⟩
        rw [System.caller_finished hc hfinished (System.step_step s _)] at hd
        cases hd
        rw [Stage.answer?_eq_some.mp hans]
        exact Nat.zero_le _
      | none =>
        rw [System.step_turn hc hans] at hd
        obtain rfl : _ = d := Option.some.inj ((Function.update_self p _ _).symm.trans hd)
        exact (Stage.turn_move c.progress).creationTurns
  · have hother : e.isTurnOf p = false := by
      cases e with
      | call q call now => rfl
      | turn q now => exact beq_false_of_ne fun hqp => hp hqp.symm
    rw [System.step_caller_ne (System.step_step s e) hp, hc] at hd
    cases hd
    rw [hother]
    exact Nat.le_refl _

theorem creationTurns_run (hc : s.caller p = some c) (es : List Event)
    (hd : (s.run stages es).caller p = some d) :
    d.progress.creationTurns ≤ c.progress.creationTurns - es.countP (Event.isTurnOf p) := by
  induction es generalizing s c with
  | nil =>
    obtain rfl : c = d := Option.some.inj (hc.symm.trans hd)
    exact Nat.le_refl _
  | cons e es ih =>
    rw [System.run_cons] at hd
    obtain ⟨c', hc', -⟩ := System.caller_stays hc [e]
    have hrest := ih hc' hd
    have hfirst := creationTurns_step hc e hc'
    rw [List.countP_cons]
    omega

/-- Whoever has called in a run has arrived in it with this call. -/
theorem arrival (hnew : s.caller p = none) (es : List Event)
    (hd : (s.run stages es).caller p = some d) :
    ∃ before now after, es = before ++ .call p d.call now :: after ∧
      (s.run stages before).caller p = none := by
  revert hd
  refine System.run_history (P := fun es s' => ∀ d, s'.caller p = some d → ∃ before now after,
    es = before ++ .call p d.call now :: after ∧ (s.run stages before).caller p = none) ?_ ?_ es d
  · intro d hd
    rw [hnew] at hd
    cases hd
  · intro es e s' ih hs d hd
    have hlater : ∀ {call : Call}, (∃ before now after, es = before ++ .call p call now :: after ∧
          (s.run stages before).caller p = none) →
        ∃ before now after, es ++ [e] = before ++ .call p call now :: after ∧
          (s.run stages before).caller p = none := by
      rintro call ⟨before, now, after, rfl, hbefore⟩
      exact ⟨before, now, after ++ [e], by simp, hbefore⟩
    cases hs with
    | ignored => exact hlater (ih d hd)
    | @arrives q call now new =>
      rcases System.arrive_caller hd with ⟨rfl, rfl⟩ | ⟨-, hd⟩
      · exact ⟨es, now, [], rfl, new⟩
      · exact hlater (ih d hd)
    | @moves q now c w σ answered caller unfinished move =>
      rcases System.moved_caller hd with ⟨rfl, rfl⟩ | ⟨-, hd⟩
      · exact hlater (ih c caller)
      · exact hlater (ih d hd)

/-- A creation that has had four turns since it arrived has none to go. -/
theorem creation_answered (hnew : s.caller p = none) {es : List Event}
    (hserved : ∀ before now after, es = before ++ .call p d.call now :: after →
      (s.run stages before).caller p = none → 4 ≤ after.countP (Event.isTurnOf p))
    (hd : (s.run stages es).caller p = some d) : d.progress.creationTurns = 0 := by
  obtain ⟨before, now, after, rfl, hbefore⟩ := arrival hnew es hd
  have hturns := hserved before now after rfl hbefore
  have hstep : (s.run stages before).step stages (.call p d.call now) =
      (s.run stages before).arrive stages p d.call now := by
    simp [System.step, hbefore]
  rw [System.run_run, System.run_cons, hstep] at hd
  have hleft := creationTurns_run (System.arrive_caller_self d.call) after hd
  have hall := (Caller.arriving (s.run stages before).world d.call now).progress.creationTurns_le
  omega

end UnitLedger.Concurrent
