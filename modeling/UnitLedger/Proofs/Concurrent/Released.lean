import UnitLedger.Proofs.Concurrent.Queueing
import UnitLedger.Proofs.Concurrent.Step

/-!
  UnitLedger.Proofs.Concurrent.Released — a call that is answered has let go of every row.

  The turn in which a call gets its answer ends its transaction, which gives back what the call holds
  and takes it out of every queue (`released_run`). No other party's turn brings it back: a lock passes
  only to somebody who waits for it (`Move.inLine`). This holds of locks of every era, so a reset that
  comes in between changes nothing about it.
-/

namespace UnitLedger.Concurrent

open Memory (Party World Tables RowLocks)
open Store (Op)

/-- A move brings nobody into a line but the party that moves. -/
theorem Stage.Move.inLine {w w' : World} {p q : Party} {now : Instant} {σ σ' : Stage}
    {answered : Option Op} {row : Uuid} {era : Nat} (h : Stage.Move w p now σ w' σ' answered)
    (hq : w'.locks.InLine q row era) : q = p ∨ w.locks.InLine q row era := by
  have hacquires : RowLocks.Acquires p w.tables.entryIds w.locks w'.locks →
      q = p ∨ w.locks.InLine q row era := by
    intro hacquires
    rcases hacquires.inLine hq with hq | ⟨hqp, -⟩
    · exact Or.inr hq
    · exact Or.inl hqp
  cases h with
  | lockNone run | lockShort run | lockEnough run | lockError run | lockPause run =>
    exact hacquires (Stage.lockRun_acquires run)
  | creditLocked target granted => exact hacquires (Stage.acquire_acquires target granted)
  | creditPause target busy => exact hacquires (Stage.acquire_acquires target busy)
  | lockGiveUp | creditGiveUp => exact Or.inr (RowLocks.leave_inLine hq)
  | commit | commitRefused | commitBeaten | commitFund | commitFundRefused | repeated | withdraw
  | withdrawBeaten | judge | undoFund => exact Or.inr (RowLocks.close_inLine hq).2
  | _ => exact Or.inr hq

/-- Who is not under way holds no lock and waits for none. -/
def Released (s : System Stage) : Prop :=
  ∀ p, (∀ c, s.caller p = some c → c.Finished) → ∀ row era, ¬ s.world.locks.InLine p row era

theorem released_step {s s' : System Stage} {e : Event} (h : Released s) (hs : s.Step e s') :
    Released s' := by
  intro q hq row era hline
  cases hs with
  | ignored => exact h q hq row era hline
  | @arrives p call now new =>
    refine h q (fun c hc => ?_) row era hline
    by_cases hqp : q = p
    · rw [hqp, new] at hc
      cases hc
    · exact hq c (by rwa [System.arrive_caller_ne call hqp])
  | @moves p now c w σ answered caller unfinished move =>
    by_cases hqp : q = p
    · -- Its answer has ended its transaction.
      subst hqp
      have hanswered : σ.answer?.isSome = true := by
        obtain ⟨a, ha⟩ := hq _ System.moved_caller_self
        have hσ : σ = .finished a := ha
        rw [hσ]
        rfl
      rw [System.moved_world, if_pos hanswered] at hline
      exact (RowLocks.close_inLine hline).1 rfl
    · have hbefore : w.locks.InLine q row era := by
        rw [System.moved_world] at hline
        split at hline
        · exact (RowLocks.close_inLine hline).2
        · exact hline
      refine h q (fun d hd => hq d ?_) row era ((move.inLine hbefore).resolve_left hqp)
      rwa [System.moved_caller_ne hqp]

theorem released_run (fresh : Nat → Uuid) (tables : Tables) (es : List Event) :
    Released ((System.opened fresh tables).run stages es) := by
  refine System.run_history (P := fun _ s => Released s) ?_ (fun _ _ _ h hs => released_step h hs) es
  rintro p - row era ⟨l, hl, -⟩
  cases hl

end UnitLedger.Concurrent
