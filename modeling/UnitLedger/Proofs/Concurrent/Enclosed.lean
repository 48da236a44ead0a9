import UnitLedger.Proofs.Concurrent.Released

/-!
  UnitLedger.Proofs.Concurrent.Enclosed — a call has locks only while its transaction is open.

  The journal of a transaction is kept from its opening to its end, and whoever asks for a row lock is
  inside it. So a party that stands in the line of a lock, of whatever era, has an open transaction
  (`enclosed_run`); and where no transaction is open nobody holds a lock (`Enclosed.unlocked`).
-/

namespace UnitLedger.Concurrent

open Memory (Party World Tables RowLocks)
open Store (Op)

def InTx (w : World) (p : Party) : Prop := w.journals.lookup p ≠ none

variable {w w' : World} {p q : Party} {now : Instant} {σ σ' : Stage} {answered : Option Op}

theorem inTx_setJournal (w : World) (p : Party) (j : Memory.Journal) : InTx (w.setJournal p j) p := by
  rw [InTx, World.lookup_setJournal_self]
  simp

namespace Stage

/-- A move neither opens nor ends the transaction of another party. -/
theorem Move.lookup_ne (h : Move w p now σ w' σ' answered) (hq : q ≠ p) :
    w'.journals.lookup q = w.journals.lookup q := by
  cases h with
  | openKeyless | openKeyed | debit | creditNew | creditLocked | creditGo | append | reopen | openFund
  | insertFund | insertEntry => exact World.lookup_setJournal_ne _ hq
  | lockNone run | lockShort run | lockEnough run | lockError run | lockPause run =>
    obtain ⟨locks, rfl⟩ := lockRun_locks run
    rfl
  | commit | commitRefused | commitBeaten | commitFund | commitFundRefused | repeated | withdraw
  | withdrawBeaten | judge | undoFund => exact World.lookup_closeTx_ne hq
  | _ => rfl

/-- A party that is about to write, or that stands in a line after its move, has its transaction open,
if it was so before. -/
theorem Move.inTx (h : Move w p now σ w' σ' answered) (inside : σ.journal? ≠ none → InTx w p)
    (standing : ∀ row era, w.locks.InLine p row era → InTx w p)
    (hbusy : σ'.journal? ≠ none ∨ ∃ row era, w'.locks.InLine p row era) : InTx w' p := by
  have hsame : σ'.journal? = none → (∃ row era, w.locks.InLine p row era) ∨ σ'.journal? ≠ none →
      InTx w p := by
    intro hnone hbusy
    rcases hbusy with ⟨row, era, hline⟩ | hj
    · exact standing row era hline
    · exact absurd hnone hj
  cases h with
  | openKeyless | openKeyed | debit | creditNew | creditLocked | creditGo | append | reopen | openFund
  | insertFund | insertEntry => exact inTx_setJournal _ _ _
  | lockNone run | lockShort run | lockEnough run | lockError run | lockPause run =>
    have hin := inside (by rw [lockRun_journal? run]; simp)
    obtain ⟨locks, rfl⟩ := lockRun_locks run
    exact hin
  | lookFresh | lookSame | lookConflict | lockGiveUp | check | creditPause | creditGiveUp | refuse
  | relook | refuseFund | refuseEntry => exact inside (by simp [Stage.journal?])
  | commit | commitRefused | commitBeaten | commitFund | commitFundRefused | repeated | withdraw
  | withdrawBeaten | judge | undoFund =>
    -- Who has ended its transaction stands in no line.
    rcases hbusy with hj | ⟨row, era, hline⟩
    · exact absurd rfl hj
    · exact absurd rfl (RowLocks.close_inLine hline).1
  | _ => exact hsame rfl hbusy.symm

end Stage

/-- Whoever is about to write or stands in a line has its transaction open. -/
structure Enclosed (s : System Stage) : Prop where
  inside : ∀ p c, s.caller p = some c → c.progress.journal? ≠ none → InTx s.world p
  standing : ∀ p row era, s.world.locks.InLine p row era → InTx s.world p

variable {s s' : System Stage} {event : Event}

theorem Enclosed.step (h : Enclosed s) (hs : s.Step event s') : Enclosed s' := by
  cases hs with
  | ignored => exact h
  | @arrives p call now new =>
    refine ⟨fun q d hd hj => ?_, h.standing⟩
    rcases System.arrive_caller hd with ⟨-, rfl⟩ | ⟨-, hd⟩
    · exact absurd (Stage.start_journal? call) hj
    · exact h.inside q d hd hj
  | @moves p now c w σ answered caller unfinished move =>
    have hmover : σ.answer? = none → (σ.journal? ≠ none ∨ ∃ row era, w.locks.InLine p row era) →
        InTx (s.moved p c w σ answered).world p := by
      intro hans hbusy
      rw [System.moved_world, hans]
      exact move.inTx (h.inside p c caller) (h.standing p) hbusy
    have hothers : ∀ q, q ≠ p → InTx s.world q → InTx (s.moved p c w σ answered).world q := by
      intro q hq hin
      rw [InTx, System.moved_world]
      split
      · rwa [World.lookup_closeTx_ne hq, move.lookup_ne hq]
      · rwa [move.lookup_ne hq]
    -- Whoever has just been answered stands in no line.
    have hlines : ∀ q row era, (s.moved p c w σ answered).world.locks.InLine q row era →
        w.locks.InLine q row era ∧ (q = p → σ.answer? = none) := by
      intro q row era hline
      rw [System.moved_world] at hline
      split at hline
      · obtain ⟨hq, hline⟩ := RowLocks.close_inLine hline
        exact ⟨hline, fun heq => absurd heq hq⟩
      · rename_i hans
        exact ⟨hline, fun _ => by simpa using hans⟩
    refine ⟨fun q d hd hj => ?_, fun q row era hline => ?_⟩
    · rcases System.moved_caller hd with ⟨rfl, rfl⟩ | ⟨hq, hd⟩
      · refine hmover ?_ (Or.inl hj)
        cases σ <;> first | rfl | exact absurd rfl hj
      · exact hothers q hq (h.inside q d hd hj)
    · obtain ⟨hstands, hans⟩ := hlines q row era hline
      by_cases hq : q = p
      · subst hq
        exact hmover (hans rfl) (Or.inr ⟨row, era, hstands⟩)
      · exact hothers q hq (h.standing q row era ((move.inLine hstands).resolve_left hq))

theorem enclosed_run (fresh : Nat → Uuid) (tables : Tables) (es : List Event) :
    Enclosed ((System.opened fresh tables).run stages es) := by
  refine System.run_history (P := fun _ s => Enclosed s) ?_ (fun _ _ _ h hs => h.step hs) es
  refine ⟨?_, ?_⟩
  · intro p c hc
    cases hc
  · intro p row era hline
    obtain ⟨l, hl, -⟩ := hline
    cases hl

/-- While no transaction is open no row is locked. -/
theorem Enclosed.unlocked (h : Enclosed s) (hidle : s.world.journals = []) :
    s.world.locks.held = [] := by
  refine List.eq_nil_iff_forall_not_mem.mpr fun l hl => ?_
  refine h.standing l.holder l.row l.era ⟨l, hl, rfl, rfl, List.mem_cons_self⟩ ?_
  rw [hidle]
  rfl

end UnitLedger.Concurrent
