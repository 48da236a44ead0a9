import UnitLedger.Proofs.Accepted
import UnitLedger.Proofs.Concurrent.Step

/-!
  UnitLedger.Proofs.Concurrent.Told — a stage tells its call and its journal.

  In every state of every run the order of a transfer is the one that its request was validated to,
  the rows of a creation are those that its input was accepted as, and a call inside its transaction
  has exactly the writes in its journal that its stage tells. Nothing is assumed of the ids.
-/

namespace UnitLedger.Concurrent

open Memory (Party World Journal Tables)
open Store (Op)

structure Caller.Origin (c : Caller Stage) : Prop where
  order : ∀ o, c.progress.order? = some o → ∃ request, c.call = .transfer request ∧
    request.validate = .ok o
  founding : ∀ f e, c.progress.founding? = some (f, e) → ∃ name totalUnits owner,
    c.call = .createFund name totalUnits owner ∧ f.Accepted c.fundId name totalUnits ∧
      e.Accepted c.entryId f.id owner totalUnits
  record : ∀ o source r, c.progress = .committing o source r → ∃ id now, r = o.record id now

structure Told (s : System Stage) : Prop where
  origin : ∀ p c, s.caller p = some c → c.Origin
  journal : ∀ p c j, s.caller p = some c → c.progress.journal? = some j → s.world.journal p = j

variable {s s' : System Stage} {event : Event}

theorem told_opened (fresh : Nat → Uuid) (tables : Tables) : Told (System.opened fresh tables) := by
  refine ⟨?_, ?_⟩ <;> intros <;> contradiction

theorem Caller.origin_arriving (w : World) (call : Call) (now : Instant) :
    (Caller.arriving w call now).Origin := by
  refine ⟨fun o ho => Stage.start_order? ho, ?_, ?_⟩
  · intro f e hfe
    obtain ⟨name, total, owner, rfl, hf, he⟩ := Stage.start_founding? hfe
    exact ⟨name, total, owner, rfl, Fund.accepted hf, Entry.accepted he⟩
  · intro o source r hr
    have hnone : (Caller.arriving w call now).progress.journal? = none := Stage.start_journal? call
    rw [hr] at hnone
    cases hnone

theorem Caller.Origin.moved {c : Caller Stage} (h : c.Origin) {w w' : World} {p : Party}
    {now : Instant} {σ : Stage} {answered : Option Op}
    (move : Stage.Move w p now c.progress w' σ answered) : (c.moved σ answered).Origin := by
  refine ⟨fun o ho => h.order o (move.order? ho), fun f e hfe => h.founding f e (move.founding? hfe),
    ?_⟩
  rintro o source r rfl
  exact move.record

theorem Told.step (h : Told s) (hs : s.Step event s') : Told s' := by
  cases hs with
  | ignored => exact h
  | arrives new =>
    refine ⟨?_, ?_⟩
    · intro q d hd
      rcases System.arrive_caller hd with ⟨-, rfl⟩ | ⟨-, hd⟩
      · exact Caller.origin_arriving _ _ _
      · exact h.origin q d hd
    · intro q d j hd hj
      rcases System.arrive_caller hd with ⟨-, rfl⟩ | ⟨-, hd⟩
      · rw [show (Caller.arriving _ _ _).progress.journal? = none from Stage.start_journal? _] at hj
        cases hj
      · exact h.journal q d j hd hj
  | @moves p now c w σ answered caller unfinished move =>
    refine ⟨?_, ?_⟩
    · intro q d hd
      rcases System.moved_caller hd with ⟨rfl, rfl⟩ | ⟨-, hd⟩
      · exact (h.origin q c caller).moved move
      · exact h.origin q d hd
    · intro q d j hd hj
      rcases System.moved_caller hd with ⟨rfl, rfl⟩ | ⟨hq, hd⟩
      · have hopen : σ.answer? = none := by
          cases σ <;> first | rfl | cases hj
        rw [System.moved_world, hopen]
        exact move.journal? (fun j => h.journal q c j caller) hj
      · rw [(System.moved_frame move.frame).journals q hq]
        exact h.journal q d j hd hj

end UnitLedger.Concurrent
