import UnitLedger.Proofs.Concurrent.Told

/-!
  UnitLedger.Proofs.Concurrent.Asked — what a transfer has asked the store before it stands where it is.

  A caller records the operations that it was answered. `Asked` reads the record off the stage as far as
  it matters: up to its locks a transfer has opened its transaction and looked its key up, and whoever
  came further was answered the locking operation, unless the key already had a record.
-/

namespace UnitLedger.Concurrent

open Memory (Party World Tables)
open Store (Op)

def Asked (call : Call) (asked : List Op) : Stage → Prop
  | .opening _ => asked = []
  | .looking o k => asked = [.openTx] ∧ o.key = some k
  | .locking o | .lockWaiting o _ _ _ => asked = .openTx :: (o.key.map Op.findByKey).toList
  | .repeating _ _ | .withdrawing _ .duplicateIdempotencyKey => True
  | .checking o | .debiting o _ | .crediting o _ | .creditWaiting o _ | .appending o _
  | .committing o _ _ | .withdrawing o _ | .reopening o _ | .relooking o _ | .judging o _ _ =>
      Stage.lockOp o ∈ asked
  | .finished (.transfer (.ok _)) | .finished (.transfer (.error .duplicateIdempotencyKey)) => True
  | .finished (.transfer (.error _)) => ∀ request o, call = .transfer request →
      request.validate = .ok o → Stage.lockOp o ∈ asked
  | _ => ∀ request, call ≠ .transfer request

section Asked

variable {s s' : System Stage} {p : Party} {c : Caller Stage} {now : Instant} {w w' : World}
  {σ σ' : Stage} {answered : Option Op} {event : Event} {call : Call} {asked : List Op}
  {o : TransferOrder}

theorem Asked.start (fundId entryId : Uuid) (now : Instant) (call : Call) :
    Asked call [] (Stage.start fundId entryId now call) := by
  cases call with
  | transfer request =>
    simp only [Stage.start]
    cases hvalid : request.validate with
    | ok o => exact rfl
    | error e =>
      have hno : ∀ request' o, Call.transfer request = .transfer request' →
          request'.validate = .ok o → Stage.lockOp o ∈ ([] : List Op) := by
        intro request' o hcall ho
        cases hcall
        rw [hvalid] at ho
        cases ho
      cases e <;> trivial
  | createFund name total owner =>
    simp only [Stage.start]
    repeat' split
    all_goals exact fun request hcall => by cases hcall
  | getOwnership fund owner =>
    simp only [Stage.start]
    split <;> exact fun request hcall => by cases hcall
  | _ => exact fun request hcall => by cases hcall

/-- Who has just locked its rows was answered the locking operation. -/
theorem Asked.locked (o : TransferOrder) :
    Stage.lockOp o ∈ asked ++ (some (Stage.lockOp o)).toList := by
  simp

theorem Asked.move (h : Asked call asked σ)
    (origin : ∀ o, σ.order? = some o → ∃ request, call = .transfer request ∧ request.validate = .ok o)
    (move : Stage.Move w p now σ w' σ' answered) : Asked call (asked ++ answered.toList) σ' := by
  -- The order of a transfer is determined by its call.
  have hsame : ∀ o, σ.order? = some o → Stage.lockOp o ∈ asked ++ answered.toList →
      ∀ request o', call = .transfer request → request.validate = .ok o' →
        Stage.lockOp o' ∈ asked ++ answered.toList := by
    intro o ho hmem request o' hcall hvalid
    obtain ⟨request', hcall', hvalid'⟩ := origin o ho
    rw [hcall'] at hcall
    cases hcall
    rw [hvalid'] at hvalid
    cases hvalid
    exact hmem
  have hlater : ∀ o, Stage.lockOp o ∈ asked → Stage.lockOp o ∈ asked ++ answered.toList :=
    fun o => List.mem_append_left _
  cases move with
  | idle => simpa using h
  | @openKeyless o key =>
    have hnil : asked = [] := h
    simp [Asked, hnil, key]
  | @openKeyed o k key =>
    have hnil : asked = [] := h
    simp [Asked, hnil, key]
  | @lookFresh o k found =>
    obtain ⟨hopen, hkey⟩ : asked = [.openTx] ∧ o.key = some k := h
    simp [Asked, hopen, hkey]
  | lookSame | lookConflict | commit | repeated => trivial
  | lockNone | lockShort | lockEnough | lockError | lockGiveUp => exact Asked.locked _
  | lockPause run =>
    simp only [Option.toList_none, List.append_nil]
    cases Stage.lockRun_cases run <;> exact h
  | check =>
    have hlock : Stage.lockOp _ ∈ asked := h
    split <;> exact hlater _ hlock
  | debit | creditNew | creditLocked | creditPause | creditGiveUp | creditGo | append | refuse
  | commitBeaten | reopen | relook => exact hlater _ h
  | commitRefused => exact hsame _ rfl (hlater _ h)
  | @withdraw o e race =>
    cases e with
    | duplicateIdempotencyKey => trivial
    | _ => exact hsame o rfl (hlater _ h)
  | @withdrawBeaten o e k race =>
    cases e with
    | store => exact hlater _ h
    | _ => cases race
  | @judge o k found =>
    unfold Stage.verdict
    cases o.replay found <;> trivial
  | @noFund fund reading found => cases reading <;> exact h
  | _ => exact h

/-- Who is about to lock rows was not answered the locking operation yet. -/
theorem Asked.not_locked (h : Asked call asked σ) {r : World × Stage.LockResult}
    (run : σ.lockRun w p = some (o, r)) : Stage.lockOp o ∉ asked := by
  have hlist : asked = .openTx :: (o.key.map Op.findByKey).toList := by
    cases Stage.lockRun_cases run <;> exact h
  intro hmem
  rw [hlist] at hmem
  cases hk : o.key <;> simp [hk, Stage.lockOp] at hmem

theorem asked_run (fresh : Nat → Uuid) (es : List Event) :
    ∀ p c, ((System.opened fresh {}).run stages es).caller p = some c →
      Asked c.call c.asked c.progress := by
  have hboth : Told ((System.opened fresh {}).run stages es) ∧
      ∀ p c, ((System.opened fresh {}).run stages es).caller p = some c →
        Asked c.call c.asked c.progress := by
    refine System.run_history (P := fun _ s => Told s ∧ ∀ p c, s.caller p = some c →
      Asked c.call c.asked c.progress) ⟨told_opened fresh {}, fun p c hc => by cases hc⟩ ?_ es
    intro es e s' ih hs
    obtain ⟨told, hasked⟩ := ih
    refine ⟨told.step hs, ?_⟩
    intro q d hd
    cases hs with
    | ignored => exact hasked q d hd
    | arrives new =>
      rcases System.arrive_caller hd with ⟨-, rfl⟩ | ⟨-, hd⟩
      · exact .start _ _ _ _
      · exact hasked q d hd
    | @moves p now c w σ answered caller unfinished move =>
      rcases System.moved_caller hd with ⟨-, rfl⟩ | ⟨-, hd⟩
      · exact (hasked p c caller).move (told.origin p c caller).order move
      · exact hasked q d hd
  exact hboth.2

end Asked

end UnitLedger.Concurrent
