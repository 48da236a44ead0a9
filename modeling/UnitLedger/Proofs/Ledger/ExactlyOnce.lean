import UnitLedger.Proofs.Concurrent.Sound
import UnitLedger.Proofs.Concurrent.Unfolding

/-!
  UnitLedger.Proofs.Ledger.ExactlyOnce — an idempotency key belongs to one transfer.

  A transfer can meet a key that is already used at four points: when it looks the key up, when it
  appends its record, when it commits, and when it looks again after being refused. `Knows` says what
  the call knows of the committed records at each stage, whichever way it came there, and `Knows.move`
  that every move keeps it. Records are only ever added (`Move.transfers`), so what was known once is
  known for good.

  `transfers_once` is what a caller sees: no key has two records, an answered record is committed and
  is the request's own, two answers for one key are the same record, a refusal for the key is only
  given when the key's record differs from the request, and a call that does not commit its own record
  changes nothing.
-/

namespace UnitLedger.Ledger

open Concurrent Memory
open Store (Op)

/-! ## What a call knows of the records -/

def Answers (t : Tables) (o : TransferOrder) (r : Transfer) : Prop :=
  r ∈ t.transfers ∧ r.key = o.key ∧ o.describes r = true

def Conflicts (t : Tables) (o : TransferOrder) : Prop :=
  ∃ k, o.key = some k ∧ ∃ r ∈ t.transfers, r.key = some k ∧ o.describes r = false

def Taken (t : Tables) (k : Uuid) : Prop := ∃ r ∈ t.transfers, r.key = some k

def Knows (t : Tables) (call : Call) : Stage → Prop
  | .looking o k => o.key = some k
  | .repeating o r => Answers t o r
  | .withdrawing o .duplicateIdempotencyKey => Conflicts t o
  | .withdrawing o (.store e) =>
    e.violates Constraint.idempotencyKey = true → ∀ k, o.key = some k → Taken t k
  | .reopening o k | .relooking o k => o.key = some k ∧ Taken t k
  | .judging o k found => o.key = some k ∧ ∃ r, found = some r ∧ r ∈ t.transfers ∧ r.key = some k
  | .finished (.transfer (.ok r)) => ∃ request o, call = .transfer request ∧
      request.validate = .ok o ∧ Answers t o r
  | .finished (.transfer (.error .duplicateIdempotencyKey)) => ∃ request o, call = .transfer request ∧
      request.validate = .ok o ∧ Conflicts t o
  | _ => True

section Knows

variable {t t' : Tables} {call : Call} {σ : Stage} {o : TransferOrder} {r : Transfer} {k : Uuid}

theorem Answers.mono (h : Answers t o r) (hsub : t.transfers ⊆ t'.transfers) : Answers t' o r :=
  ⟨hsub h.1, h.2⟩

theorem Conflicts.mono (h : Conflicts t o) (hsub : t.transfers ⊆ t'.transfers) :
    Conflicts t' o := by
  obtain ⟨k, hk, r, hr, hand⟩ := h
  exact ⟨k, hk, r, hsub hr, hand⟩

theorem Taken.mono (h : Taken t k) (hsub : t.transfers ⊆ t'.transfers) : Taken t' k := by
  obtain ⟨r, hr, hand⟩ := h
  exact ⟨r, hsub hr, hand⟩

theorem taken_iff : Taken t k ↔ (t.findByKey k).isSome = true := Tables.findByKey_isSome_iff.symm

/-- What is known stays known while records are only added. -/
theorem Knows.mono (h : Knows t call σ) (hsub : t.transfers ⊆ t'.transfers) :
    Knows t' call σ := by
  unfold Knows at h ⊢
  split
  · exact h
  · exact h.mono hsub
  · exact h.mono hsub
  · exact fun hv k hk => (h hv k hk).mono hsub
  · exact ⟨h.1, h.2.mono hsub⟩
  · exact ⟨h.1, h.2.mono hsub⟩
  · obtain ⟨hk, r, hfound, hr, hand⟩ := h
    exact ⟨hk, r, hfound, hsub hr, hand⟩
  · obtain ⟨request, o, hcall, hvalid, hans⟩ := h
    exact ⟨request, o, hcall, hvalid, hans.mono hsub⟩
  · obtain ⟨request, o, hcall, hvalid, hconf⟩ := h
    exact ⟨request, o, hcall, hvalid, hconf.mono hsub⟩
  · trivial

end Knows

/-! ## Moves -/

theorem storeError_violates {v : Violation}
    (h : v.storeError.violates Constraint.idempotencyKey = true) :
    v = .unique Constraint.idempotencyKey := by
  cases v <;> simp_all [Violation.storeError, StoreError.violates]

theorem raceKey?_eq_some {o : TransferOrder} {e : LedgerError} {k : Uuid}
    (h : Service.raceKey? o e = some k) :
    ∃ e', e = .store e' ∧ e'.violates Constraint.idempotencyKey = true ∧ o.key = some k := by
  unfold Service.raceKey? at h
  split at h
  · rename_i e'
    split at h
    · rename_i hv
      exact ⟨e', rfl, hv, h⟩
    · cases h
  · cases h

theorem validate_ne_duplicate {request : TransferRequest} :
    request.validate ≠ .error .duplicateIdempotencyKey := by
  unfold TransferRequest.validate
  repeat' split
  all_goals simp

/-- What a call may rely on at its stage. -/
structure Standing (w : World) (p : Party) (call : Call) (σ : Stage) : Prop where
  knows : Knows w.tables call σ
  journal : ∀ j, σ.journal? = some j → w.journal p = j
  order : ∀ o, σ.order? = some o → ∃ request, call = .transfer request ∧ request.validate = .ok o
  record : ∀ o source r, σ = .committing o source r → ∃ id now, r = o.record id now

section Moves

variable {w w' : World} {p : Party} {now : Instant} {call : Call} {σ σ' : Stage}
  {answered : Option Op}

/-- A party without a record of its own finds committed ones. -/
theorem findByKey_nil {w : World} {p : Party} {k : Uuid} (hj : w.journal p = []) :
    (w.journal p).findByKey w.tables k = w.tables.findByKey k := by
  rw [hj]
  exact Option.or_none

theorem taken_of_refused {v : Violation} {j : Journal} {t : Tables} {r : Transfer}
    (hj : ∀ k, j.recordOf k = none) (h : j.addTransfer t r = .error v)
    (hv : v.storeError.violates Constraint.idempotencyKey = true) :
    ∃ k, r.key = some k ∧ Taken t k := by
  obtain rfl := storeError_violates hv
  unfold Journal.addTransfer at h
  iterate 5
    split at h
    · simp [Violation.ownersDiffer, Violation.transferUnits] at h
  split at h
  · rename_i hused
    cases hk : r.key with
    | none => simp [hk] at hused
    | some k =>
      simp only [hk, Option.any_some, Journal.keyUsed, hj, Option.isSome_none, Bool.or_false] at hused
      exact ⟨k, rfl, taken_iff.mpr hused⟩
  · cases h

/-- The commit of a transfer adds its record, under a key that was free. When it is refused it adds
nothing, and if it is refused for the key, the key is taken. -/
theorem commit_transfers (now : Instant) {e : Entry} {r : Transfer}
    (hj : w.journal p = Journal.move e.id r) :
    ((w.commitTx p now).2 = .ok () ∧
      (w.commitTx p now).1.tables.transfers = w.tables.transfers ++ [r] ∧
      ∀ k, r.key = some k → w.tables.findByKey k = none) ∨
    (∃ err, (w.commitTx p now).2 = .error err ∧
      (w.commitTx p now).1.tables.transfers = w.tables.transfers ∧
      (err.violates Constraint.idempotencyKey = true → ∃ k, r.key = some k ∧ Taken w.tables k)) := by
  have hcommit := Tables.commit_move_transfers (t := w.tables) (fun n => w.fresh (w.used + n)) now
    e.id r
  rw [← hj] at hcommit
  rcases hcommit with ⟨hok, hrecords, hkey⟩ | ⟨v, herror, hrecords, hkey⟩
  · refine Or.inl ⟨?_, hrecords, hkey⟩
    simp only [World.commitTx, hok]
    rfl
  · refine Or.inr ⟨v.storeError, ?_, hrecords, fun hv => ?_⟩
    · simp only [World.commitTx, herror]
      rfl
    · obtain ⟨k, hk, hused⟩ := hkey (storeError_violates hv)
      exact ⟨k, hk, taken_iff.mpr hused⟩

/-- Without a reset, a move adds the record that it commits, under a key that was free, or none. -/
theorem move_transfers (move : Stage.Move w p now σ w' σ' answered)
    (journal : ∀ j, σ.journal? = some j → w.journal p = j) (hreset : σ ≠ .resetting) :
    w'.tables.transfers = w.tables.transfers ∨
    ∃ r, σ' = .finished (.transfer (.ok r)) ∧ w'.tables.transfers = w.tables.transfers ++ [r] ∧
      ∀ k, r.key = some k → w.tables.findByKey k = none := by
  have htables := move.tables
  cases σ with
  | committing o e r =>
    have hj := journal _ rfl
    obtain ⟨rfl, hdone⟩ := move.of_committing
    rcases commit_transfers now hj with ⟨hok, hrecords, hkey⟩ | ⟨err, -, hrecords, -⟩
    · exact Or.inr ⟨r, hdone hok, hrecords, hkey⟩
    · exact Or.inl hrecords
  | committingFund f e =>
    have hj := journal _ rfl
    simp only [Stage.tablesAfter, hj] at htables
    exact Or.inl (by rw [htables, Tables.commit_founding_transfers])
  | resetting => exact absurd rfl hreset
  | _ => exact Or.inl (congrArg Tables.transfers htables)

/-- A transfer that commits its record is answered a record of its own request. -/
theorem Standing.committed {o : TransferOrder} {e : Entry} {r : Transfer}
    (standing : Standing w p call (.committing o e r)) (done : (w.commitTx p now).2 = .ok ()) :
    Knows (w.commitTx p now).1.tables call (.finished (.transfer (.ok r))) := by
  rcases commit_transfers now (standing.journal _ rfl) with ⟨-, hrecords, -⟩ | ⟨err, herror, -, -⟩
  · obtain ⟨request, hcall, hvalid⟩ := standing.order o rfl
    obtain ⟨id, t, rfl⟩ := standing.record o e r rfl
    refine ⟨request, o, hcall, hvalid, ?_, rfl, ?_⟩
    · rw [hrecords]
      exact List.mem_append_right _ (List.mem_singleton_self _)
    · simp [TransferOrder.describes, TransferOrder.record]
  · rw [herror] at done
    cases done

/-- One that is refused for its key has been beaten to it. -/
theorem Standing.beaten {o : TransferOrder} {e : Entry} {r : Transfer} {err : StoreError} {k : Uuid}
    (standing : Standing w p call (.committing o e r)) (failed : (w.commitTx p now).2 = .error err)
    (race : Service.raceKey? o (.store err) = some k) :
    Knows (w.commitTx p now).1.tables call (.reopening o k) := by
  obtain ⟨e', he', hv, hk⟩ := raceKey?_eq_some race
  cases he'
  rcases commit_transfers now (standing.journal _ rfl) with ⟨hok, -, -⟩ | ⟨err', herror, hrecords, hkey⟩
  · rw [hok] at failed
    cases failed
  · cases herror.symm.trans failed
    obtain ⟨k', hk', htaken⟩ := hkey hv
    obtain ⟨id, t, rfl⟩ := standing.record o e r rfl
    have heq : some k' = some k := hk'.symm.trans hk
    cases heq
    exact ⟨hk, htaken.mono (by rw [hrecords]; exact List.Subset.refl _)⟩

/-- What a call knows after a move. -/
theorem Knows.move (move : Stage.Move w p now σ w' σ' answered) (standing : Standing w p call σ) :
    Knows w'.tables call σ' := by
  have horder := standing.order
  have hknows := standing.knows
  have hjournal := standing.journal
  cases move with
  | openKeyed key => exact key
  | @lookSame o k r found same =>
    rw [findByKey_nil (hjournal _ rfl)] at found
    obtain ⟨hmem, hkey⟩ := Tables.mem_of_findByKey found
    have ho : o.key = some k := hknows
    exact ⟨hmem, hkey.trans ho.symm, same⟩
  | @lookConflict o k r found differs =>
    rw [findByKey_nil (hjournal _ rfl)] at found
    obtain ⟨hmem, hkey⟩ := Tables.mem_of_findByKey found
    exact ⟨k, hknows, r, hmem, hkey, differs⟩
  | lockError run => exact absurd run Stage.lockRun_ne_error
  | lockGiveUp | creditGiveUp =>
    intro hv
    simp [StoreError.violates] at hv
  | check =>
    split <;> trivial
  | @refuse o e v refused =>
    intro hv k hk
    have hnone : ∀ k, (w.journal p).recordOf k = none := by
      intro k
      rw [hjournal _ rfl]
      rfl
    obtain ⟨k', hk', htaken⟩ := taken_of_refused hnone refused hv
    have heq : some k' = some k := hk'.symm.trans hk
    cases heq
    exact htaken
  | commit done => exact standing.committed done
  | commitBeaten failed race => exact standing.beaten failed race
  | @repeated o r =>
    obtain ⟨request, hcall, hvalid⟩ := horder o rfl
    exact ⟨request, o, hcall, hvalid, hknows⟩
  | @withdraw o e race =>
    cases e with
    | duplicateIdempotencyKey =>
      obtain ⟨request, hcall, hvalid⟩ := horder o rfl
      exact ⟨request, o, hcall, hvalid, hknows⟩
    | _ => trivial
  | @withdrawBeaten o e k race =>
    obtain ⟨e', rfl, hv, hk⟩ := raceKey?_eq_some race
    exact ⟨hk, hknows hv k hk⟩
  | reopen => exact hknows
  | @relook o k =>
    obtain ⟨hk, htaken⟩ := hknows
    rw [findByKey_nil (hjournal _ rfl)]
    obtain ⟨r, hr⟩ := Option.isSome_iff_exists.mp (taken_iff.mp htaken)
    obtain ⟨hmem, hkey⟩ := Tables.mem_of_findByKey hr
    exact ⟨hk, r, hr, hmem, hkey⟩
  | @judge o k found =>
    obtain ⟨hk, r, rfl, hmem, hkey⟩ := hknows
    obtain ⟨request, hcall, hvalid⟩ := horder o rfl
    unfold Stage.verdict TransferOrder.replay
    dsimp only
    cases hsame : o.describes r with
    | true => exact ⟨request, o, hcall, hvalid, hmem, hkey.trans hk.symm, hsame⟩
    | false => exact ⟨request, o, hcall, hvalid, k, hk, r, hmem, hkey, hsame⟩
  | idle => exact hknows
  | @noFund fund reading found => cases reading <;> trivial
  | _ => trivial

end Moves

/-- A call that begins knows nothing yet. -/
theorem Knows.start (t : Tables) (fundId entryId : Uuid) (now : Instant) (call : Call) :
    Knows t call (Stage.start fundId entryId now call) := by
  cases call with
  | transfer request =>
    simp only [Stage.start]
    cases h : request.validate with
    | ok o => trivial
    | error e =>
      cases e with
      | duplicateIdempotencyKey => exact absurd h validate_ne_duplicate
      | _ => trivial
  | createFund name total owner =>
    simp only [Stage.start]
    repeat' split
    all_goals trivial
  | getOwnership fund owner =>
    simp only [Stage.start]
    split <;> trivial
  | _ => trivial

/-! ## Runs -/

def Informed (young : Party → Prop) (s : System Stage) : Prop :=
  ∀ p c, young p → s.caller p = some c → Knows s.world.tables c.call c.progress

structure Once (s : System Stage) : Prop extends Told s where
  knows : Informed (fun _ => True) s
  keys : (s.world.tables.transfers.filterMap (·.key)).Nodup

section Runs

variable {s s' : System Stage} {e : Event} {p : Party} {c : Caller Stage} {young : Party → Prop}

theorem Informed.standing (h : Informed young s) (told : Told s) (hp : young p)
    (hc : s.caller p = some c) : Standing s.world p c.call c.progress :=
  ⟨h p c hp hc, fun j => told.journal p c j hc, (told.origin p c hc).order,
    (told.origin p c hc).record⟩

/-- Without a reset, an event adds one record under a free key, or none. -/
theorem step_transfers (told : Told s)
    (hreset : ∀ p c, s.caller p = some c → c.progress ≠ .resetting) (hs : s.Step e s') :
    s'.world.tables.transfers = s.world.tables.transfers ∨
    ∃ r, s'.world.tables.transfers = s.world.tables.transfers ++ [r] ∧
      ∀ k, r.key = some k → s.world.tables.findByKey k = none := by
  cases hs with
  | ignored | arrives => exact Or.inl rfl
  | @moves p now c w σ answered caller unfinished move =>
    rw [System.moved_tables]
    rcases move_transfers move (fun j => told.journal p c j caller) (hreset p c caller) with
      heq | ⟨r, -, heq, hfree⟩
    · exact Or.inl heq
    · exact Or.inr ⟨r, heq, hfree⟩

/-- Records stay. -/
theorem transfers_subset (told : Told s)
    (hreset : ∀ p c, s.caller p = some c → c.progress ≠ .resetting) (hs : s.Step e s') :
    s.world.tables.transfers ⊆ s'.world.tables.transfers := by
  rcases step_transfers told hreset hs with heq | ⟨r, heq, -⟩
  · rw [heq]
    exact List.Subset.refl _
  · rw [heq]
    exact List.subset_append_left _ _

theorem Informed.step (h : Informed young s) (told : Told s)
    (hreset : ∀ p c, s.caller p = some c → c.progress ≠ .resetting) (hs : s.Step e s') :
    Informed young s' := by
  have hsub := transfers_subset told hreset hs
  intro q d hq hd
  cases hs with
  | ignored => exact h q d hq hd
  | arrives new =>
    rcases System.arrive_caller hd with ⟨-, rfl⟩ | ⟨-, hd⟩
    · exact Knows.start _ _ _ _ _
    · exact h q d hq hd
  | moves caller unfinished move =>
    rcases System.moved_caller hd with ⟨rfl, rfl⟩ | ⟨-, hd⟩
    · rw [System.moved_tables]
      exact Knows.move move (h.standing told hq caller)
    · exact (h q d hq hd).mono hsub

theorem Once.step (h : Once s) (hreset : ∀ p c, s.caller p = some c → c.progress ≠ .resetting)
    (hs : s.Step e s') : Once s' := by
  refine ⟨h.toTold.step hs, h.knows.step h.toTold hreset hs, ?_⟩
  rcases step_transfers h.toTold hreset hs with heq | ⟨r, heq, hfree⟩
  · rw [heq]
    exact h.keys
  · rw [heq, List.filterMap_append]
    cases hk : r.key with
    | none => simpa [hk] using h.keys
    | some k =>
      simp only [List.filterMap_cons, hk, List.filterMap_nil]
      refine List.nodup_append.mpr ⟨h.keys, by simp, ?_⟩
      intro a ha b hb hab
      obtain ⟨r', hr', hkey⟩ := List.mem_filterMap.mp ha
      rw [List.mem_singleton] at hb
      have hnone := hfree k hk
      have htaken : Taken s.world.tables k := ⟨r', hr', by rw [hkey, hab, hb]⟩
      rw [taken_iff, hnone] at htaken
      cases htaken

theorem once_run {fresh : Nat → Uuid} (es : List Event) (h : NoReset es) :
    Once ((System.opened fresh {}).run stages es) := by
  refine System.run_history (P := fun es s => NoReset es → Once s) ?_ ?_ es h
  · intro _
    refine ⟨told_opened fresh {}, ?_, by simp [System.opened]⟩
    intro p c _ hc
    cases hc
  · intro es e s' ih hs h
    have hold : NoReset es := fun p now hmem => h p now (List.mem_append_left _ hmem)
    exact (ih hold).step (System.run_noReset es hold) hs

/-- What a transfer changes is its own record's doing. -/
theorem transfer_changes {request : TransferRequest} (sound : Sound s)
    (hreset : ∀ p c, s.caller p = some c → c.progress ≠ .resetting) (hs : s.Step e s')
    (hids : DistinctIds s'.world.fresh s'.world.used) (hc : s'.caller e.party = some c)
    (hcall : c.call = .transfer request) :
    s'.world.tables = s.world.tables ∨
    ∃ r, s.answer? stages e.party = none ∧
      s'.answer? stages e.party = some (.transfer (.ok r)) ∧
      s'.world.tables.transfers = s.world.tables.transfers ++ [r] := by
  cases hs with
  | ignored | arrives => exact Or.inl rfl
  | @moves p now d w σ answered caller unfinished move =>
    have hc' : c = d.moved σ answered := by
      have hself : (s.moved p d w σ answered).caller p = some (d.moved σ answered) :=
        System.moved_caller_self
      exact Option.some.inj (hc.symm.trans hself)
    subst hc'
    rw [System.moved_tables]
    cases sound.change caller move (by simpa using hids) with
    | same tables => exact Or.inl tables
    | reset stage => exact absurd stage (hreset p d caller)
    | @founded f e' stage =>
      obtain ⟨name, total, owner, hfund, -⟩ :=
        (sound.origin p d caller).founding f e' (by rw [stage]; rfl)
      have hcall' : d.call = .transfer request := hcall
      rw [hfund] at hcall'
      cases hcall'
    | @settled o source r e' id stage sourceId admits unused drawn tables =>
      refine Or.inr ⟨r, ?_, ?_, ?_⟩
      · simp only [System.answer?, Event.party, caller, Option.bind_some, stage]
        rfl
      · simp only [System.answer?, Event.party, System.moved_caller_self, Option.bind_some]
        rfl
      · rw [tables, Tables.settled_transfers]

end Runs

/-! ## The ledger -/

/-- The record moved what the request asks for. -/
def Repeats (r : Transfer) (request : TransferRequest) : Prop :=
  r.fund = request.fund ∧ Name.normalize? request.source = some r.source ∧
    Name.normalize? request.target = some r.target ∧ r.units = request.units

theorem repeats_iff {o : TransferOrder} {r : Transfer} {request : TransferRequest}
    (h : o.Accepted request) : Repeats r request ↔ o.describes r = true := by
  simp only [Repeats, TransferOrder.describes, Bool.and_eq_true, beq_iff_eq, h.source, h.target,
    Option.some.injEq, ← h.fund, ← h.units]
  constructor
  · rintro ⟨hf, hs, ht, hu⟩
    exact ⟨⟨⟨hf.symm, hs⟩, ht⟩, hu.symm⟩
  · rintro ⟨⟨⟨hf, hs⟩, ht⟩, hu⟩
    exact ⟨hf.symm, hs, ht, hu.symm⟩

def Answered (s : System (Status Answer)) (p : Party) (request : TransferRequest)
    (a : Except LedgerError Transfer) : Prop :=
  s.answer? programs p = some (.transfer a) ∧ ∃ c, s.caller p = some c ∧ c.call = .transfer request

structure ExactlyOnce (s : System (Status Answer)) : Prop where
  keys : (s.world.tables.transfers.filterMap (·.key)).Nodup
  committed : ∀ p request r, Answered s p request (.ok r) →
    r ∈ s.world.tables.transfers ∧ r.key = request.key ∧ Repeats r request
  agreed : ∀ p q request request' r r' k, Answered s p request (.ok r) →
    Answered s q request' (.ok r') → request.key = some k → request'.key = some k → r = r'
  refused : ∀ p request, Answered s p request (.error .duplicateIdempotencyKey) →
    ∃ k, request.key = some k ∧ ∃ r ∈ s.world.tables.transfers, r.key = some k ∧ ¬ Repeats r request

/-- Of two records with one key, each is the other. -/
theorem eq_of_key {rs : List Transfer} (h : (rs.filterMap (·.key)).Nodup) {r r' : Transfer}
    {k : Uuid} (hr : r ∈ rs) (hr' : r' ∈ rs) (hk : r.key = some k) (hk' : r'.key = some k) :
    r = r' := by
  induction rs with
  | nil => cases hr
  | cons x rs ih =>
    have hrest : (rs.filterMap (·.key)).Nodup := by
      cases hx : x.key with
      | none => simpa [hx] using h
      | some kx =>
        simp only [List.filterMap_cons, hx, List.nodup_cons] at h
        exact h.2
    have hhead : x.key = some k → ∀ y ∈ rs, y.key ≠ some k := by
      intro hx y hy hyk
      simp only [List.filterMap_cons, hx, List.nodup_cons] at h
      exact h.1 (List.mem_filterMap.mpr ⟨y, hy, hyk⟩)
    rcases List.mem_cons.mp hr with heq | hmem
    · rcases List.mem_cons.mp hr' with heq' | hmem'
      · rw [heq, heq']
      · exact absurd hk' (hhead (heq ▸ hk) r' hmem')
    · rcases List.mem_cons.mp hr' with heq' | hmem'
      · exact absurd hk (hhead (heq' ▸ hk') r hmem)
      · exact ih hrest hmem hmem'

theorem Once.exactlyOnce {s : System Stage} (h : Once s) : ExactlyOnce (s.map Stage.status) := by
  -- What an answered call knows, from its stage.
  have hknown : ∀ p request a, Answered (s.map Stage.status) p request a →
      ∃ c, s.caller p = some c ∧ c.call = .transfer request ∧
        c.progress = .finished (.transfer a) := by
    rintro p request a ⟨hans, c', hc', hcall⟩
    obtain ⟨c, hc, rfl⟩ := Option.map_eq_some_iff.mp hc'
    rw [System.answer?_map, System.answer?_eq_some] at hans
    obtain ⟨d, hd, hstage⟩ := hans
    rw [hc] at hd
    cases hd
    exact ⟨c, hc, hcall, hstage⟩
  have hcommitted : ∀ p request r, Answered (s.map Stage.status) p request (.ok r) →
      r ∈ s.world.tables.transfers ∧ r.key = request.key ∧ Repeats r request := by
    intro p request r hans
    obtain ⟨c, hc, hcall, hstage⟩ := hknown p request _ hans
    have hknows := h.knows p c trivial hc
    rw [hstage] at hknows
    obtain ⟨request', o, hcall', hvalid, hmem, hkey, hsame⟩ := hknows
    rw [hcall] at hcall'
    cases hcall'
    have hacc := TransferOrder.accepted hvalid
    exact ⟨hmem, hkey.trans hacc.key, (repeats_iff hacc).mpr hsame⟩
  refine ⟨h.keys, hcommitted, ?_, ?_⟩
  · intro p q request request' r r' k hans hans' hk hk'
    obtain ⟨hr, hkey, -⟩ := hcommitted p request r hans
    obtain ⟨hr', hkey', -⟩ := hcommitted q request' r' hans'
    exact eq_of_key h.keys hr hr' (hkey.trans hk) (hkey'.trans hk')
  · intro p request hans
    obtain ⟨c, hc, hcall, hstage⟩ := hknown p request _ hans
    have hknows := h.knows p c trivial hc
    rw [hstage] at hknows
    obtain ⟨request', o, hcall', hvalid, k, hk, r, hmem, hkey, hdiffers⟩ := hknows
    rw [hcall] at hcall'
    cases hcall'
    have hacc := TransferOrder.accepted hvalid
    refine ⟨k, hacc.key.symm.trans hk, r, hmem, hkey, ?_⟩
    rw [repeats_iff hacc, hdiffers]
    simp

/-- In every state of every run without a reset, a key belongs to one committed transfer, and every
answer for the key agrees with it; and an event of a transfer changes nothing, unless the transfer
commits its own record in it and is answered this record. -/
theorem transfers_once {fresh : Nat → Uuid} (es : List Event) (hreset : NoReset es) :
    ExactlyOnce (ledger fresh es) ∧
    (DistinctIds fresh (ledger fresh es).world.used →
      ∀ before e after, es = before ++ e :: after → ∀ c request,
        (ledger fresh (before ++ [e])).caller e.party = some c → c.call = .transfer request →
        (ledger fresh (before ++ [e])).world.tables = (ledger fresh before).world.tables ∨
        ∃ r, (ledger fresh before).answer? programs e.party = none ∧
          (ledger fresh (before ++ [e])).answer? programs e.party = some (.transfer (.ok r)) ∧
          (ledger fresh (before ++ [e])).world.tables.transfers =
            (ledger fresh before).world.tables.transfers ++ [r]) := by
  simp only [ledger_eq_stages, System.answer?_map]
  refine ⟨(once_run es hreset).exactlyOnce, ?_⟩
  rintro hids before e after rfl c' request hc' hcall
  obtain ⟨c, hc, rfl⟩ := Option.map_eq_some_iff.mp hc'
  have hused := System.used_le_run ((System.opened fresh {}).run stages (before ++ [e])) after
  rw [← System.run_run, List.append_assoc, List.singleton_append] at hused
  have hids' := DistinctIds.mono hids hused
  rw [System.run_append] at hc hids' ⊢
  have hs := System.step_step ((System.opened fresh {}).run stages before) e
  have hnone : ∀ p c, ((System.opened fresh {}).run stages before).caller p = some c →
      c.progress ≠ .resetting :=
    System.run_noReset before fun p now hmem => hreset p now (List.mem_append_left _ hmem)
  have hfresh : ((System.step stages ((System.opened fresh {}).run stages before) e)).world.fresh =
      fresh := by
    rw [System.step_fresh hs, System.run_fresh]
    rfl
  exact transfer_changes (sound_run before (hids'.mono (System.step_used hs))) hnone hs
    (by rw [hfresh]; exact hids') hc hcall

/-- Ada gives Ben four units in two calls with one key. Both look the key up before either commits. -/
def twins : List Event :=
  let request : TransferRequest := ⟨Uuid.ofNat 0, "Ada", " Ben", 4, some (Uuid.ofNat 77)⟩
  [.call 0 (.createFund "Hull" 10 "Ada") ⟨0⟩] ++ List.replicate 4 (.turn 0 ⟨1⟩) ++
  [.call 1 (.transfer request) ⟨2⟩, .call 2 (.transfer request) ⟨2⟩, .turn 1 ⟨3⟩, .turn 2 ⟨3⟩,
    .turn 1 ⟨3⟩, .turn 2 ⟨3⟩] ++
  List.replicate 5 (.turn 1 ⟨4⟩) ++ List.replicate 8 (.turn 2 ⟨5⟩)

theorem twins_once :
    NoReset twins ∧ DistinctIds Uuid.ofNat (ledger Uuid.ofNat twins).world.used ∧
    (ledger Uuid.ofNat twins).world.tables.transfers.length = 1 ∧
    ((ledger Uuid.ofNat twins).answer? programs 2).isSome = true ∧
    ExactlyOnce (ledger Uuid.ofNat twins) := by
  have hreset : NoReset twins := by
    intro p now hmem
    simp [twins] at hmem
  exact ⟨hreset, by decide +kernel, by decide +kernel, by decide +kernel,
    (transfers_once twins hreset).1⟩

end UnitLedger.Ledger
