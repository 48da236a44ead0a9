import UnitLedger.Proofs.Concurrent.Step
import UnitLedger.Proofs.Concurrent.Unfolding

/-!
  UnitLedger.Proofs.Concurrent.Alone — a call that nobody disturbs.

  `Alone` is what a call does when it is the only one: the store has some rows and nothing else, the
  call arrives and has one turn after the other until it is answered. The ids that it draws meanwhile
  are new. What a call does among others is measured by this.

  On the stages it is enough to follow the turns of one party (`Solo`), from the stage at which the
  call begins. A call remembers that stage (`Stage.first?`, `begun_run`).
-/

namespace UnitLedger.Memory.Tables

def ids (t : Tables) : List Uuid :=
  t.funds.map (·.id) ++ t.entries.map (·.id) ++ t.transfers.map (·.id)

end UnitLedger.Memory.Tables

namespace UnitLedger.Concurrent

open Memory (Party World Tables)
open Store (Op)

/-- Run by itself on the rows `t`, the call is answered `a` and leaves the rows `t'`. The ids that are
drawn for it differ from one another and from those of the rows. -/
def Alone (t : Tables) (call : Call) (a : Answer) (t' : Tables) : Prop :=
  ∃ fresh p now, ∃ (turns : List Instant) (s : System (Status Answer)),
    s = (System.opened fresh t).run programs (.call p call now :: turns.map (Event.turn p)) ∧
    s.answer? programs p = some a ∧ s.world.tables = t' ∧ DistinctIds fresh s.world.used ∧
    ∀ n < s.world.used, fresh n ∉ t.ids

/-! ## Where a call began -/

namespace Stage

variable {w w' : World} {p : Party} {now : Instant} {σ σ' σ₀ : Stage} {answered : Option Op}

def first? : Stage → Option Stage
  | opening o | looking o _ | locking o | lockWaiting o _ _ _ | checking o | debiting o _
  | crediting o _ | creditWaiting o _ | appending o _ | committing o _ _ | repeating o _
  | withdrawing o _ | reopening o _ | relooking o _ | judging o _ _ => some (opening o)
  | openingFund f e | insertingFund f e | insertingEntry f e | committingFund f e
  | undoingFund f e _ => some (openingFund f e)
  | findingFund fund reading => some (findingFund fund reading)
  | findingEntry fund owner => some (findingFund fund (.entry owner))
  | listingEntries _ fund params => some (findingFund fund (.capTable params))
  | listingTransfers fund params => some (findingFund fund (.transfers params))
  | listingFunds params => some (listingFunds params)
  | checkingHealth => some checkingHealth
  | resetting => some resetting
  | finished _ => none

theorem lockRun_first? {o : TransferOrder} {r : World × LockResult}
    (h : σ.lockRun w p = some (o, r)) : σ.first? = some (opening o) := by
  cases lockRun_cases h <;> rfl

/-- A call keeps where it began. -/
theorem Move.first? (h : Move w p now σ w' σ' answered) (hσ : σ'.first? = some σ₀) :
    σ.first? = some σ₀ := by
  cases h with
  | lockNone run | lockShort run | lockEnough run | lockError run | lockPause run =>
    cases hσ
    exact lockRun_first? run
  | @noFund fund reading => cases reading <;> cases hσ
  | _ => first | exact hσ | cases hσ

theorem start_first? {fundId entryId : Uuid} {call : Call}
    (h : (start fundId entryId now call).first? = some σ₀) : start fundId entryId now call = σ₀ := by
  cases call with
  | createFund name total owner =>
    simp only [start] at h ⊢
    repeat' split at h
    all_goals first | exact Option.some.inj h | cases h
  | transfer request =>
    simp only [start] at h ⊢
    split at h <;> first | exact Option.some.inj h | cases h
  | getOwnership fund owner =>
    simp only [start] at h ⊢
    split at h <;> first | exact Option.some.inj h | cases h
  | _ => exact Option.some.inj h

end Stage

def Caller.Begun (c : Caller Stage) : Prop :=
  ∀ σ₀, c.progress.first? = some σ₀ → ∃ now, Stage.start c.fundId c.entryId now c.call = σ₀

theorem begun_run (fresh : Nat → Uuid) (tables : Tables) (es : List Event) :
    ∀ p c, ((System.opened fresh tables).run stages es).caller p = some c → c.Begun := by
  refine System.run_history (P := fun _ s => ∀ p c, s.caller p = some c → c.Begun)
    (fun p c hc => by cases hc) ?_ es
  intro es e s' ih hs q d hd
  cases hs with
  | ignored => exact ih q d hd
  | @arrives p call now new =>
    rcases System.arrive_caller hd with ⟨-, rfl⟩ | ⟨-, hd⟩
    · exact fun σ₀ hσ => ⟨now, Stage.start_first? hσ⟩
    · exact ih q d hd
  | @moves p now c w σ answered caller unfinished move =>
    rcases System.moved_caller hd with ⟨-, rfl⟩ | ⟨-, hd⟩
    · exact fun σ₀ hσ => ih p c caller σ₀ (move.first? hσ)
    · exact ih q d hd

/-! ## One party's turns -/

/-- With only its own turns the party goes from the stage, in the world, to this answer; then the store
has the rows `t`, and `n` ids are drawn. -/
inductive Solo (p : Party) : World → Stage → Answer → Tables → Nat → Prop where
  | finished {w a} : Solo p w (.finished a) a w.tables w.used
  | turn {w σ a t n} (now : Instant)
      (rest : Solo p (σ.turn w p now).world (σ.turn w p now).progress a t n) : Solo p w σ a t n

section Solo

variable {p : Party} {w : World} {σ : Stage} {a : Answer} {t t' : Tables} {n : Nat}

/-- The turn of an unfinished call does what its stage does. -/
theorem System.step_turn {s : System Stage} {c : Caller Stage} (hc : s.caller p = some c)
    (hans : c.progress.answer? = none) (now : Instant) :
    s.step stages (.turn p now) = s.keep stages p c (c.progress.turn s.world p now) := by
  have hopen : (stages.answer? c.progress).isSome = false := by
    rw [show stages.answer? c.progress = none from hans]
    rfl
  simp only [System.step, hc, hopen]
  rfl

/-- The transaction of a call that is not answered stays open. -/
theorem System.keep_world {s : System Stage} {c : Caller Stage} {t : Turn Stage}
    (hans : t.progress.answer? = none) : (s.keep stages p c t).world = t.world := by
  have hopen : (stages.answer? t.progress).isSome = false := by
    rw [show stages.answer? t.progress = none from hans]
    rfl
  simp only [System.keep, hopen]
  rfl

/-- The turns are turns of a run. -/
theorem Solo.run (h : Solo p w σ a t n) {s : System Stage} {c : Caller Stage}
    (hc : s.caller p = some c) (hσ : c.progress = σ) (hw : σ.answer? = none → s.world = w)
    (htables : s.world.tables = w.tables) (hused : s.world.used = w.used) :
    ∃ turns : List Instant, (s.run stages (turns.map (Event.turn p))).answer? stages p = some a ∧
      (s.run stages (turns.map (Event.turn p))).world.tables = t ∧
      (s.run stages (turns.map (Event.turn p))).world.used = n := by
  induction h generalizing s c with
  | finished => exact ⟨[], System.answer?_eq_some.mpr ⟨c, hc, hσ⟩, htables, hused⟩
  | @turn w σ a t n now rest ih =>
    cases hans : σ.answer? with
    | some a' =>
      -- Nothing is left to do.
      obtain rfl := Stage.answer?_eq_some.mp hans
      exact ih hc hσ (fun hnone => by cases hnone) htables hused
    | none =>
      obtain rfl := hw hans
      subst hσ
      obtain ⟨turns, hrest⟩ := ih (s := s.keep stages p c (c.progress.turn s.world p now))
        (Function.update_self p _ _) rfl System.keep_world System.moved_tables System.moved_used
      refine ⟨now :: turns, ?_⟩
      rw [List.map_cons, System.run_cons, System.step_turn hc hans]
      exact hrest

/-- What the party's turns lead to is what its call does alone. -/
theorem alone_of_solo {fresh : Nat → Uuid} {call : Call} {now : Instant}
    (hstart : Stage.start (fresh 0) (fresh 1) now call = σ)
    (solo : Solo p { tables := t, fresh, used := 2 } σ a t' n) (hids : DistinctIds fresh n)
    (hnew : ∀ i < n, fresh i ∉ t.ids) : Alone t call a t' := by
  have hcaller : ((System.opened fresh t).arrive stages p call now).caller p =
      some (.arriving (System.opened fresh t).world call now) := System.arrive_caller_self call
  obtain ⟨turns, hans, htables, hused⟩ := solo.run hcaller hstart (fun _ => rfl) rfl rfl
  have hrun : (System.opened fresh t).run programs (.call p call now :: turns.map (Event.turn p)) =
      (((System.opened fresh t).arrive stages p call now).run stages
        (turns.map (Event.turn p))).map Stage.status :=
    System.run_status (System.opened fresh t) _
  refine ⟨fresh, p, now, turns, _, hrun.symm, ?_, htables, ?_, ?_⟩
  · rw [System.answer?_map]
    exact hans
  · simp only [System.map, hused]
    exact hids
  · simp only [System.map, hused]
    exact hnew

end Solo

end UnitLedger.Concurrent
