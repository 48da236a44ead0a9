import UnitLedger.Proofs.Concurrent.Asked
import UnitLedger.Proofs.Concurrent.Overtaking
import UnitLedger.Proofs.Ledger.ExactlyOnce

/-!
  UnitLedger.Proofs.Ledger.Replay — what becomes of a transfer that another one with its key has beaten.

  Two transfers of one order carry one key, and the first has committed while the second had not got
  past its locks. If the second looks the key up only now, it finds the record and is answered with it
  (`Finds`). If it looked before the commit, it does not look again until it is refused: it goes on to
  judge its source by the balance under the lock, which the first one has already reduced
  (`Contends`). It is answered with the record exactly if this balance covers the units once more;
  otherwise it is told that the units are insufficient.

  `replay_answered` is this for every run that no reset disturbs once the two calls have begun, and
  `askedTwice` a run in which the second call is refused although its own transfer is committed.
-/

namespace UnitLedger.Ledger

open Concurrent Memory
open Store (Op)

/-! ## After the commit -/

/-- The order has a committed record under its key, and its source has an entry. -/
structure Won (t : Tables) (o : TransferOrder) (k : Uuid) (r : Transfer) : Prop where
  found : t.findByKey k = some r
  source : t.hasActive o.fund o.source = true

/-- The answer to a transfer that lost to the record `r` and then found this entry of its source. -/
def judged (o : TransferOrder) (r : Transfer) (e : Entry) : Except LedgerError Transfer :=
  if e.units < o.units then .error (.insufficientUnits e.units o.units) else .ok r

/-- The stages of a transfer that looks its key up after the commit of the record. -/
def Finds (r : Transfer) : Stage → Prop
  | .opening _ | .looking _ _ => True
  | .repeating _ r' => r' = r
  | .finished a => a = .transfer (.ok r)
  | _ => False

/-- The stages of a transfer that looked its key up before the commit of the record. -/
def Contends (o : TransferOrder) (r : Transfer) (saw : Option Entry → Prop) : Stage → Prop
  | .locking _ | .lockWaiting _ _ _ _ | .debiting _ _ | .crediting _ _ | .creditWaiting _ _
  | .appending _ _ => True
  | .withdrawing _ e => e = .store .lockTimeout ∨
      (∃ x, saw (some x) ∧ x.units < o.units ∧ e = .insufficientUnits x.units o.units) ∨
      ((∃ x, saw (some x) ∧ o.units ≤ x.units) ∧
        ∃ e', e = .store e' ∧ e'.violates Constraint.idempotencyKey = true)
  | .reopening _ _ | .relooking _ _ => ∃ x, saw (some x) ∧ o.units ≤ x.units
  | .judging _ _ found => found = some r ∧ ∃ x, saw (some x) ∧ o.units ≤ x.units
  | .finished (.transfer a) => a = .error (.store .lockTimeout) ∨ ∃ x, saw (some x) ∧ a = judged o r x
  | _ => False

section Moves

variable {w w' : World} {p : Party} {now : Instant} {call : Call} {σ σ' : Stage}
  {answered : Option Op} {o : TransferOrder} {k : Uuid} {r : Transfer}
  {saw saw' : TransferOrder → Option Entry → Prop}

theorem Contends.mono {saw saw' : Option Entry → Prop} (h : Contends o r saw σ)
    (hsaw : ∀ x, saw x → saw' x) : Contends o r saw' σ := by
  have henough : (∃ x, saw (some x) ∧ o.units ≤ x.units) → ∃ x, saw' (some x) ∧ o.units ≤ x.units := by
    rintro ⟨x, hx, hunits⟩
    exact ⟨x, hsaw _ hx, hunits⟩
  unfold Contends at h ⊢
  split at h
  · trivial
  · trivial
  · trivial
  · trivial
  · trivial
  · trivial
  · rcases h with htime | ⟨x, hx, hand⟩ | ⟨hx, hand⟩
    · exact Or.inl htime
    · exact Or.inr (Or.inl ⟨x, hsaw _ hx, hand⟩)
    · exact Or.inr (Or.inr ⟨henough hx, hand⟩)
  · exact henough h
  · exact henough h
  · exact ⟨h.1, henough h.2⟩
  · rcases h with htime | ⟨x, hx, hand⟩
    · exact Or.inl htime
    · exact Or.inr ⟨x, hsaw _ hx, hand⟩
  · exact False.elim h

/-- Nothing that leads past its locks lies before a transfer that will find the record. -/
theorem Finds.no_lockRun (h : Finds r σ) {x : TransferOrder × World × Stage.LockResult} :
    σ.lockRun w p ≠ some x := by
  intro run
  cases Stage.lockRun_cases run <;> exact h

theorem Finds.move (h : Finds r σ) (move : Stage.Move w p now σ w' σ' answered)
    (standing : Standing w p call σ) (won : w.tables.findByKey k = some r)
    (horder : ∀ o', σ.order? = some o' → o' = o) (hkey : o.key = some k)
    (hsame : o.describes r = true) : Finds r σ' := by
  -- What it finds when it looks its key up.
  have hfind : ∀ o' k', σ = .looking o' k' →
      o' = o ∧ (w.journal p).findByKey w.tables k' = some r := by
    rintro o' k' rfl
    have hk : o'.key = some k' := standing.knows
    obtain rfl := horder o' rfl
    rw [hkey] at hk
    cases hk
    exact ⟨rfl, by rw [findByKey_nil (standing.journal _ rfl), won]⟩
  cases move with
  | idle => exact h
  | @openKeyless o' key =>
    rw [horder o' rfl, hkey] at key
    cases key
  | openKeyed => trivial
  | lookFresh found =>
    rw [(hfind _ _ rfl).2] at found
    cases found
  | lookSame found same =>
    rw [(hfind _ _ rfl).2] at found
    exact (Option.some.inj found).symm
  | lookConflict found differs =>
    obtain ⟨rfl, hfound⟩ := hfind _ _ rfl
    rw [hfound] at found
    cases found
    rw [hsame] at differs
    cases differs
  | lockNone run | lockShort run | lockEnough run | lockError run | lockPause run =>
    exact absurd run h.no_lockRun
  | @repeated o' r' =>
    have hr : r' = r := h
    rw [hr]
    rfl
  | _ => exact False.elim h

theorem Contends.move {call : Call} {request : TransferRequest} (h : Contends o r (saw o) σ)
    (move : Stage.Move w p now σ w' σ' answered) (standing : Standing w p call σ)
    (wf : w.tables.WellFormed) (won : Won w.tables o k r) (hkey : o.key = some k)
    (hsame : o.describes r = true) (accepted : o.Accepted request)
    (horder : ∀ o', σ.order? = some o' → o' = o)
    (hunits : ∀ o' e, σ.source? = some (o', e) → o'.units ≤ e.units)
    (hsaw : ∀ o x, saw o x → saw' o x) (before : Sighted saw σ) (after : Sighted saw' σ')
    (hsource : ¬ saw' o none) : Contends o r (saw' o) σ' := by
  have hlater := h.mono (hsaw o)
  -- Its record is refused, and only for its key.
  have happend : ∀ o' e t, σ = .appending o' e →
      (w.journal p).addTransfer w.tables (o'.record w.draw.2 t) =
        .error (.unique Constraint.idempotencyKey) := by
    rintro o' e t rfl
    obtain rfl := horder o' rfl
    have hpositive := accepted.positive
    have hmove := Tables.addTransfer_move (r := o'.record w.draw.2 t) wf e.id
      accepted.differ (show 0 < o'.units by omega) won.source
    have hused : (o'.record w.draw.2 t).key.any (fun k => (w.tables.findByKey k).isSome) = true := by
      simp [TransferOrder.record, hkey, won.found]
    rw [if_pos hused] at hmove
    rw [standing.journal _ rfl]
    exact hmove
  cases move with
  | idle => exact hlater
  | lockNone run =>
    rw [horder _ (Stage.lockRun_order? run)] at after
    exact absurd after hsource
  | @lockShort _ _ o' _ e run source short =>
    obtain ⟨x, hx, hshort, hpresent, -⟩ := after
    obtain rfl := horder o' (Stage.lockRun_order? run)
    exact Or.inr (Or.inl ⟨x, hx, hshort, by rw [hpresent]⟩)
  | lockError run => exact absurd run Stage.lockRun_ne_error
  | lockGiveUp | creditGiveUp => exact Or.inl rfl
  | lockEnough | lockPause | debit | creditNew | creditLocked | creditPause | creditGo => trivial
  | append accepted =>
    rw [happend _ _ _ rfl] at accepted
    cases accepted
  | @refuse o' e v refused =>
    rw [happend _ _ _ rfl] at refused
    cases refused
    have henough := hunits o' e rfl
    obtain rfl := horder o' rfl
    refine Or.inr (Or.inr ⟨⟨e, hsaw _ _ before, henough⟩, _, rfl, ?_⟩)
    simp [Violation.storeError, StoreError.violates]
  | @withdraw o' e race =>
    rcases hlater with rfl | ⟨x, hx, hshort, rfl⟩ | ⟨-, e', rfl, hviolates⟩
    · exact Or.inl rfl
    · exact Or.inr ⟨x, hx, by rw [judged, if_pos hshort]⟩
    · rw [horder o' rfl, Service.raceKey?, if_pos hviolates, hkey] at race
      cases race
  | @withdrawBeaten o' e k' race =>
    obtain ⟨e', rfl, hviolates, -⟩ := raceKey?_eq_some race
    rcases hlater with htime | ⟨x, -, -, hshort⟩ | ⟨henough, -⟩
    · cases htime
      simp [StoreError.violates] at hviolates
    · cases hshort
    · exact henough
  | reopen => exact hlater
  | @relook o' k' =>
    have hk : o'.key = some k' := standing.knows.1
    rw [horder o' rfl, hkey] at hk
    cases hk
    refine ⟨?_, hlater⟩
    rw [findByKey_nil (standing.journal _ rfl), won.found]
  | @judge o' k' found =>
    obtain ⟨rfl, x, hx, henough⟩ := hlater
    refine Or.inr ⟨x, hx, ?_⟩
    rw [judged, if_neg (Int.not_lt.mpr henough), horder o' rfl, Stage.verdict,
      TransferOrder.replay, if_pos hsame]
  | _ => exact False.elim h

end Moves

/-! ## Runs after the commit -/

section Steps

variable {s s' : System Stage} {event : Event} {young : Party → Prop} {o : TransferOrder} {k : Uuid}
  {r : Transfer}

/-- Who has an entry keeps having one. -/
theorem hasActive_stays (steady : Steady young s) (hs : s.Step event s')
    (hids : DistinctIds s'.world.fresh s'.world.used) {fund : Uuid} {owner : String}
    (hactive : s.world.tables.hasActive fund owner = true) :
    s'.world.tables.hasActive fund owner = true := by
  cases hs with
  | ignored | arrives => exact hactive
  | @moves p now c w σ answered caller unfinished move =>
    have hids' : DistinctIds w.fresh w.used := by simpa using hids
    obtain ⟨b, hb, hbf, hbo⟩ := steady.sound.tables.hasActive_iff.mp hactive
    obtain ⟨d, hd, -, hdf, hdo⟩ := steady.sound.entry_stays caller unfinished move hids'
      (steady.lasting.noReset p c caller) hb
    have hwf := steady.sound.moves_tables caller unfinished
      (steady.sound.change caller move hids')
    rw [System.moved_tables]
    exact hwf.hasActive_iff.mpr ⟨d, hd, hdf.trans hbf, hdo.trans hbo⟩

theorem Won.step (h : Won s.world.tables o k r) (steady : Steady young s) (hs : s.Step event s')
    (hids : DistinctIds s'.world.fresh s'.world.used) : Won s'.world.tables o k r := by
  refine ⟨?_, hasActive_stays steady hs hids h.source⟩
  have hfound := h.found
  unfold Tables.findByKey at hfound ⊢
  rcases step_transfers steady.sound.toTold steady.lasting.noReset hs with heq | ⟨r', heq, -⟩
  · rw [heq, hfound]
  · rw [heq, List.find?_append, hfound]
    rfl

theorem Informed.run (h : Informed young s) (steady : Steady young s) (es : List Event)
    (hreset : NoReset es) (hids : DistinctIds s.world.fresh (s.run stages es).world.used) :
    Informed young (s.run stages es) := by
  refine System.run_history (P := fun es s' => NoReset es →
    DistinctIds s.world.fresh s'.world.used → Informed young s') (fun _ _ => h) ?_ es hreset hids
  intro es e s' ih hs hreset hids
  have hold : NoReset es := fun p now hmem => hreset p now (List.mem_append_left _ hmem)
  have hids' := hids.mono (System.step_used hs)
  have steady' := steady.run es hold hids'
  exact (ih hold hids').step steady'.sound.toTold steady'.lasting.noReset hs

theorem Won.run (h : Won s.world.tables o k r) (steady : Steady young s) (es : List Event)
    (hreset : NoReset es) (hids : DistinctIds s.world.fresh (s.run stages es).world.used) :
    Won (s.run stages es).world.tables o k r := by
  refine System.run_history (P := fun es s' => NoReset es →
    DistinctIds s.world.fresh s'.world.used → Won s'.world.tables o k r) (fun _ _ => h) ?_ es hreset
    hids
  intro es e s' ih hs hreset hids
  have hold : NoReset es := fun p now hmem => hreset p now (List.mem_append_left _ hmem)
  have hids' := hids.mono (System.step_used hs)
  refine (ih hold hids').step (steady.run es hold hids') hs ?_
  rw [System.step_fresh hs, System.run_fresh]
  exact hids

end Steps

section Beaten

variable {young : Party → Prop} {s : System Stage} {es' : List Event} {p : Party} {o : TransferOrder}
  {k : Uuid} {r : Transfer} {request : TransferRequest}

structure Beaten (young : Party → Prop) (s : System Stage) (es' : List Event) (p : Party)
    (request : TransferRequest) (o : TransferOrder) (k : Uuid) (r : Transfer) : Prop where
  steady : Steady young s
  informed : Informed young s
  won : Won s.world.tables o k r
  noReset : NoReset es'
  ids : DistinctIds s.world.fresh (s.run stages es').world.used
  young : young p
  key : o.key = some k
  same : o.describes r = true
  valid : request.validate = .ok o
  call : ∀ es, es <+: es' → ∀ c, (s.run stages es).caller p = some c → c.call = .transfer request

variable (h : Beaten young s es' p request o k r)

include h

/-- What every state of the run is known to be. -/
theorem Beaten.at {es : List Event} (hinit : es <+: es') :
    Steady young (s.run stages es) ∧ Informed young (s.run stages es) ∧
      Won (s.run stages es).world.tables o k r := by
  obtain ⟨rest, rfl⟩ := hinit
  have hreset : NoReset es := fun p now hmem => h.noReset p now (List.mem_append_left _ hmem)
  have hids : DistinctIds s.world.fresh (s.run stages es).world.used := System.distinct_part h.ids
  exact ⟨h.steady.run es hreset hids, h.informed.run h.steady es hreset hids,
    h.won.run h.steady es hreset hids⟩

theorem Beaten.order {es : List Event} (hinit : es <+: es') {c : Caller Stage}
    (hc : (s.run stages es).caller p = some c) {o' : TransferOrder}
    (ho : c.progress.order? = some o') : o' = o := by
  obtain ⟨request', hcall, hvalid⟩ := ((h.at hinit).1.sound.origin p c hc).order o' ho
  rw [h.call es hinit c hc] at hcall
  cases hcall
  rw [h.valid] at hvalid
  exact (Except.ok.inj hvalid).symm

/-- The source has an entry in every turn. -/
theorem Beaten.saw {es : List Event} (hinit : es <+: es') : ¬ Saw s es p o none := by
  rintro ⟨before, t, after, rfl, -, hnone⟩
  have hwon := (h.at ((List.prefix_append before _).trans hinit)).2.2
  have hsource := hwon.source
  rw [Tables.hasActive, hnone] at hsource
  cases hsource

/-- A transfer that has not looked its key up when the record is committed finds it. -/
theorem Beaten.finds (hstart : ∀ c, s.caller p = some c → Finds r c.progress) {es : List Event}
    (hinit : es <+: es') : ∀ c, (s.run stages es).caller p = some c → Finds r c.progress := by
  refine System.run_history (P := fun es s' => es <+: es' → (∀ c, s'.caller p = some c →
    c.call = .transfer request) → ∀ c, s'.caller p = some c → Finds r c.progress)
    (fun _ _ => hstart) ?_ es hinit (h.call es hinit)
  intro es e s' ih hs hinit hcall d hd
  have hbefore := (List.prefix_append es [e]).trans hinit
  have ih := ih hbefore (h.call es hbefore)
  obtain ⟨steady, informed, won⟩ := h.at hbefore
  cases hs with
  | ignored => exact ih d hd
  | @arrives q call now new =>
    have hcall := hcall d hd
    rcases System.arrive_caller hd with ⟨-, rfl⟩ | ⟨-, hd⟩
    · have hcall' : call = .transfer request := hcall
      simp only [Caller.arriving, hcall', Stage.start, h.valid]
      trivial
    · exact ih d hd
  | @moves q now c w σ answered caller unfinished move =>
    rcases System.moved_caller hd with ⟨rfl, rfl⟩ | ⟨-, hd⟩
    · exact (ih c caller).move move (informed.standing steady.sound.toTold h.young caller) won.found
        (fun o' => h.order hbefore caller) h.key h.same
    · exact ih d hd

/-- A transfer that has looked its key up and has not got past its locks contends. -/
theorem Beaten.contends (hstart : ∃ c, s.caller p = some c ∧ Contends o r (Saw s [] p o) c.progress ∧
    Sighted (Saw s [] p) c.progress) {es : List Event} (hinit : es <+: es') :
    ∃ c, (s.run stages es).caller p = some c ∧ Contends o r (Saw s es p o) c.progress ∧
      Sighted (Saw s es p) c.progress := by
  refine System.run_history (P := fun es s' => es <+: es' → ∃ c, s'.caller p = some c ∧
    Contends o r (Saw s es p o) c.progress ∧ Sighted (Saw s es p) c.progress) (fun _ => hstart) ?_
    es hinit
  intro es e s' ih hs hinit
  have hbefore := (List.prefix_append es [e]).trans hinit
  obtain ⟨c, hc, hcontends, hsighted⟩ := ih hbefore
  obtain ⟨steady, informed, won⟩ := h.at hbefore
  have hlater : ∀ o x, Saw s es p o x → Saw s (es ++ [e]) p o x := fun o x hsaw => hsaw.later e
  cases hs with
  | ignored => exact ⟨c, hc, hcontends.mono (hlater o), hsighted.mono hlater⟩
  | @arrives q call now new =>
    refine ⟨c, ?_, hcontends.mono (hlater o), hsighted.mono hlater⟩
    rw [System.arrive_caller_ne call (fun hpq => by rw [hpq, new] at hc; cases hc)]
    exact hc
  | @moves q now c' w σ answered caller unfinished move =>
    by_cases hpq : p = q
    · subst hpq
      rw [hc] at caller
      cases caller
      have hafter := hsighted.move steady.lasting steady.sound h.young hc move
      refine ⟨_, System.moved_caller_self, ?_, hafter⟩
      exact hcontends.move move (informed.standing steady.sound.toTold h.young hc)
        steady.sound.tables won h.key h.same (TransferOrder.accepted h.valid)
        (fun o' => h.order hbefore hc) (fun o' x hx => (steady.sound.source p c o' x hc hx).2.2.1)
        hlater hsighted hafter (h.saw hinit)
    · exact ⟨c, by rw [System.moved_caller_ne hpq]; exact hc, hcontends.mono (hlater o),
        hsighted.mono hlater⟩

/-- In the end a transfer that had not looked its key up is answered the record. -/
theorem Beaten.answered_record {a : Except LedgerError Transfer}
    (hstart : ∀ c, s.caller p = some c → Finds r c.progress)
    (hanswer : (s.run stages es').answer? stages p = some (.transfer a)) : a = .ok r := by
  obtain ⟨c, hc, hfinished⟩ := System.answer?_eq_some.mp hanswer
  have hfinds := h.finds hstart (List.prefix_refl es') c hc
  rw [hfinished] at hfinds
  cases hfinds
  rfl

/-- One that had is answered by the entry that its source has in a turn of its locking operation. -/
theorem Beaten.answered_judged {a : Except LedgerError Transfer}
    (hstart : ∃ c, s.caller p = some c ∧ Contends o r (Saw s [] p o) c.progress ∧
      Sighted (Saw s [] p) c.progress)
    (hanswer : (s.run stages es').answer? stages p = some (.transfer a))
    (htime : a ≠ .error (.store .lockTimeout)) : ∃ e, Saw s es' p o (some e) ∧ a = judged o r e := by
  obtain ⟨c, hc, hfinished⟩ := System.answer?_eq_some.mp hanswer
  obtain ⟨c', hc', hends, -⟩ := h.contends hstart (List.prefix_refl es')
  cases hc.symm.trans hc'
  rw [hfinished] at hends
  exact hends.resolve_left htime

end Beaten

/-! ## At the commit -/

section Commit

variable {s : System Stage} {young : Party → Prop} {p q : Party} {c d : Caller Stage} {now : Instant}
  {o : TransferOrder} {k : Uuid} {r : Transfer} {request : TransferRequest}

/-- A transfer that is answered a record in the event that adds the record has just committed it. -/
theorem committing_of_answered {s' : System Stage} (sound : Sound s)
    (hs : s.Step (.turn q now) s') (hids : DistinctIds s'.world.fresh s'.world.used)
    (hbefore : s.answer? stages q = none) (hafter : s'.answer? stages q = some (.transfer (.ok r)))
    (hadded : s'.world.tables.transfers = s.world.tables.transfers ++ [r]) :
    ∃ d o source e, s.caller q = some d ∧ ¬ d.Finished ∧ d.progress = .committing o source r ∧
      s.world.tables.Admits e r := by
  cases hs with
  | ignored =>
    rw [hbefore] at hafter
    cases hafter
  | @moves _ _ d w σ answered caller unfinished move =>
    have hσ : σ = .finished (.transfer (.ok r)) := by
      obtain ⟨d', hd', hstage⟩ := System.answer?_eq_some.mp hafter
      rw [System.moved_caller_self] at hd'
      cases hd'
      exact hstage
    rw [System.moved_tables] at hadded
    cases sound.change caller move (by simpa using hids) with
    | same tables =>
      rw [tables] at hadded
      exact absurd hadded (by simp)
    | reset _ tables =>
      rw [tables] at hadded
      exact absurd hadded (by simp)
    | founded => cases hσ
    | @settled o source r' e id stage sourceId admits =>
      cases hσ
      exact ⟨d, o, source, e, caller, unfinished, stage, admits⟩

/-- While a transfer of the order commits, another one that has not got past its locks is before its
locks, or waits for one and has its source still to come. -/
theorem sighted_of_waiting (steady : Steady young s) (hp : young p) (hq : young q) (hne : p ≠ q)
    (hd : s.caller q = some d) {source : Entry} (hstage : d.progress = .committing o source r)
    (hc : s.caller p = some c) {row : Uuid} {rest : List String} {locked : List Entry}
    (hwait : c.progress = .lockWaiting o row rest locked)
    (saw : TransferOrder → Option Entry → Prop) : Sighted saw c.progress := by
  rw [hwait]
  intro done owner horder hdone
  have hsource : d.progress.source? = some (o, source) := by rw [hstage]; rfl
  cases hlocked : sourceIn o locked with
  | none =>
    have hpassed : c.progress.PassedOver o row := by
      rw [hwait]
      exact ⟨rfl, rfl, hlocked, done, owner, horder, hdone⟩
    exact absurd hsource ((steady.fair p q c d o row hp hq hne hc hd hpassed).1 source)
  | some x =>
    -- Both would lead the line of the source's row.
    have hx : x ∈ c.progress.holding := by
      rw [hwait]
      exact List.mem_of_find?_eq_some hlocked
    have hxowner : x.owner = o.source := by
      have := List.find?_some hlocked
      simpa using this
    obtain ⟨hxfund, hxroot⟩ := steady.sound.locked p c o row rest locked hc hwait x
      (List.mem_of_find?_eq_some hlocked)
    obtain ⟨hfund, howner, -, hroot⟩ := steady.sound.source q d o source hd hsource
    have hy := Stage.mem_holding_of_source? hsource
    obtain ⟨b, hb, hbx⟩ := steady.lasting.present p c hp hc x hx
    obtain ⟨b', hb', hbs⟩ := steady.lasting.present q d hq hd source hy
    have hsame : b = b' := by
      obtain ⟨hbf, hbo⟩ := hxroot.2 b hb hbx
      obtain ⟨hbf', hbo'⟩ := hroot.2 b' hb' hbs
      refine steady.sound.tables.eq_of_holder hb hb' ?_ ?_
      · rw [hbf, hxfund, hbf', hfund]
      · rw [hbo, hxowner, hbo', howner]
    have hhead := steady.guarded.heads p c hc x hx
    have hhead' := steady.guarded.heads q d hd source hy
    rw [← hbx, hsame, hbs, hhead'] at hhead
    exact absurd (Option.some.inj hhead).symm hne

/-- What a transfer knows of its key it knows from a record. -/
theorem Knows.taken {t : Tables} {call : Call} {σ : Stage} (h : Knows t call σ)
    (hcall : call = .transfer request) (hvalid : request.validate = .ok o) (hkey : o.key = some k)
    (horder : ∀ o', σ.order? = some o' → o' = o)
    (hσ : (∃ o' r, σ = .repeating o' r) ∨ (∃ o', σ = .withdrawing o' .duplicateIdempotencyKey) ∨
      (∃ r, σ = .finished (.transfer (.ok r))) ∨
      σ = .finished (.transfer (.error .duplicateIdempotencyKey))) : Taken t k := by
  have hanswers : ∀ {r}, Answers t o r → Taken t k := fun h => ⟨_, h.1, h.2.1.trans hkey⟩
  have hconflicts : Conflicts t o → Taken t k := by
    rintro ⟨k', hk', r, hr, hrk, -⟩
    rw [hkey] at hk'
    cases hk'
    exact ⟨r, hr, hrk⟩
  -- The order of an answered transfer is the one that its request was validated to.
  have hdone : ∀ {request' : TransferRequest} {o'}, call = .transfer request' →
      request'.validate = .ok o' → o' = o := by
    intro request' o' hcall' hvalid'
    rw [hcall] at hcall'
    cases hcall'
    rw [hvalid] at hvalid'
    exact (Except.ok.inj hvalid').symm
  rcases hσ with ⟨o', r, rfl⟩ | ⟨o', rfl⟩ | ⟨r, rfl⟩ | rfl
  · exact hanswers (horder o' rfl ▸ h)
  · exact hconflicts (horder o' rfl ▸ h)
  · obtain ⟨request', o', hcall', hvalid', hans⟩ := h
    exact hanswers (hdone hcall' hvalid' ▸ hans)
  · obtain ⟨request', o', hcall', hvalid', hconf⟩ := h
    exact hconflicts (hdone hcall' hvalid' ▸ hconf)

/-- Where another transfer of the order stands when the first one commits: it has yet to look the key
up, or it has looked it up and contends. -/
theorem stage_at_commit (steady : Steady young s) (informed : Informed young s) (hp : young p)
    (hq : young q) (hne : p ≠ q) (hd : s.caller q = some d) {source : Entry}
    (hstage : d.progress = .committing o source r) (hc : s.caller p = some c)
    (hasked : Asked c.call c.asked c.progress) (hcall : c.call = .transfer request)
    (hvalid : request.validate = .ok o) (hkey : o.key = some k)
    (hfree : s.world.tables.findByKey k = none) (hlocks : Stage.lockOp o ∉ c.asked) :
    (Finds r c.progress ∧ Op.findByKey k ∉ c.asked) ∨
    (Op.findByKey k ∈ c.asked ∧ ∀ saw, Contends o r (saw o) c.progress ∧ Sighted saw c.progress) := by
  have horder : ∀ o', c.progress.order? = some o' → o' = o := by
    intro o' ho
    obtain ⟨request', hcall', hvalid'⟩ := (steady.sound.origin p c hc).order o' ho
    rw [hcall] at hcall'
    cases hcall'
    rw [hvalid] at hvalid'
    exact (Except.ok.inj hvalid').symm
  have htaken : ¬ Taken s.world.tables k := by
    rw [taken_iff, hfree]
    simp
  have hknows := fun hσ => htaken ((informed p c hp hc).taken hcall hvalid hkey horder hσ)
  have hwaits := fun {row : Uuid} {rest : List String} {locked : List Entry}
      (hwait : c.progress = .lockWaiting o row rest locked) =>
    sighted_of_waiting steady hp hq hne hd hstage hc hwait
  generalize c.progress = σ at hasked horder hknows hwaits ⊢
  cases σ with
  | opening o' =>
    have hnil : c.asked = [] := hasked
    exact Or.inl ⟨trivial, by simp [hnil]⟩
  | looking o' k' =>
    obtain ⟨hopen, -⟩ : c.asked = [.openTx] ∧ _ := hasked
    exact Or.inl ⟨trivial, by simp [hopen]⟩
  | locking o' =>
    obtain rfl := horder o' rfl
    have hlist : c.asked = .openTx :: (o'.key.map Op.findByKey).toList := hasked
    exact Or.inr ⟨by simp [hlist, hkey], fun saw => ⟨trivial, trivial⟩⟩
  | lockWaiting o' row rest locked =>
    obtain rfl := horder o' rfl
    have hlist : c.asked = .openTx :: (o'.key.map Op.findByKey).toList := hasked
    exact Or.inr ⟨by simp [hlist, hkey], fun saw => ⟨trivial, hwaits rfl saw⟩⟩
  | repeating o' r' => exact absurd (Or.inl ⟨o', r', rfl⟩) hknows
  | withdrawing o' e =>
    cases e with
    | duplicateIdempotencyKey => exact absurd (Or.inr (Or.inl ⟨o', rfl⟩)) hknows
    | _ => exact absurd (horder o' rfl ▸ hasked) hlocks
  | checking o' | debiting o' | crediting o' | creditWaiting o' | appending o' | committing o'
  | reopening o' | relooking o' | judging o' => exact absurd (horder o' rfl ▸ hasked) hlocks
  | finished a =>
    cases a with
    | transfer a =>
      cases a with
      | ok r' => exact absurd (Or.inr (Or.inr (Or.inl ⟨r', rfl⟩))) hknows
      | error e =>
        cases e with
        | duplicateIdempotencyKey => exact absurd (Or.inr (Or.inr (Or.inr rfl))) hknows
        | _ => exact absurd (hasked request o hcall hvalid) hlocks
    | _ => exact absurd hcall (hasked request)
  | _ => exact absurd hcall (hasked request)

end Commit

/-! ## The ledger -/

def Orders (s : System (Status Answer)) (p : Party) (o : TransferOrder) : Prop :=
  ∃ request, (s.caller p).map (·.call) = some (.transfer request) ∧ request.validate = .ok o

def Undisturbed (s : System (Status Answer)) : Prop :=
  ∀ p c, s.caller p = some c → c.call = .reset → (s.answer? programs p).isSome = true

/-- Between the two states the party's transfer has committed the record and is answered with it. -/
structure Commits (s s' : System (Status Answer)) (p : Party) (r : Transfer) : Prop where
  unanswered : s.answer? programs p = none
  answered : s'.answer? programs p = some (.transfer (.ok r))
  added : s'.world.tables.transfers = s.world.tables.transfers ++ [r]

/-- Only the call of a reset resets. -/
theorem reset_of_resetting (fresh : Nat → Uuid) (es : List Event) :
    ∀ p c, ((System.opened fresh {}).run stages es).caller p = some c → c.progress = .resetting →
      c.call = .reset := by
  refine System.run_history (P := fun _ s => ∀ p c, s.caller p = some c → c.progress = .resetting →
    c.call = .reset) (fun p c hc => by cases hc) ?_ es
  intro es e s' ih hs q d hd hstage
  cases hs with
  | ignored => exact ih q d hd hstage
  | @arrives p call now new =>
    rcases System.arrive_caller hd with ⟨-, rfl⟩ | ⟨-, hd⟩
    · by_contra hcall
      exact Stage.start_ne_resetting hcall hstage
    · exact ih q d hd hstage
  | moves caller unfinished move =>
    rcases System.moved_caller hd with ⟨-, rfl⟩ | ⟨-, hd⟩
    · exact absurd hstage move.not_resetting
    · exact ih q d hd hstage

theorem orders_stays {s : System Stage} {p : Party} {c : Caller Stage} {o : TransferOrder}
    {es : List Event} (hc : s.caller p = some c)
    (h : Orders ((s.run stages es).map Stage.status) p o) :
    ∃ request, c.call = .transfer request ∧ request.validate = .ok o := by
  obtain ⟨request, hcall, hvalid⟩ := h
  obtain ⟨d, hd, hsame⟩ := System.caller_stays hc es
  simp only [System.map, hd, Option.map_some, Option.some.injEq] at hcall
  exact ⟨request, hsame.symm.trans hcall, hvalid⟩

/-- The commit of one transfer is the start of a run in which another one of the order is beaten. -/
theorem beaten_of_commit {s : System Stage} {young : Party → Prop} {p q : Party} {t : Instant}
    {o : TransferOrder} {k : Uuid} {r : Transfer} {after : List Event} (steady : Steady young s)
    (informed : Informed young s) (hp : young p) (hkey : o.key = some k)
    (hreset : NoReset (.turn q t :: after))
    (hids : DistinctIds s.world.fresh (s.run stages (.turn q t :: after)).world.used)
    (hpo : Orders ((s.run stages (.turn q t :: after)).map Stage.status) p o)
    (hqo : Orders ((s.run stages (.turn q t :: after)).map Stage.status) q o)
    (hbefore : s.answer? stages q = none)
    (hafter : (s.step stages (.turn q t)).answer? stages q = some (.transfer (.ok r)))
    (hadded : (s.step stages (.turn q t)).world.tables.transfers = s.world.tables.transfers ++ [r]) :
    (∃ request, Beaten young (s.step stages (.turn q t)) after p request o k r) ∧
    s.world.tables.findByKey k = none ∧
    ∃ d source, s.caller q = some d ∧ d.progress = .committing o source r := by
  have hs := System.step_step s (.turn q t)
  have hrest : NoReset after := fun p now hmem => hreset p now (List.mem_cons_of_mem _ hmem)
  have hfresh : (s.step stages (.turn q t)).world.fresh = s.world.fresh := System.step_fresh hs
  have hids' : DistinctIds (s.step stages (.turn q t)).world.fresh
      (s.step stages (.turn q t)).world.used := by
    rw [hfresh]
    exact hids.mono (System.used_le_run _ after)
  obtain ⟨d, o', source, e, hd, hunfinished, hstage, admits⟩ :=
    committing_of_answered steady.sound hs hids' hbefore hafter hadded
  obtain ⟨request', hcall', hvalid'⟩ := orders_stays hd hqo
  obtain ⟨id, now, hrecord⟩ := (steady.sound.origin q d hd).record o' source r hstage
  obtain rfl : o' = o := by
    obtain ⟨request'', hcall'', hvalid''⟩ :=
      (steady.sound.origin q d hd).order o' (by rw [hstage]; rfl)
    rw [hcall'] at hcall''
    cases hcall''
    rw [hvalid'] at hvalid''
    exact (Except.ok.inj hvalid'').symm
  have hfree : s.world.tables.findByKey k = none := admits.key k (by rw [hrecord]; exact hkey)
  have hwon : Won (s.step stages (.turn q t)).world.tables o' k r := by
    refine ⟨?_, hasActive_stays steady hs hids' ?_⟩
    · have hnone := hfree
      unfold Tables.findByKey at hnone ⊢
      rw [hadded, List.find?_append, hnone, hrecord]
      simp [TransferOrder.record, hkey]
    · refine steady.sound.tables.hasActive_iff.mpr ⟨e, admits.mem, admits.fund.trans ?_,
        admits.owner.trans ?_⟩ <;> rw [hrecord] <;> rfl
  obtain ⟨request, hcall, hvalid⟩ := hpo
  refine ⟨⟨request, ?_⟩, hfree, d, source, hd, hstage⟩
  refine ⟨steady.step hs hids' ?_, informed.step steady.sound.toTold steady.lasting.noReset hs, hwon,
    hrest, ?_, hp, hkey, ?_, hvalid, ?_⟩
  · intro p now heq
    cases heq
  · rw [hfresh]
    exact hids
  · rw [hrecord]
    simp [TransferOrder.describes, TransferOrder.record]
  · rintro es ⟨rest, rfl⟩ c hc
    obtain ⟨c', hc', hsame⟩ := System.caller_stays hc rest
    rw [← System.run_run] at hc'
    simp only [System.map, System.run_cons, hc', Option.map_some, Option.some.injEq] at hcall
    exact hsame.symm.trans hcall

/-- Callers that arrive after the last reset are young. -/
theorem steady_past {fresh : Nat → Uuid} (past before : List Event)
    (hpast : Undisturbed (((System.opened fresh {}).run stages past).map Stage.status))
    (hreset : NoReset before)
    (hids : DistinctIds fresh ((System.opened fresh {}).run stages (past ++ before)).world.used) :
    Steady (fun p => ((System.opened fresh {}).run stages past).caller p = none)
      ((System.opened fresh {}).run stages (past ++ before)) ∧
    Informed (fun p => ((System.opened fresh {}).run stages past).caller p = none)
      ((System.opened fresh {}).run stages (past ++ before)) := by
  rw [System.run_run] at hids ⊢
  have hids' := hids.mono (System.used_le_run _ before)
  have hcalm : ∀ p c, ((System.opened fresh {}).run stages past).caller p = some c →
      c.progress ≠ .resetting := by
    intro p c hc hstage
    have hdone := hpast p (c.map Stage.status) (by simp [System.map, hc])
      (reset_of_resetting fresh past p c hc hstage)
    rw [System.answer?_map, System.answer?, hc, Option.bind_some, hstage] at hdone
    cases hdone
  have steady := steady_of_calm (sound_run past hids') (guarded_run past hids') hcalm
  have informed : Informed (fun p => ((System.opened fresh {}).run stages past).caller p = none)
      ((System.opened fresh {}).run stages past) := by
    intro p c hp hc
    rw [hp] at hc
    cases hc
  have hids : DistinctIds ((System.opened fresh {}).run stages past).world.fresh
      (((System.opened fresh {}).run stages past).run stages before).world.used := by
    rw [System.run_fresh]
    exact hids
  exact ⟨steady.run before hreset hids, informed.run steady before hreset hids⟩

/-- The transfer of `p` lost to that of `q`: the two have one order with a key, no reset disturbs the
run once they have begun, `q` commits the record in its turn at `t`, when `p` had not got past its
locks, and in the end `p` is answered, and not because a wait took too long. -/
structure Lost (fresh : Nat → Uuid) (past before after : List Event) (p q : Party) (t : Instant)
    (o : TransferOrder) (k : Uuid) (r : Transfer) (a : Except LedgerError Transfer) : Prop where
  ids : DistinctIds fresh (ledger fresh (past ++ before ++ .turn q t :: after)).world.used
  undisturbed : Undisturbed (ledger fresh past)
  noReset : NoReset (before ++ .turn q t :: after)
  begins : (ledger fresh past).caller p = none ∧ (ledger fresh past).caller q = none
  others : p ≠ q
  key : o.key = some k
  order : Orders (ledger fresh (past ++ before ++ .turn q t :: after)) p o
  winner : Orders (ledger fresh (past ++ before ++ .turn q t :: after)) q o
  commits : Commits (ledger fresh (past ++ before)) (ledger fresh (past ++ before ++ [.turn q t])) q r
  unlocked : Op.lockEntries o.fund [o.source, o.target] ∉ (ledger fresh (past ++ before)).asked p
  answered : (ledger fresh (past ++ before ++ .turn q t :: after)).answer? programs p =
    some (.transfer a)
  inTime : a ≠ .error (.store .lockTimeout)

/-- The answer to a transfer that lost to another one of its order. If it looked the key up after the
commit, it is answered the record. If it looked before, it is answered by the entry of its source that
it then found in a turn of its locking operation. -/
theorem replay_answered {fresh : Nat → Uuid} {past before after : List Event} {p q : Party}
    {t : Instant} {o : TransferOrder} {k : Uuid} {r : Transfer} {a : Except LedgerError Transfer}
    (h : Lost fresh past before after p q t o k r a) :
    (Op.findByKey k ∉ (ledger fresh (past ++ before)).asked p → a = .ok r) ∧
    (Op.findByKey k ∈ (ledger fresh (past ++ before)).asked p →
      ∃ upto t' rest e, after = upto ++ .turn p t' :: rest ∧
        Op.lockEntries o.fund [o.source, o.target] ∉
          (ledger fresh (past ++ before ++ .turn q t :: upto)).asked p ∧
        (ledger fresh (past ++ before ++ .turn q t :: upto)).world.tables.activeOf o.fund o.source =
          some e ∧
        a = judged o r e) := by
  obtain ⟨hids, hpast, hreset, ⟨hp, hq⟩, hne, hkey, hpo, hqo, hcommit, hlocks, hanswer, htime⟩ := h
  simp only [ledger_eq_stages, System.answer?_map, System.asked_map] at *
  obtain ⟨hbefore, hafter, hadded⟩ := hcommit
  simp only [System.answer?_map] at hbefore hafter
  have hrun : ∀ es, (System.opened fresh {}).run stages (past ++ before ++ es) =
      ((System.opened fresh {}).run stages (past ++ before)).run stages es := System.run_run _ _
  have hids' : DistinctIds fresh ((System.opened fresh {}).run stages (past ++ before)).world.used := by
    refine hids.mono ?_
    rw [hrun]
    exact System.used_le_run _ _
  obtain ⟨steady, informed⟩ := steady_past past before hpast
    (fun p now hmem => hreset p now (List.mem_append_left _ hmem)) hids'
  have hasked := asked_run fresh (past ++ before)
  have hturn : NoReset (.turn q t :: after) := fun p now hmem =>
    hreset p now (List.mem_append_right _ hmem)
  have hp : ((System.opened fresh {}).run stages past).caller p = none := Option.map_eq_none_iff.mp hp
  have hq : ((System.opened fresh {}).run stages past).caller q = none := Option.map_eq_none_iff.mp hq
  rw [hrun] at hids hpo hqo hanswer hafter hadded
  obtain ⟨⟨request, beaten⟩, hfree, d, source, hd, hstage⟩ := beaten_of_commit steady informed hp hkey
    hturn (by rw [System.run_fresh]; exact hids) hpo hqo hbefore hafter hadded
  have hsame := System.step_caller_ne
    (System.step_step ((System.opened fresh {}).run stages (past ++ before)) (.turn q t)) hne
  have hlate : (∀ c, ((System.opened fresh {}).run stages (past ++ before)).caller p = some c →
      Finds r c.progress) → a = .ok r := fun hstart =>
    beaten.answered_record (fun c hc => hstart c (hsame ▸ hc)) hanswer
  cases hc : ((System.opened fresh {}).run stages (past ++ before)).caller p with
  | none =>
    have hnew : a = .ok r := hlate fun c hc'' => by rw [hc] at hc''; cases hc''
    refine ⟨fun _ => hnew, fun hlooked => ?_⟩
    simp [System.asked, hc] at hlooked
  | some c =>
    have hlist : ((System.opened fresh {}).run stages (past ++ before)).asked p = c.asked := by
      simp [System.asked, hc]
    rw [hlist] at hlocks ⊢
    obtain ⟨request', hcall, hvalid⟩ := orders_stays hc hpo
    rcases stage_at_commit steady informed hp hq hne hd hstage hc (hasked p c hc) hcall hvalid hkey
      hfree hlocks with ⟨hfinds, hnot⟩ | ⟨hlooked, hcontends⟩
    · refine ⟨fun _ => hlate fun c'' hc'' => ?_, fun hlooked => absurd hlooked hnot⟩
      rw [hc] at hc''
      cases hc''
      exact hfinds
    · refine ⟨fun hnot => absurd hlooked hnot, fun _ => ?_⟩
      obtain ⟨e, ⟨upto, t', rest, hsplit, ⟨x, out, hx, hlock⟩, he⟩, hjudged⟩ :=
        beaten.answered_judged ⟨c, hsame.trans hc, hcontends _⟩ hanswer htime
      refine ⟨upto, t', rest, e, hsplit, ?_, ?_, hjudged⟩
      · have hrec := asked_run fresh (past ++ before ++ .turn q t :: upto) p x (by rw [hrun]; exact hx)
        have hnot := hrec.not_locked hlock
        rw [hrun, System.asked, System.run_cons, hx]
        exact hnot
      · rw [hrun]
        exact he

/-! ## A transfer that is refused because its own units have moved -/

def giveAll : TransferRequest := ⟨Uuid.ofNat 0, "Ada", "Ben", 10, some (Uuid.ofNat 77)⟩

/-- Ada owns a fund and asks twice to give all her units to Ben. Both calls find the key unused, and
the second waits for the lock of Ada's row while the first is about to commit. -/
def askedTwice : List Event :=
  [.call 0 (.createFund "Hull" 10 "Ada") ⟨0⟩] ++ List.replicate 4 (.turn 0 ⟨1⟩) ++
  [.call 1 (.transfer giveAll) ⟨2⟩, .call 2 (.transfer giveAll) ⟨2⟩, .turn 1 ⟨3⟩, .turn 2 ⟨3⟩,
    .turn 1 ⟨3⟩, .turn 2 ⟨3⟩] ++ List.replicate 4 (.turn 1 ⟨4⟩) ++ [.turn 2 ⟨4⟩]

/-- The second call lost to the first, and was told that Ada has no units. -/
theorem askedTwice_lost : Lost Uuid.ofNat [] askedTwice (List.replicate 2 (.turn 2 ⟨5⟩)) 2 1 ⟨4⟩
    ⟨Uuid.ofNat 0, "Ada", "Ben", 10, some (Uuid.ofNat 77)⟩ (Uuid.ofNat 77)
    ⟨Uuid.ofNat 8, Uuid.ofNat 0, "Ada", "Ben", 10, some (Uuid.ofNat 77), ⟨4⟩⟩
    (.error (.insufficientUnits 0 10)) := by
  refine ⟨?_, ?_, ?_, ⟨rfl, rfl⟩, by decide, rfl, ⟨giveAll, ?_, ?_⟩, ⟨giveAll, ?_, ?_⟩, ⟨?_, ?_, ?_⟩,
    ?_, ?_, by simp⟩
  case refine_2 =>
    intro p c hc
    cases hc
  case refine_3 =>
    intro p now hmem
    simp [askedTwice] at hmem
  all_goals decide +kernel

/-- The second call is answered by what the first one left Ada. -/
theorem askedTwice_judged :
    ∃ upto t' rest e, List.replicate 2 (Event.turn 2 ⟨5⟩) = upto ++ .turn 2 t' :: rest ∧
      Op.lockEntries (Uuid.ofNat 0) ["Ada", "Ben"] ∉
        (ledger Uuid.ofNat ([] ++ askedTwice ++ .turn 1 ⟨4⟩ :: upto)).asked 2 ∧
      (ledger Uuid.ofNat ([] ++ askedTwice ++ .turn 1 ⟨4⟩ :: upto)).world.tables.activeOf
        (Uuid.ofNat 0) "Ada" = some e ∧
      Except.error (.insufficientUnits 0 10) =
        judged ⟨Uuid.ofNat 0, "Ada", "Ben", 10, some (Uuid.ofNat 77)⟩
          ⟨Uuid.ofNat 8, Uuid.ofNat 0, "Ada", "Ben", 10, some (Uuid.ofNat 77), ⟨4⟩⟩ e :=
  (replay_answered askedTwice_lost).2 (by decide +kernel)

/-- A transfer that lost to another one of its order is not always answered the record. -/
theorem lost_not_replayed : ¬ ∀ fresh past before after p q t o k r a,
    Lost fresh past before after p q t o k r a → a = .ok r := by
  intro h
  cases h _ _ _ _ _ _ _ _ _ _ _ askedTwice_lost

end UnitLedger.Ledger
