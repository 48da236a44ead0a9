import Mathlib.Data.List.Infix
import UnitLedger.Proofs.Concurrent.Creation
import UnitLedger.Proofs.Ledger.Onward

/-!
  UnitLedger.Proofs.Ledger.OneWinner — of the calls that race for a fund's name, one gets it.

  Any number of calls create funds of one name, told without its blank ends, at the same time: among each
  other and among any other calls, in any order of their operations. A name is looked for among the
  committed funds when a creation writes its fund, and again when it commits, after others may have passed
  the first look. Either refusal is told as the same error, and the two rows of the loser are gone.

  `one_winner`: if the name was free, one call gets it and all others are told that it is taken; if it was
  taken, all are told so. The invariant is how a racer stands (`Racing`): who was refused, at
  either look, was refused because the name is taken, and no fund gives its name up again. So when the
  first racer is answered the name is taken, and it was taken in one turn (`Onward.takes`), which is a
  commit of the winner. Nobody else can have a fund of the name then.
-/

namespace UnitLedger.Ledger

open Concurrent Memory
open Store (Op)

/-- The call creates a fund of this name, and all of its so many units go to this owner; its arguments
are accepted. Both names are told without their blank ends. -/
def Creates (call : Call) (name owner : String) (units : Int) : Prop :=
  1 ≤ units ∧ units ≤ Units.greatest ∧ ∃ rawName rawOwner,
    call = .createFund rawName units rawOwner ∧
      Name.normalize? rawName = some name ∧ Name.normalize? rawOwner = some owner

section Behaviour

variable {σ : Type} (B : Behaviour σ) (s : System σ) (es : List Event)

structure Races (p : Party) (name owner : String) (units : Int) : Prop where
  new : s.caller p = none
  call : ∃ call, ((s.run B es).caller p).map (·.call) = some call ∧ Creates call name owner units

structure Contest (name : String) : Prop where
  noReset : NoReset es
  quiet : ∀ p call, UnderWay B s p call →
    call ≠ .reset ∧ ∀ owner units, ¬ Creates call name owner units
  served : ∀ before p call now after owner units, es = before ++ .call p call now :: after →
    (s.run B before).caller p = none → Creates call name owner units →
      4 ≤ after.countP (Event.isTurnOf p)
  someone : ∃ p owner units, Races B s es p name owner units

/-- The party is told that the name is taken, its events change no rows, and there is no row of it. -/
structure Loses (p : Party) (name : String) : Prop where
  answer : (s.run B es).answer? B p = some (.fund (.error (.duplicateFundName name)))
  still : Still B s es p
  gone : ∀ c, (s.run B es).caller p = some c →
    (∀ f ∈ (rowsAfter B s es).funds, f.id ≠ c.fundId) ∧
      ∀ e ∈ (rowsAfter B s es).entries, e.id ≠ c.entryId ∧ e.fund ≠ c.fundId

/-- The party is answered the fund. One of its events adds the fund and its entry, and no other event of
it changes any rows. After all events the fund is the only one of its name, the entry is still its
owner's, and the units of the fund are where the transfers since have left them. -/
structure Wins (p : Party) (name owner : String) (units : Int) (f : Fund) (e : Entry) : Prop where
  answer : (s.run B es).answer? B p = some (.fund (.ok f))
  fund : f.name = name ∧ f.totalUnits = units
  entry : e.fund = f.id ∧ e.owner = owner ∧ e.units = units
  adds : ∃ before now, before ++ [.turn p now] <+: es ∧
    rowsAfter B s (before ++ [.turn p now]) =
      { rowsAfter B s before with
        funds := (rowsAfter B s before).funds ++ [f]
        entries := (rowsAfter B s before).entries ++ [e] } ∧
    ∀ before' e', before' ++ [e'] <+: es → e'.party = p → before' ≠ before →
      rowsAfter B s (before' ++ [e']) = rowsAfter B s before'
  sole : (rowsAfter B s es).funds.filter (fun g => g.name == name) = [f]
  kept : ∃ d ∈ (rowsAfter B s es).entries, d.id = e.id ∧ d.fund = f.id ∧ d.owner = owner
  accounts : Accounts (rowsAfter B s es) f owner
  whole : (∀ r ∈ (rowsAfter B s es).transfers, r.fund ≠ f.id) →
    (rowsAfter B s es).entries.filter (fun d => d.fund == f.id) = [e]

/-- If the name was free one racer wins and all others lose; if it was taken all lose, and the fund
that had it is still the only one of it. -/
structure Decided (name : String) : Prop where
  free : s.world.tables.hasFundName name = false →
    ∃ p owner units f e, Races B s es p name owner units ∧ Wins B s es p name owner units f e ∧
      ∀ q owner' units', Races B s es q name owner' units' → q ≠ p → Loses B s es q name
  taken : s.world.tables.hasFundName name = true →
    (∃ f ∈ s.world.tables.funds, (rowsAfter B s es).funds.filter (fun g => g.name == name) = [f]) ∧
      ∀ q owner units, Races B s es q name owner units → Loses B s es q name

end Behaviour

/-! ## Racers -/

/-- How a creation stands that calls for this name: if it was refused the name is taken, and if it was
answered a fund the fund is its own. -/
def Racing (t : Tables) (name : String) (fundId : Uuid) : Stage → Prop
  | .openingFund f _ | .insertingFund f _ | .insertingEntry f _ | .committingFund f _ => f.name = name
  | .undoingFund f _ err =>
    f.name = name ∧ err.violates Constraint.fundName = true ∧ t.hasFundName name = true
  | .finished a =>
    (a = .fund (.error (.duplicateFundName name)) ∧ t.hasFundName name = true) ∨
      ∃ f ∈ t.funds, f.id = fundId ∧ f.name = name ∧ a = .fund (.ok f)
  | _ => False

namespace Racing

variable {t t' : Tables} {name owner : String} {units : Int} {fundId : Uuid} {σ σ' : Stage}

theorem mono (h : Racing t name fundId σ) (hgrows : Grows t t') :
    Racing t' name fundId σ := by
  cases σ with
  | finished a =>
    refine h.imp (fun ⟨ha, htaken⟩ => ⟨ha, hgrows.hasFundName htaken⟩) ?_
    exact fun ⟨f, hf, hrest⟩ => ⟨f, hgrows.funds.subset hf, hrest⟩
  | undoingFund f e err => exact ⟨h.1, h.2.1, hgrows.hasFundName h.2.2⟩
  | _ => exact h

theorem of_start {call : Call} (h : Creates call name owner units) (entryId : Uuid) (now : Instant) :
    Racing t name fundId (Stage.start fundId entryId now call) := by
  obtain ⟨hmin, hmax, rawName, rawOwner, rfl, hname, howner⟩ := h
  have hleast : Units.least ≤ 0 := by decide
  have hfund : Units.checked? units 1 = some units := if_neg (by omega)
  have hentry : Units.checked? units 0 = some units := if_neg (by omega)
  simp only [Stage.start, Fund.create, hname, hfund, Entry.create, howner, hentry]
  rfl

theorem lockRun (h : Racing t name fundId σ) (w : World) (p : Party) : σ.lockRun w p = none := by
  cases σ with
  | locking | lockWaiting => exact False.elim h
  | _ => rfl

/-- A turn keeps this, and brings the fund into the rows before it brings the answer. -/
theorem move {young : Party → Prop} {s : System Stage} {p : Party} {c : Caller Stage} {now : Instant}
    {w : World} {answered : Option Op} (placed : Placed young s p c) (hσ : c.progress = σ)
    (h : Racing s.world.tables name c.fundId σ)
    (move : Stage.Move s.world p now σ w σ' answered) : Racing w.tables name c.fundId σ' := by
  cases move with
  | idle => exact absurd ⟨_, hσ⟩ placed.unfinished
  | openFund | insertFund | insertEntry => exact h
  | refuseFund refused =>
    obtain ⟨rfl, htaken⟩ := placed.taken_of_refused hσ refused
    exact ⟨h, by simp [Violation.storeError, StoreError.violates], h ▸ htaken⟩
  | refuseEntry refused =>
    obtain ⟨j, accepted⟩ := placed.entry_ok hσ
    cases accepted.symm.trans refused
  | @commitFund f e done =>
    rcases placed.commitFund_rows hσ now with ⟨-, -, hrows⟩ | ⟨-, hfailed, -⟩
    · obtain ⟨_, _, _, -, hf, -⟩ :=
        (placed.steady.sound.origin p c placed.caller).founding f e (by rw [hσ]; rfl)
      exact Or.inr ⟨f, hrows ▸ List.mem_append_right _ List.mem_cons_self, hf.id, h, rfl⟩
    · cases done.symm.trans hfailed
  | @commitFundRefused f e err failed =>
    rcases placed.commitFund_rows hσ now with ⟨-, hdone, -⟩ | ⟨htaken, hfailed, hrows⟩
    · cases failed.symm.trans hdone
    · cases failed.symm.trans hfailed
      obtain rfl : f.name = name := h
      exact Or.inl ⟨by simp [Stage.fundError, StoreError.violates], hrows ▸ htaken⟩
  | undoFund =>
    obtain ⟨rfl, hviolates, htaken⟩ := h
    exact Or.inl ⟨by rw [Stage.fundError, if_pos hviolates], htaken⟩
  | lockNone run | lockShort run | lockEnough run | lockError run | lockPause run =>
    cases (h.lockRun _ _).symm.trans run
  | _ => exact False.elim h

/-- With no turns to go it has its answer. -/
theorem answered (h : Racing t name fundId σ) (hturns : σ.creationTurns = 0) :
    ∃ a, σ = .finished a := by
  cases σ with
  | finished a => exact ⟨a, rfl⟩
  | openingFund | insertingFund | insertingEntry | committingFund | undoingFund => cases hturns
  | _ => exact False.elim h

end Racing

/-! ## The turn in which the name is taken -/

/-- Where a name comes to be taken, a creation commits a fund of it. -/
theorem founds_of_taken {s s' : System Stage} {event : Event} {name : String} (sound : Sound s)
    (hcalm : ∀ p c, s.caller p = some c → c.progress ≠ .resetting) (hs : s.Step event s')
    (hids : DistinctIds s'.world.fresh s'.world.used) (hfree : s.world.tables.hasFundName name = false)
    (htaken : s'.world.tables.hasFundName name = true) :
    ∃ p now c f e, event = .turn p now ∧ f.name = name ∧ s.caller p = some c ∧
      c.progress = .committingFund f e ∧ s'.answer? stages p = some (.fund (.ok f)) ∧
      s'.world.tables = s.world.tables.founded f e := by
  cases hs with
  | ignored | arrives => cases hfree.symm.trans htaken
  | @moves p now c w σ answered caller unfinished move =>
    rw [System.moved_tables] at htaken
    cases sound.change caller move (by simpa using hids) with
    | same tables =>
      rw [tables] at htaken
      cases hfree.symm.trans htaken
    | reset stage => exact absurd stage (hcalm p c caller)
    | @founded f e stage _ _ tables =>
      refine ⟨p, now, c, f, e, rfl, ?_, caller, stage,
        System.answer?_eq_some.mpr ⟨_, System.moved_caller_self, rfl⟩, System.moved_tables.trans tables⟩
      rw [tables] at htaken
      obtain ⟨g, hg, hgn⟩ := hasFundName_iff.mp htaken
      rcases List.mem_append.mp hg with hg | hg
      · rw [hasFundName_iff.mpr ⟨g, hg, hgn⟩] at hfree
        cases hfree
      · rwa [List.mem_singleton.mp hg] at hgn
    | @settled o source r e id _ _ _ _ _ tables =>
      have hsame : w.tables.hasFundName name = s.world.tables.hasFundName name := by
        rw [tables, Tables.hasFundName, Tables.settled_funds]
        rfl
      cases hfree.symm.trans (hsame.symm.trans htaken)

section Contests

variable {s : System Stage} {es : List Event} {p : Party} {c : Caller Stage} {name owner : String}
  {units : Int}

/-- Whoever arrived in the run for the name races for it. -/
theorem Onward.racing (h : Onward s es) (hnew : s.caller p = none)
    (hc : (s.run stages es).caller p = some c) (hcreates : Creates c.call name owner units) :
    Racing (s.run stages es).world.tables name c.fundId c.progress := by
  induction es using List.reverseRecOn generalizing c with
  | nil =>
    rw [show s.run stages [] = s from rfl, hnew] at hc
    cases hc
  | append_singleton es event ih =>
    have ih := fun {c} => ih (c := c) h.init
    have hgrows := h.grows
    rw [System.run_append] at hc hgrows ⊢
    have hs := System.step_step (s.run stages es) event
    generalize System.step stages _ event = s' at hc hgrows hs
    cases hs with
    | ignored => exact ih hc hcreates
    | @arrives q call now new =>
      rcases System.arrive_caller hc with ⟨-, rfl⟩ | ⟨-, hc⟩
      · exact .of_start hcreates _ now
      · exact ih hc hcreates
    | @moves q now d w σ answered caller unfinished move =>
      rcases System.moved_caller hc with ⟨rfl, rfl⟩ | ⟨-, hc⟩
      · have hafter : Racing w.tables name d.fundId σ :=
          (ih caller hcreates).move (h.init.placed hnew caller unfinished) rfl move
        rwa [System.moved_tables]
      · exact (ih hc hcreates).mono hgrows

structure Takes (s : System Stage) (es : List Event) (name : String) (before : List Event) (p : Party)
    (now : Instant) (c : Caller Stage) (f : Fund) (e : Entry) : Prop where
  within : before ++ [.turn p now] <+: es
  name : f.name = name
  caller : (s.run stages before).caller p = some c
  stage : c.progress = .committingFund f e
  answer : (s.run stages (before ++ [.turn p now])).answer? stages p = some (.fund (.ok f))
  rows : rowsAfter stages s (before ++ [.turn p now]) = (rowsAfter stages s before).founded f e

/-- A name that was free and is taken now was taken in one of the events. -/
theorem Onward.takes (h : Onward s es) (hfree : s.world.tables.hasFundName name = false)
    (htaken : (rowsAfter stages s es).hasFundName name = true) :
    ∃ before p now c f e, Takes s es name before p now c f e := by
  induction es using List.reverseRecOn with
  | nil => cases hfree.symm.trans htaken
  | append_singleton es event ih =>
    cases hname : (rowsAfter stages s es).hasFundName name with
    | true =>
      obtain ⟨before, p, now, c, f, e, takes⟩ := ih h.init hname
      exact ⟨before, p, now, c, f, e,
        { takes with within := takes.within.trans (List.prefix_append es [event]) }⟩
    | false =>
      have hs := System.step_step (s.run stages es) event
      rw [← System.run_append] at hs
      obtain ⟨p, now, c, f, e, rfl, hfn, hc, hstage, hans, hrows⟩ :=
        founds_of_taken h.init.sound h.init.steady.lasting.noReset hs h.fresh hname htaken
      exact ⟨es, p, now, c, f, e, List.prefix_refl _, hfn, hc, hstage, hans, hrows⟩

/-- Who creates a fund that is about to be committed, and with what. -/
theorem Creates.of_founding (sound : Sound s) {f : Fund} {e : Entry} (hc : s.caller p = some c)
    (hstage : c.progress.founding? = some (f, e)) :
    Creates c.call f.name e.owner f.totalUnits ∧ f.id = c.fundId ∧ e.id = c.entryId ∧
      e.fund = f.id ∧ e.units = f.totalUnits := by
  obtain ⟨rawName, total, rawOwner, hcall, hf, he⟩ := (sound.origin p c hc).founding f e hstage
  refine ⟨⟨hf.positive, hf.bounded, rawName, rawOwner, ?_, hf.name, he.owner⟩, hf.id, he.id, he.fund,
    he.units.trans hf.totalUnits.symm⟩
  rw [hcall, hf.totalUnits]

/-- Whoever is told that the name is taken has done nothing. -/
theorem Onward.loses (h : Onward s es)
    (hans : (s.run stages es).answer? stages p = some (.fund (.error (.duplicateFundName name)))) :
    Loses stages s es p name := by
  refine ⟨hans, ?_, ?_⟩
  · rintro before event ⟨rest, rfl⟩ rfl
    have hids := h.init.fresh
    rw [System.run_run] at hans
    rw [rowsAfter, rowsAfter, System.run_append] at *
    exact failing_step h.init.init.sound (System.step_step _ event) hids hans rfl
  · intro c hc
    have hfails : ∀ a, c.progress = .finished a → ∃ err, a.Fails err := by
      intro a ha
      obtain ⟨d, hd, hstage⟩ := System.answer?_eq_some.mp hans
      cases hc.symm.trans hd
      cases ha.symm.trans hstage
      exact ⟨_, rfl⟩
    have hgone := h.run unrecorded_run p c hc hfails
    have hfund : c.fundId ∉ (rowsAfter stages s es).ids := hgone _ List.mem_cons_self
    refine ⟨fun f hf heq => hfund (Tables.mem_ids.mpr (Or.inl ⟨f, hf, heq⟩)), fun e he => ⟨?_, ?_⟩⟩
    · intro heq
      exact hgone _ (List.mem_cons_of_mem _ List.mem_cons_self)
        (Tables.mem_ids.mpr (Or.inr (Or.inl ⟨e, he, heq⟩)))
    · intro heq
      obtain ⟨f, hf, hid⟩ := Tables.hasFund_iff.mp (h.sound.tables.funds e he)
      exact hfund (Tables.mem_ids.mpr (Or.inl ⟨f, hf, hid.trans heq⟩))

/-! ## The winner -/

section Takes

variable {before : List Event} {now : Instant} {f : Fund} {e : Entry}
  (takes : Takes s es name before p now c f e)

include takes

theorem Takes.unfinished : ¬ c.Finished := by
  rintro ⟨a, ha⟩
  cases takes.stage.symm.trans ha

theorem Takes.founding : c.progress.founding? = some (f, e) := by
  rw [takes.stage]
  rfl

variable (h : Onward s es)

include h

theorem Takes.sound : Sound (s.run stages before) := by
  obtain ⟨rest, rfl⟩ := takes.within
  exact h.init.init.sound

/-- Whoever takes the name races for it, unless it was under way before the events. -/
theorem Takes.races
    (hquiet : ∀ call, UnderWay stages s p call → ∀ owner units, ¬ Creates call name owner units) :
    Races stages s es p name e.owner f.totalUnits := by
  have hcreates := (Creates.of_founding (takes.sound h) takes.caller takes.founding).1
  rw [takes.name] at hcreates
  obtain ⟨rest, rfl⟩ := (List.prefix_append before [.turn p now]).trans takes.within
  refine ⟨?_, ?_⟩
  · by_contra hold
    obtain ⟨d, hd⟩ := Option.ne_none_iff_exists'.mp hold
    obtain ⟨c', hc', hcall⟩ := System.caller_stays hd before
    cases takes.caller.symm.trans hc'
    have hunder : UnderWay stages s p d.call :=
      underWay_iff.mpr ⟨d, hd, rfl, unfinished_before hd takes.caller takes.unfinished⟩
    exact hquiet d.call hunder _ _ (hcall ▸ hcreates)
  · obtain ⟨d, hd, hcall⟩ := System.caller_stays takes.caller rest
    rw [← System.run_run] at hd
    exact ⟨d.call, by rw [hd]; rfl, hcall ▸ hcreates⟩

/-- The turn adds the fund and the entry. -/
theorem Takes.adds : rowsAfter stages s (before ++ [.turn p now]) =
    { rowsAfter stages s before with
      funds := (rowsAfter stages s before).funds ++ [f]
      entries := (rowsAfter stages s before).entries ++ [e] } := by
  have hnew : e.id ∉ (rowsAfter stages s before).entryIds :=
    ((takes.sound h).founding_new takes.caller takes.unfinished takes.founding).1
  rw [takes.rows, ← Tables.founded_entries (f := f) hnew]
  rfl

theorem Takes.changes :
    rowsAfter stages s (before ++ [.turn p now]) ≠ rowsAfter stages s before := by
  intro heq
  have hfunds := congrArg Tables.funds ((takes.adds h).symm.trans heq)
  exact List.cons_ne_nil _ _ (List.append_right_eq_self.mp hfunds)

theorem Takes.present : f ∈ (rowsAfter stages s (before ++ [.turn p now])).funds ∧
    e ∈ (rowsAfter stages s (before ++ [.turn p now])).entries := by
  rw [takes.adds h]
  exact ⟨List.mem_append_right _ List.mem_cons_self, List.mem_append_right _ List.mem_cons_self⟩

theorem Takes.fund_stays : f ∈ (rowsAfter stages s es).funds := by
  have hpresent := (takes.present h).1
  obtain ⟨rest, rfl⟩ := takes.within
  exact h.grows.funds.subset hpresent

theorem Takes.entry_stays : Remains (rowsAfter stages s es) e := by
  have hpresent := (takes.present h).2
  obtain ⟨rest, rfl⟩ := takes.within
  exact h.entry_stays hpresent

theorem Takes.accounts : Accounts (rowsAfter stages s es) f e.owner := by
  obtain ⟨hcreates, hid, -⟩ := Creates.of_founding (takes.sound h) takes.caller takes.founding
  have hf := takes.fund_stays h
  obtain ⟨rest, rfl⟩ := (List.prefix_append before [.turn p now]).trans takes.within
  obtain ⟨d, hd, hcall, hkept⟩ := System.caller_keeps takes.caller rest
  rw [← System.run_run] at hd
  obtain ⟨-, -, rawName, rawOwner, hcreate, -, howner⟩ := hcreates
  exact h.conserved.accounts_of_owns h.sound hf hd (hid.trans hkept.symm) (hcall.trans hcreate) howner

/-- Whoever takes the name is answered the fund, whose units are its owner's to begin with. -/
theorem Takes.wins : Wins stages s es p name e.owner f.totalUnits f e := by
  obtain ⟨-, -, -, hfund, hunits⟩ :=
    Creates.of_founding (takes.sound h) takes.caller takes.founding
  have haccounts := takes.accounts h
  obtain ⟨d, hd, hdid, hdf, hdo, hsame⟩ := takes.entry_stays h
  refine ⟨?_, ⟨takes.name, rfl⟩, ⟨hfund, rfl, hunits⟩, ⟨before, now, takes.within, takes.adds h, ?_⟩,
    ?_, ⟨d, hd, hdid, hdf.trans hfund, hdo⟩, haccounts, ?_⟩
  · obtain ⟨c', hc', hstage⟩ := System.answer?_eq_some.mp takes.answer
    obtain ⟨rest, rfl⟩ := takes.within
    rw [System.run_run]
    exact System.answer?_eq_some.mpr ⟨c', System.finished_run hc' ⟨_, hstage⟩ rest, hstage⟩
  · intro before' e' hinit hown hne
    by_contra hchanges
    exact hne (h.one_change takes.within hinit hown.symm (takes.changes h) hchanges).symm
  · rw [← takes.name]
    exact h.named.filter (takes.fund_stays h)
  · intro hquiet
    obtain rfl := hsame fun r hr => hfund ▸ hquiet r hr
    exact haccounts.sole_entry h.sound.tables hd hfund hquiet

end Takes

/-! ## The contest -/

theorem Contest.onward (contest : Contest stages s es name)
    (reached : ∃ fresh before, s = (System.opened fresh {}).run stages before)
    (ids : DistinctIds s.world.fresh (s.run stages es).world.used) : Onward s es := by
  refine ⟨reached, ids, contest.noReset, ?_⟩
  intro p c hc hstage
  obtain ⟨fresh, before, rfl⟩ := reached
  obtain ⟨now, hstart⟩ := begun_run fresh {} before p c hc .resetting (by rw [hstage]; rfl)
  have hunder : UnderWay stages _ p c.call :=
    underWay_iff.mpr ⟨c, hc, rfl, fun ⟨a, ha⟩ => by cases hstage.symm.trans ha⟩
  exact Stage.start_ne_resetting (contest.quiet p c.call hunder).1 hstart

/-- Every racer is answered: it has a fund of its own, or is told that the name is taken, and then
it is. -/
theorem Races.answered (races : Races stages s es p name owner units)
    (contest : Contest stages s es name) (h : Onward s es) :
    ((s.run stages es).answer? stages p = some (.fund (.error (.duplicateFundName name))) ∧
      (rowsAfter stages s es).hasFundName name = true) ∨
    ∃ f ∈ (rowsAfter stages s es).funds, f.name = name ∧ Owns (s.run stages es) p f ∧
      (s.run stages es).answer? stages p = some (.fund (.ok f)) := by
  obtain ⟨hnew, call, hcall, hcreates⟩ := races
  obtain ⟨c, hc, rfl⟩ := Option.map_eq_some_iff.mp hcall
  have hturns : c.progress.creationTurns = 0 := by
    refine creation_answered hnew ?_ hc
    intro before now after heq hbefore
    exact contest.served before p c.call now after owner units heq hbefore hcreates
  have hstanding := h.racing hnew hc hcreates
  obtain ⟨a, ha⟩ := hstanding.answered hturns
  have hans : (s.run stages es).answer? stages p = some a := System.answer?_eq_some.mpr ⟨c, hc, ha⟩
  rw [ha] at hstanding
  rcases hstanding with ⟨rfl, htaken⟩ | ⟨f, hf, hid, hfn, rfl⟩
  · exact Or.inl ⟨hans, htaken⟩
  · exact Or.inr ⟨f, hf, hfn, ⟨c, hc, hid⟩, hans⟩

theorem Contest.decided (contest : Contest stages s es name) (h : Onward s es) :
    Decided stages s es name := by
  have named : Named (rowsAfter stages s es) := h.named
  constructor
  · intro hfree
    -- Whatever a racer is answered, the name is taken now.
    have htaken : (rowsAfter stages s es).hasFundName name = true := by
      obtain ⟨q, owner, units, races⟩ := contest.someone
      rcases races.answered contest h with ⟨-, htaken⟩ | ⟨f, hf, hfn, -⟩
      · exact htaken
      · exact hasFundName_iff.mpr ⟨f, hf, hfn⟩
    obtain ⟨before, p, now, c, f, e, takes⟩ := h.takes hfree htaken
    have wins := takes.wins h
    have hraces := takes.races h fun call hunder => (contest.quiet p call hunder).2
    -- Whoever has a fund of this name has the same fund, and this is one call's.
    have hown : ∀ {q owner units}, Races stages s es q name owner units →
        ∀ {g}, (s.run stages es).answer? stages q = some (.fund (.ok g)) →
          Owns (s.run stages es) q f := by
      intro q owner units races g hans
      rcases races.answered contest h with ⟨hlost, -⟩ | ⟨g', hg, hgn, howns, -⟩
      · cases hans.symm.trans hlost
      · obtain rfl := named.unique hg (takes.fund_stays h) (hgn.trans takes.name.symm)
        exact howns
    refine ⟨p, _, _, f, e, hraces, wins, ?_⟩
    intro q owner' units' races hne
    rcases races.answered contest h with ⟨hans, -⟩ | ⟨g, -, -, -, hans⟩
    · exact h.loses hans
    · exact absurd ((hown races hans).unique h.sound (hown hraces wins.answer)) hne
  · intro htaken
    obtain ⟨f, hf, hfn⟩ := hasFundName_iff.mp htaken
    have hgrows : Grows s.world.tables (rowsAfter stages s es) := @Onward.grows s [] es h
    have hlater : f ∈ (rowsAfter stages s es).funds := hgrows.funds.subset hf
    refine ⟨⟨f, hf, hfn ▸ named.filter hlater⟩, ?_⟩
    intro q owner units races
    rcases races.answered contest h with ⟨hans, -⟩ | ⟨g, hg, hgn, howns, -⟩
    · exact h.loses hans
    · -- Its fund would be the one that was there, which was founded by another call.
      obtain rfl := named.unique hg hlater (hgn.trans hfn.symm)
      obtain ⟨first, ⟨p, c, _, _, _, hc, -, -, hacc, -⟩, -⟩ :=
        h.start.conserved.accounts g hf
      have hfounder : Owns s p g := ⟨c, hc, hacc.id⟩
      obtain rfl := (hfounder.run es).unique h.sound howns
      cases races.new.symm.trans hc

end Contests

/-! ## The ledger -/

section Ledger

variable {s : System Stage} {es : List Event} {p : Party} {name owner : String} {units : Int}

theorem races_programs :
    Races programs (s.map Stage.status) es p name owner units ↔
      Races stages s es p name owner units := by
  have hnew : (s.map Stage.status).caller p = none ↔ s.caller p = none := Option.map_eq_none_iff
  constructor
  · rintro ⟨new, call⟩
    rw [System.run_status, map_call] at call
    exact ⟨hnew.mp new, call⟩
  · rintro ⟨new, call⟩
    refine ⟨hnew.mpr new, ?_⟩
    rwa [System.run_status, map_call]

theorem Contest.stages (contest : Contest programs (s.map Stage.status) es name) :
    Contest stages s es name := by
  refine ⟨contest.noReset, fun p call hunder => contest.quiet p call (underWay_programs.mpr hunder),
    ?_, ?_⟩
  · intro before p call now after owner units heq hnew hcreates
    refine contest.served before p call now after owner units heq ?_ hcreates
    rw [System.run_status]
    exact Option.map_eq_none_iff.mpr hnew
  · obtain ⟨p, owner, units, races⟩ := contest.someone
    exact ⟨p, owner, units, races_programs.mp races⟩

theorem Loses.programs (h : Loses Concurrent.stages s es p name) :
    Loses programs (s.map Stage.status) es p name := by
  refine ⟨?_, h.still.programs, ?_⟩
  · rw [System.run_status, System.answer?_map]
    exact h.answer
  · intro c hc
    rw [System.run_status] at hc
    obtain ⟨d, hd, rfl⟩ := Option.map_eq_some_iff.mp hc
    rw [rowsAfter_status]
    exact h.gone d hd

theorem Wins.programs {f : Fund} {e : Entry}
    (h : Wins Concurrent.stages s es p name owner units f e) :
    Wins programs (s.map Stage.status) es p name owner units f e := by
  refine ⟨?_, h.fund, h.entry, ?_, ?_, ?_, ?_, ?_⟩
  · rw [System.run_status, System.answer?_map]
    exact h.answer
  all_goals simp only [rowsAfter_status]
  · exact h.adds
  · exact h.sole
  · exact h.kept
  · exact h.accounts
  · exact h.whole

theorem Decided.programs (h : Decided Concurrent.stages s es name) :
    Decided programs (s.map Stage.status) es name := by
  constructor
  · intro hfree
    obtain ⟨p, owner, units, f, e, races, wins, loses⟩ := h.free hfree
    refine ⟨p, owner, units, f, e, races_programs.mpr races, wins.programs, ?_⟩
    intro q owner' units' hq hne
    exact (loses q owner' units' (races_programs.mp hq) hne).programs
  · intro htaken
    obtain ⟨hsole, loses⟩ := h.taken htaken
    simp only [rowsAfter_status]
    exact ⟨hsole, fun q owner units hq => (loses q owner units (races_programs.mp hq)).programs⟩

end Ledger

/-- In a state that any calls have led to, let calls race for a fund's name, among each other and among
any other calls but resets, in any order of their operations. If the name was free, one of them wins and
all others lose; if it was taken, all lose. -/
theorem one_winner {fresh : Nat → Uuid} {es es' : List Event} {name : String}
    (hids : DistinctIds fresh (ledger fresh (es ++ es')).world.used)
    (contest : Contest programs (ledger fresh es) es' name) :
    Decided programs (ledger fresh es) es' name := by
  rw [ledger_eq_stages] at *
  refine (contest.stages.decided (contest.stages.onward ⟨fresh, es, rfl⟩ ?_)).programs
  rw [System.run_run] at hids
  rw [System.run_fresh]
  exact hids

def harbour : List Event :=
  [.call 0 (.createFund "Port" 10 "Ada") ⟨0⟩] ++ List.replicate 4 (.turn 0 ⟨1⟩) ++
  [.call 1 (.transfer ⟨Uuid.ofNat 0, "Ada", "Ben", 4, none⟩) ⟨2⟩, .turn 1 ⟨3⟩]

/-- While the transfer goes on three calls race for a name. The first two both find it free; the second one
commits first. The third one comes after that. -/
def hulls : List Event :=
  [.call 2 (.createFund " Hull" 5 "Bea") ⟨4⟩, .call 3 (.createFund "Hull " 7 " Cy ") ⟨4⟩,
    .turn 2 ⟨5⟩, .turn 3 ⟨5⟩, .turn 1 ⟨5⟩, .turn 2 ⟨6⟩, .turn 3 ⟨6⟩, .turn 1 ⟨6⟩, .turn 3 ⟨7⟩,
    .turn 2 ⟨7⟩, .turn 3 ⟨8⟩, .call 4 (.createFund "Hull" 9 "Dan") ⟨8⟩, .turn 2 ⟨9⟩] ++
  List.replicate 4 (.turn 4 ⟨10⟩) ++ List.replicate 3 (.turn 1 ⟨11⟩)

theorem hulls_contest : Contest programs (ledger Uuid.ofNat harbour) hulls "Hull" := by
  refine ⟨fun p now hmem => by simp [hulls] at hmem, ?_, ?_, ?_⟩
  · intro p call hunder
    obtain ⟨now, hmem⟩ := UnderWay.called hunder
    have hcalls : call = .createFund "Port" 10 "Ada" ∨
        call = .transfer ⟨Uuid.ofNat 0, "Ada", "Ben", 4, none⟩ := by
      simp only [harbour, List.mem_append, List.mem_cons, List.mem_replicate, List.not_mem_nil,
        reduceCtorEq, and_false, or_false, Event.call.injEq] at hmem
      exact hmem.imp (fun h => h.2.1) (fun h => h.2.1)
    rcases hcalls with rfl | rfl
    · refine ⟨nofun, ?_⟩
      rintro owner units ⟨-, -, rawName, rawOwner, hcall, hname, -⟩
      cases hcall
      exact absurd hname (by decide)
    · refine ⟨nofun, ?_⟩
      rintro owner units ⟨-, -, rawName, rawOwner, hcall, -⟩
      cases hcall
  · intro before p call now after owner units heq _ _
    have hall : ∀ part ∈ hulls.tails, ∀ e ∈ part.head?, e.isTurnOf e.party = false →
        4 ≤ part.countP (Event.isTurnOf e.party) := by decide +kernel
    have hmem : .call p call now :: after ∈ hulls.tails :=
      (List.mem_tails _ _).mpr ⟨before, heq.symm⟩
    exact hall _ hmem (.call p call now) rfl rfl
  · refine ⟨2, "Bea", 5, Option.isNone_iff_eq_none.mp (by decide +kernel),
      .createFund " Hull" 5 "Bea", by decide +kernel, by decide, by decide, _, _, rfl, ?_, ?_⟩ <;>
    decide +kernel

/-- Cy's fund it is, and what Bea had written is refused at its commit. -/
theorem hulls_one_winner :
    DistinctIds Uuid.ofNat (ledger Uuid.ofNat (harbour ++ hulls)).world.used ∧
    Contest programs (ledger Uuid.ofNat harbour) hulls "Hull" ∧
    (ledger Uuid.ofNat harbour).world.tables.hasFundName "Hull" = false ∧
    (ledger Uuid.ofNat (harbour ++ hulls)).answer? programs 3 =
      some (.fund (.ok ⟨Uuid.ofNat 8, "Hull", 7, ⟨4⟩⟩)) ∧
    Decided programs (ledger Uuid.ofNat harbour) hulls "Hull" := by
  have hids : DistinctIds Uuid.ofNat (ledger Uuid.ofNat (harbour ++ hulls)).world.used := by
    decide +kernel
  exact ⟨hids, hulls_contest, by decide +kernel, by decide +kernel, one_winner hids hulls_contest⟩

end UnitLedger.Ledger
