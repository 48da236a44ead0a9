import UnitLedger.Proofs.Concurrent.Overtaking
import UnitLedger.Proofs.Ledger.Failure
import UnitLedger.Proofs.Ledger.Linear

/-!
  UnitLedger.Proofs.Ledger.Onward — what a run keeps when it goes on without a reset.

  Whatever has led to a state, resets included: from there on funds, entries and records only grow, as
  long as nobody resets the store. `Onward` says this of a state of a run and the events that follow it.
  A fund stays its caller's and keeps its name for itself; an entry stays its owner's, and stays as it is
  while no transfer in its fund is committed; and no call changes rows in more than one event.
-/

namespace UnitLedger.Ledger

open Concurrent Memory

/-! ## Names -/

section Names

variable {s s' : System Stage} {event : Event} {name : String}

theorem hasFundName_iff {t : Tables} : t.hasFundName name = true ↔ ∃ f ∈ t.funds, f.name = name := by
  simp [Tables.hasFundName]

theorem Grows.hasFundName {t t' : Tables} (h : Grows t t') (hname : t.hasFundName name = true) :
    t'.hasFundName name = true := by
  obtain ⟨f, hf, hfn⟩ := hasFundName_iff.mp hname
  exact hasFundName_iff.mpr ⟨f, h.funds.subset hf, hfn⟩

theorem filter_eq_singleton {α : Type} [DecidableEq α] {l : List α} {p : α → Bool} {a : α}
    (hl : l.Nodup) (ha : a ∈ l) (h : ∀ x ∈ l, p x = true ↔ x = a) : l.filter p = [a] := by
  have hsame : l.filter p = l.filter (· == a) := List.filter_congr fun x hx => by
    rw [Bool.eq_iff_iff, beq_iff_eq]
    exact h x hx
  rw [hsame, List.filter_beq, List.count_eq_one_of_mem hl ha]
  rfl

def Named (t : Tables) : Prop := (t.funds.map (·.name)).Nodup

theorem Named.unique {t : Tables} (h : Named t) {f g : Fund} (hf : f ∈ t.funds) (hg : g ∈ t.funds)
    (hname : f.name = g.name) : f = g := List.inj_on_of_nodup_map h hf hg hname

theorem Named.filter {t : Tables} (h : Named t) {f : Fund} (hf : f ∈ t.funds) :
    t.funds.filter (fun g => g.name == f.name) = [f] := by
  refine filter_eq_singleton (h.of_map _) hf fun g hg => ?_
  rw [beq_iff_eq]
  exact ⟨h.unique hg hf, fun heq => by rw [heq]⟩

theorem Named.step (h : Named s.world.tables) (sound : Sound s) (hs : s.Step event s')
    (hids : DistinctIds s'.world.fresh s'.world.used) : Named s'.world.tables := by
  cases hs with
  | ignored | arrives => exact h
  | @moves p now c w σ answered caller unfinished move =>
    rw [System.moved_tables]
    cases sound.change caller move (by simpa using hids) with
    | same tables => exact tables ▸ h
    | reset _ tables =>
      rw [tables]
      exact List.nodup_nil
    | @founded f e _ _ name tables =>
      rw [tables]
      refine Tables.nodup_map_concat h fun g hg heq => ?_
      rw [hasFundName_iff.mpr ⟨g, hg, heq⟩] at name
      cases name
    | settled _ _ _ _ _ tables =>
      rw [tables, Named, Tables.settled_funds]
      exact h

theorem named_run {fresh : Nat → Uuid} (es : List Event)
    (hids : DistinctIds fresh ((System.opened fresh {}).run stages es).world.used) :
    Named ((System.opened fresh {}).run stages es).world.tables := by
  refine (System.run_induction (I := fun s => Sound s ∧ Named s.world.tables)
    ⟨sound_opened fresh, List.nodup_nil⟩ ?_ es hids).2
  exact fun s e s' ⟨sound, named⟩ hs hids => ⟨sound.step hs hids, named.step sound hs hids⟩

end Names

/-! ## Entries -/

/-- The entry is still its owner's, and as it was if no transfer in its fund is committed. -/
def Remains (t : Tables) (e : Entry) : Prop :=
  ∃ d ∈ t.entries, d.id = e.id ∧ d.fund = e.fund ∧ d.owner = e.owner ∧
    ((∀ r ∈ t.transfers, r.fund ≠ e.fund) → d = e)

theorem Remains.step {s s' : System Stage} {event : Event} {e : Entry} (h : Remains s.world.tables e)
    (sound : Sound s) (hcalm : ∀ p c, s.caller p = some c → c.progress ≠ .resetting)
    (hs : s.Step event s') (hids : DistinctIds s'.world.fresh s'.world.used) :
    Remains s'.world.tables e := by
  obtain ⟨d, hd, hid, hfund, howner, hsame⟩ := h
  cases hs with
  | ignored | arrives => exact ⟨d, hd, hid, hfund, howner, hsame⟩
  | @moves p now c w σ answered caller unfinished move =>
    rw [System.moved_tables]
    cases sound.change caller move (by simpa using hids) with
    | same tables => exact tables ▸ ⟨d, hd, hid, hfund, howner, hsame⟩
    | reset stage => exact absurd stage (hcalm p c caller)
    | @founded f e' stage _ _ tables =>
      have hnew := (sound.founding_new caller unfinished (f := f) (e := e') (by rw [stage]; rfl)).1
      rw [tables, Remains, Tables.founded_entries hnew]
      exact ⟨d, List.mem_append_left _ hd, hid, hfund, howner, hsame⟩
    | @settled o source r e' id stage sourceId admits unused drawn tables =>
      rw [tables, Remains, Tables.settled_entries sound.tables admits
        (fun hmem => unused (sound.entryIds_drawn hmem)), Tables.settled_transfers]
      refine ⟨_, List.mem_append_left _ (List.mem_map_of_mem hd), by simp [hid], by simp [hfund],
        by simp [howner], fun hquiet => ?_⟩
      -- The record is of another fund, so it moves nothing in or out of this entry.
      have hother : r.fund ≠ d.fund := hfund ▸ hquiet r (by simp)
      have hsource : d.id ≠ e'.id := fun heq => hother
        (by rw [sound.tables.eq_of_id hd admits.mem heq, admits.fund])
      rw [Tables.adjusted, if_neg hsource, if_neg fun hand => hother hand.1.symm]
      exact hsame fun r' hr' => hquiet r' (List.mem_append_left _ hr')

/-- Accounts of a fund without a transfer have one entry. -/
theorem Accounts.sole_entry {t : Tables} {f : Fund} {e : Entry} {first : String}
    (acc : Accounts t f first) (wf : t.WellFormed) (he : e ∈ t.entries) (hfund : e.fund = f.id)
    (hquiet : ∀ r ∈ t.transfers, r.fund ≠ f.id) : t.entries.filter (fun d => d.fund == f.id) = [e] := by
  have howner : ∀ d ∈ t.entries, d.fund = f.id → d.owner = first := by
    intro d hd hdf
    refine ((acc.holders d.owner).mp (wf.hasActive_iff.mpr ⟨d, hd, hdf, rfl⟩)).resolve_right ?_
    exact fun ⟨r, hr, hrf, _⟩ => hquiet r hr hrf
  refine filter_eq_singleton (wf.ids.of_map _) he fun d hd => ?_
  rw [beq_iff_eq]
  constructor
  · intro hdf
    exact wf.eq_of_holder hd he (hdf.trans hfund.symm)
      ((howner d hd hdf).trans (howner e he hfund).symm)
  · rintro rfl
    exact hfund

/-! ## The calls of funds -/

def Owns (s : System Stage) (p : Party) (f : Fund) : Prop :=
  ∃ c, s.caller p = some c ∧ f.id = c.fundId

theorem Owns.unique {s : System Stage} {p q : Party} {f : Fund} (h : Owns s p f) (sound : Sound s)
    (h' : Owns s q f) : p = q := by
  obtain ⟨c, hc, hid⟩ := h
  obtain ⟨d, hd, hid'⟩ := h'
  by_contra hne
  exact sound.apart p q c d hc hd hne .fund (hid.symm.trans hid')

theorem Owns.run {s : System Stage} {p : Party} {f : Fund} (h : Owns s p f) (es : List Event) :
    Owns (s.run stages es) p f := by
  obtain ⟨c, hc, hid⟩ := h
  obtain ⟨d, hd, -, hkept⟩ := System.caller_keeps hc es
  exact ⟨d, hd, hid.trans hkept.symm⟩

/-- A fund's accounts begin with the owner that its call names. -/
theorem Conserved.accounts_of_owns {s : System Stage} {p : Party} {f : Fund} {c : Caller Stage}
    {rawName rawOwner owner : String} {units : Int} (conserved : Conserved s) (sound : Sound s)
    (hf : f ∈ s.world.tables.funds) (hc : s.caller p = some c) (hid : f.id = c.fundId)
    (hcall : c.call = .createFund rawName units rawOwner)
    (howner : Name.normalize? rawOwner = some owner) : Accounts s.world.tables f owner := by
  obtain ⟨first, ⟨q, d, _, _, _, hd, hcall', -, hacc, hfirst⟩, accounts⟩ := conserved.accounts f hf
  have hfounder : Owns s q f := ⟨d, hd, hacc.id⟩
  obtain rfl := hfounder.unique sound ⟨c, hc, hid⟩
  cases hc.symm.trans hd
  obtain ⟨-, -, rfl⟩ := Call.createFund.inj (hcall'.symm.trans hcall)
  obtain rfl := Option.some.inj (hfirst.symm.trans howner)
  exact accounts

/-! ## A run that goes on without a reset -/

structure Onward (s : System Stage) (es : List Event) : Prop where
  reached : ∃ fresh before, s = (System.opened fresh {}).run stages before
  ids : DistinctIds s.world.fresh (s.run stages es).world.used
  noReset : NoReset es
  calm : ∀ p c, s.caller p = some c → c.progress ≠ .resetting

namespace Onward

variable {s : System Stage} {es rest : List Event} {p : Party} {c : Caller Stage}

theorem init (h : Onward s (es ++ rest)) : Onward s es := by
  refine ⟨h.reached, System.distinct_part h.ids, ?_, h.calm⟩
  exact fun p now hmem => h.noReset p now (List.mem_append_left _ hmem)

theorem start (h : Onward s es) : Onward s [] := @init s [] es h

/-- What is shown of every run is known of the state after the events. -/
theorem run {P : System Stage → Prop} (h : Onward s es)
    (hrun : ∀ {fresh} es, DistinctIds fresh ((System.opened fresh {}).run stages es).world.used →
      P ((System.opened fresh {}).run stages es)) : P (s.run stages es) := by
  obtain ⟨⟨fresh, before, rfl⟩, hids, -, -⟩ := h
  rw [System.run_fresh] at hids
  rw [← System.run_run] at hids ⊢
  exact hrun _ hids

theorem sound (h : Onward s es) : Sound (s.run stages es) := h.run sound_run

theorem conserved (h : Onward s es) : Conserved (s.run stages es) :=
  h.run fun es hids => (conserved_run es hids).2

theorem named (h : Onward s es) : Named (s.run stages es).world.tables :=
  h.run (P := fun s => Named s.world.tables) named_run

theorem fresh (h : Onward s es) :
    DistinctIds (s.run stages es).world.fresh (s.run stages es).world.used := by
  rw [System.run_fresh]
  exact h.ids

theorem steady (h : Onward s es) : Steady (fun p => s.caller p = none) (s.run stages es) := by
  have hnow := h.start
  exact (steady_of_calm hnow.sound (hnow.run guarded_run) h.calm).run es h.noReset h.ids

theorem grows (h : Onward s (es ++ rest)) :
    Grows (s.run stages es).world.tables (s.run stages (es ++ rest)).world.tables := by
  have hids := h.ids
  rw [System.run_run] at hids ⊢
  refine grows_run h.init.steady rest ?_ ?_
  · exact fun p now hmem => h.noReset p now (List.mem_append_right _ hmem)
  · rw [System.run_fresh]
    exact hids

theorem placed (h : Onward s es) (hnew : s.caller p = none) (hc : (s.run stages es).caller p = some c)
    (hunfinished : ¬ c.Finished) : Placed (fun p => s.caller p = none) (s.run stages es) p c := by
  have hbegun : ∀ p c, (s.run stages es).caller p = some c → c.Begun :=
    h.run (P := fun s => ∀ p c, s.caller p = some c → c.Begun) fun es _ => begun_run _ {} es
  exact ⟨h.steady, h.conserved, h.run unshared_run, hnew, hc, hbegun p c hc, hunfinished⟩

theorem entry_stays (h : Onward s (es ++ rest)) {e : Entry}
    (he : e ∈ (s.run stages es).world.tables.entries) :
    Remains (s.run stages (es ++ rest)).world.tables e := by
  induction rest using List.reverseRecOn with
  | nil =>
    rw [List.append_nil]
    exact ⟨e, he, rfl, rfl, rfl, fun _ => rfl⟩
  | append_singleton rest event ih =>
    rw [← List.append_assoc] at h ⊢
    have hids := h.fresh
    rw [System.run_append] at hids ⊢
    exact (ih h.init).step h.init.sound h.init.steady.lasting.noReset (System.step_step _ event) hids

/-- No party changes rows in two events. -/
theorem one_change (h : Onward s es) {before before' : List Event} {e e' : Event}
    (hinit : before ++ [e] <+: es) (hinit' : before' ++ [e'] <+: es) (hparty : e.party = e'.party)
    (hchanges : rowsAfter stages s (before ++ [e]) ≠ rowsAfter stages s before)
    (hchanges' : rowsAfter stages s (before' ++ [e']) ≠ rowsAfter stages s before') :
    before = before' := by
  have hlater : ∀ {before before' : List Event} {e e' : Event}, before ++ [e] <+: before' →
      before' ++ [e'] <+: es → e'.party = e.party →
      rowsAfter stages s (before ++ [e]) ≠ rowsAfter stages s before →
        rowsAfter stages s (before' ++ [e']) = rowsAfter stages s before' := by
    rintro before _ e e' ⟨between, rfl⟩ ⟨rest, rfl⟩ hparty hchanges
    have hfirst : Onward s (before ++ [e]) := h.init.init.init
    have hids := hfirst.fresh
    rw [System.run_append, System.step_fresh (System.step_step _ e)] at hids
    simp only [rowsAfter, System.run_run] at hchanges ⊢
    exact changes_once hfirst.init.sound hids hchanges between hparty
  rcases List.prefix_or_prefix_of_prefix hinit hinit' with hle | hle
  · rcases init_cases hle with ⟨rfl, -⟩ | hle
    · rfl
    · exact absurd (hlater hle hinit' hparty.symm hchanges) hchanges'
  · rcases init_cases hle with ⟨rfl, -⟩ | hle
    · rfl
    · exact absurd (hlater hle hinit hparty hchanges') hchanges

end Onward

end UnitLedger.Ledger
