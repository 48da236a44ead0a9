import UnitLedger.Proofs.Concurrent.Sound
import UnitLedger.Proofs.Concurrent.Unfolding
import UnitLedger.Proofs.Ledger.Accounts

/-!
  UnitLedger.Proofs.Ledger.Conservation — units are moved, never made or lost.

  `ledger_conserves`: after every event of every run, every fund has one first owner, the one its
  creation named, and its entries are what this owner's units and the committed transfers make them:
  who has an entry, what each entry holds, and that all of them sum to the fund's units. No prefix of
  the transfers ever took from an owner more than they had. It holds for any number of calls in any
  order of their turns, resets included.

  On the stages it is an invariant of steps: a move that changes the tables founds a fund, settles a
  record or drops everything, and each keeps the accounts of all funds (`Conserved.moves`).
-/

namespace UnitLedger.Ledger

open Concurrent Memory

/-- The fund was created with `first`, trimmed, as its first owner: by a call that was answered it. -/
def FirstOwner {σ : Type} (B : Behaviour σ) (s : System σ) (f : Fund) (first : String) : Prop :=
  ∃ p c name totalUnits owner, s.caller p = some c ∧
    c.call = .createFund name totalUnits owner ∧ B.answer? c.progress = some (.fund (.ok f)) ∧
    f.Accepted c.fundId name totalUnits ∧ Name.normalize? owner = some first

structure Conserved (s : System Stage) : Prop where
  recorded : Recorded s.world.tables
  accounts : ∀ f ∈ s.world.tables.funds, ∃ first, FirstOwner stages s f first ∧
    Accounts s.world.tables f first

section Tables

variable {t : Tables}

theorem Recorded.founded (recorded : Recorded t) (wf : t.WellFormed) {f : Fund} {e : Entry}
    (hfund : e.fund = f.id) (hactive : e.isActive = true) (hunits : 0 ≤ e.units)
    (hid : e.id ∉ t.entryIds) (hnew : t.hasFund f.id = false) : Recorded (t.founded f e) := by
  have wf' := wf.founded hfund hactive hunits hid hnew
  intro r hr
  obtain ⟨hf, ha⟩ := recorded r hr
  constructor
  · obtain ⟨g, hg, hgr⟩ := Tables.hasFund_iff.mp hf
    exact Tables.hasFund_iff.mpr ⟨g, List.mem_append_left _ hg, hgr⟩
  · obtain ⟨d, hd, hdr⟩ := wf.hasActive_iff.mp ha
    exact wf'.hasActive_iff.mpr ⟨d, by simp [Tables.founded_entries hid, hd], hdr⟩

theorem Recorded.settled (recorded : Recorded t) (wf : t.WellFormed) {freshId : Uuid}
    {now : Instant} {e : Entry} {r : Transfer} (h : t.Admits e r) (hid : freshId ∉ t.entryIds) :
    Recorded (t.settled freshId now e r) := by
  intro r' hr'
  have hfund : (t.settled freshId now e r).hasFund r'.fund = t.hasFund r'.fund :=
    Tables.hasFund_credited _ _ _ _
  rw [hfund, Tables.hasActive_settled wf h hid]
  rw [Tables.settled_transfers] at hr'
  rcases List.mem_append.mp hr' with hr' | hr'
  · exact ⟨(recorded r' hr').1, Or.inl (recorded r' hr').2⟩
  · obtain rfl := List.mem_singleton.mp hr'
    refine ⟨?_, Or.inl (wf.hasActive_iff.mpr ⟨e, h.mem, h.fund, h.owner⟩)⟩
    rw [← h.fund]
    exact wf.funds e h.mem

end Tables

section Steps

variable {s s' : System Stage} {e : Event} {p : Party} {c : Caller Stage} {now : Instant}
  {w : World} {σ : Stage} {answered : Option Store.Op} {f : Fund} {first : String}

theorem FirstOwner.step (h : FirstOwner stages s f first) (hs : s.Step e s') :
    FirstOwner stages s' f first := by
  obtain ⟨q, d, name, total, owner, hd, hcall, hans, hrest⟩ := h
  have hfinished : d.Finished := ⟨_, Stage.answer?_eq_some.mp hans⟩
  exact ⟨q, d, name, total, owner, System.caller_finished hd hfinished hs, hcall, hans, hrest⟩

theorem Conserved.moves (h : Conserved s) (sound : Sound s) (hc : s.caller p = some c)
    (hunfinished : ¬ c.Finished) (move : Stage.Move s.world p now c.progress w σ answered)
    (hids : DistinctIds w.fresh w.used) : Conserved (s.moved p c w σ answered) := by
  have hstep : s.Step (.turn p now) (s.moved p c w σ answered) := .moves hc hunfinished move
  suffices hnew : Recorded w.tables ∧ ∀ f ∈ w.tables.funds, ∃ first,
      FirstOwner stages (s.moved p c w σ answered) f first ∧ Accounts w.tables f first from
    ⟨by simpa using hnew.1, by simpa using hnew.2⟩
  have hold : ∀ f ∈ s.world.tables.funds, ∃ first,
      FirstOwner stages (s.moved p c w σ answered) f first ∧
        Accounts s.world.tables f first := by
    intro f hf
    obtain ⟨first, hfirst, acc⟩ := h.accounts f hf
    exact ⟨first, hfirst.step hstep, acc⟩
  cases sound.change hc move hids with
  | same tables => exact tables ▸ ⟨h.recorded, hold⟩
  | reset _ tables =>
    rw [tables]
    refine ⟨?_, ?_⟩
    · intro r hr
      cases hr
    · intro f hf
      cases hf
  | @founded f e stage id name tables =>
    have hrows : c.progress.founding? = some (f, e) := by
      rw [stage]
      rfl
    obtain ⟨hid, hnew⟩ := sound.founding_new hc hunfinished hrows
    obtain ⟨name', total, owner, hcall, hf, he⟩ := (sound.origin p c hc).founding f e hrows
    have hpositive := hf.positive
    have hunits : e.units = f.totalUnits := he.units.trans hf.totalUnits.symm
    rw [tables]
    refine ⟨h.recorded.founded sound.tables he.fund he.active he.nonneg hid hnew, ?_⟩
    intro g hg
    rcases List.mem_append.mp hg with hg | hg
    · obtain ⟨first, hfirst, acc⟩ := hold g hg
      exact ⟨first, hfirst, acc.founded sound.tables (Tables.hasFund_iff.mpr ⟨g, hg, rfl⟩)
        he.fund he.active he.nonneg hid hnew⟩
    · obtain rfl := List.mem_singleton.mp hg
      refine ⟨e.owner, ?_, .opened sound.tables h.recorded he.fund he.active hunits hid hnew
        (by omega) hf.bounded⟩
      exact ⟨p, _, name', total, owner, System.moved_caller_self, hcall, rfl, hf, he.owner⟩
  | @settled o source r e id stage sourceId admits unused drawn tables =>
    have hid : id ∉ s.world.tables.entryIds := fun hmem => unused (sound.entryIds_drawn hmem)
    rw [tables]
    refine ⟨h.recorded.settled sound.tables admits hid, ?_⟩
    intro f hf
    have hfunds : (s.world.tables.settled id now e r).funds = s.world.tables.funds := by
      simp only [Tables.settled, Tables.credited]
      split <;> rfl
    obtain ⟨first, hfirst, acc⟩ := hold f (hfunds ▸ hf)
    exact ⟨first, hfirst, acc.settled sound.tables h.recorded admits hid⟩

theorem conserved_run {fresh : Nat → Uuid} (es : List Event)
    (hids : DistinctIds fresh ((System.opened fresh {}).run stages es).world.used) :
    Sound ((System.opened fresh {}).run stages es) ∧
      Conserved ((System.opened fresh {}).run stages es) := by
  refine System.run_induction (I := fun s => Sound s ∧ Conserved s) ?_ ?_ es hids
  · refine ⟨sound_opened fresh, ?_, ?_⟩
    · intro r hr
      cases hr
    · intro f hf
      cases hf
  · rintro s e s' ⟨sound, conserved⟩ hs hids
    refine ⟨sound.step hs hids, ?_⟩
    cases hs with
    | ignored => exact conserved
    | arrives new =>
      refine ⟨conserved.recorded, fun f hf => ?_⟩
      obtain ⟨first, hfirst, acc⟩ := conserved.accounts f hf
      exact ⟨first, hfirst.step (.arrives new), acc⟩
    | moves caller unfinished move =>
      exact conserved.moves sound caller unfinished move (by simpa using hids)

end Steps

/-! ## The ledger -/

theorem FirstOwner.ledger {s : System Stage} {f : Fund} {first : String}
    (h : FirstOwner stages s f first) : FirstOwner programs (s.map Stage.status) f first := by
  obtain ⟨p, c, name, total, owner, hc, hcall, hans, hrest⟩ := h
  refine ⟨p, c.map Stage.status, name, total, owner, ?_, hcall, ?_, hrest⟩
  · simp [System.map, hc]
  · exact (Stage.answer?_status c.progress).trans hans

/-- In every state of every run, each fund has one first owner, the one that its creation named, and
its entries are those that the units of this owner and the committed transfers make. -/
theorem ledger_conserves {fresh : Nat → Uuid} (es : List Event)
    (hids : DistinctIds fresh (ledger fresh es).world.used) :
    ∀ f ∈ (ledger fresh es).world.tables.funds, ∃! first,
      FirstOwner programs (ledger fresh es) f first ∧
        Accounts (ledger fresh es).world.tables f first := by
  rw [ledger_eq_stages] at hids ⊢
  intro f hf
  obtain ⟨first, hfirst, acc⟩ := (conserved_run es hids).2.accounts f hf
  exact ⟨first, ⟨hfirst.ledger, acc⟩, fun first' h => h.2.first_unique acc⟩

def gift : List Event :=
  [.call 0 (.createFund "Hull" 10 " Ada ") ⟨0⟩] ++ List.replicate 4 (.turn 0 ⟨1⟩) ++
  [.call 1 (.transfer ⟨Uuid.ofNat 0, "Ada", "Ben", 4, none⟩) ⟨2⟩] ++ List.replicate 6 (.turn 1 ⟨3⟩)

theorem gift_conserves :
    DistinctIds Uuid.ofNat (ledger Uuid.ofNat gift).world.used ∧
    (ledger Uuid.ofNat gift).world.tables.transfers.length = 1 ∧
    ∀ f ∈ (ledger Uuid.ofNat gift).world.tables.funds, ∃! first,
      FirstOwner programs (ledger Uuid.ofNat gift) f first ∧
        Accounts (ledger Uuid.ofNat gift).world.tables f first :=
  ⟨by decide +kernel, by decide +kernel, ledger_conserves gift (by decide +kernel)⟩

end UnitLedger.Ledger
