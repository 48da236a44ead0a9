import Mathlib.Data.List.Find
import UnitLedger.Proofs.Ledger.Reference

/-!
  UnitLedger.Proofs.Ledger.Share — what is to be seen of the rows from one fund.

  All funds have one list of entries, one list of records and one space of keys. Of these rows a call
  that names a fund sees the fund's share (`Tables.share`): the funds, and the entries and records of
  this one fund. `outcome_share`: what such a call comes to, up to ids and times, is what it comes to on
  the share. `transferOutcome_elsewhere`: a transfer in another fund leaves the share as it is.

  Ids and times are hidden by `veil`. The ids of funds are not hidden, for calls name funds by them; but
  a fund may have another id in another run, so they are renamed.
-/

namespace UnitLedger

/-! ## Hiding what is generated -/

variable (ρ : Uuid → Uuid)

def Fund.veil (f : Fund) : Fund := { f with id := ρ f.id, createdAt := ⟨0⟩ }

def EntryState.veil : EntryState → EntryState
  | .active => .active
  | .deleted _ => .deleted ⟨0⟩

def Entry.veil (e : Entry) : Entry where
  id := Uuid.ofNat 0
  fund := ρ e.fund
  owner := e.owner
  units := e.units
  acquiredAt := ⟨0⟩
  updatedAt := ⟨0⟩
  state := e.state.veil

theorem Entry.veil_fund (e : Entry) : (e.veil ρ).fund = ρ e.fund := rfl

/-- The key of a record is the caller's and stays. -/
def Transfer.veil (r : Transfer) : Transfer :=
  { r with id := Uuid.ofNat 0, fund := ρ r.fund, transferredAt := ⟨0⟩ }

def CapTable.veil (c : CapTable) : CapTable :=
  { c with fund := ρ c.fund, entries := c.entries.map (Entry.veil ρ) }

def LedgerError.rename : LedgerError → LedgerError
  | .fundNotFound fund => .fundNotFound (ρ fund)
  | .ownerNotFound fund owner => .ownerNotFound (ρ fund) owner
  | e => e

def veiled {α : Type} (veil : α → α) : Except LedgerError α → Except LedgerError α
  | .ok a => .ok (veil a)
  | .error e => .error (e.rename ρ)

namespace Concurrent

def Answer.veil : Answer → Answer
  | .fund r => .fund (veiled ρ (Fund.veil ρ) r)
  | .transfer r => .transfer (veiled ρ (Transfer.veil ρ) r)
  | .funds r => .funds (veiled ρ (Page.map (Fund.veil ρ)) r)
  | .entry r => .entry (veiled ρ (Entry.veil ρ) r)
  | .capTable r => .capTable (veiled ρ (CapTable.veil ρ) r)
  | .transfers r => .transfers (veiled ρ (Page.map (Transfer.veil ρ)) r)
  | .health r => .health r
  | .reset r => .reset r

def Call.rename : Call → Call
  | .transfer q => .transfer { q with fund := ρ q.fund }
  | .getFund fund => .getFund (ρ fund)
  | .getOwnership fund owner => .getOwnership (ρ fund) owner
  | .getCapTable fund params => .getCapTable (ρ fund) params
  | .listTransfers fund params => .listTransfers (ρ fund) params
  | .createFund name totalUnits owner => .createFund name totalUnits owner
  | .listFunds params => .listFunds params
  | .health => .health
  | .reset => .reset

def Call.elsewhere (fund : Uuid) : Call → Bool
  | .transfer q => q.fund != fund
  | _ => false

def Call.creates : Call → Bool
  | .createFund _ _ _ => true
  | _ => false

def Call.Concerns (fund : Uuid) (c : Call) : Prop := c.fund? = some fund ∨ c.creates = true

end Concurrent

end UnitLedger

namespace UnitLedger.Memory.Tables

/-- What can be seen of the tables from a fund. -/
def share (ρ : Uuid → Uuid) (fund : Uuid) (t : Tables) : Tables where
  funds := t.funds.map (Fund.veil ρ)
  entries := (t.entries.filter (·.fund == fund)).map (Entry.veil ρ)
  transfers := (t.transfers.filter (·.fund == fund)).map (Transfer.veil ρ)

end UnitLedger.Memory.Tables

namespace UnitLedger.Ledger

open Concurrent Memory

variable {ρ : Uuid → Uuid} {fund : Uuid} {t : Tables}

/-! ## Looking things up in a share -/

section Share

@[simp] theorem veil_isActive (e : Entry) : (e.veil ρ).isActive = e.isActive := by
  cases h : e.state <;> simp [Entry.isActive, Entry.veil, EntryState.veil, h]

theorem veil_isActiveOf {e : Entry} (h : e.fund = fund) (owner : String) :
    (e.veil ρ).isActiveOf (ρ fund) owner = e.isActiveOf fund owner := by
  subst h
  simp only [Entry.isActiveOf, veil_isActive]
  simp [Entry.veil]

/-- In the share every entry is one of the fund. -/
theorem share_find? (p : Entry → Bool) (q : Entry → Bool)
    (h : ∀ e ∈ t.entries, e.fund = fund → q (e.veil ρ) = p e) :
    (t.share ρ fund).entries.find? q =
      (t.entries.find? fun e => e.fund == fund && p e).map (Entry.veil ρ) := by
  simp only [Tables.share, List.find?_map, List.find?_filter]
  congr 1
  refine List.find?_congr fun e he => ?_
  by_cases hfund : e.fund = fund
  · simp [hfund, h e he hfund]
  · simp [hfund]

theorem share_activeOf (owner : String) :
    (t.share ρ fund).activeOf (ρ fund) owner = (t.activeOf fund owner).map (Entry.veil ρ) := by
  rw [Tables.activeOf, share_find? (fun e => e.isActiveOf fund owner) _ fun e _ hfund =>
    veil_isActiveOf hfund owner, Tables.activeOf]
  congr 2
  funext e
  cases hfund : e.fund == fund <;> simp [Entry.isActiveOf, hfund]

theorem share_hasActive (owner : String) :
    (t.share ρ fund).hasActive (ρ fund) owner = t.hasActive fund owner := by
  rw [Tables.hasActive, share_activeOf, Option.isSome_map, Tables.hasActive]

theorem share_hasFundName (name : String) :
    (t.share ρ fund).hasFundName name = t.hasFundName name := by
  simp [Tables.hasFundName, Tables.share, List.any_map, Function.comp_def, Fund.veil]

/-- A key that the fund's records alone may carry is looked up in the share. -/
theorem share_findByKey {key : Uuid}
    (h : ∀ r ∈ t.transfers, r.key = some key → r.fund = fund) :
    (t.share ρ fund).findByKey key = (t.findByKey key).map (Transfer.veil ρ) := by
  simp only [Tables.findByKey, Tables.share, List.find?_map, List.find?_filter]
  congr 1
  refine List.find?_congr fun r hr => ?_
  by_cases hkey : r.key = some key
  · have hveil : (r.veil ρ).key = r.key := rfl
    simp only [Function.comp_apply, hveil, hkey, h r hr hkey, beq_self_eq_true, and_self, decide_true]
  · simp [hkey, Transfer.veil]

theorem share_entryListing :
    (t.share ρ fund).entryListing (ρ fund) = (t.entryListing fund).map (Entry.veil ρ) := by
  have hrows : (t.share ρ fund).entries.filter (fun e => e.fund == ρ fund && e.isActive) =
      (t.entries.filter fun e => e.fund == fund && e.isActive).map (Entry.veil ρ) := by
    simp only [Tables.share, List.filter_map, List.filter_filter]
    congr 1
    refine List.filter_congr fun e _ => ?_
    by_cases hfund : e.fund = fund
    · simp [hfund, Entry.veil_fund]
    · simp [beq_false_of_ne hfund]
  have hsort : ((t.entries.filter fun e => e.fund == fund && e.isActive).mergeSort
      Tables.largerFirst).map (Entry.veil ρ) =
      ((t.entries.filter fun e => e.fund == fund && e.isActive).map (Entry.veil ρ)).mergeSort
        Tables.largerFirst := List.map_mergeSort fun _ _ _ _ => rfl
  rw [Tables.entryListing, hrows, Tables.entryListing, hsort]

theorem share_transferListing :
    (t.share ρ fund).transferListing (ρ fund) =
      (t.transferListing fund).map (Transfer.veil ρ) := by
  simp only [Tables.transferListing, Tables.share, List.filter_map, List.filter_filter]
  congr 1
  refine List.filter_congr fun r _ => ?_
  by_cases hfund : r.fund = fund
  · simp [hfund, Transfer.veil]
  · simp [beq_false_of_ne hfund]

/-- The fund's own name is not lost by renaming. -/
def Apart (ρ : Uuid → Uuid) (fund : Uuid) : Prop := ∀ other, ρ other = ρ fund → other = fund

variable (apart : Apart ρ fund)

include apart

theorem share_findFund :
    (t.share ρ fund).findFund (ρ fund) = (t.findFund fund).map (Fund.veil ρ) := by
  simp only [Tables.findFund, Tables.share, List.find?_map]
  congr 1
  refine List.find?_congr fun f _ => ?_
  by_cases hid : f.id = fund
  · simp [hid, Fund.veil]
  · have hne : ρ f.id ≠ ρ fund := fun heq => hid (apart _ heq)
    simp [hid, Fund.veil, hne]

theorem share_hasFund : (t.share ρ fund).hasFund (ρ fund) = t.hasFund fund := by
  have hfind : ∀ (t : Tables) id, t.hasFund id = (t.findFund id).isSome := fun _ _ =>
    List.isSome_find?.symm
  rw [hfind, share_findFund apart, Option.isSome_map, hfind]

end Share

/-! ## Outcomes on a share -/

def Generated.blank (fund : Uuid) : Generated := ⟨fund, Uuid.ofNat 0, Uuid.ofNat 0, ⟨0⟩, ⟨0⟩⟩

section Reads

theorem map_ofList {α β : Type} (f : α → β) (l : List α) (w : Window) :
    (Page.ofList l w).map f = .ofList (l.map f) w := by
  simp [Page.map, Page.ofList, Window.slice, List.map_take, List.map_drop]

theorem readOutcome_share (apart : Apart ρ fund) (reading : Reading) :
    readOutcome (t.share ρ fund) (ρ fund) reading = (readOutcome t fund reading).veil ρ := by
  unfold readOutcome
  rw [share_findFund apart]
  cases t.findFund fund with
  | none => cases reading <;> rfl
  | some f =>
    cases reading with
    | fund => rfl
    | entry owner =>
      simp only [Option.map_some, Option.elim_some, readAnswer, share_activeOf]
      cases t.activeOf fund owner <;> rfl
    | capTable params =>
      simp only [Option.map_some, Option.elim_some, readAnswer, Stage.capTable, share_entryListing,
        Answer.veil, veiled, CapTable.veil, map_ofList]
      rfl
    | transfers params =>
      simp only [Option.map_some, Option.elim_some, readAnswer, share_transferListing, Answer.veil,
        veiled, map_ofList]

end Reads

section Creation

theorem create_fund_veil (id : Uuid) (now : Instant) (name : String) (totalUnits : Int) :
    Fund.create (ρ id) ⟨0⟩ name totalUnits =
      veiled ρ (Fund.veil ρ) (Fund.create id now name totalUnits) := by
  unfold Fund.create
  split <;> rfl

theorem create_entry_veil (id fund : Uuid) (now : Instant) (owner : String) (units : Int) :
    Entry.create (Uuid.ofNat 0) ⟨0⟩ (ρ fund) owner units =
      veiled ρ (Entry.veil ρ) (Entry.create id now fund owner units) := by
  unfold Entry.create
  split
  · rfl
  · split <;> rfl

theorem entry_veil_veil (e : Entry) : (e.veil ρ).veil id = e.veil ρ := by
  cases h : e.state <;> simp [Entry.veil, EntryState.veil, h]

/-- A share is its own share. -/
theorem share_share : (t.share ρ fund).share id (ρ fund) = t.share ρ fund := by
  have hentries : (t.share ρ fund).entries.filter (·.fund == ρ fund) = (t.share ρ fund).entries := by
    refine List.filter_eq_self.mpr fun e he => ?_
    obtain ⟨d, hd, rfl⟩ := List.mem_map.mp he
    have hfund : d.fund = fund := by simpa using (List.mem_filter.mp hd).2
    simp [Entry.veil_fund, hfund]
  have htransfers : (t.share ρ fund).transfers.filter (·.fund == ρ fund) =
      (t.share ρ fund).transfers := by
    refine List.filter_eq_self.mpr fun r hr => ?_
    obtain ⟨d, hd, rfl⟩ := List.mem_map.mp hr
    have hfund : d.fund = fund := by simpa using (List.mem_filter.mp hd).2
    simp [Transfer.veil, hfund]
  rw [Tables.share, hentries, htransfers]
  simp only [Tables.share, List.map_map]
  congr 1
  exact List.map_congr_left fun e _ => entry_veil_veil e

/-- The share of the tables with one fund and its first entry more. -/
theorem share_founded (apart : Apart ρ fund) (f : Fund) (e : Entry) :
    ({ t.share ρ fund with
        funds := (t.share ρ fund).funds ++ [f.veil ρ]
        entries := (t.share ρ fund).entries ++ [e.veil ρ] } : Tables).share id (ρ fund) =
      ({ t with funds := t.funds ++ [f], entries := t.entries ++ [e] } : Tables).share ρ fund := by
  have hself : (t.share ρ fund).share id (ρ fund) = t.share ρ fund := share_share
  have hfunds : ((t.share ρ fund).funds ++ [f.veil ρ]).map (Fund.veil id) =
      (t.funds ++ [f]).map (Fund.veil ρ) := by
    rw [List.map_append, List.map_append]
    exact congrArg (· ++ [f.veil ρ]) (congrArg Tables.funds hself)
  have hentries : (((t.share ρ fund).entries ++ [e.veil ρ]).filter (·.fund == ρ fund)).map
      (Entry.veil id) = ((t.entries ++ [e]).filter (·.fund == fund)).map (Entry.veil ρ) := by
    have hlast : ([e.veil ρ].filter (·.fund == ρ fund)).map (Entry.veil id) =
        ([e].filter (·.fund == fund)).map (Entry.veil ρ) := by
      by_cases hfund : e.fund = fund
      · simp [hfund, Entry.veil_fund, entry_veil_veil]
      · have hne : ρ e.fund ≠ ρ fund := fun heq => hfund (apart _ heq)
        simp [hfund, Entry.veil_fund, hne]
    rw [List.filter_append, List.map_append, List.filter_append, List.map_append, hlast]
    exact congrArg (· ++ ([e].filter (·.fund == fund)).map (Entry.veil ρ))
      (congrArg Tables.entries hself)
  exact (Tables.mk.injEq _ _ _ _ _ _).mpr ⟨hfunds, hentries, congrArg Tables.transfers hself⟩

/-- The creation of a fund is answered and changes the share as if the share were all. -/
theorem creationOutcome_share (apart : Apart ρ fund) (g : Generated) (name : String)
    (totalUnits : Int) (owner : String) :
    (creationOutcome (.blank (ρ g.fund)) (t.share ρ fund) name totalUnits owner).1 =
      veiled ρ (Fund.veil ρ) (creationOutcome g t name totalUnits owner).1 ∧
    (creationOutcome (.blank (ρ g.fund)) (t.share ρ fund) name totalUnits owner).2.share id
      (ρ fund) = (creationOutcome g t name totalUnits owner).2.share ρ fund := by
  have hfund := create_fund_veil (ρ := ρ) g.fund g.began name totalUnits
  simp only [creationOutcome, Generated.blank, hfund]
  cases Fund.create g.fund g.began name totalUnits with
  | error e => exact ⟨rfl, share_share⟩
  | ok f =>
    have hentry := create_entry_veil (ρ := ρ) g.entry f.id g.began owner totalUnits
    simp only [veiled, Fund.veil, hentry]
    cases Entry.create g.entry g.began f.id owner totalUnits with
    | error e => exact ⟨rfl, share_share⟩
    | ok e =>
      simp only [share_hasFundName]
      cases t.hasFundName f.name with
      | true => exact ⟨rfl, share_share⟩
      | false => exact ⟨rfl, share_founded apart f e⟩

end Creation

section Transfer

variable {r : Transfer} {o : TransferOrder}

theorem veil_movedEntry {d : Entry} (hd : d.fund = fund) (hr : r.fund = fund) (now : Instant) :
    (movedEntry now r d).veil ρ = movedEntry ⟨0⟩ (r.veil ρ) (d.veil ρ) := by
  have hof : ∀ owner, (d.veil ρ).isActiveOf (r.veil ρ).fund owner = d.isActiveOf r.fund owner := by
    intro owner
    rw [show (r.veil ρ).fund = ρ fund from congrArg ρ hr, veil_isActiveOf hd, hr]
  have hsource : (r.veil ρ).source = r.source := rfl
  have htarget : (r.veil ρ).target = r.target := rfl
  unfold movedEntry
  rw [hof, hof, hsource, htarget]
  split
  · rfl
  · split <;> rfl

/-- Moving units leaves every entry in its fund. -/
theorem inFund_movedEntry (now : Instant) (r : Transfer) :
    (fun e : Entry => e.fund == fund) ∘ movedEntry now r = fun e => e.fund == fund := by
  funext e
  simp

/-- Carrying out a record of the fund changes the share as if the share were all. -/
theorem carriedOut_share (hr : r.fund = fund) (g : Generated) (x : Uuid) :
    carriedOut (.blank x) (t.share ρ fund) (r.veil ρ) = (carriedOut g t r).share ρ fund := by
  have hentries : (t.share ρ fund).entries.map (movedEntry ⟨0⟩ (r.veil ρ)) =
      ((t.entries.map (movedEntry g.ended r)).filter (·.fund == fund)).map (Entry.veil ρ) := by
    simp only [Tables.share, List.filter_map, List.map_map]
    rw [inFund_movedEntry]
    refine List.map_congr_left fun d hd => ?_
    have hfund : d.fund = fund := by simpa using (List.mem_filter.mp hd).2
    exact (veil_movedEntry hfund hr g.ended).symm
  have hnewcomer : (if (t.share ρ fund).hasActive (r.veil ρ).fund (r.veil ρ).target then []
      else [Tables.newcomer (Uuid.ofNat 0) ⟨0⟩ (r.veil ρ)]) =
      ((if t.hasActive r.fund r.target then [] else [Tables.newcomer g.entry g.ended r]).filter
        (·.fund == fund)).map (Entry.veil ρ) := by
    rw [show (r.veil ρ).fund = ρ fund from congrArg ρ hr, share_hasActive, hr,
      show (r.veil ρ).target = r.target from rfl]
    cases t.hasActive fund r.target with
    | true => rfl
    | false => simp [Tables.newcomer, hr, Entry.veil, EntryState.veil, Transfer.veil]
  have hrecord : ([r].filter (·.fund == fund)).map (Transfer.veil ρ) = [r.veil ρ] := by
    simp [hr]
  simp only [carriedOut, Generated.blank, hentries, hnewcomer]
  simp only [Tables.share, List.filter_append, List.map_append, hrecord]

theorem freshOutcome_share (apart : Apart ρ fund) (ho : o.fund = fund) (g : Generated) (x : Uuid) :
    freshOutcome (.blank x) (t.share ρ fund) { o with fund := ρ o.fund } =
      Prod.map (veiled ρ (Transfer.veil ρ)) (Tables.share ρ fund) (freshOutcome g t o) := by
  have hhas : (t.share ρ fund).hasFund (ρ o.fund) = t.hasFund o.fund := by
    rw [ho, share_hasFund apart]
  have hactive : (t.share ρ fund).activeOf (ρ o.fund) o.source =
      (t.activeOf o.fund o.source).map (Entry.veil ρ) := by
    rw [ho, share_activeOf]
  unfold freshOutcome
  simp only [hhas, hactive]
  cases t.hasFund o.fund with
  | false => rfl
  | true =>
    cases t.activeOf o.fund o.source with
    | none => rfl
    | some e =>
      have hunits : (e.veil ρ).units = e.units := rfl
      simp only [if_true, Option.map_some, hunits]
      by_cases hshort : e.units < o.units
      · simp only [if_pos hshort]
        rfl
      · simp only [if_neg hshort, Prod.map_apply]
        rw [← carriedOut_share (r := o.record g.record g.began) ho g x]
        rfl

/-- An order in the fund is answered and changes the share as if the share were all, if its key is the
fund's. -/
theorem orderOutcome_share (apart : Apart ρ fund) (ho : o.fund = fund)
    (hkeys : ∀ k, o.key = some k → ∀ r ∈ t.transfers, r.key = some k → r.fund = fund)
    (g : Generated) (x : Uuid) :
    orderOutcome (.blank x) (t.share ρ fund) { o with fund := ρ o.fund } =
      Prod.map (veiled ρ (Transfer.veil ρ)) (Tables.share ρ fund) (orderOutcome g t o) := by
  have hfind : o.key.bind (t.share ρ fund).findByKey =
      (o.key.bind t.findByKey).map (Transfer.veil ρ) := by
    cases hk : o.key with
    | none => rfl
    | some k => exact share_findByKey (hkeys k hk)
  rw [orderOutcome_eq, orderOutcome_eq, hfind]
  cases hfound : o.key.bind t.findByKey with
  | none => exact freshOutcome_share apart ho g x
  | some r =>
    obtain ⟨k, hk, hr⟩ := Option.bind_eq_some_iff.mp hfound
    obtain ⟨hmem, hrk⟩ := Tables.mem_of_findByKey hr
    have hfund := hkeys k hk r hmem hrk
    have hsame : TransferOrder.describes { o with fund := ρ o.fund } (r.veil ρ) =
        o.describes r := by
      simp [TransferOrder.describes, Transfer.veil, ho, hfund]
    simp only [Option.map_some, hsame, Prod.map_apply]
    cases o.describes r <;> rfl

/-- A request in the fund is answered and changes the share as if the share were all. -/
theorem transferOutcome_share (apart : Apart ρ fund) {q : TransferRequest} (hq : q.fund = fund)
    (hkeys : ∀ k, q.key = some k → ∀ r ∈ t.transfers, r.key = some k → r.fund = fund)
    (g : Generated) (x : Uuid) :
    transferOutcome (.blank x) (t.share ρ fund) { q with fund := ρ q.fund } =
      Prod.map (veiled ρ (Transfer.veil ρ)) (Tables.share ρ fund) (transferOutcome g t q) := by
  unfold transferOutcome
  split
  · rfl
  · split
    · rfl
    · split
      · rfl
      · exact orderOutcome_share (o := ⟨q.fund, _, _, _, _⟩) apart hq hkeys g x

/-- A record of another fund leaves the share as it is. -/
theorem carriedOut_elsewhere (hr : r.fund ≠ fund) (g : Generated) :
    (carriedOut g t r).share ρ fund = t.share ρ fund := by
  have hentries : (t.entries.filter (·.fund == fund)).map (movedEntry g.ended r) =
      t.entries.filter (·.fund == fund) := by
    refine (List.map_congr_left fun d hd => ?_).trans (List.map_id _)
    have hfund : d.fund = fund := by simpa using (List.mem_filter.mp hd).2
    have hne : d.fund ≠ r.fund := fun heq => hr (heq.symm.trans hfund)
    simp [movedEntry, Entry.isActiveOf, hne]
  have hnewcomer : (if t.hasActive r.fund r.target then []
      else [Tables.newcomer g.entry g.ended r]).filter (·.fund == fund) = [] := by
    split
    · rfl
    · simp [Tables.newcomer, hr]
  have hrecord : [r].filter (·.fund == fund) = [] := by simp [hr]
  simp only [Tables.share, carriedOut, List.filter_append, List.filter_map, inFund_movedEntry,
    hentries, hnewcomer, hrecord, List.append_nil]

theorem orderOutcome_elsewhere (ho : o.fund ≠ fund) (g : Generated) :
    (orderOutcome g t o).2.share ρ fund = t.share ρ fund := by
  unfold orderOutcome freshOutcome
  split
  · rfl
  · split
    · split
      · rfl
      · split
        · rfl
        · exact carriedOut_elsewhere ho g
    · rfl

/-- So does every request in another fund, whatever comes of it. -/
theorem transferOutcome_elsewhere {q : TransferRequest} (hq : q.fund ≠ fund) (g : Generated) :
    (transferOutcome g t q).2.share ρ fund = t.share ρ fund := by
  unfold transferOutcome
  split
  · rfl
  · split
    · rfl
    · split
      · rfl
      · exact orderOutcome_elsewhere (o := ⟨q.fund, _, _, _, _⟩) hq g

end Transfer

section Call

variable {c : Call}

theorem Call.rename_id (c : Call) : c.rename id = c := by
  cases c <;> rfl

theorem fund_of_here {q : TransferRequest} (h : (Call.transfer q).elsewhere fund = false) :
    q.fund = fund := by
  simpa [Call.elsewhere] using h

theorem fund?_of_creates (h : c.creates = true) : c.fund? = none := by
  cases c with
  | createFund name totalUnits owner => rfl
  | _ => cases h

/-- Whoever asks for the fund is not elsewhere. -/
theorem here_of_concerns (h : c.Concerns fund) : c.elsewhere fund = false := by
  cases c with
  | transfer q =>
    rcases h with h | h
    · simpa [Call.elsewhere] using Option.some.inj h
    · cases h
  | _ => rfl

theorem rename_here (h : c.elsewhere fund = false) : (c.rename ρ).elsewhere (ρ fund) = false := by
  cases c with
  | transfer q => simp [Call.rename, Call.elsewhere, fund_of_here h]
  | _ => rfl

@[simp] theorem rename_creates (c : Call) : (c.rename ρ).creates = c.creates := by
  cases c <;> rfl

theorem rename_concerns (h : c.Concerns fund) : (c.rename ρ).Concerns (ρ fund) := by
  refine h.imp (fun h => ?_) fun h => (rename_creates c).trans h
  cases c <;> exact congrArg (Option.map ρ) h

/-- A call that names the fund sees its share only: it is answered and changes the share as if the share
were all. -/
theorem outcome_share (apart : Apart ρ fund) (here : c.elsewhere fund = false)
    (hkeys : ∀ q k, c = .transfer q → q.key = some k → ∀ r ∈ t.transfers, r.key = some k →
      r.fund = fund) (g : Generated) :
    (outcome (.blank (ρ g.fund)) (t.share ρ fund) (c.rename ρ)).2.share id (ρ fund) =
      (outcome g t c).2.share ρ fund ∧
    (c.Concerns fund → (outcome (.blank (ρ g.fund)) (t.share ρ fund) (c.rename ρ)).1 =
      (outcome g t c).1.veil ρ) := by
  have hread : ∀ f reading, c.fund? = some f → c.Concerns fund →
      readOutcome (t.share ρ fund) (ρ f) reading = (readOutcome t f reading).veil ρ := by
    intro f reading hf hconcerns
    rcases hconcerns with h | h
    · obtain rfl : f = fund := Option.some.inj (hf.symm.trans h)
      exact readOutcome_share apart reading
    · rw [fund?_of_creates h] at hf
      cases hf
  cases c with
  | createFund name totalUnits owner =>
    obtain ⟨hanswer, hrows⟩ := creationOutcome_share (t := t) apart g name totalUnits owner
    simp only [outcome, Call.rename, Prod.map_fst, Prod.map_snd, id, hanswer]
    exact ⟨hrows, fun _ => rfl⟩
  | transfer q =>
    have hq := fund_of_here here
    have hout := transferOutcome_share apart hq (fun k => hkeys q k rfl) g (ρ g.fund)
    rcases hsame : transferOutcome g t q with ⟨r, rows⟩
    rw [hsame] at hout
    simp only [outcome, Call.rename, hout, hsame, Prod.map_apply, id]
    exact ⟨share_share, fun _ => rfl⟩
  | getFund f => exact ⟨share_share, hread f .fund rfl⟩
  | getCapTable f params => exact ⟨share_share, hread f (.capTable params) rfl⟩
  | listTransfers f params => exact ⟨share_share, hread f (.transfers params) rfl⟩
  | getOwnership f owner =>
    simp only [outcome, Call.rename]
    cases Name.normalize? owner with
    | none => exact ⟨share_share, fun _ => rfl⟩
    | some stored => exact ⟨share_share, hread f (.entry stored) rfl⟩
  | listFunds params | health =>
    refine ⟨share_share, ?_⟩
    rintro (h | h) <;> cases h
  | reset =>
    refine ⟨rfl, ?_⟩
    rintro (h | h) <;> cases h

theorem outcome_elsewhere (h : c.elsewhere fund = true) (g : Generated) :
    (outcome g t c).2.share ρ fund = t.share ρ fund := by
  cases c with
  | transfer q =>
    have hq : q.fund ≠ fund := by simpa [Call.elsewhere] using h
    simp only [outcome, Prod.map_snd, id]
    exact transferOutcome_elsewhere hq g
  | _ => cases h

/-- Only a creation uses the id of a new fund. -/
theorem outcome_blank (h : c.creates = false) (x y : Uuid) :
    outcome (.blank x) t c = outcome (.blank y) t c := by
  cases c with
  | createFund name totalUnits owner => cases h
  | transfer q =>
    simp only [outcome, transferOutcome, orderOutcome, freshOutcome, carriedOut, Generated.blank]
    rfl
  | _ => rfl

theorem orderOutcome_transfers {g : Generated} {o : TransferOrder} {r : Transfer}
    (hr : r ∈ (orderOutcome g t o).2.transfers) :
    r ∈ t.transfers ∨ (o.key = r.key ∧ o.fund = r.fund) := by
  unfold orderOutcome freshOutcome at hr
  split at hr
  · exact Or.inl hr
  · split at hr
    · split at hr
      · exact Or.inl hr
      · split at hr
        · exact Or.inl hr
        · rcases List.mem_append.mp hr with hr | hr
          · exact Or.inl hr
          · obtain rfl := List.mem_singleton.mp hr
            exact Or.inr ⟨rfl, rfl⟩
    · exact Or.inl hr

/-- A record is there before, or it is that of the request. -/
theorem outcome_transfers {g : Generated} {r : Transfer} (hr : r ∈ (outcome g t c).2.transfers) :
    r ∈ t.transfers ∨ ∃ q, c = .transfer q ∧ q.key = r.key ∧ q.fund = r.fund := by
  cases c with
  | transfer q =>
    simp only [outcome, transferOutcome_eq] at hr
    cases hvalid : q.validate with
    | error e =>
      rw [hvalid] at hr
      exact Or.inl hr
    | ok o =>
      rw [hvalid] at hr
      have accepted := TransferOrder.accepted hvalid
      rcases orderOutcome_transfers hr with hr | ⟨hk, hf⟩
      · exact Or.inl hr
      · exact Or.inr ⟨q, rfl, accepted.key.symm.trans hk, accepted.fund.symm.trans hf⟩
  | createFund name totalUnits owner =>
    left
    simp only [outcome, creationOutcome] at hr
    repeat' split at hr
    all_goals exact hr
  | getOwnership f owner =>
    left
    simp only [outcome] at hr
    split at hr <;> exact hr
  | reset => cases hr
  | _ => exact Or.inl hr

end Call

end UnitLedger.Ledger
