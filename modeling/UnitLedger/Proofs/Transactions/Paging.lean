import UnitLedger.Proofs.Memory.Listings
import UnitLedger.Proofs.Service.Reading
import UnitLedger.Proofs.Transactions.Constraints
import UnitLedger.Proofs.Transactions.History

/-!
  UnitLedger.Proofs.Transactions.Paging — reading a listing page by page loses and repeats nothing.

  In every state that transactions can lead to, whether some of them are still open or not:
  - funds and the active entries of a fund are listed in a strict order that their rows alone decide,
    and the transfers of a fund in the order of their commits;
  - the pages of one size, read at the multiples of this size, are together the listing;
  - a service answers any request for a page with the page of the window that it allows.
-/

namespace UnitLedger.Transactions

open Memory (Party World Tables)

/-- Each fund and each active entry of a fund is listed once, each transfer of a fund once and after
those that were committed before it. The pages of a size up to 1000 tile each of these lists. Stored in
another order, the same rows are answered the same. Whatever limit and offset a service is asked for, it
takes a limit from 1 to 1000 (100 if it is asked for none above zero) and an offset, and shows this part
of the list and its length; without the fund there is nothing to list. -/
theorem pages_tile (fresh : Nat → Uuid) (acts : List Act) (p : Party) (now : Instant) :
    let s := State.opened fresh {}
    let w := (s.run acts).world
    let t := w.tables
    (Arranged (· ∈ t.funds) Fund.Before t.fundListing ∧ ∀ fund,
      Arranged (fun e => e ∈ t.entries ∧ e.fund = fund ∧ e.isActive = true) Entry.Before
        (t.entryListing fund) ∧
      t.transferListing fund = t.transfers.filter (·.fund == fund) ∧
      ∀ before later, acts = before ++ later → Act.dropRows ∉ later →
        (s.run before).world.tables.transferListing fund <+: t.transferListing fund) ∧
    (∀ k, 1 ≤ k → k ≤ 1000 →
      Tiles k (fun window => w.answer p now (.listFunds window)) t.fundListing ∧ ∀ fund,
        Tiles k (fun window => w.answer p now (.listEntries fund window)) (t.entryListing fund) ∧
        Tiles k (fun window => w.answer p now (.listTransfers fund window)) (t.transferListing fund)) ∧
    (∀ w' : World, w'.tables.Reorders t → ∀ window,
      w'.answer p now (.listFunds window) = w.answer p now (.listFunds window) ∧ ∀ fund,
        w'.answer p now (.listEntries fund window) = w.answer p now (.listEntries fund window) ∧
        w'.answer p now (.listTransfers fund window) = w.answer p now (.listTransfers fund window)) ∧
    ∀ params, ∃ limit offset : Nat, params.window = ⟨limit, offset⟩ ∧ 1 ≤ limit ∧ limit ≤ 1000 ∧
      (limit : Int) = params.limit.elim 100 (fun n => if 0 < n then min n 1000 else 100) ∧
      (offset : Int) = max (params.offset.getD 0) 0 ∧
      w.serve p now (Service.listFunds params) = (w, .ok (.cut limit offset t.fundListing)) ∧
      (∀ fund f, t.findFund fund = some f →
        w.serve p now (Service.getCapTable fund params) =
          (w, .ok ⟨f.id, f.name, f.totalUnits, .cut limit offset (t.entryListing fund)⟩) ∧
        w.serve p now (Service.listTransfers fund params) =
          (w, .ok (.cut limit offset (t.transferListing fund)))) ∧
      ∀ fund, t.findFund fund = none →
        w.serve p now (Service.getCapTable fund params) = (w, .error (.fundNotFound fund)) ∧
        w.serve p now (Service.listTransfers fund params) = (w, .error (.fundNotFound fund)) := by
  intro s w t
  have ok : t.Consistent := consistent_run fresh acts
  refine ⟨⟨ok.fundListing_arranged, fun fund => ⟨ok.entryListing_arranged fund, rfl, ?_⟩⟩, ?_, ?_, ?_⟩
  · intro before later hacts hreset
    subst hacts
    have hgrown := State.transfers_prefix_run (s.run before) later hreset
    rw [← State.run_append] at hgrown
    exact hgrown.filter _
  · intro k hk _
    exact ⟨tiles_ofList hk _, fun fund => ⟨tiles_ofList hk _, tiles_ofList hk _⟩⟩
  · intro w' h window
    refine ⟨?_, fun fund => ⟨?_, ?_⟩⟩
    · rw [w'.answer_listFunds, w.answer_listFunds, ok.fundListing_reordered h]
    · rw [w'.answer_listEntries, w.answer_listEntries, ok.entryListing_reordered h]
    · rw [w'.answer_listTransfers, w.answer_listTransfers, h.transferListing]
  · intro params
    obtain ⟨limit, offset, hwindow, hmin, hmax, hlimit, hoffset⟩ := params.window_inRange
    refine ⟨limit, offset, hwindow, hmin, hmax, hlimit, hoffset, ?_, fun fund f hf => ⟨?_, ?_⟩,
      fun fund hnone => ⟨?_, ?_⟩⟩
    · rw [w.serve_listFunds, hwindow, Page.ofList_natCast]
    · rw [w.serve_getCapTable p now hf, hwindow, Page.ofList_natCast]
    · rw [w.serve_listTransfers p now hf, hwindow, Page.ofList_natCast]
    · exact w.serve_getCapTable_missing p now hnone params
    · exact w.serve_listTransfers_missing p now hnone params

/-! ## Two owners -/

def handedOn : List Act :=
  founding 0 hull adas ++
    [.ask 1 .openTx ⟨1⟩, .ask 1 (.debit adas.id 7) ⟨1⟩, .ask 1 (.credit hull.id "Ben" 7) ⟨1⟩,
      .ask 1 .commit ⟨2⟩]

def adasRest : Entry := { adas with units := 3, updatedAt := ⟨2⟩ }

def bensShare : Entry :=
  { id := Uuid.ofNat 103, fund := hull.id, owner := "Ben", units := 7, acquiredAt := ⟨2⟩,
    updatedAt := ⟨2⟩, state := .active }

def handedOnWorld : World := ((State.opened (fun n => Uuid.ofNat (n + 100)) {}).run handedOn).world

theorem handedOn_tables :
    handedOnWorld.tables = { funds := [hull], entries := [adasRest, bensShare] } := by decide +kernel

theorem handedOn_listing : handedOnWorld.tables.entryListing hull.id = [bensShare, adasRest] := by
  have hlater : Tables.largerFirst adasRest bensShare = false := by decide
  have hrows : [adasRest, bensShare].filter (fun e => e.fund == hull.id && e.isActive) =
      [adasRest, bensShare] := by
    decide
  unfold Tables.entryListing
  rw [handedOn_tables, hrows]
  simp [List.mergeSort, hlater]

/-- Ben's entry is stored after Ada's and listed before it: it has a page of its own, and so has hers.
Had it been stored first, the answers would be the same. A request for the page of 5000 rows that starts
before the first row is answered the page of 1000 rows that starts with it. -/
theorem handedOn_tiled :
    let w := handedOnWorld
    let w' : World := { w with tables := { w.tables with entries := [bensShare, adasRest] } }
    w.tables.entries = [adasRest, bensShare] ∧ w.tables.findFund hull.id = some hull ∧
      Tiles 1 (fun window => w.answer 3 ⟨3⟩ (.listEntries hull.id window)) [bensShare, adasRest] ∧
      w'.answer 3 ⟨3⟩ (.listEntries hull.id ⟨1, 0⟩) = w.answer 3 ⟨3⟩ (.listEntries hull.id ⟨1, 0⟩) ∧
      w.serve 3 ⟨3⟩ (Service.getCapTable hull.id ⟨some 1, some 1⟩) =
        (w, .ok ⟨hull.id, "Hull", 10, .cut 1 1 [bensShare, adasRest]⟩) ∧
      w.serve 3 ⟨3⟩ (Service.getCapTable hull.id ⟨some 5000, some (-3)⟩) =
        (w, .ok ⟨hull.id, "Hull", 10, .cut 1000 0 [bensShare, adasRest]⟩) := by
  intro w w'
  have hrows : w.tables.entries = [adasRest, bensShare] := congrArg Tables.entries handedOn_tables
  have hfund : w.tables.findFund hull.id = some hull := congrArg (·.findFund hull.id) handedOn_tables
  have hstored : w'.tables.Reorders w.tables := by
    refine ⟨List.Perm.refl _, ?_, rfl⟩
    rw [hrows]
    exact List.Perm.swap adasRest bensShare []
  obtain ⟨-, htiles, hstable, hserved⟩ :=
    pages_tile (fun n => Uuid.ofNat (n + 100)) handedOn 3 ⟨3⟩
  have hentries := ((htiles 1 (by decide) (by decide)).2 hull.id).1
  have hserves : ∀ (params : ListParams) (limit offset : Nat),
      (limit : Int) = params.limit.elim 100 (fun n => if 0 < n then min n 1000 else 100) →
      (offset : Int) = max (params.offset.getD 0) 0 →
      w.serve 3 ⟨3⟩ (Service.getCapTable hull.id params) =
        (w, .ok ⟨hull.id, "Hull", 10, .cut limit offset (w.tables.entryListing hull.id)⟩) := by
    intro params limit offset hlimit hoffset
    obtain ⟨limit', offset', -, -, -, hlimit', hoffset', -, hfound, -⟩ := hserved params
    obtain rfl : limit = limit' := Int.ofNat_inj.mp (hlimit.trans hlimit'.symm)
    obtain rfl : offset = offset' := Int.ofNat_inj.mp (hoffset.trans hoffset'.symm)
    exact (hfound hull.id hull hfund).1
  rw [← handedOn_listing]
  exact ⟨hrows, hfund, hentries, ((hstable w' hstored ⟨1, 0⟩).2 hull.id).1,
    hserves ⟨some 1, some 1⟩ 1 1 rfl rfl, hserves ⟨some 5000, some (-3)⟩ 1000 0 rfl rfl⟩

end UnitLedger.Transactions
